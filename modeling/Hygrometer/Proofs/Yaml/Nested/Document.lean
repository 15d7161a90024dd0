import Hygrometer.Proofs.Text.Basic
import Hygrometer.Proofs.Yaml.Nested.Token
import Hygrometer.Proofs.Yaml.Path

/-!
# Nested keys as a document

The document of a value under a path of keys: at every key of the path there is a mapping with that
key alone, and at the end the value as a plain scalar (`Document.SetsOnly`). What the text says is
therefore settled for every path at once. The path itself leads to the value
(`SetsOnly.exists_foldlM`), and no other path leads anywhere, unless it is a part of this one
(`SetsOnly.exists_of_foldlM`).

**From tokens to events.** The grammar turns the tokens into events one level after another. The
step that passes the colon gives the first event of what stands behind it, so what is proved by
induction on the path is said of the node there (`Parse.exists_node_nested`), whatever state the
machine goes on with. It has that state on its stack, and comes back to it after the events of the
node. The machine is run until it is done, so the steps that give the events are put together as a
relation (`Parse.Gives`) and turned into a run at the end.

**From events to the tree.** Two passes follow, and neither has anything to do here.

* Anchors are numbered, but there are none in the text, so the events stay what they are and the
  document is whole (`exists_numberAnchors_nested`). The numbering passes over events one by one, so
  it is proved with any events behind.
* Nodes are read with fuel, of which a path of keys needs two for each key
  (`exists_readNode_nested`). It is given two for each event, and three events come from a key.

The text has one document, and what starts and ends it is cut off first (`ofText_of_events`). That
lemma is about any events between these, as it is no matter of keys.
-/

namespace Hygrometer.Yaml

/-- The plain scalar of a text. -/
def Scalar.plain (text : List Char) : Scalar := ⟨.ofList text, .plain, none⟩

/-! ### Events -/

/-- The events of a value under a path of keys. -/
def nestedEvents {α : Type} (value : List Char) : List (List Char) → List (Event α)
  | [] => [.scalar none (.plain value)]
  | key :: path =>
    .mappingStart none none :: .scalar none (.plain key) ::
      (nestedEvents value path ++ [.mappingEnd])

namespace Parse

/-- The reading gives these events, one in each step, and goes on as another reading. -/
def Gives (p : Parse) (events : List (Event String)) (p' : Parse) : Prop :=
  ∃ located : List (Located String), located.map (·.event) = events ∧
    ∀ fuel, p.run (events.length + fuel) = (located ++ (p'.run fuel).1, (p'.run fuel).2)

theorem Gives.refl (p : Parse) : p.Gives [] p :=
  ⟨[], rfl, fun fuel ↦ by rw [List.length_nil, Nat.zero_add]; rfl⟩

theorem Gives.trans {p p' p'' : Parse} {events events' : List (Event String)}
    (h : p.Gives events p') (h' : p'.Gives events' p'') : p.Gives (events ++ events') p'' := by
  obtain ⟨located, hevents, hrun⟩ := h
  obtain ⟨located', hevents', hrun'⟩ := h'
  refine ⟨located ++ located', by rw [List.map_append, hevents, hevents'], fun fuel ↦ ?_⟩
  rw [List.length_append, Nat.add_assoc, hrun, hrun', List.append_assoc]

theorem gives_of_step {p p' : Parse} {event : Event String} {mark : Mark} (hstate : p.state ≠ .done)
    (hstep : p.step = .ok (⟨event, mark⟩, p')) : p.Gives [event] p' := by
  refine ⟨[⟨event, mark⟩], rfl, fun fuel ↦ ?_⟩
  rw [List.length_singleton, Nat.add_comm, run, if_neg hstate, hstep]
  rfl

variable {rest : List Token} {state next : Expecting} {stack : List Expecting}
  {handles : List (String × Tag)}

theorem node_blockMappingStart (bare : Bool) {tokens : List Token} {a b : Mark} :
    (⟨⟨.blockMappingStart, a, b⟩ :: tokens, state, stack, handles⟩ : Parse).node true bare =
      .ok (⟨.mappingStart none none, a⟩, ⟨tokens, .blockKey, stack, handles⟩) := by
  rcases bare with - | - <;> rfl

/-- A key of a block mapping that is a plain scalar. -/
theorem gives_key {text : String} {tokens : List Token} {a b c d : Mark} :
    (⟨⟨.key, a, b⟩ :: ⟨.scalar text .plain, c, d⟩ :: tokens, .blockKey, stack, handles⟩ :
      Parse).Gives [.scalar none ⟨text, .plain, none⟩] ⟨tokens, .blockValue, stack, handles⟩ :=
  gives_of_step Expecting.noConfusion rfl

/-- The end of a block mapping. -/
theorem gives_blockEnd {tokens : List Token} {a b : Mark} :
    (⟨⟨.blockEnd, a, b⟩ :: tokens, .blockKey, next :: stack, handles⟩ : Parse).Gives [.mappingEnd]
      ⟨tokens, next, stack, handles⟩ :=
  gives_of_step Expecting.noConfusion rfl

/-- A nested value starts with a scalar or a block mapping. -/
theorem exists_eq_cons_of_nested {value : List Char} {path : List (List Char)} {tokens : List Token}
    (htokens : tokens.map (·.kind) = nestedKinds value path) :
    ∃ kind start stop later, tokens = ⟨kind, start, stop⟩ :: later ∧
      (kind = .scalar (.ofList value) .plain ∨ kind = .blockMappingStart) := by
  rcases path with - | ⟨key, path⟩
  · obtain ⟨⟨kind, start, stop⟩, later, rfl, hkind, -⟩ := List.map_eq_cons_iff.1 htokens
    exact ⟨kind, start, stop, later, rfl, .inl hkind⟩
  · obtain ⟨⟨kind, start, stop⟩, later, rfl, hkind, -⟩ := List.map_eq_cons_iff.1 htokens
    exact ⟨kind, start, stop, later, rfl, .inr hkind⟩

/-- A nested value is not left out. -/
theorem nodeUnless_nested {value : List Char} {path : List (List Char)} {tokens : List Token}
    (htokens : tokens.map (·.kind) = nestedKinds value path) (mark : Token → Mark) :
    (⟨tokens ++ rest, state, stack, handles⟩ : Parse).nodeUnless [.key, .value, .blockEnd] true true
        next mark =
      (⟨tokens ++ rest, state, next :: stack, handles⟩ : Parse).node true true := by
  obtain ⟨kind, start, stop, later, rfl, rfl | rfl⟩ := exists_eq_cons_of_nested htokens <;> rfl

/-- A nested value starts a document that is not announced. -/
theorem gives_documentStart {value : List Char} {path : List (List Char)} {tokens : List Token}
    (htokens : tokens.map (·.kind) = nestedKinds value path) :
    (⟨tokens ++ rest, .firstDocument, stack, handles⟩ : Parse).Gives [.documentStart]
      ⟨tokens ++ rest, .blockNode, .documentEnd :: stack, defaultHandles⟩ := by
  obtain ⟨kind, start, stop, later, rfl, rfl | rfl⟩ := exists_eq_cons_of_nested htokens
  · exact gives_of_step Expecting.noConfusion rfl
  · exact gives_of_step Expecting.noConfusion rfl

/-- **The node of a nested value**: its first event, and the events after it. -/
theorem exists_node_nested (value : List Char) {path : List (List Char)} {tokens : List Token}
    (htokens : tokens.map (·.kind) = nestedKinds value path) (rest : List Token)
    (state next : Expecting) (stack : List Expecting) (handles : List (String × Tag))
    (bare : Bool) :
    ∃ (first : Located String) (p : Parse) (events : List (Event String)),
      (⟨tokens ++ rest, state, next :: stack, handles⟩ : Parse).node true bare = .ok (first, p) ∧
      first.event :: events = nestedEvents value path ∧
      p.Gives events ⟨rest, next, stack, handles⟩ := by
  induction path generalizing tokens rest state next stack bare with
  | nil =>
    obtain ⟨⟨_, start, stop⟩, rfl, rfl⟩ := List.map_eq_singleton_iff.1 htokens
    exact ⟨⟨.scalar none (.plain value), start⟩, ⟨rest, next, stack, handles⟩, [], rfl, rfl,
      .refl _⟩
  | cons key path ih =>
    simp only [nestedKinds, List.map_eq_cons_iff, List.map_eq_append_iff] at htokens
    obtain ⟨⟨_, opening, _⟩, _, rfl, rfl, ⟨_, before, behind⟩, _, rfl, rfl, ⟨_, word, ending⟩, _,
      rfl, rfl, ⟨_, colon, after⟩, _, rfl, rfl, inner, _, rfl, hinner, ⟨_, closing, closed⟩, _, rfl,
      rfl, hnil⟩ := htokens
    obtain rfl := List.map_eq_nil_iff.1 hnil
    simp only [List.cons_append, List.append_assoc, List.nil_append]
    obtain ⟨first, p, events, hnode, hevents, hgives⟩ :=
      ih hinner (⟨.blockEnd, closing, closed⟩ :: rest) .blockValue .blockKey (next :: stack) true
    have hvalue : (⟨⟨.value, colon, after⟩ :: (inner ++ ⟨.blockEnd, closing, closed⟩ :: rest),
        .blockValue, next :: stack, handles⟩ : Parse).Gives [first.event] p :=
      gives_of_step Expecting.noConfusion ((nodeUnless_nested hinner _).trans hnode)
    refine ⟨_, _, _, node_blockMappingStart bare, ?_,
      gives_key.trans (hvalue.trans (hgives.trans gives_blockEnd))⟩
    rw [nestedEvents, ← hevents]
    rfl

/-- The events of a nested value, up to the end of the text. -/
theorem exists_run_nested {value : List Char} {path : List (List Char)} {tokens : List Token}
    (htokens : tokens.map (·.kind) = .streamStart :: (nestedKinds value path ++ [.streamEnd])) :
    ∃ located : List (Located String),
      located.map (·.event) = .streamStart :: .documentStart ::
        (nestedEvents value path ++ [.documentEnd, .streamEnd]) ∧
      ∀ fuel, (⟨tokens, .stream, [], defaultHandles⟩ : Parse).run (located.length + (fuel + 1)) =
        (located, none) := by
  obtain ⟨⟨_, opening, started⟩, _, rfl, rfl, htokens'⟩ := List.map_eq_cons_iff.1 htokens
  obtain ⟨inner, _, rfl, hinner, hlast⟩ := List.map_eq_append_iff.1 htokens'
  obtain ⟨⟨_, closing, closed⟩, rfl, rfl⟩ := List.map_eq_singleton_iff.1 hlast
  obtain ⟨first, p, events, hnode, hevents, hgives⟩ :=
    exists_node_nested value hinner [⟨.streamEnd, closing, closed⟩] .blockNode .documentEnd []
      defaultHandles false
  have hstart : Gives ⟨⟨.streamStart, opening, started⟩ ::
      (inner ++ [⟨.streamEnd, closing, closed⟩]), .stream, [], defaultHandles⟩ [.streamStart] _ :=
    gives_of_step Expecting.noConfusion rfl
  have hfirst : (⟨inner ++ [⟨.streamEnd, closing, closed⟩], .blockNode, [.documentEnd],
      defaultHandles⟩ : Parse).Gives [first.event] p := gives_of_step Expecting.noConfusion hnode
  have hend : (⟨[⟨.streamEnd, closing, closed⟩], .documentEnd, [], defaultHandles⟩ : Parse).Gives
      [.documentEnd] ⟨[⟨.streamEnd, closing, closed⟩], .document, [], defaultHandles⟩ :=
    gives_of_step Expecting.noConfusion rfl
  have hlast : (⟨[⟨.streamEnd, closing, closed⟩], .document, [], defaultHandles⟩ : Parse).Gives
      [.streamEnd] ⟨[], .done, [], defaultHandles⟩ := gives_of_step Expecting.noConfusion rfl
  obtain ⟨located, hlocated, hrun⟩ := hstart.trans ((gives_documentStart hinner).trans
    (hfirst.trans (hgives.trans (hend.trans hlast))))
  refine ⟨located, ?_, fun fuel ↦ ?_⟩
  · rw [hlocated, ← hevents]
    rfl
  · rw [← List.length_map, hlocated, hrun, run, if_pos rfl, List.append_nil]

end Parse

theorem length_nestedKinds (value : List Char) (path : List (List Char)) :
    (nestedKinds value path).length = 5 * path.length + 1 := by
  induction path with
  | nil => rfl
  | cons key path ih =>
    simp only [nestedKinds, List.length_cons, List.length_append, ih, List.length_nil]
    omega

theorem length_nestedEvents {α : Type} (value : List Char) (path : List (List Char)) :
    (nestedEvents value path : List (Event α)).length = 3 * path.length + 1 := by
  induction path with
  | nil => rfl
  | cons key path ih =>
    simp only [nestedEvents, List.length_cons, List.length_append, ih, List.length_nil]
    omega

/-- **The events of a nested value** under a path of keys. -/
theorem Event.exists_ofText_blockText {value key : List Char} {path : List (List Char)}
    (hvalue : IsWord value) (hkey : IsKey key) (hpath : ∀ key ∈ path, IsKey key) :
    ∃ located : List (Located String),
      located.map (·.event) = .streamStart :: .documentStart ::
        (nestedEvents value (key :: path) ++ [.documentEnd, .streamEnd]) ∧
      Event.ofText (blockText value (key :: path)) = (located, none) := by
  obtain ⟨tokens, htokens, htext⟩ := Token.exists_ofText_blockText hvalue hkey hpath
  obtain ⟨located, hlocated, hrun⟩ := Parse.exists_run_nested htokens
  have henough : located.length + 1 ≤ 4 * tokens.length + 8 := by
    have hevents := congrArg List.length hlocated
    have hkinds := congrArg List.length htokens
    simp only [List.length_map, List.length_cons, List.length_append, length_nestedEvents,
      length_nestedKinds] at hevents hkinds
    omega
  obtain ⟨fuel, hfuel⟩ := Nat.exists_eq_add_of_le henough
  refine ⟨located, hlocated, ?_⟩
  rw [Event.ofText, htext]
  dsimp only
  rw [hfuel, Nat.add_assoc, Nat.add_comm 1, hrun]

/-! ### The tree -/

/-- The events of a nested value are those of nodes. -/
theorem ne_of_mem_nestedEvents {value : List Char} {path : List (List Char)} {event : Event String}
    (h : event ∈ nestedEvents value path) : event ≠ .streamStart ∧ event ≠ .documentStart ∧
      event ≠ .documentEnd ∧ event ≠ .streamEnd := by
  induction path with
  | nil =>
    obtain rfl := List.mem_singleton.1 h
    simp
  | cons key path ih =>
    simp only [nestedEvents, List.mem_cons, List.mem_append, List.not_mem_nil, or_false] at h
    obtain rfl | rfl | h | rfl := h
    · simp
    · simp
    · exact ih h
    · simp

/-- Without anchors, there is nothing to number. -/
theorem exists_numberAnchors_nested {value : List Char} {path : List (List Char)}
    {located : List (Located String)} (h : located.map (·.event) = nestedEvents value path)
    (names : AnchorNames) (rest : List (Located String)) :
    ∃ numbered : List (Located Nat), numbered.map (·.event) = nestedEvents value path ∧
      numberAnchors names (located ++ rest) =
        (numbered ++ (numberAnchors names rest).1, (numberAnchors names rest).2) := by
  induction path generalizing located rest with
  | nil =>
    obtain ⟨⟨_, mark⟩, rfl, rfl⟩ := List.map_eq_singleton_iff.1 h
    exact ⟨[⟨.scalar none (.plain value), mark⟩], rfl, rfl⟩
  | cons key path ih =>
    simp only [nestedEvents, List.map_eq_cons_iff, List.map_eq_append_iff] at h
    obtain ⟨⟨_, opening⟩, _, rfl, rfl, ⟨_, word⟩, _, rfl, rfl, inner, _, rfl, hinner, ⟨_, closing⟩,
      _, rfl, rfl, hnil⟩ := h
    obtain rfl := List.map_eq_nil_iff.1 hnil
    obtain ⟨numbered, hnumbered, hrest⟩ := ih hinner (⟨.mappingEnd, closing⟩ :: rest)
    refine ⟨⟨.mappingStart none none, opening⟩ :: ⟨.scalar none (.plain key), word⟩ ::
      (numbered ++ [⟨.mappingEnd, closing⟩]), by simp [nestedEvents, hnumbered], ?_⟩
    simp only [List.cons_append, List.append_assoc, List.nil_append, numberAnchors, hrest,
      AnchorNames.set]

namespace Document

/-- The document says one thing alone: at every key of the path there is a mapping of that key, and
at the end this scalar. -/
def SetsOnly (d : Document) (s : Scalar) : List String → Node → Prop
  | [], node => d.scalar? node = some s
  | key :: path, node => ∃ entryKey value, d.entries? node = some [(entryKey, value)] ∧
      d.keyName? entryKey = some key ∧ d.SetsOnly s path value

section

variable {d : Document} {s : Scalar} {path : List String} {node : Node}

/-- The path leads to the scalar. -/
theorem SetsOnly.exists_foldlM (h : d.SetsOnly s path node) :
    ∃ value, path.foldlM d.valueAt? node = some value ∧ d.scalar? value = some s := by
  induction path generalizing node with
  | nil => exact ⟨node, rfl, h⟩
  | cons key path ih =>
    obtain ⟨entryKey, value, hentries, hkey, hvalue⟩ := h
    obtain ⟨leaf, hleaf, hscalar⟩ := ih hvalue
    refine ⟨leaf, ?_, hscalar⟩
    rw [List.foldlM_cons, d.valueAt?_of_entries? hentries, d.valueOf?_cons_of_eq hkey]
    exact hleaf

/-- A path that leads anywhere is a part of that path. -/
theorem SetsOnly.exists_of_foldlM (h : d.SetsOnly s path node) {part : List String} {value : Node}
    (hpart : part.foldlM d.valueAt? node = some value) :
    ∃ rest, path = part ++ rest ∧ d.SetsOnly s rest value := by
  induction part generalizing path node with
  | nil =>
    obtain rfl := Option.some.inj hpart
    exact ⟨path, rfl, h⟩
  | cons name part ih =>
    rw [List.foldlM_cons] at hpart
    obtain ⟨inner, hinner, hpart⟩ := Option.bind_eq_some_iff.1 hpart
    rcases path with - | ⟨key, path⟩
    · rw [valueAt?, entries?_of_scalar? h] at hinner
      cases hinner
    · obtain ⟨entryKey, behind, hentries, hkey, hvalue⟩ := h
      rw [d.valueAt?_of_entries? hentries] at hinner
      by_cases hname : name = key
      · obtain rfl := hname
        obtain rfl : behind = inner := by
          rw [d.valueOf?_cons_of_eq hkey] at hinner
          exact Option.some.inj hinner
        obtain ⟨rest, rfl, hrest⟩ := ih hvalue hpart
        exact ⟨rest, rfl, hrest⟩
      · have hne : d.keyName? entryKey ≠ some name := by
          rw [hkey]
          exact fun heq ↦ hname (Option.some.inj heq).symm
        rw [d.valueOf?_cons_of_ne hne] at hinner
        cases hinner

end

/-- The tree of a nested value. -/
theorem exists_readNode_nested {value : List Char} {path : List (List Char)}
    {numbered : List (Located Nat)} (h : numbered.map (·.event) = nestedEvents value path)
    (rest : List (Located Nat)) {fuel : ℕ} (hfuel : 2 * path.length < fuel) :
    ∃ node, readNode fuel (numbered ++ rest) = (node, rest) ∧
      ∀ d : Document, d.SetsOnly (.plain value) (path.map String.ofList) node := by
  induction path generalizing numbered rest fuel with
  | nil =>
    obtain ⟨⟨_, mark⟩, rfl, rfl⟩ := List.map_eq_singleton_iff.1 h
    obtain ⟨fuel, rfl⟩ := Nat.exists_eq_add_of_lt hfuel
    exact ⟨.scalar mark (.plain value), by rw [List.cons_append, readNode]; rfl, fun d ↦ rfl⟩
  | cons key path ih =>
    simp only [nestedEvents, List.map_eq_cons_iff, List.map_eq_append_iff] at h
    obtain ⟨⟨_, opening⟩, _, rfl, rfl, ⟨_, word⟩, _, rfl, rfl, inner, _, rfl, hinner, ⟨_, closing⟩,
      _, rfl, rfl, hnil⟩ := h
    obtain rfl := List.map_eq_nil_iff.1 hnil
    rw [List.length_cons] at hfuel
    obtain ⟨fuel, rfl⟩ : ∃ n, fuel = n + 3 := ⟨fuel - 3, by omega⟩
    -- A key takes two of the fuel, one for its entry and one for the node behind it.
    have hless : 2 * path.length < fuel + 1 := by omega
    obtain ⟨node, hread, hsets⟩ := ih hinner (⟨.mappingEnd, closing⟩ :: rest) hless
    have hentries : readEntries (fuel + 2)
        (⟨.scalar none (.plain key), word⟩ :: (inner ++ ⟨.mappingEnd, closing⟩ :: rest)) =
          ([(.scalar word (.plain key), node)], rest) := by
      have hkey (events : List (Located Nat)) : readNode (fuel + 1)
          (⟨.scalar none (.plain key), word⟩ :: events) = (.scalar word (.plain key), events) := by
        rw [readNode]
      have hend : readEntries (fuel + 1) (⟨.mappingEnd, closing⟩ :: rest) = ([], rest) := by
        rw [readEntries]
      rw [readEntries, hkey]
      · simp only [hread, hend]
      · exact fun _ _ heq ↦ nomatch heq
      · exact fun heq ↦ nomatch heq
    refine ⟨.mapping opening none [(.scalar word (.plain key), node)], ?_,
      fun d ↦ ⟨_, node, rfl, rfl, hsets d⟩⟩
    simp only [List.cons_append, List.append_assoc, List.nil_append]
    rw [readNode, hentries]

theorem setsOnly_ofEvents_nested {value : List Char} {path : List (List Char)}
    {numbered : List (Located Nat)} (h : numbered.map (·.event) = nestedEvents value path)
    (d : Document) :
    d.SetsOnly (.plain value) (path.map String.ofList) (.ofEvents numbered) := by
  have hfuel : 2 * path.length < 2 * numbered.length + 1 := by
    have hlength := congrArg List.length h
    rw [List.length_map, length_nestedEvents] at hlength
    omega
  obtain ⟨node, hread, hsets⟩ := exists_readNode_nested h [] hfuel
  rw [List.append_nil] at hread
  rw [Node.ofEvents, hread]
  exact hsets d

/-- The document of a text with one document in it. -/
theorem ofText_of_events {s : String} {fault : Option Fault} {body : List (Located String)}
    {a b c e : Mark}
    (hevents : Event.ofText s.toList = (⟨.streamStart, a⟩ :: ⟨.documentStart, b⟩ ::
      (body ++ [⟨.documentEnd, c⟩, ⟨.streamEnd, e⟩]), fault))
    (hbody : ∀ located ∈ body, located.event ≠ .streamStart ∧ located.event ≠ .documentStart ∧
      located.event ≠ .documentEnd ∧ located.event ≠ .streamEnd) :
    ofText s = { root := .ofEvents (numberAnchors [] body).1
                 anchored := anchoredNodes (numberAnchors [] body).1
                 whole := (numberAnchors [] body).2.isNone } := by
  have hinside : body.filter (fun located : Located String ↦
      decide (located.event ≠ .streamStart) && decide (located.event ≠ .documentStart)) = body := by
    refine List.filter_eq_self.2 fun located hlocated ↦ ?_
    obtain ⟨hstream, hdocument, -, -⟩ := hbody located hlocated
    simp [hstream, hdocument]
  have hfilter : (⟨.streamStart, a⟩ :: ⟨.documentStart, b⟩ ::
      (body ++ [⟨.documentEnd, c⟩, ⟨.streamEnd, e⟩]) : List (Located String)).filter (fun located ↦
        decide (located.event ≠ .streamStart) && decide (located.event ≠ .documentStart)) =
      body ++ [⟨.documentEnd, c⟩, ⟨.streamEnd, e⟩] := by
    rw [List.filter_cons_of_neg (by simp), List.filter_cons_of_neg (by simp), List.filter_append,
      hinside]
    rfl
  have htake : (body ++ [⟨.documentEnd, c⟩, ⟨.streamEnd, e⟩] : List (Located String)).takeWhile
      (fun located : Located String ↦
        decide (located.event ≠ .documentEnd) && decide (located.event ≠ .streamEnd)) = body := by
    refine Text.takeWhile_run (fun located hlocated ↦ ?_) (by simp)
    obtain ⟨-, -, hdocument, hstream⟩ := hbody located hlocated
    simp [hstream, hdocument]
  rw [ofText, hevents]
  dsimp only
  rw [hfilter, htake, List.drop_left]
  simp

/-- **The document of a nested value** under a path of keys. -/
theorem setsOnly_ofText_blockText {value key : List Char} {path : List (List Char)}
    (hvalue : IsWord value) (hkey : IsKey key) (hpath : ∀ key ∈ path, IsKey key) :
    (ofText (.ofList (blockText value (key :: path)))).whole = true ∧
      (ofText (.ofList (blockText value (key :: path)))).SetsOnly (.plain value)
        ((key :: path).map String.ofList)
        (ofText (.ofList (blockText value (key :: path)))).root := by
  obtain ⟨located, hlocated, htext⟩ := Event.exists_ofText_blockText hvalue hkey hpath
  simp only [List.map_eq_cons_iff, List.map_eq_append_iff, List.map_eq_nil_iff] at hlocated
  obtain ⟨⟨_, a⟩, _, rfl, rfl, ⟨_, b⟩, _, rfl, rfl, body, _, rfl, hbody, ⟨_, c⟩, _, rfl, rfl,
    ⟨_, e⟩, _, rfl, rfl, rfl⟩ := hlocated
  rw [← String.toList_ofList (l := blockText value (key :: path))] at htext
  rw [ofText_of_events htext fun located hlocated ↦
    ne_of_mem_nestedEvents (hbody ▸ List.mem_map_of_mem hlocated)]
  obtain ⟨numbered, hnumbered, hnumber⟩ := exists_numberAnchors_nested hbody [] []
  rw [List.append_nil] at hnumber
  rw [hnumber, numberAnchors, List.append_nil]
  exact ⟨rfl, setsOnly_ofEvents_nested hnumbered _⟩

end Document
end Hygrometer.Yaml
