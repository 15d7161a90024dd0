import Hygrometer.Proofs.Except
import Hygrometer.Text.Basic
import Hygrometer.Yaml.Node

/-!
# Blank texts as YAML

A text of blank characters may hold no YAML, or no document, or a document that is one scalar: the
blanks of Unicode are more than those that YAML passes, and a no-break space starts a plain scalar.
What such a text never holds is a mapping (`follow_root_ne_mapping`), so whoever takes a blank text
for a configuration without settings contradicts no reader of its mapping.

The reason is carried from the characters to the tree, by one invariant for each stage.

* **Tokens.** Blanks are no indicators, so the scanner finds nothing but scalars between the start
  and the end of the text (`Scan.IsBare`). The invariant is about the tokens that wait to be handed
  over and about the text that is left: it is a suffix of a blank text, so that every step meets a
  blank or the end. There is one lemma for each step of the scanner, and they are put together where
  the steps are (`IsBare.round`, `IsBare.finish`).
* **Events.** Without the tokens of a collection or an alias the grammar gives no event of one
  (`Parse.IsBare`). A bare parser is in one of six states, of which none is inside of a collection,
  and every step leads to one of them again.
* **The tree.** Events without collections and aliases make one scalar or nothing
  (`Node.ofEvents_of_isBare`).

The stages fail in many ways, and no failure matters: each lemma takes as given that its step went
well, and a step that did not leaves a document that is torn, which has no mapping either. So
nothing is said about which blank texts are documents, and nothing depends on it.
-/

namespace Hygrometer.Yaml

/-! ### Tokens -/

/-- The token is a scalar, or the start or the end of the text. -/
def TokenKind.isBare : TokenKind → Bool
  | .streamStart | .streamEnd | .scalar _ _ => true
  | _ => false

namespace Scan

/-- A scan of a text that has no indicators. -/
structure IsBare (s : Scan) : Prop where
  /-- The text left is blank. -/
  isBlank : ∀ c ∈ s.cursor.rest, Text.isBlank c = true
  /-- No token of a collection or an alias waits. -/
  isBare : ∀ token ∈ s.queue, token.kind.isBare = true
  /-- No block collection is open. -/
  columns : s.columns = []

/-- The scanner starts bare before a blank text. -/
theorem isBare_start {text : List Char} (h : ∀ c ∈ text, Text.isBlank c = true) (spoiled : Bool) :
    (start text spoiled).IsBare :=
  ⟨h, by simp [start, TokenKind.isBare], rfl⟩

/-- Neither candidates nor the place in the text matter, as long as the text left is a part. -/
theorem IsBare.of_suffix {s s' : Scan} (h : s.IsBare) (hrest : s'.cursor.rest <:+ s.cursor.rest)
    (hqueue : s'.queue = s.queue) (hcolumns : s'.columns = s.columns) : s'.IsBare where
  isBlank c hc := h.isBlank c (hrest.subset hc)
  isBare := hqueue ▸ h.isBare
  columns := hcolumns.trans h.columns

/-- A bare token may be added. -/
theorem IsBare.add {s : Scan} (h : s.IsBare) {kind : TokenKind} (hkind : kind.isBare = true)
    (start stop : Mark) : (s.add kind start stop).IsBare where
  isBlank := h.isBlank
  isBare token htoken := by
    rcases List.mem_append.1 htoken with htoken | htoken
    · exact h.isBare token htoken
    · rw [List.mem_singleton.1 htoken, hkind]
  columns := h.columns

/-- Dropping candidates that are out of date touches no token. -/
theorem IsBare.dropStale {s s' : Scan} (h : s.IsBare) (hs' : s.dropStale = .ok s') :
    s'.IsBare := by
  rw [Scan.dropStale] at hs'
  split at hs'
  · cases hs'
  · cases hs'
    exact h.of_suffix List.suffix_rfl rfl rfl

/-- Neither does dropping the last candidate. -/
theorem IsBare.dropCandidate {s s' : Scan} (h : s.IsBare) (hs' : s.dropCandidate = .ok s') :
    s'.IsBare := by
  rw [Scan.dropCandidate] at hs'
  split at hs'
  · cases hs'
  · cases hs'
    exact h.of_suffix List.suffix_rfl rfl rfl
  · cases hs'
    exact h

/-- Neither does a new one. -/
theorem IsBare.addCandidate {s s' : Scan} (h : s.IsBare) (hs' : s.addCandidate = .ok s') :
    s'.IsBare := by
  rw [Scan.addCandidate] at hs'
  split at hs'
  · rcases hdrop : s.dropCandidate with fault | dropped
    · rw [hdrop] at hs'
      cases hs'
    · rw [hdrop] at hs'
      cases hs'
      exact (h.dropCandidate hdrop).of_suffix List.suffix_rfl rfl rfl
  · cases hs'
    exact h

/-- Where no block collection is open, none is closed. -/
theorem IsBare.unroll {s : Scan} (h : s.IsBare) (column : Int) : (s.unroll column).IsBare := by
  rw [Scan.unroll]
  split
  · exact h
  · rw [h.columns, closeDownTo]
    exact h.of_suffix List.suffix_rfl rfl h.columns.symm

/-- Passing what stands before a token passes a front part of the text. -/
theorem toNextToken_suffix (flow comment keyAllowed : Bool) (m : Mark) (cs : List Char) :
    (toNextToken flow comment keyAllowed m cs).2.rest <:+ cs := by
  fun_induction toNextToken flow comment keyAllowed m cs with
  | case1 => exact List.suffix_rfl
  | case2 _ _ _ _ ih => exact (ih.trans (List.suffix_cons _ _)).trans (List.suffix_cons _ _)
  | case3 _ _ _ _ _ _ _ ih => exact ih.trans (List.suffix_cons _ _)
  | case4 _ _ _ _ _ _ _ _ ih => exact ih.trans (List.suffix_cons _ _)
  | case5 _ _ _ _ _ _ _ _ _ ih => exact ih.trans (List.suffix_cons _ _)
  | case6 => exact List.suffix_rfl

end Scan

/-- Reading a plain scalar passes a front part of the text. -/
theorem PlainScalar.read_suffix {flow : Bool} {indent : Nat} {gap : Gap} {stop m : Mark}
    {cs : List Char} {plain : PlainScalar} (h : read flow indent gap stop m cs = .ok plain) :
    plain.next.rest <:+ cs := by
  fun_induction read flow indent gap stop m cs generalizing plain with
  | case1 => cases h; exact List.suffix_rfl
  | case2 _ _ _ _ ih => exact ((ih h).trans (List.suffix_cons _ _)).trans (List.suffix_cons _ _)
  | case3 => cases h
  | case4 _ _ _ _ _ _ _ _ ih => exact (ih h).trans (List.suffix_cons _ _)
  | case5 _ _ _ _ _ _ _ _ ih => exact (ih h).trans (List.suffix_cons _ _)
  | case6 => exact Except.ok.inj h ▸ List.suffix_rfl
  | case7 => cases h
  | case8 => exact Except.ok.inj h ▸ List.suffix_rfl
  | case9 _ _ _ _ _ _ _ _ _ _ _ ih =>
    obtain ⟨rest, hrest, rfl⟩ := Except.map_eq_ok_iff.1 h
    exact (ih hrest).trans (List.suffix_cons _ _)

namespace Scan

/-- On the way to the next token only blanks are passed. -/
theorem IsBare.approach {s s' : Scan} (h : s.IsBare) (hs' : s.approach = .ok s') : s'.IsBare := by
  rw [Scan.approach] at hs'
  obtain ⟨dropped, hdropped, hs'⟩ := Except.bind_eq_ok_iff.1 hs'
  cases hs'
  refine (IsBare.dropStale ?_ hdropped).unroll _
  exact h.of_suffix (toNextToken_suffix _ _ _ _ _) rfl rfl

/-- The end of the text is a bare token. -/
theorem IsBare.addStreamEnd {s s' : Scan} (h : s.IsBare) (hs' : s.addStreamEnd = .ok s') :
    s'.IsBare := by
  rw [Scan.addStreamEnd] at hs'
  obtain ⟨dropped, hdropped, hs'⟩ := Except.bind_eq_ok_iff.1 hs'
  cases hs'
  have hpassed : IsBare { s with
      cursor := ⟨if s.mark.column = 0 then s.mark else s.mark.nextLine 0, []⟩ } :=
    h.of_suffix List.nil_suffix rfl rfl
  have hkind : TokenKind.streamEnd.isBare = true := rfl
  exact (((hpassed.unroll (-1)).dropCandidate hdropped).add hkind _ _).of_suffix
    List.suffix_rfl rfl rfl

/-- So is a plain scalar, and a suffix is left behind it. -/
theorem IsBare.addPlain {s s' : Scan} (h : s.IsBare) (hs' : s.addPlain = .ok s') :
    s'.IsBare := by
  rw [Scan.addPlain] at hs'
  obtain ⟨added, hadded, hs'⟩ := Except.bind_eq_ok_iff.1 hs'
  obtain ⟨plain, hplain, hs'⟩ := Except.bind_eq_ok_iff.1 hs'
  cases hs'
  have hkind : (TokenKind.scalar (.ofList plain.text) .plain).isBare = true := rfl
  exact ((h.addCandidate hadded).add hkind _ _).of_suffix (PlainScalar.read_suffix hplain) rfl rfl

/-- A document mark starts with its own character. -/
theorem startsTriple_of_ne {a c : Char} (h : a ≠ c) (cs : List Char) :
    startsTriple c (a :: cs) = false := by
  rcases cs with - | ⟨b, - | ⟨d, cs⟩⟩ <;> simp [startsTriple, h]

/-- A blank is no indicator, so only a plain scalar may start with one. -/
theorem addToken_of_isBlank {s : Scan} {c : Char} {cs : List Char} (hrest : s.cursor.rest = c :: cs)
    (hc : Text.isBlank c = true) :
    s.addToken =
      if startsPlain s.inFlow (c :: cs) then s.addPlain else .error .unknownToken := by
  have hne (d : Char) (hd : Text.isBlank d = false) : c ≠ d := by
    rintro rfl
    rw [hd] at hc
    cases hc
  rw [addToken, hrest]
  simp only [startsTriple_of_ne (hne '-' rfl), startsTriple_of_ne (hne '.' rfl), hne '%' rfl,
    hne '[' rfl, hne '\x7b' rfl, hne ']' rfl, hne '\x7d' rfl, hne ',' rfl, hne '-' rfl, hne '?' rfl,
    hne ':' rfl, hne '*' rfl, hne '&' rfl, hne '!' rfl, hne '|' rfl, hne '>' rfl, hne '\'' rfl,
    hne '"' rfl, Bool.false_eq_true, and_false, false_and, if_false]

/-- **Whatever token comes next is bare.** -/
theorem IsBare.addToken {s s' : Scan} (h : s.IsBare) (hs' : s.addToken = .ok s') : s'.IsBare := by
  rcases hrest : s.cursor.rest with - | ⟨c, cs⟩
  · rw [Scan.addToken, hrest] at hs'
    exact h.addStreamEnd hs'
  · rw [addToken_of_isBlank hrest (h.isBlank c (hrest ▸ List.mem_cons_self))] at hs'
    split at hs'
    · exact h.addPlain hs'
    · cases hs'

/-- So are those that are looked for until one can be handed over. -/
theorem IsBare.find {s s' : Scan} (h : s.IsBare) (hs' : s.find = .ok s') : s'.IsBare := by
  rw [Scan.find] at hs'
  obtain ⟨approached, happroached, hs'⟩ := Except.bind_eq_ok_iff.1 hs'
  obtain ⟨-, -, hs'⟩ := Except.bind_eq_ok_iff.1 hs'
  obtain ⟨added, hadded, hs'⟩ := Except.bind_eq_ok_iff.1 hs'
  obtain ⟨-, -, hs'⟩ := Except.bind_eq_ok_iff.1 hs'
  cases hs'
  exact (h.approach happroached).addToken hadded

/-- Handing over gives a token of the queue. -/
theorem IsBare.handOver {s s' : Scan} {token? : Option Token} (h : s.IsBare)
    (hs' : s.handOver = .ok (token?, s')) :
    s'.IsBare ∧ ∀ token ∈ token?, token.kind.isBare = true := by
  rw [Scan.handOver] at hs'
  split at hs'
  · cases hs'
    exact ⟨h, by simp⟩
  · next token queue hqueue =>
    obtain ⟨dropped, hdropped, hs'⟩ := Except.bind_eq_ok_iff.1 hs'
    have hbare := h.dropStale hdropped
    split at hs'
    · cases hs'
      exact ⟨hbare, by simp⟩
    · cases hs'
      have hmem : ∀ token' ∈ token :: queue, token'.kind.isBare = true := hqueue ▸ h.isBare
      obtain ⟨htoken, hqueue⟩ := List.forall_mem_cons.1 hmem
      exact ⟨⟨hbare.isBlank, hqueue, hbare.columns⟩, by simpa using htoken⟩

/-- **What a round does**: the scan stays bare, and a token that is handed over is bare. -/
theorem IsBare.round {s s' : Scan} {token? : Option Token} (h : s.IsBare)
    (hs' : s.round = .ok (token?, s')) :
    s'.IsBare ∧ ∀ token ∈ token?, token.kind.isBare = true := by
  rw [Scan.round] at hs'
  obtain ⟨⟨given?, handed⟩, hhanded, hs'⟩ := Except.bind_eq_ok_iff.1 hs'
  obtain ⟨hbare, hgiven⟩ := h.handOver hhanded
  rcases given? with - | token
  · obtain ⟨found, hfound, hs'⟩ := Except.bind_eq_ok_iff.1 hs'
    cases hs'
    exact ⟨hbare.find hfound, by simp⟩
  · cases hs'
    exact ⟨hbare, hgiven⟩

/-- All tokens of the scan are bare, however long it goes on. -/
theorem IsBare.finish {s : Scan} (h : s.IsBare) (fuel : Nat) :
    ∀ token ∈ (s.finish fuel).1, token.kind.isBare = true := by
  induction fuel generalizing s with
  | zero => simp [Scan.finish]
  | succ fuel ih =>
    rw [Scan.finish]
    rcases hround : s.round with fault | ⟨token?, next⟩
    · simp
    · obtain ⟨hnext, htoken⟩ := h.round hround
      rcases token? with - | token
      · exact ih hnext
      · dsimp only
        split
        · simpa using htoken
        · exact List.forall_mem_cons.2 ⟨htoken token rfl, ih hnext⟩

end Scan

/-- **The tokens of a blank text** are scalars between its start and its end. -/
theorem Token.isBare_ofText {text : List Char} (h : ∀ c ∈ text, Text.isBlank c = true) :
    ∀ token ∈ (Token.ofText text).1, token.kind.isBare = true := by
  have hfront : ∀ c ∈ readable text, Text.isBlank c = true := fun c hc ↦
    h c ((readable_isPrefix text).subset hc)
  exact (Scan.isBare_start hfront _).finish _

/-! ### Events -/

/-- The bare kinds are the two ends of the stream and the scalars. -/
theorem TokenKind.isBare_iff {kind : TokenKind} :
    kind.isBare = true ↔
      kind = .streamStart ∨ kind = .streamEnd ∨ ∃ text style, kind = .scalar text style := by
  cases kind <;> simp [isBare]

/-- The event is a scalar, or the start or the end of the text or of a document. -/
def Event.isBare {α : Type} : Event α → Bool
  | .streamStart | .streamEnd | .documentStart | .documentEnd | .scalar _ _ => true
  | _ => false

namespace Parse

/-- A reading of bare tokens, outside of all collections. -/
structure IsBare (p : Parse) : Prop where
  /-- The tokens left are bare. -/
  tokens : ∀ token ∈ p.tokens, token.kind.isBare = true
  /-- No collection is open. -/
  state : p.state ∈ [.stream, .firstDocument, .document, .documentEnd, .blockNode, .done]
  /-- Behind a node the document ends. -/
  stack : ∀ state ∈ p.stack, state = .documentEnd

/-- The next token is one of those that are left. -/
theorem mem_of_peek {p : Parse} {token : Token} (h : p.peek = .ok token) : token ∈ p.tokens := by
  rw [peek] at h
  split at h
  · next heq =>
    cases h
    exact heq ▸ List.mem_cons_self
  · cases h

/-- Passing a token leaves a bare parser. -/
theorem IsBare.skip {p : Parse} (h : p.IsBare) : p.skip.IsBare where
  tokens token htoken := h.tokens token ((List.drop_suffix 1 p.tokens).subset htoken)
  state := h.state
  stack := h.stack

/-- So does a change to one of the six states. -/
theorem IsBare.goto {p : Parse} (h : p.IsBare) {state : Expecting}
    (hstate : state ∈ [Expecting.stream, .firstDocument, .document, .documentEnd, .blockNode,
      .done]) : (p.goto state).IsBare :=
  ⟨h.tokens, hstate, h.stack⟩

/-- So does remembering the end of the document. -/
theorem IsBare.push {p : Parse} (h : p.IsBare) : (p.push .documentEnd).IsBare :=
  ⟨h.tokens, h.state, List.forall_mem_cons.2 ⟨rfl, h.stack⟩⟩

/-- So does going back to it. -/
theorem IsBare.pop {p : Parse} (h : p.IsBare) : p.pop.IsBare := by
  rw [Parse.pop]
  split
  · next heq =>
    obtain ⟨hstate, hstack⟩ := List.forall_mem_cons.1 (heq ▸ h.stack)
    exact ⟨h.tokens, by simp [hstate], hstack⟩
  · exact h.goto (by simp)

/-- The document behind a step that gave a bare event. -/
def GivesBare (step : Step) : Prop :=
  ∀ located next, step = .ok (located, next) → next.IsBare ∧ located.event.isBare = true

/-- A failure gives no event. -/
theorem givesBare_error (fault : Fault) : GivesBare (.error fault) := by
  intro located next h
  cases h

/-- A bare event is given. -/
theorem givesBare_emit {p : Parse} (h : p.IsBare) {event : Event String}
    (hevent : event.isBare = true) (mark : Mark) : GivesBare (p.emit event mark) := by
  intro located next heq
  cases heq
  exact ⟨h, hevent⟩

/-- A step that looks at the next token first. -/
theorem givesBare_peek {p : Parse} {step : Token → Step}
    (h : ∀ token, p.peek = .ok token → GivesBare (step token)) : GivesBare (p.peek >>= step) := by
  intro located next heq
  obtain ⟨token, htoken, heq⟩ := Except.bind_eq_ok_iff.1 heq
  exact h token htoken located next heq

/-- The start of the stream is a bare event. -/
theorem IsBare.startStream {p : Parse} (h : p.IsBare) : GivesBare p.startStream :=
  givesBare_peek fun _ _ ↦ givesBare_emit (h.skip.goto (by simp)) rfl _

/-- So is the end of a document. -/
theorem IsBare.endDocument {p : Parse} (h : p.IsBare) : GivesBare p.endDocument := by
  refine givesBare_peek fun token _ ↦ ?_
  dsimp only
  split
  · exact givesBare_emit (h.skip.goto (by simp)) rfl _
  · exact givesBare_emit (h.goto (by simp)) rfl _

/-- Bare tokens are no directives. -/
theorem takeDirectives_of_isBare {tokens : List Token}
    (h : ∀ token ∈ tokens, token.kind.isBare = true) (versioned : Bool)
    (found : List (String × Tag)) :
    takeDirectives versioned found tokens = .ok (found, tokens) := by
  rcases tokens with - | ⟨⟨kind, start, stop⟩, tokens⟩
  · rfl
  · obtain rfl | rfl | ⟨text, style, rfl⟩ := TokenKind.isBare_iff.1 (h _ List.mem_cons_self) <;> rfl

/-- So is its start, or the end of the stream. -/
theorem IsBare.startDocument {p : Parse} (h : p.IsBare) (first : Bool) :
    GivesBare (p.startDocument first) := by
  have hpassed : (if first then p else
      { p with tokens := p.tokens.dropWhile (·.kind == .documentEnd) }).IsBare := by
    split
    · exact h
    · exact ⟨fun token htoken ↦ h.tokens token ((List.dropWhile_suffix _).subset htoken), h.state,
        h.stack⟩
  rw [Parse.startDocument]
  generalize (if first then p else
    { p with tokens := p.tokens.dropWhile (·.kind == .documentEnd) }) = q at hpassed ⊢
  refine givesBare_peek fun token htoken ↦ ?_
  split
  · exact givesBare_emit (hpassed.skip.goto (by simp)) rfl _
  · split
    · have hpushed : ({ q with handles := defaultHandles }.push .documentEnd).IsBare :=
        IsBare.push ⟨hpassed.tokens, hpassed.state, hpassed.stack⟩
      exact givesBare_emit (@IsBare.goto _ hpushed .blockNode (by simp)) rfl _
    · -- Nothing bare announces a document, so a second one does not start.
      rw [takeDirectives_of_isBare hpassed.tokens]
      refine givesBare_peek fun token' htoken' ↦ ?_
      have hkind : token'.kind ≠ .documentStart := by
        intro heq
        have hbare := hpassed.tokens token' (mem_of_peek htoken')
        rw [heq] at hbare
        cases hbare
      rw [if_neg hkind]
      exact givesBare_error _

/-- A node of bare tokens is a scalar. -/
theorem IsBare.node {p : Parse} (h : p.IsBare) : GivesBare (p.node true false) := by
  rcases htokens : p.tokens with - | ⟨⟨kind, start, stop⟩, rest⟩
  · rw [Parse.node, peek, htokens]
    exact givesBare_error _
  · have hpeek : p.peek = .ok ⟨kind, start, stop⟩ := by rw [peek, htokens]
    have hkind : kind.isBare = true := h.tokens _ (mem_of_peek hpeek)
    have hproperties : p.takeProperties = (⟨none, none, none⟩, p) := by
      obtain rfl | rfl | ⟨text, style, rfl⟩ := TokenKind.isBare_iff.1 hkind <;>
        rw [takeProperties, htokens]
    obtain rfl | rfl | ⟨text, style, rfl⟩ := TokenKind.isBare_iff.1 hkind <;>
      simp only [Parse.node, hpeek, hproperties, resolveTag, bind, Except.bind, reduceCtorEq,
        and_false, if_false, Option.isSome_none, Bool.false_eq_true]
    · exact givesBare_error _
    · exact givesBare_error _
    · exact givesBare_emit h.skip.pop rfl _

/-- **Every step gives a bare event and leaves a bare parser.** -/
theorem IsBare.step {p : Parse} (h : p.IsBare) : GivesBare p.step := by
  have hstate := h.state
  simp only [List.mem_cons, List.not_mem_nil, or_false] at hstate
  rw [Parse.step]
  rcases hstate with hstate | hstate | hstate | hstate | hstate | hstate <;> rw [hstate]
  · exact h.startStream
  · exact h.startDocument true
  · exact h.startDocument false
  · exact h.endDocument
  · exact h.node
  · exact givesBare_error _

/-- So all events are bare, however long the parser goes on. -/
theorem IsBare.run {p : Parse} (h : p.IsBare) (fuel : Nat) :
    ∀ located ∈ (p.run fuel).1, located.event.isBare = true := by
  induction fuel generalizing p with
  | zero => simp [Parse.run]
  | succ fuel ih =>
    rw [Parse.run]
    split
    · simp
    · rcases hstep : p.step with fault | ⟨located, next⟩
      · simp
      · obtain ⟨hnext, hlocated⟩ := h.step located next hstep
        exact List.forall_mem_cons.2 ⟨hlocated, ih hnext⟩

end Parse

/-- **The events of a blank text** are scalars and the starts and ends around them. -/
theorem Event.isBare_ofText {text : List Char} (h : ∀ c ∈ text, Text.isBlank c = true) :
    ∀ located ∈ (Event.ofText text).1, located.event.isBare = true :=
  Parse.IsBare.run ⟨Token.isBare_ofText h, by simp, by simp⟩ _

/-! ### The tree -/

/-- Numbering anchors makes no event of another kind. -/
theorem isBare_numberAnchors {names : AnchorNames} {events : List (Located String)}
    (h : ∀ located ∈ events, located.event.isBare = true) :
    ∀ located ∈ (numberAnchors names events).1, located.event.isBare = true := by
  induction events generalizing names with
  | nil => simp [numberAnchors]
  | cons located events ih =>
    obtain ⟨event, mark⟩ := located
    obtain ⟨hevent, hevents⟩ := List.forall_mem_cons.1 h
    cases event <;> first
      | exact List.forall_mem_cons.2 ⟨rfl, ih hevents⟩
      | cases hevent

/-- The root of a tree of bare events is a scalar or was not reached. -/
theorem Node.ofEvents_of_isBare {events : List (Located Nat)}
    (h : ∀ located ∈ events, located.event.isBare = true) :
    (∃ mark s, Node.ofEvents events = .scalar mark s) ∨ Node.ofEvents events = .torn := by
  rcases events with - | ⟨⟨event, mark⟩, events⟩
  · exact .inr rfl
  · have hevent := h _ List.mem_cons_self
    cases event with
    | scalar anchor s => exact .inl ⟨mark, s, rfl⟩
    | streamStart | streamEnd | documentStart | documentEnd => exact .inr rfl
    | _ => cases hevent

namespace Document

/-- **The root of a blank text** is a scalar, if there is one. -/
theorem root_ofText_of_isBlankText {s : String} (h : Text.isBlankText s = true) :
    (∃ mark scalar, (ofText s).root = .scalar mark scalar) ∨ (ofText s).root = .torn := by
  have hevents := Event.isBare_ofText (List.all_eq_true.1 h)
  rw [ofText]
  dsimp only
  split
  · exact .inl ⟨_, _, rfl⟩
  · refine Node.ofEvents_of_isBare (isBare_numberAnchors fun located hlocated ↦ hevents located ?_)
    exact (List.mem_filter.1 ((List.takeWhile_prefix _).subset hlocated)).1

/-- **A blank text holds no mapping.** -/
theorem follow_root_ne_mapping {s : String} (h : Text.isBlankText s = true) (mark : Mark)
    (tag : Option Tag) (entries : List (Node × Node)) :
    (ofText s).follow (ofText s).root ≠ .mapping mark tag entries := by
  obtain ⟨_, _, hroot⟩ | hroot := root_ofText_of_isBlankText h
  · rw [hroot, follow]
    exact fun heq ↦ nomatch heq
    · exact fun _ _ heq ↦ nomatch heq
  · rw [hroot, follow]
    exact fun heq ↦ nomatch heq
    · exact fun _ _ heq ↦ nomatch heq

end Document
end Hygrometer.Yaml
