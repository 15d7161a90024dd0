import Hygrometer.Yaml.Token.Scan
import Hygrometer.Proofs.Except
import Mathlib.Data.List.Basic

/-!
# Scanning round by round

The scanner works in rounds, each of which finds a token, hands one over, or does neither. What it
does in its next rounds depends on where it stands, and there are few kinds of places. Between two
tokens, with none waiting and no candidate (`Scan.between`), it passes blanks and comments and finds
the next token. What waits is then handed over, one token a round (`Scan.gives_queue`).

**Chains.** `Scan.Gives` says that a scan hands over some tokens in so many rounds and goes on as
another scan. Such steps are put together (`Scan.Gives.trans`), so that a text is followed by a
chain of them, from `Scan.gives_start` to the end. Where nothing but blanks and comments is left,
the block collections that are open are closed and the text ends (`Scan.exists_finish_streamEnd`). A
chain from the start of a text to there gives all its tokens (`Token.exists_ofText_of_gives`).

The rounds are counted because the model has fuel. The count of a chain is a bound that the fuel of
the text must reach, and no more is ever said of it.

**Positions.** A scan knows its line, column and index in the text, and the marks of tokens tell
them to messages. Nothing of what is proved about documents needs these marks, except that columns
decide what a block belongs to. So most lemmas say that *some* mark is there, with its column if it
matters, and no more: the texts themselves would have to be carried along otherwise.

What is passed on the way to a token is the same for all of them: spaces, breaks, and comments up to
their break. The lemmas about `toNextToken` are used for documents without content as well as
between the keys of a block.
-/

namespace Hygrometer.Yaml

@[simp] theorem Mark.column_past (m : Mark) (c : Char) : (m.past c).column = m.column + 1 := rfl

@[simp] theorem Mark.column_nextLine (m : Mark) (octets : ℕ) : (m.nextLine octets).column = 0 := rfl

namespace Scan

variable {s : Scan} {given : ℕ} {columns : List ℕ} {cursor : Cursor} {keyAllowed : Bool}
  {m : Mark} {rest : List Char}

/-! ### Blanks and comments -/

/-- Spaces are passed. -/
theorem toNextToken_space (flow keyAllowed : Bool) :
    toNextToken flow false keyAllowed m (' ' :: rest) =
      toNextToken flow false keyAllowed (m.past ' ') rest := by
  rw [toNextToken]
  · simp [isBreak]
  · exact fun _ hreturn _ ↦ absurd hreturn (by decide)

/-- Spaces are passed. -/
theorem exists_toNextToken_spaces (flow keyAllowed : Bool) (n : ℕ) (m : Mark)
    (rest : List Char) : ∃ m', m'.column = m.column + n ∧
      toNextToken flow false keyAllowed m (List.replicate n ' ' ++ rest) =
        toNextToken flow false keyAllowed m' rest := by
  induction n generalizing m with
  | zero => exact ⟨m, rfl, rfl⟩
  | succ n ih =>
    obtain ⟨m', hcolumn, hpass⟩ := ih (m.past ' ')
    refine ⟨m', by rw [hcolumn, Mark.column_past]; omega, ?_⟩
    rw [List.replicate_succ, List.cons_append, toNextToken_space, hpass]

/-- A line break is passed, and a key may start behind it. -/
theorem toNextToken_break (comment keyAllowed : Bool) :
    toNextToken false comment keyAllowed m ('\n' :: rest) =
      toNextToken false false true (m.nextLine 1) rest := by
  rw [toNextToken]
  · simp [isBreak, Char.utf8Size]
  · exact fun _ hreturn _ ↦ absurd hreturn (by decide)

/-- A comment starts at its sign and goes on up to the end of the line. -/
theorem toNextToken_comment {c : Char} {comment : Bool} (hbreak : isBreak c = false)
    (h : (comment || c == '#') = true) (flow keyAllowed : Bool) :
    toNextToken flow comment keyAllowed m (c :: rest) =
      toNextToken flow true keyAllowed (m.past c) rest := by
  rw [toNextToken]
  · rw [hbreak, if_neg Bool.false_ne_true, if_pos h]
  · rintro _ rfl _
    cases hbreak

/-- What stands in a comment is passed, whatever it is. -/
theorem exists_toNextToken_comment {body : List Char} (h : ∀ c ∈ body, isBreak c = false)
    (flow keyAllowed : Bool) (m : Mark) (rest : List Char) : ∃ m',
      toNextToken flow true keyAllowed m (body ++ rest) =
        toNextToken flow true keyAllowed m' rest := by
  induction body generalizing m with
  | nil => exact ⟨m, rfl⟩
  | cons c body ih =>
    obtain ⟨hc, hbody⟩ := List.forall_mem_cons.1 h
    obtain ⟨m', hpass⟩ := ih hbody (m.past c)
    exact ⟨m', (toNextToken_comment hc rfl flow keyAllowed).trans hpass⟩

/-! ### Finding a token -/

/-- Candidates that are near stay. -/
theorem dropStale_of_near (h : ∀ c ∈ s.candidates, c.any (isStale s.mark) = false) :
    s.dropStale = .ok s := by
  have hnone : (s.candidates.any fun c ↦ c.any (isStale s.mark) && c.any (·.required)) = false := by
    rw [List.any_eq_false]
    intro c hc
    simp [h c hc]
  have hkeep : (s.candidates.map fun c ↦ if c.any (isStale s.mark) then none else c) =
      s.candidates := by
    refine (List.map_congr_left fun c hc ↦ ?_).trans (List.map_id' _)
    rw [h c hc, if_neg (by decide)]
  rw [dropStale]
  simp only [hnone, hkeep, Bool.false_eq_true, if_false]

/-- A column further right than those that are open closes none. -/
theorem unroll_of_le {column : ℕ} (h : ∀ c ∈ s.columns, c ≤ column) : s.unroll column = s := by
  rw [unroll]
  split
  · rfl
  · rcases hcolumns : s.columns with - | ⟨c, outer⟩
    · rw [closeDownTo, ← hcolumns]
    · have hc : c ≤ column := h c (hcolumns ▸ List.mem_cons_self)
      rw [closeDownTo, if_neg (by omega), ← hcolumns]

/-- What stands before a token is passed, if no candidate is given up. -/
theorem approach_of_passed {keyAllowed : Bool} {cursor : Cursor}
    (hpass : toNextToken s.inFlow false s.keyAllowed s.mark s.cursor.rest = (keyAllowed, cursor))
    (hcandidates : ∀ c ∈ s.candidates, c.any (isStale cursor.mark) = false) :
    s.approach = .ok (({ s with cursor, keyAllowed } : Scan).unroll cursor.mark.column) := by
  rw [approach, hpass]
  dsimp only
  rw [dropStale_of_near hcandidates]
  rfl

/-- Where no candidate is out of date and no column is closed, the way to the next token is all that
is gone. -/
theorem approach_of_le {keyAllowed : Bool} {cursor : Cursor}
    (hpass : toNextToken s.inFlow false s.keyAllowed s.mark s.cursor.rest = (keyAllowed, cursor))
    (hcandidates : ∀ c ∈ s.candidates, c.any (isStale cursor.mark) = false)
    (hcolumns : ∀ column ∈ s.columns, column ≤ cursor.mark.column) :
    s.approach = .ok { s with cursor, keyAllowed } :=
  (approach_of_passed hpass hcandidates).trans (congrArg Except.ok (unroll_of_le hcolumns))

theorem look_of_not_spoiled (h : s.spoiled = false) (n : ℕ) : s.look n = .ok () := by
  rw [look, h]
  exact if_neg (by simp)

/-- A token is found by going to it and adding it. -/
theorem find_of_approach {s' s'' : Scan} (happroach : s.approach = .ok s')
    (hadd : s'.addToken = .ok s'') (hs' : s'.spoiled = false) (hs'' : s''.spoiled = false) :
    s.find = .ok s'' := by
  rw [find, happroach]
  show (s'.look 4 >>= fun _ ↦ _) = _
  rw [look_of_not_spoiled hs', Except.andThen_eq_ok_iff, hadd]
  refine ⟨rfl, ?_⟩
  show (s''.look 1 >>= fun _ ↦ _) = _
  rw [look_of_not_spoiled hs'']
  rfl

/-- A scan with no token waiting and no candidate. -/
def between (given : ℕ) (columns : List ℕ) (keyAllowed : Bool) (cursor : Cursor) : Scan where
  cursor
  spoiled := false
  given
  queue := []
  columns
  candidates := [none]
  keyAllowed

/-! ### The end of the text -/

/-- Closing block collections adds an end for each. -/
theorem exists_closeDownTo (column : Int) (columns : List ℕ) (s : Scan) :
    ∃ closed opened, columns = closed ++ opened ∧ (column < 0 → opened = []) ∧
      closeDownTo column columns s =
        { s with
          queue := s.queue ++ closed.map fun _ ↦ ⟨.blockEnd, s.mark, s.mark⟩
          columns := opened } := by
  induction columns generalizing s with
  | nil => exact ⟨[], [], rfl, fun _ ↦ rfl, by simp [closeDownTo]⟩
  | cons c outer ih =>
    rw [closeDownTo]
    split
    next hlt =>
      obtain ⟨closed, opened, rfl, hall, hclose⟩ := ih (s.add .blockEnd s.mark s.mark)
      refine ⟨c :: closed, opened, rfl, hall, hclose.trans ?_⟩
      simp [add, Scan.mark]
    next hle => exact ⟨[], c :: outer, rfl, fun hneg ↦ absurd (by omega) hle, by simp⟩

/-- The end of the text ends all block collections. -/
theorem exists_addStreamEnd (hcandidates : s.candidates = [none]) :
    ∃ m, s.addStreamEnd = .ok { s with
      cursor := ⟨m, []⟩
      queue := s.queue ++ (s.columns.map (fun _ ↦ ⟨.blockEnd, m, m⟩) ++ [⟨.streamEnd, m, m⟩])
      columns := []
      keyAllowed := false } := by
  refine ⟨if s.mark.column = 0 then s.mark else s.mark.nextLine 0, ?_⟩
  rw [addStreamEnd]
  dsimp only
  generalize (if s.mark.column = 0 then s.mark else s.mark.nextLine 0) = m
  have hflow : ({ s with cursor := ⟨m, []⟩ } : Scan).inFlow = false := by
    rw [inFlow, hcandidates]
    rfl
  obtain ⟨closed, opened, hcolumns, hall, hclose⟩ :=
    exists_closeDownTo (-1) s.columns { s with cursor := ⟨m, []⟩ }
  obtain rfl := hall (by decide)
  rw [unroll, hflow, if_neg (by decide), hclose, dropCandidate]
  simp only [hcandidates, hcolumns, List.append_nil, ← List.append_assoc]
  rfl

/-- Where nothing but blanks and comments is left, the end of the text is found. -/
theorem exists_find_streamEnd (given : ℕ) (columns : List ℕ) {keyAllowed' : Bool}
    (hpass : toNextToken false false keyAllowed cursor.mark cursor.rest = (keyAllowed', ⟨m, []⟩)) :
    ∃ (ends : List Token) (m' : Mark),
      ends.map (·.kind) = List.replicate columns.length .blockEnd ∧
      (between given columns keyAllowed cursor).find =
        .ok { between given [] false ⟨m', []⟩ with
          queue := ends ++ [⟨.streamEnd, m', m'⟩] } := by
  have happroach : (between given columns keyAllowed cursor).approach =
      .ok (closeDownTo m.column columns (between given columns keyAllowed' ⟨m, []⟩)) :=
    approach_of_passed (s := between given columns keyAllowed cursor) hpass (by simp [between])
  obtain ⟨closed, opened, rfl, -, hclose⟩ :=
    exists_closeDownTo m.column columns (between given columns keyAllowed' ⟨m, []⟩)
  rw [hclose] at happroach
  obtain ⟨m', hend⟩ := exists_addStreamEnd (s := { between given (closed ++ opened) keyAllowed'
    ⟨m, []⟩ with queue := closed.map fun _ ↦ ⟨.blockEnd, m, m⟩, columns := opened }) rfl
  refine ⟨(closed.map fun _ ↦ ⟨.blockEnd, m, m⟩) ++ opened.map fun _ ↦ ⟨.blockEnd, m', m'⟩, m', ?_,
    find_of_approach happroach (hend.trans ?_) rfl rfl⟩
  · simp [List.map_const', List.replicate_append_replicate]
  · rw [← List.append_assoc]
    rfl

/-! ### Handing tokens over -/

/-- In so many rounds the scan hands over tokens of these kinds, and goes on as another scan. -/
def Gives (s : Scan) (rounds : ℕ) (kinds : List TokenKind) (s' : Scan) : Prop :=
  ∃ tokens : List Token, tokens.map (·.kind) = kinds ∧
    ∀ fuel, s.finish (rounds + fuel) = (tokens ++ (s'.finish fuel).1, (s'.finish fuel).2)

/-- No rounds give no tokens. -/
theorem Gives.refl (s : Scan) : s.Gives 0 [] s := ⟨[], rfl, fun fuel ↦ by rw [Nat.zero_add]; rfl⟩

/-- **Chains are put together.** -/
theorem Gives.trans {s s' s'' : Scan} {n n' : ℕ} {kinds kinds' : List TokenKind}
    (h : s.Gives n kinds s') (h' : s'.Gives n' kinds' s'') :
    s.Gives (n + n') (kinds ++ kinds') s'' := by
  obtain ⟨tokens, hkinds, hfinish⟩ := h
  obtain ⟨tokens', hkinds', hfinish'⟩ := h'
  refine ⟨tokens ++ tokens', by rw [List.map_append, hkinds, hkinds'], fun fuel ↦ ?_⟩
  rw [Nat.add_assoc, hfinish, hfinish', List.append_assoc]

/-- A token is found in a round that hands over none, as none waits or the first is a
candidate's. -/
theorem gives_of_find {s s' : Scan} (hnone : s.handOver = .ok (none, s)) (hfind : s.find = .ok s') :
    s.Gives 1 [] s' := by
  have hround : s.round = .ok (none, s') := by
    rw [round, hnone]
    show (s.find >>= fun s' ↦ pure (none, s')) = _
    rw [hfind]
    rfl
  refine ⟨[], rfl, fun fuel ↦ ?_⟩
  rw [Nat.add_comm, finish, hround]
  rfl

/-- A token without a candidate before it is handed over. -/
theorem handOver_of_none {token : Token} {queue : List Token} (hqueue : s.queue = token :: queue)
    (hcandidates : s.candidates = [none]) :
    s.handOver = .ok (some token, { s with given := s.given + 1, queue }) := by
  have hpending : s.isPending = false := by rw [isPending, hcandidates]; rfl
  rw [handOver, hqueue]
  dsimp only
  rw [dropStale_of_near (by simp [hcandidates])]
  show Except.ok (if s.isPending then _ else _) = _
  rw [hpending]
  rfl

/-- Without a candidate, the tokens that wait are handed over one after another. -/
theorem gives_queue {queue back : List Token} (hqueue : s.queue = queue ++ back)
    (hcandidates : s.candidates = [none]) (hkinds : ∀ token ∈ queue, token.kind ≠ .streamEnd) :
    s.Gives queue.length (queue.map (·.kind))
      { s with given := s.given + queue.length, queue := back } := by
  induction queue generalizing s with
  | nil =>
    refine ⟨[], rfl, fun fuel ↦ ?_⟩
    have hsame : { s with given := s.given + 0, queue := back } = s := by
      rw [List.nil_append] at hqueue
      rw [← hqueue]
      rfl
    rw [List.length_nil, hsame, Nat.zero_add]
    rfl
  | cons token queue ih =>
    obtain ⟨htoken, hkinds⟩ := List.forall_mem_cons.1 hkinds
    have hfirst : s.Gives 1 [token.kind]
        { s with given := s.given + 1, queue := queue ++ back } := by
      refine ⟨[token], rfl, fun fuel ↦ ?_⟩
      rw [Nat.add_comm, finish, round, handOver_of_none hqueue hcandidates]
      show (if token.kind = .streamEnd then _ else _) = _
      rw [if_neg htoken]
      rfl
    have hrest : s.Gives (1 + queue.length) (token.kind :: queue.map (·.kind))
        { s with given := s.given + 1 + queue.length, queue := back } :=
      hfirst.trans (ih rfl hcandidates hkinds)
    rw [Nat.add_assoc, Nat.add_comm 1] at hrest
    exact hrest

/-- The start of the text is handed over first. -/
theorem gives_start (text : List Char) :
    (start text false).Gives 1 [.streamStart] (between 1 [] true ⟨.start, text⟩) :=
  gives_queue (List.append_nil _).symm rfl (by simp [start])

/-- **Where nothing but blanks and comments is left**, the ends of the block collections and the end
of the text are handed over. -/
theorem exists_finish_streamEnd (given : ℕ) (columns : List ℕ) {keyAllowed' : Bool}
    (hpass : toNextToken false false keyAllowed cursor.mark cursor.rest = (keyAllowed', ⟨m, []⟩)) :
    ∃ tokens : List Token,
      tokens.map (·.kind) = List.replicate columns.length .blockEnd ++ [.streamEnd] ∧
      ∀ fuel, (between given columns keyAllowed cursor).finish (columns.length + 2 + fuel) =
        (tokens, none) := by
  obtain ⟨ends, m', hends, hfind⟩ := exists_find_streamEnd given columns hpass
  have hlength : ends.length = columns.length := by
    simpa using congrArg List.length hends
  have hkinds : ∀ token ∈ ends, token.kind ≠ .streamEnd := by
    intro token htoken
    have hkind : token.kind ∈ ends.map (·.kind) := List.mem_map_of_mem htoken
    rw [hends] at hkind
    simp [List.eq_of_mem_replicate hkind]
  have hfound : (between given columns keyAllowed cursor).Gives 1 [] _ := gives_of_find rfl hfind
  obtain ⟨tokens, htokens, hfinish⟩ := hfound.trans (gives_queue rfl rfl hkinds)
  refine ⟨tokens ++ [⟨.streamEnd, m', m'⟩], ?_, fun fuel ↦ ?_⟩
  · rw [List.map_append, htokens, List.nil_append, hends]
    rfl
  · have hrounds : columns.length + 2 + fuel = 1 + ends.length + (fuel + 1) := by omega
    rw [hrounds, hfinish, finish, round, handOver_of_none rfl rfl]
    rfl

end Scan

/-- **A text is scanned to its end** once nothing but blanks and comments is left. -/
theorem Token.exists_ofText_of_gives {text : List Char} (hallowed : text.all isAllowed = true)
    {rounds given : ℕ} {kinds : List TokenKind} {columns : List ℕ} {keyAllowed keyAllowed' : Bool}
    {cursor : Cursor} {m : Mark}
    (hgives : (Scan.between 1 [] true ⟨.start, text⟩).Gives rounds kinds
      (.between given columns keyAllowed cursor))
    (hpass : Scan.toNextToken false false keyAllowed cursor.mark cursor.rest =
      (keyAllowed', ⟨m, []⟩))
    (hrounds : rounds + columns.length + 3 ≤ 6 * text.length + 12) :
    ∃ tokens : List Token,
      tokens.map (·.kind) = .streamStart ::
        (kinds ++ (List.replicate columns.length .blockEnd ++ [.streamEnd])) ∧
      Token.ofText text = (tokens, none) := by
  obtain ⟨tokens, htokens, hfinish⟩ := (Scan.gives_start text).trans hgives
  obtain ⟨ending, hending, hend⟩ := Scan.exists_finish_streamEnd given columns hpass
  obtain ⟨fuel, hfuel⟩ := Nat.exists_eq_add_of_le hrounds
  refine ⟨tokens ++ ending, ?_, ?_⟩
  · rw [List.map_append, htokens, hending]
    rfl
  · have hsplit : 6 * text.length + 12 = 1 + rounds + (columns.length + 2 + fuel) := by omega
    rw [Token.ofText, readable_of_all hallowed, hsplit]
    simp only [Nat.lt_irrefl, decide_false, hfinish, hend]

end Hygrometer.Yaml
