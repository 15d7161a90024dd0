import Hygrometer.Proofs.Yaml.BlankText
import Hygrometer.Proofs.Yaml.Scan
import Mathlib.Data.List.TakeWhile

/-!
# Nested keys as tokens

A value under a path of keys, written as a block: each key on a line of its own, two columns further
right than the one before, and the value behind the last colon (`blockText`). The scanner finds the
tokens of such a text key by key, and `Token.exists_ofText_blockText` says which: for every key the
start of a mapping, the mark of a key, the key and the mark of its value; then the value; and then
one end for each mapping that is open.

**Words.** Values are words of letters, digits, underscores and hyphens (`IsWord`), and keys are
words that do not begin with a hyphen and are no longer than a key may be (`IsKey`). None of these
characters is a blank, a break, a colon or an indicator that matters inside a scalar. So a word is
scanned as a plain scalar, and it ends where the text shows it: at a colon, a break or the end of
the text (`atWordEnd`).

**A key takes six rounds** (`Scan.exists_gives_key`), as it is only a *candidate* for a key until
its colon is found. The scanner finds the scalar and holds it back, since a key would stand before
it; at the colon it puts the mark of the key, and the start of a mapping at its column, in front of
what it holds (`pending`), and then hands over one token a round. The lemmas follow these rounds.
Each of them is about one state in front of one piece of the text, with anything behind it.

**A path of keys** is a chain of such pieces, by induction on the path (`Scan.exists_gives_nested`).
The columns that are open grow on the way in, so that no mapping is closed before the end, where all
of them are.
-/

namespace Hygrometer.Yaml

/-! ### Words -/

/-- A word of letters, digits, underscores and hyphens, more than a lone hyphen. -/
structure IsWord (w : List Char) : Prop where
  /-- There is a character. -/
  ne_nil : w ≠ []
  /-- There are no others. -/
  isWordChar : ∀ c ∈ w, isWordChar c = true
  /-- It does not announce the entry of a sequence. -/
  ne_hyphen : w ≠ ['-']

/-- A word that can be a key wherever it stands. -/
structure IsKey (w : List Char) : Prop extends IsWord w where
  /-- It is no mark of a document. -/
  head : w.head? ≠ some '-'
  /-- It is short enough. -/
  length_le : w.length ≤ 1024

instance : DecidablePred IsKey := fun w ↦
  decidable_of_iff (w ≠ [] ∧ w.all Yaml.isWordChar = true ∧ w.head? ≠ some '-' ∧ w.length ≤ 1024)
    ⟨fun ⟨hne, hword, hhead, hlength⟩ ↦
      ⟨⟨hne, List.all_eq_true.1 hword, fun h ↦ hhead (h ▸ rfl)⟩, hhead, hlength⟩,
      fun h ↦ ⟨h.ne_nil, List.all_eq_true.2 h.isWordChar, h.head, h.length_le⟩⟩

/-- What stands behind the colon of a key, where the next one is at `column`: the keys that are
left, each on a line of its own, and the value. -/
def nestedText (value : List Char) : ℕ → List (List Char) → List Char
  | _, [] => ' ' :: (value ++ ['\n'])
  | column, key :: path =>
    '\n' :: (List.replicate column ' ' ++ (key ++ ':' :: nestedText value (column + 2) path))

/-- A value under a path of keys, as a block. -/
def blockText (value : List Char) : List (List Char) → List Char
  | [] => value ++ ['\n']
  | key :: path => key ++ ':' :: nestedText value 2 path

/-- The tokens of a value under a path of keys. -/
def nestedKinds (value : List Char) : List (List Char) → List TokenKind
  | [] => [.scalar (.ofList value) .plain]
  | key :: path =>
    .blockMappingStart :: .key :: .scalar (.ofList key) .plain :: .value ::
      (nestedKinds value path ++ [.blockEnd])

/-- A character of a word is not one that no word has. -/
theorem ne_of_isWordChar {c d : Char} (hc : isWordChar c = true)
    (hd : isWordChar d = false) : c ≠ d := by
  rintro rfl
  rw [hd] at hc
  cases hc

/-- No character of a word is a blank. -/
theorem isBlank_of_isWordChar {c : Char} (h : isWordChar c = true) : isBlank c = false := by
  simp only [isBlank, Bool.or_eq_false_iff, beq_eq_false_iff_ne]
  exact ⟨ne_of_isWordChar h rfl, ne_of_isWordChar h rfl⟩

/-- None is a break. -/
theorem isBreak_of_isWordChar {c : Char} (h : isWordChar c = true) : isBreak c = false := by
  simp only [isBreak, Bool.or_eq_false_iff, beq_eq_false_iff_ne]
  exact ⟨⟨⟨⟨ne_of_isWordChar h rfl, ne_of_isWordChar h rfl⟩, ne_of_isWordChar h rfl⟩,
    ne_of_isWordChar h rfl⟩, ne_of_isWordChar h rfl⟩

/-- All of them are printable. -/
theorem toNat_of_isWordChar {c : Char} (h : isWordChar c = true) :
    0x20 ≤ c.toNat ∧ c.toNat ≤ 0x7E := by
  simp only [isWordChar, Bool.or_eq_true, Bool.and_eq_true, decide_eq_true_eq, beq_iff_eq,
    Char.le_def, UInt32.le_iff_toNat_le] at h
  obtain (((⟨hlow, hhigh⟩ | ⟨hlow, hhigh⟩) | ⟨hlow, hhigh⟩) | rfl) | rfl := h
  · exact ⟨Nat.le_trans (by decide) hlow, Nat.le_trans hhigh (by decide)⟩
  · exact ⟨Nat.le_trans (by decide) hlow, Nat.le_trans hhigh (by decide)⟩
  · exact ⟨Nat.le_trans (by decide) hlow, Nat.le_trans hhigh (by decide)⟩
  · decide
  · decide

/-- A character of a word is one octet. -/
theorem utf8Size_of_isWordChar {c : Char} (h : isWordChar c = true) : c.utf8Size = 1 :=
  Char.utf8Size_eq_one_iff.2 (UInt32.le_iff_toNat_le.2
    (Nat.le_succ_of_le (toNat_of_isWordChar h).2))

/-- The mark behind a word. -/
def Mark.pastAll (m : Mark) (w : List Char) : Mark := w.foldl Mark.past m

theorem Mark.pastAll_eq {w : List Char} (h : ∀ c ∈ w, isWordChar c = true) (m : Mark) :
    m.pastAll w = ⟨m.index + w.length, m.line, m.column + w.length⟩ := by
  induction w generalizing m with
  | nil => rfl
  | cons c w ih =>
    obtain ⟨hc, hw⟩ := List.forall_mem_cons.1 h
    have hnext := ih hw (m.past c)
    rw [pastAll] at hnext
    rw [pastAll, List.foldl_cons, hnext, past, utf8Size_of_isWordChar hc, List.length_cons]
    simp only [Mark.mk.injEq, true_and]
    omega

/-- Behind a word, what is nested goes on with a break or ends. -/
theorem atWordEnd_nestedText (value : List Char) (column : ℕ) (path : List (List Char)) :
    atWordEnd (nestedText value column path) = true := by
  rcases path with - | ⟨key, path⟩ <;> rfl

/-! ### Plain scalars -/

/-- A word goes into the plain scalar as it is. -/
theorem PlainScalar.exists_read_word {w : List Char} (h : ∀ c ∈ w, isWordChar c = true)
    (indent : ℕ) (stop m : Mark) (rest : List Char) :
    ∃ stop', read false indent .none stop m (w ++ rest) =
      (read false indent .none stop' (m.pastAll w) rest).map (prepend w) := by
  induction w generalizing stop m with
  | nil =>
    refine ⟨stop, ?_⟩
    rcases hread : read false indent .none stop m rest with fault | plain
    · simp [Mark.pastAll, hread, Except.map]
    · simp [Mark.pastAll, hread, Except.map, prepend]
  | cons c w ih =>
    obtain ⟨hc, hw⟩ := List.forall_mem_cons.1 h
    obtain ⟨stop', hrest⟩ := ih hw (m.past c) (m.past c)
    have hcolon : c ≠ ':' := ne_of_isWordChar hc rfl
    refine ⟨stop', ?_⟩
    rw [List.cons_append, read]
    · simp only [isBlank_of_isWordChar hc, isBreak_of_isWordChar hc, hcolon, Gap.isNone, Gap.none,
        List.isEmpty_nil, Bool.not_true, Bool.false_eq_true, if_false, false_and, and_false,
        or_self]
      rw [← Gap.none, hrest]
      show ((read false indent .none stop' (m.pastAll (c :: w)) rest).map (prepend w)).map
          (prepend ([] ++ [c])) = _
      rcases read false indent .none stop' (m.pastAll (c :: w)) rest with fault | plain
      · rfl
      · rfl
    · exact fun _ hreturn _ ↦ ne_of_isWordChar hc rfl hreturn

/-- A scalar ends at a colon with the end of a word behind it. -/
theorem PlainScalar.read_colon {indent : ℕ} {stop m : Mark} {rest : List Char}
    (h : atWordEnd rest = true) :
    read false indent .none stop m (':' :: rest) = .ok ⟨[], stop, false, ⟨m, ':' :: rest⟩⟩ := by
  rw [read]
  · simp [h, isBlank, isBreak, Gap.isNone, Gap.none, Gap.isBroken]
  · exact fun _ hreturn _ ↦ absurd hreturn (by decide)

/-- At the end of the text, the last line break belongs to the gap behind the scalar. -/
theorem PlainScalar.read_lineEnd (indent : ℕ) (stop m : Mark) :
    read false indent .none stop m ['\n'] = .ok ⟨[], stop, true, ⟨m.nextLine 1, []⟩⟩ := by
  rw [read]
  · rfl
  · exact fun _ hreturn _ ↦ absurd hreturn (by decide)

namespace Scan

/-! ### Finding a token -/

variable {s : Scan}

/-- A word is a plain scalar, unless it starts the line with a hyphen. -/
theorem addToken_of_isWord {w rest : List Char} (hw : IsWord w) (hrest : s.cursor.rest = w ++ rest)
    (hstart : s.mark.column = 0 → w.head? ≠ some '-') : s.addToken = s.addPlain := by
  rcases w with - | ⟨c, w⟩
  · exact absurd rfl hw.ne_nil
  · obtain ⟨hc, hw'⟩ := List.forall_mem_cons.1 hw.isWordChar
    have hne (d : Char) (hd : isWordChar d = false) : c ≠ d := ne_of_isWordChar hc hd
    -- A hyphen announces an entry only if a blank or the end comes behind it.
    have hhyphen : c = '-' →
        atWordEnd (w ++ rest) = false ∧ (w ++ rest).head?.any isBlank = false := by
      rintro rfl
      rcases w with - | ⟨d, w⟩
      · exact absurd rfl hw.ne_hyphen
      · have hd := hw' d List.mem_cons_self
        simp [atWordEnd, isBlank_of_isWordChar hd, isBreak_of_isWordChar hd]
    have hline (h : s.mark.column = 0) : c ≠ '-' := fun heq ↦ hstart h (by rw [heq]; rfl)
    have hplain : startsPlain s.inFlow (c :: (w ++ rest)) = true := by
      rw [startsPlain]
      by_cases heq : c = '-'
      · rw [(hhyphen heq).2, heq]
        simp
      · have hindicator : isIndicator c = false := by
          simp [isIndicator, heq, hne '?' rfl, hne ':' rfl, hne ',' rfl, hne '[' rfl, hne ']' rfl,
            hne '\x7b' rfl, hne '\x7d' rfl, hne '#' rfl, hne '&' rfl, hne '*' rfl, hne '!' rfl,
            hne '|' rfl, hne '>' rfl, hne '\'' rfl, hne '"' rfl, hne '%' rfl, hne '@' rfl,
            hne '\x60' rfl]
        simp [hindicator, atWordEnd, isBlank_of_isWordChar hc, isBreak_of_isWordChar hc]
    have hdocument : ¬(s.mark.column = 0 ∧ startsTriple '-' (c :: (w ++ rest)) = true) := by
      rintro ⟨hcolumn, htriple⟩
      rw [startsTriple_of_ne (hline hcolumn)] at htriple
      cases htriple
    have hentry : ¬(c = '-' ∧ atWordEnd (w ++ rest) = true) := by
      rintro ⟨heq, hend⟩
      rw [(hhyphen heq).1] at hend
      cases hend
    rw [List.cons_append] at hrest
    rw [addToken, hrest]
    -- No other token begins with the first character of a word.
    simp only [hdocument, hentry, hplain, startsTriple_of_ne (hne '.' rfl), hne '%' rfl,
      hne '[' rfl, hne '\x7b' rfl, hne ']' rfl, hne '\x7d' rfl, hne ',' rfl, hne '?' rfl,
      hne ':' rfl, hne '*' rfl, hne '&' rfl, hne '!' rfl, hne '|' rfl, hne '>' rfl, hne '\'' rfl,
      hne '"' rfl, Bool.false_eq_true, and_false, false_and, if_false, if_true]

/-- A plain scalar that was read is added, with a candidate for a key before it. -/
theorem addPlain_of_read {s' : Scan} {plain : PlainScalar} (hcandidate : s.addCandidate = .ok s')
    (hread : PlainScalar.read s'.inFlow (s'.indent + 1).toNat .none s'.mark s'.mark s'.cursor.rest =
      .ok plain) :
    s.addPlain = .ok { s'.add (.scalar (.ofList plain.text) .plain) s'.mark plain.stop with
      cursor := plain.next, keyAllowed := plain.broken } :=
  Except.bind_eq_ok_iff.2 ⟨s', hcandidate, Except.bind_eq_ok_iff.2 ⟨plain, hread, rfl⟩⟩

/-- A scan with one token waiting, which is a candidate. -/
def pending (given : ℕ) (columns : List ℕ) (key : Token) (cursor : Cursor) : Scan where
  cursor
  spoiled := false
  given
  queue := [key]
  columns
  candidates := [some ⟨false, given, key.start⟩]
  keyAllowed := false

variable {given : ℕ} {columns : List ℕ} {rest : List Char} {m : Mark}

theorem indent_lt {column : ℕ} (h : ∀ c ∈ s.columns, c < column) : s.indent < column := by
  rw [indent]
  rcases hcolumns : s.columns with - | ⟨c, outer⟩
  · show (-1 : Int) < column
    omega
  · exact Int.ofNat_lt.2 (h c (hcolumns ▸ List.mem_cons_self))

/-- Further right than the open block collections, a key may start but need not. -/
theorem addCandidate_between {cursor : Cursor} (h : ∀ c ∈ columns, c < cursor.mark.column) :
    (between given columns true cursor).addCandidate =
      .ok { between given columns true cursor with
        candidates := [some ⟨false, given, cursor.mark⟩] } := by
  have hindent : ((between given columns true cursor).indent == cursor.mark.column) = false := by
    rw [beq_eq_false_iff_ne]
    exact Int.ne_of_lt (indent_lt h)
  rw [addCandidate, if_pos (show (between given columns true cursor).keyAllowed = true from rfl)]
  dsimp only
  rw [show (between given columns true cursor).mark = cursor.mark from rfl, hindent, Bool.and_false]
  rfl

/-- A word is a candidate where a key may start, further right than the keys around it. -/
theorem exists_find_key (given : ℕ) {key : List Char} {keyAllowed : Bool} {cursor : Cursor}
    (hpass : toNextToken false false keyAllowed cursor.mark cursor.rest =
      (true, ⟨m, key ++ ':' :: rest⟩))
    (hkey : IsKey key) (hcolumns : ∀ c ∈ columns, c < m.column) (hrest : atWordEnd rest = true) :
    ∃ stop, (between given columns keyAllowed cursor).find =
      .ok (pending given columns ⟨.scalar (.ofList key) .plain, m, stop⟩
        ⟨m.pastAll key, ':' :: rest⟩) := by
  have happroach : (between given columns keyAllowed cursor).approach =
      .ok (between given columns true ⟨m, key ++ ':' :: rest⟩) :=
    approach_of_le hpass (by simp [between]) fun c hc ↦ Nat.le_of_lt (hcolumns c hc)
  obtain ⟨stop, hread⟩ := PlainScalar.exists_read_word hkey.isWordChar
    ((between given columns true ⟨m, key ++ ':' :: rest⟩).indent + 1).toNat m m (':' :: rest)
  rw [PlainScalar.read_colon hrest] at hread
  have hcandidate : (between given columns true ⟨m, key ++ ':' :: rest⟩).addCandidate = .ok _ :=
    addCandidate_between hcolumns
  refine ⟨stop, find_of_approach happroach ?_ rfl rfl⟩
  rw [addToken_of_isWord hkey.toIsWord rfl fun _ ↦ hkey.head, addPlain_of_read hcandidate hread]
  simp [PlainScalar.prepend, add, between, pending, Scan.mark]

/-- The colon makes the candidate a key, and opens a block mapping at its column. -/
theorem find_colon {key : Token} (hcolumns : ∀ c ∈ columns, c < key.start.column)
    (hcolumn : key.start.column ≤ m.column) (hnear : isStale m ⟨false, given, key.start⟩ = false)
    (hrest : atWordEnd rest = true) :
    (pending given columns key ⟨m, ':' :: rest⟩).find =
      .ok { between given (key.start.column :: columns) false ⟨m.past ':', rest⟩ with
        queue := [⟨.blockMappingStart, key.start, key.start⟩, ⟨.key, key.start, key.start⟩, key,
          ⟨.value, m, m.past ':'⟩] } := by
  have happroach : (pending given columns key ⟨m, ':' :: rest⟩).approach =
      .ok (pending given columns key ⟨m, ':' :: rest⟩) := by
    refine approach_of_le ?_ ?_ fun c hc ↦ ?_
    · show toNextToken false false false m (':' :: rest) = (false, ⟨m, ':' :: rest⟩)
      rw [toNextToken]
      · simp [isBreak]
      · exact fun _ hreturn _ ↦ absurd hreturn (by decide)
    · simpa [pending] using hnear
    · exact Nat.le_of_lt (Nat.lt_of_lt_of_le (hcolumns c hc) hcolumn)
  refine find_of_approach happroach ?_ rfl rfl
  have hvalue : (pending given columns key ⟨m, ':' :: rest⟩).addToken =
      (pending given columns key ⟨m, ':' :: rest⟩).addValue := by
    have hrest' : (pending given columns key ⟨m, ':' :: rest⟩).cursor.rest = ':' :: rest := rfl
    rw [addToken, hrest']
    simp [startsTriple_of_ne, hrest]
  -- The mapping opens in front of the key, since it is further right than all that are open.
  have hroll : (((pending given columns key ⟨m, ':' :: rest⟩).insert given .key key.start).roll
      key.start.column given .blockMappingStart key.start) =
      { pending given columns key ⟨m, ':' :: rest⟩ with
        queue := [⟨.blockMappingStart, key.start, key.start⟩, ⟨.key, key.start, key.start⟩, key]
        columns := key.start.column :: columns } := by
    have hindent : (pending given columns key ⟨m, ':' :: rest⟩).indent < key.start.column :=
      indent_lt hcolumns
    have hopens :
        (!((pending given columns key ⟨m, ':' :: rest⟩).insert given .key key.start).inFlow &&
          ((pending given columns key ⟨m, ':' :: rest⟩).insert given .key key.start).indent <
            key.start.column) = true := decide_eq_true hindent
    rw [roll, if_pos hopens]
    simp [insert, pending]
  rw [hvalue, addValue]
  show Except.ok _ = _
  rw [hroll]
  rfl

/-- A word is where the next token starts. -/
theorem toNextToken_of_isWord {w : List Char} (hw : IsWord w) (flow keyAllowed : Bool) :
    toNextToken flow false keyAllowed m (w ++ rest) = (keyAllowed, ⟨m, w ++ rest⟩) := by
  rcases w with - | ⟨c, w⟩
  · exact absurd rfl hw.ne_nil
  · have hc := hw.isWordChar c List.mem_cons_self
    have hne (d : Char) (hd : isWordChar d = false) : c ≠ d := ne_of_isWordChar hc hd
    rw [List.cons_append, toNextToken]
    · simp [isBreak_of_isWordChar hc, hne '#' rfl, hne ' ' rfl, hne '\t' rfl, hne '\ufeff' rfl]
    · exact fun _ hreturn _ ↦ hne '\r' rfl hreturn

/-- On a line of its own, a key may start behind any number of spaces. -/
theorem toNextToken_line {w : List Char} (hw : IsWord w) (m : Mark) (column : ℕ)
    (rest : List Char) (keyAllowed : Bool) :
    ∃ m', m'.column = column ∧
      toNextToken false false keyAllowed m ('\n' :: (List.replicate column ' ' ++ (w ++ rest))) =
        (true, ⟨m', w ++ rest⟩) := by
  obtain ⟨m', hcolumn, hpass⟩ :=
    exists_toNextToken_spaces false true column (m.nextLine 1) (w ++ rest)
  refine ⟨m', hcolumn.trans (Nat.zero_add column), ?_⟩
  exact (toNextToken_break false keyAllowed).trans
    (hpass.trans (toNextToken_of_isWord hw false true))

/-- The value at the end of the text. -/
theorem exists_find_value (given : ℕ) {value : List Char} (hvalue : IsWord value)
    (hcolumns : ∀ c ∈ columns, c ≤ m.column) :
    ∃ m' stop,
      (between given columns false ⟨m, ' ' :: (value ++ ['\n'])⟩).find =
        .ok { between given columns true ⟨m', []⟩ with
          queue := [⟨.scalar (.ofList value) .plain, m.past ' ', stop⟩] } := by
  have happroach : (between given columns false ⟨m, ' ' :: (value ++ ['\n'])⟩).approach =
      .ok (between given columns false ⟨m.past ' ', value ++ ['\n']⟩) := by
    refine approach_of_le ?_ (by simp [between]) fun c hc ↦ Nat.le_succ_of_le (hcolumns c hc)
    exact (toNextToken_space false false).trans (toNextToken_of_isWord hvalue false false)
  obtain ⟨stop, hread⟩ := PlainScalar.exists_read_word hvalue.isWordChar
    ((between given columns false ⟨m.past ' ', value ++ ['\n']⟩).indent + 1).toNat (m.past ' ')
    (m.past ' ') ['\n']
  rw [PlainScalar.read_lineEnd] at hread
  have hcandidate : (between given columns false ⟨m.past ' ', value ++ ['\n']⟩).addCandidate =
      .ok (between given columns false ⟨m.past ' ', value ++ ['\n']⟩) := rfl
  refine ⟨((m.past ' ').pastAll value).nextLine 1, stop, find_of_approach happroach ?_ rfl rfl⟩
  have hinside : (between given columns false ⟨m.past ' ', value ++ ['\n']⟩).mark.column ≠ 0 :=
    Nat.succ_ne_zero _
  rw [addToken_of_isWord hvalue rfl fun hcolumn ↦ absurd hcolumn hinside,
    addPlain_of_read hcandidate hread]
  simp [PlainScalar.prepend, add, between, Scan.mark]

/-! ### Handing tokens over -/

/-- While the key is a candidate, nothing is handed over. -/
theorem handOver_pending {key : Token} {cursor : Cursor}
    (hnear : isStale cursor.mark ⟨false, given, key.start⟩ = false) :
    (pending given columns key cursor).handOver = .ok (none, pending given columns key cursor) := by
  have hdrop : (pending given columns key cursor).dropStale =
      .ok (pending given columns key cursor) :=
    dropStale_of_near (by simpa [pending, Scan.mark] using hnear)
  have hpending : (pending given columns key cursor).isPending = true := by
    simp [isPending, pending]
  rw [handOver]
  show ((pending given columns key cursor).dropStale >>= fun s ↦
    pure (if s.isPending then _ else _)) = _
  rw [hdrop]
  show Except.ok (if (pending given columns key cursor).isPending then _ else _) = _
  rw [hpending]
  rfl

/-! ### Paths of keys -/

/-- **A key takes six rounds**: one to find the word, one to find the colon behind it, and four to
hand over what they give. -/
theorem exists_gives_key (given : ℕ) (columns : List ℕ) (cursor : Cursor) {key : List Char}
    {keyAllowed : Bool}
    (hpass : toNextToken false false keyAllowed cursor.mark cursor.rest =
      (true, ⟨m, key ++ ':' :: rest⟩))
    (hkey : IsKey key) (hcolumns : ∀ c ∈ columns, c < m.column) (hrest : atWordEnd rest = true) :
    ∃ m', m.column < m'.column ∧ (between given columns keyAllowed cursor).Gives 6
      [.blockMappingStart, .key, .scalar (.ofList key) .plain, .value]
      (between (given + 4) (m.column :: columns) false ⟨m', rest⟩) := by
  obtain ⟨stop, hfind⟩ := exists_find_key given hpass hkey hcolumns hrest
  have hbehind := Mark.pastAll_eq hkey.isWordChar m
  have hcolumn : m.column ≤ (m.pastAll key).column := by
    rw [hbehind]
    exact Nat.le_add_right _ _
  have hnear : isStale (m.pastAll key) ⟨false, given, m⟩ = false := by
    have hlength := hkey.length_le
    rw [isStale, hbehind]
    simp
    omega
  refine ⟨(m.pastAll key).past ':', Nat.lt_succ_of_le hcolumn, ?_⟩
  have hword : (between given columns keyAllowed cursor).Gives 1 [] _ := gives_of_find rfl hfind
  have hcolon : (pending given columns ⟨.scalar (.ofList key) .plain, m, stop⟩
      ⟨m.pastAll key, ':' :: rest⟩).Gives 1 [] _ :=
    gives_of_find (handOver_pending hnear) (find_colon hcolumns hcolumn hnear hrest)
  refine (hword.trans hcolon).trans (gives_queue (List.append_nil _).symm rfl ?_)
  simp

/-- **A nested value is found key by key**, up to the end of the text. -/
theorem exists_gives_nested {value : List Char} (hvalue : IsWord value) {path : List (List Char)}
    (hpath : ∀ key ∈ path, IsKey key) (column given : ℕ) (columns : List ℕ) (m : Mark)
    (hcolumns : ∀ c ∈ columns, c < column ∧ c ≤ m.column) :
    ∃ kinds given' columns' m',
      kinds ++ List.replicate path.length .blockEnd = nestedKinds value path ∧
      columns'.length = columns.length + path.length ∧
      (between given columns false ⟨m, nestedText value column path⟩).Gives (6 * path.length + 2)
        kinds (between given' columns' true ⟨m', []⟩) := by
  induction path generalizing column given columns m with
  | nil =>
    obtain ⟨m', stop, hfind⟩ := exists_find_value given hvalue fun c hc ↦ (hcolumns c hc).2
    have hword : (between given columns false ⟨m, ' ' :: (value ++ ['\n'])⟩).Gives 1 [] _ :=
      gives_of_find rfl hfind
    refine ⟨[.scalar (.ofList value) .plain], given + 1, columns, m', rfl, rfl, ?_⟩
    exact hword.trans (gives_queue (List.append_nil _).symm rfl (by simp))
  | cons key path ih =>
    obtain ⟨hkey, hpath⟩ := List.forall_mem_cons.1 hpath
    obtain ⟨m₁, rfl, hpass⟩ := toNextToken_line hkey.toIsWord m column
      (':' :: nestedText value (column + 2) path) false
    obtain ⟨m₂, hbehind, hgives⟩ := exists_gives_key given columns
      ⟨m, nestedText value m₁.column (key :: path)⟩ hpass hkey (fun c hc ↦ (hcolumns c hc).1)
      (atWordEnd_nestedText _ _ _)
    -- What is behind the colon stands further right than the key, on its line or on the next.
    have hcolumns' : ∀ c ∈ m₁.column :: columns, c < m₁.column + 2 ∧ c ≤ m₂.column := by
      refine List.forall_mem_cons.2 ⟨⟨by omega, by omega⟩, fun c hc ↦ ?_⟩
      have hc := (hcolumns c hc).1
      omega
    obtain ⟨kinds, given', columns', m', hkinds, hlength, hnested⟩ :=
      ih hpath _ (given + 4) _ _ hcolumns'
    refine ⟨[.blockMappingStart, .key, .scalar (.ofList key) .plain, .value] ++ kinds, given',
      columns', m', ?_, ?_, ?_⟩
    · rw [List.append_assoc, List.length_cons, List.replicate_succ', ← List.append_assoc kinds,
        hkinds]
      rfl
    · rw [hlength, List.length_cons, List.length_cons]
      omega
    · have hrounds : 6 + (6 * path.length + 2) = 6 * (path.length + 1) + 2 := by omega
      exact hrounds ▸ hgives.trans hnested

end Scan

/-! ### The text -/

/-- All characters of a nested value may stand in a text. -/
theorem isAllowed_of_isWordChar {c : Char} (h : isWordChar c = true) : isAllowed c = true := by
  have hascii := toNat_of_isWordChar h
  simp [isAllowed, hascii]

/-- Every character of the text may stand in a document. -/
theorem isAllowed_nestedText {value : List Char} (hvalue : IsWord value)
    {path : List (List Char)} (hpath : ∀ key ∈ path, IsKey key) (column : ℕ) :
    ∀ c ∈ nestedText value column path, isAllowed c = true := by
  have hword {w : List Char} (hw : IsWord w) : ∀ c ∈ w, isAllowed c = true :=
    fun c hc ↦ isAllowed_of_isWordChar (hw.isWordChar c hc)
  induction path generalizing column with
  | nil =>
    rw [nestedText, List.forall_mem_cons, List.forall_mem_append]
    exact ⟨by decide, hword hvalue, List.forall_mem_singleton.2 (by decide)⟩
  | cons key path ih =>
    obtain ⟨hkey, hpath⟩ := List.forall_mem_cons.1 hpath
    rw [nestedText, List.forall_mem_cons, List.forall_mem_append, List.forall_mem_append,
      List.forall_mem_cons]
    refine ⟨by decide, fun c hc ↦ ?_, hword hkey.toIsWord, by decide, ih hpath (column + 2)⟩
    rw [List.eq_of_mem_replicate hc]
    decide

/-- The text is long enough for the fuel of its tokens. -/
theorem length_le_nestedText (value : List Char) (column : ℕ) (path : List (List Char)) :
    2 * path.length ≤ (nestedText value column path).length := by
  induction path generalizing column with
  | nil => exact Nat.zero_le _
  | cons key path ih =>
    have hnext := ih (column + 2)
    simp only [nestedText, List.length_cons, List.length_append, List.length_replicate]
    omega

/-- **The tokens of a nested value** under a path of keys. -/
theorem Token.exists_ofText_blockText {value key : List Char} {path : List (List Char)}
    (hvalue : IsWord value) (hkey : IsKey key) (hpath : ∀ key ∈ path, IsKey key) :
    ∃ tokens : List Token,
      tokens.map (·.kind) = .streamStart :: (nestedKinds value (key :: path) ++ [.streamEnd]) ∧
      Token.ofText (blockText value (key :: path)) = (tokens, none) := by
  have hallowed : (blockText value (key :: path)).all isAllowed = true := by
    rw [List.all_eq_true, blockText, List.forall_mem_append, List.forall_mem_cons]
    exact ⟨fun c hc ↦ isAllowed_of_isWordChar (hkey.isWordChar c hc), by decide,
      isAllowed_nestedText hvalue hpath 2⟩
  obtain ⟨m₁, -, hfirst⟩ := Scan.exists_gives_key 1 [] ⟨.start, blockText value (key :: path)⟩
    (Scan.toNextToken_of_isWord hkey.toIsWord false true) hkey (by simp)
    (atWordEnd_nestedText _ _ _)
  obtain ⟨kinds, given, columns, m₂, hkinds, hlength, hnested⟩ :=
    Scan.exists_gives_nested hvalue hpath 2 5 [0] m₁ (by simp)
  have hrounds : 6 + (6 * path.length + 2) + columns.length + 3 ≤
      6 * (blockText value (key :: path)).length + 12 := by
    have hnext := length_le_nestedText value 2 path
    rw [blockText, List.length_append, List.length_cons, hlength, List.length_singleton]
    omega
  have hend : Scan.toNextToken false false true m₂ [] = (true, ⟨m₂, []⟩) := by
    rw [Scan.toNextToken]
  obtain ⟨tokens, htokens, htext⟩ :=
    Token.exists_ofText_of_gives hallowed (hfirst.trans hnested) hend hrounds
  refine ⟨tokens, htokens.trans ?_, htext⟩
  rw [hlength, nestedKinds, ← hkinds, List.length_singleton, Nat.add_comm 1, List.replicate_succ']
  simp

end Hygrometer.Yaml
