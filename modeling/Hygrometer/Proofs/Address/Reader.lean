import Hygrometer.Proofs.Address.Grammar
import Mathlib.Data.List.Basic
import Mathlib.Data.List.TakeWhile

/-!
# Reading internet addresses

What a reader takes off the front of a text is of the grammar, and it takes what is of the grammar,
if what follows does not go on with it. For octets and for four of them the two sides are one
statement (`readOctet?_eq_some_iff`, `readFour?_eq_some_iff`). A run of fields has more than one
text, so there it takes two: groups that were read are denoted by some run (`exists_of_readGroups`),
and a run is read as the groups that it denotes (`readGroups_of_denotes`, by induction on what it
denotes).

**What may follow.** A reader takes the longest run of digits that it finds, so an octet must not be
gone on with by a digit (`EndsDigits`). A run of groups is over at the end or at a second colon
(`EndsRun`): a single colon would be that of one more group. The colon behind a group also decides
that the text is no IPv4 address there (`readFour?_of_isGroup`), although a group may well start as
an octet does.

**Runs are read from the front**, with the colon before each field but the first. The text of a run
is put together differently, with colons between its fields, so it is given the form in which it is
read (`Run.lead`): the first field has no colon before it and the others have. Four octets at the
end of a run are one more field there, which counts as two groups.

**Zeros that are left out.** Two runs with `::` between them denote eight groups if zeros in the
middle make them eight (`joinGroups?_eq_some_iff`), and at least one has to be there. The limit that
the second run is read with leaves room for it.

For whole texts nothing follows, and the two sides meet: **a text is read as the address that it
denotes** (`parse?_eq_some_iff`). The two kinds of addresses are tried in turn, and no text is of
both (`readFour?_of_denotes`), so the order in which they are tried does not matter. So no text
denotes two addresses, and the texts that are read are those of the grammar (`isSome_parse?_iff`).
-/

namespace Hygrometer.IpAddress

open Text (digitValue? natOfDigits?)

variable {cs rest : List Char}

/-! ### Digits -/

/-- The text does not go on with a digit of the base. -/
def EndsDigits (base : ℕ) (cs : List Char) : Prop :=
  ∀ c ∈ cs.head?, digitValue? base c = none

/-- The end does not go on with a digit. -/
theorem endsDigits_nil (base : ℕ) : EndsDigits base [] := by simp [EndsDigits]

/-- What begins with another character does not either. -/
theorem endsDigits_cons {base : ℕ} {c : Char} (h : digitValue? base c = none) (cs : List Char) :
    EndsDigits base (c :: cs) := by
  simpa [EndsDigits] using h

/-- The digits that a text starts with are found. -/
theorem takeWhile_digits {base : ℕ} {ds : List Char}
    (hds : ∀ c ∈ ds, (digitValue? base c).isSome) (hrest : EndsDigits base rest) :
    (ds ++ rest).takeWhile (fun c ↦ (digitValue? base c).isSome) = ds := by
  refine Text.takeWhile_run hds fun c hc ↦ ?_
  rw [hrest c hc, Option.isSome_none]

/-- **What digits are read.** -/
theorem readDigits?_eq_some_iff {base most n : ℕ} : readDigits? base most cs = some (n, rest) ↔
    ∃ ds, cs = ds ++ rest ∧ ds.length ≤ most ∧ natOfDigits? base ds = some n ∧
      EndsDigits base rest := by
  constructor
  · intro h
    have hsplit := List.takeWhile_append_dropWhile (p := fun c ↦ (digitValue? base c).isSome)
      (l := cs)
    generalize hds : cs.takeWhile (fun c ↦ (digitValue? base c).isSome) = ds at hsplit
    rw [readDigits?, hds, ← hsplit, List.drop_left] at h
    split at h
    next hlength =>
      obtain ⟨m, hm, heq⟩ := Option.map_eq_some_iff.1 h
      obtain ⟨rfl, rfl⟩ := Prod.mk.inj heq
      refine ⟨ds, hsplit.symm, hlength, hm, fun c hc ↦ ?_⟩
      rw [← List.find?_not_eq_head?_dropWhile] at hc
      simpa using List.find?_some hc
    next => cases h
  · rintro ⟨ds, rfl, hlength, hn, hrest⟩
    have hds := Text.isSome_natOfDigits?_iff.1 (Option.isSome_of_eq_some hn)
    simp only [readDigits?, takeWhile_digits hds.2 hrest, hlength, if_true, hn, Option.map_some,
      List.drop_left]

/-- Where no digit comes first, no number is read. -/
theorem readDigits?_of_endsDigits {base most : ℕ} (h : EndsDigits base cs) :
    readDigits? base most cs = none := by
  rcases hread : readDigits? base most cs with - | ⟨n, rest⟩
  · rfl
  · obtain ⟨ds, rfl, -, hn, -⟩ := readDigits?_eq_some_iff.1 hread
    obtain ⟨hne, hdigits⟩ := Text.isSome_natOfDigits?_iff.1 (Option.isSome_of_eq_some hn)
    obtain ⟨c, ds, rfl⟩ := List.exists_cons_of_ne_nil hne
    have hsome := hdigits c List.mem_cons_self
    rw [h c rfl] at hsome
    cases hsome

/-! ### Octets -/

/-- A character is read where it comes first. -/
theorem readChar?_eq_some_iff {c : Char} : readChar? c cs = some rest ↔ cs = c :: rest := by
  rcases cs with - | ⟨d, cs⟩
  · simp [readChar?]
  · by_cases h : d = c <;> simp [readChar?, h]

/-- **An octet is read from its numeral**, and from nothing else. -/
theorem readOctet?_eq_some_iff {b : UInt8} : readOctet? cs = some (b, rest) ↔
    cs = Nat.toDigits 10 b.toNat ++ rest ∧ EndsDigits 10 rest := by
  constructor
  · intro h
    rw [readOctet?] at h
    obtain ⟨⟨n, left⟩, hread, h⟩ := Option.bind_eq_some_iff.1 h
    simp only [Option.bind_eq_bind, Option.bind_eq_some_iff, Option.guard_eq_some'] at h
    obtain ⟨-, hn, -, hzero, heq⟩ := h
    obtain ⟨ds, rfl, -, hds, hrest⟩ := readDigits?_eq_some_iff.1 hread
    obtain ⟨rfl, rfl⟩ := Prod.mk.inj (Option.some.inj heq)
    obtain ⟨hne, hdigits, rfl⟩ := Text.natOfDigits?_eq_some_iff.1 hds
    -- The check for a leading zero is what makes the digits a numeral.
    have hhead : ds.head? ≠ some '0' ∨ ds.length = 1 := by
      rw [List.head?_append_of_ne_nil _ hne, List.length_append] at hzero
      exact hzero.imp_right fun h ↦ by omega
    rw [UInt8.toNat_ofNat_of_lt' (Nat.lt_succ_of_le hn),
      Text.toDigits_ofDigitChars hne hdigits hhead]
    exact ⟨rfl, hrest⟩
  · rintro ⟨rfl, hrest⟩
    have hle : b.toNat ≤ 255 := Nat.le_of_lt_succ b.toNat_lt
    have hlength : (Nat.toDigits 10 b.toNat).length ≤ 3 :=
      (Nat.length_toDigits_le_iff (by decide) (by decide)).2 (by omega)
    have hread : readDigits? 10 3 (Nat.toDigits 10 b.toNat ++ rest) = some (b.toNat, rest) :=
      readDigits?_eq_some_iff.2
        ⟨_, rfl, hlength, Text.natOfDigits?_toDigits (by decide) (by decide) _, hrest⟩
    have hhead : (Nat.toDigits 10 b.toNat ++ rest).head? ≠ some '0' ∨
        (Nat.toDigits 10 b.toNat ++ rest).length = rest.length + 1 := by
      rw [List.head?_append_of_ne_nil _ Nat.toDigits_ne_nil]
      rcases Nat.eq_zero_or_pos b.toNat with hzero | hpos
      · right
        rw [hzero, List.length_append]
        exact Nat.add_comm 1 _
      · exact .inl (Text.head?_toDigits_ne hpos)
    simp only [readOctet?, hread, Option.bind_eq_bind, Option.bind_some, guard, hle, hhead, if_true,
      UInt8.ofNat_toNat]
    rfl

/-- **Four octets are read from the text of them.** -/
theorem readFour?_eq_some_iff {octets : Vector UInt8 4} : readFour? cs = some (octets, rest) ↔
    cs = (v4 octets).text.toList ++ rest ∧ EndsDigits 10 rest := by
  constructor
  · intro h
    simp only [readFour?, Option.bind_eq_bind, Option.bind_eq_some_iff,
      readChar?_eq_some_iff] at h
    obtain ⟨⟨a, cs₁⟩, ha, cs₂, rfl, ⟨b, cs₃⟩, hb, cs₄, rfl, ⟨c, cs₅⟩, hc, cs₆, rfl, ⟨d, cs₇⟩, hd,
      heq⟩ := h
    obtain ⟨rfl, rfl⟩ := Prod.mk.inj (Option.some.inj heq)
    obtain ⟨rfl, -⟩ := readOctet?_eq_some_iff.1 ha
    obtain ⟨rfl, -⟩ := readOctet?_eq_some_iff.1 hb
    obtain ⟨rfl, -⟩ := readOctet?_eq_some_iff.1 hc
    obtain ⟨rfl, hrest⟩ := readOctet?_eq_some_iff.1 hd
    exact ⟨by simp [toList_text_v4], hrest⟩
  · rintro ⟨rfl, hrest⟩
    obtain ⟨a, b, c, d, rfl⟩ := exists_eq_vector octets
    have hoctet (b : UInt8) {rest : List Char} (hrest : EndsDigits 10 rest) :
        readOctet? (Nat.toDigits 10 b.toNat ++ rest) = some (b, rest) :=
      readOctet?_eq_some_iff.2 ⟨rfl, hrest⟩
    have hpoint (cs : List Char) : EndsDigits 10 ('.' :: cs) := endsDigits_cons (by decide) cs
    simp only [readFour?, toList_text_v4, List.append_assoc, List.cons_append, hoctet _ (hpoint _),
      hoctet _ hrest, readChar?, if_true, Option.bind_eq_bind, Option.bind_some]
    rfl

/-- Where no digit comes first, there is no octet. -/
theorem readFour?_of_endsDigits (h : EndsDigits 10 cs) : readFour? cs = none := by
  rcases hread : readFour? cs with - | ⟨octets, rest⟩
  · rfl
  · obtain ⟨rfl, -⟩ := readFour?_eq_some_iff.1 hread
    obtain ⟨a, b, c, d, rfl⟩ := exists_eq_vector octets
    obtain ⟨e, ds, hds⟩ := List.exists_cons_of_ne_nil
      (Nat.toDigits_ne_nil (n := a.toNat) (b := 10))
    have hdigit := Text.digitValue?_of_isDigit
      (Text.isDigit_of_mem_toDigits (hds ▸ List.mem_cons_self : e ∈ Nat.toDigits 10 a.toNat))
    rw [h e (by simp [toList_text_v4, hds])] at hdigit
    cases hdigit

/-! ### Groups -/

/-- A colon is no digit of either base. -/
theorem endsDigits_of_colon {base : ℕ} (h : base = 10 ∨ base = 16)
    (hcs : ∀ c ∈ cs.head?, c = ':') : EndsDigits base cs := by
  rintro c hc
  obtain rfl := hcs c hc
  rcases h with rfl | rfl <;> decide

/-- The characters of a group have values in base sixteen. -/
theorem IsGroup.isSome_digitValue? {g : List Char} (h : IsGroup g) :
    ∀ c ∈ g, (digitValue? 16 c).isSome :=
  fun c hc ↦ Text.isSome_digitValue?_sixteen_iff.2 (h.isHexDigit c hc)

/-- A group that was read is one, and sixteen bits hold it. -/
theorem exists_of_readDigits? {n : ℕ} (h : readDigits? 16 4 cs = some (n, rest)) :
    ∃ g, IsGroup g ∧ natOfDigits? 16 g = some (UInt16.ofNat n).toNat ∧ cs = g ++ rest := by
  obtain ⟨g, rfl, hlength, hn, -⟩ := readDigits?_eq_some_iff.1 h
  obtain ⟨hne, hdigits⟩ := Text.isSome_natOfDigits?_iff.1 (Option.isSome_of_eq_some hn)
  have hg : IsGroup g :=
    ⟨hne, hlength, fun c hc ↦ Text.isSome_digitValue?_sixteen_iff.1 (hdigits c hc)⟩
  obtain ⟨m, hm⟩ := hg.exists_natOfDigits?_eq
  obtain rfl : m.toNat = n := Option.some.inj (hm.symm.trans hn)
  exact ⟨g, hg, by rw [hn, UInt16.ofNat_toNat], rfl⟩

/-- A group with a colon behind it starts no IPv4 address. -/
theorem readFour?_of_isGroup {g : List Char} (h : IsGroup g)
    (hrest : ∀ c ∈ rest.head?, c = ':') : readFour? (g ++ rest) = none := by
  rcases hread : readFour? (g ++ rest) with - | ⟨octets, left⟩
  · rfl
  · obtain ⟨heq, -⟩ := readFour?_eq_some_iff.1 hread
    obtain ⟨a, b, c, d, rfl⟩ := exists_eq_vector octets
    -- Both sides are hexadecimal digits and then something else: a colon, and a point.
    have hdigits : ∀ c ∈ Nat.toDigits 10 a.toNat, (digitValue? 16 c).isSome := by
      intro c hc
      have hdigit := Text.isDigit_of_mem_toDigits hc
      refine Text.isSome_digitValue?_sixteen_iff.2 (.inl ?_)
      simpa [Char.isDigit, Char.le_def] using hdigit
    have hgroup := takeWhile_digits h.isSome_digitValue? (endsDigits_of_colon (.inr rfl) hrest)
    have hpoint (cs : List Char) : EndsDigits 16 ('.' :: cs) := endsDigits_cons (by decide) cs
    rw [heq, toList_text_v4, List.append_assoc, List.cons_append,
      takeWhile_digits hdigits (hpoint _)] at hgroup
    rw [← hgroup, toList_text_v4, List.append_assoc, List.append_cancel_left_eq] at heq
    cases hrest '.' (by simp [heq])

/-! ### Runs -/

namespace Run

/-- The text of the run, with a colon before it unless it is the first. -/
def lead (first : Bool) (r : Run) : List Char :=
  if first then r.text else r.fields.flatMap (':' :: ·)

/-- A run without fields has no text. -/
theorem lead_nil (first : Bool) : lead first ⟨[], none⟩ = [] := by
  rcases first with - | - <;> rfl

/-- The first colon is all that an IPv4 address has to do with the fields around it. -/
theorem lead_four (first : Bool) (q : List Char) :
    lead first ⟨[], some q⟩ = (if first then [] else [':']) ++ q := by
  rcases first with - | - <;> simp [lead, text, fields]

/-- Behind the first field, each has a colon before it. -/
theorem intercalate_cons (f : List Char) (fs : List (List Char)) :
    [':'].intercalate (f :: fs) = f ++ fs.flatMap (':' :: ·) := by
  induction fs generalizing f with
  | nil => simp
  | cons f' fs ih => rw [List.intercalate_cons_cons, ih]; simp

/-- A run is read from its first field on. -/
theorem lead_cons (first : Bool) (g : List Char) (r : Run) :
    (r.cons g).lead first = (if first then [] else [':']) ++ (g ++ r.lead false) := by
  have hfields : (r.cons g).fields = g :: r.fields := rfl
  rcases first with - | -
  · simp [lead, hfields]
  · simp [lead, text, hfields, intercalate_cons]

/-- The text of a run goes on with a colon, and ends. -/
theorem head?_lead_append {r : Run} (hrest : ∀ c ∈ rest.head?, c = ':') :
    ∀ c ∈ (r.lead false ++ rest).head?, c = ':' := by
  rcases hfields : r.fields with - | ⟨f, fs⟩
  · simpa [lead, hfields] using hrest
  · simp [lead, hfields]

end Run

/-- A colon is passed, except before the first field. -/
theorem skipColon?_eq_some_iff {first : Bool} :
    skipColon? first cs = some rest ↔ cs = (if first then [] else [':']) ++ rest := by
  rcases first with - | -
  · simp [skipColon?, readChar?_eq_some_iff]
  · simp [skipColon?]

/-- What stands behind the colon is left. -/
theorem skipColon?_append (first : Bool) (cs : List Char) :
    skipColon? first ((if first then [] else [':']) ++ cs) = some cs :=
  skipColon?_eq_some_iff.2 rfl

/-- **Groups that were read are denoted by what they were read from.** -/
theorem exists_of_readGroups {limit : ℕ} {first embedded : Bool} {groups : List UInt16}
    (h : readGroups limit first cs = (groups, embedded, rest)) :
    ∃ r : Run, r.Denotes groups ∧ groups.length ≤ limit ∧ embedded = r.four.isSome ∧
      cs = r.lead first ++ rest := by
  induction limit generalizing first cs groups with
  | zero =>
    cases h
    exact ⟨_, .nil, le_rfl, rfl, by rw [Run.lead_nil, List.nil_append]⟩
  | succ limit ih =>
    rw [readGroups] at h
    -- Four octets are looked for first, and end the run.
    split at h
    next octets left hfour =>
      cases h
      simp only [Option.bind_eq_bind, Option.bind_eq_some_iff, Option.guard_eq_some'] at hfour
      obtain ⟨-, hlimit, cs', hskip, hread⟩ := hfour
      obtain ⟨rfl, -⟩ := readFour?_eq_some_iff.1 hread
      obtain rfl := skipColon?_eq_some_iff.1 hskip
      exact ⟨_, .four octets, Nat.succ_le_succ hlimit, rfl,
        by rw [Run.lead_four, List.append_assoc]⟩
    next =>
      split at h
      next g left hgroup =>
        obtain ⟨cs', hskip, hread⟩ := Option.bind_eq_some_iff.1 hgroup
        obtain rfl := skipColon?_eq_some_iff.1 hskip
        obtain ⟨ds, hds, hvalue, rfl⟩ := exists_of_readDigits? hread
        rcases htail : readGroups limit false left with ⟨tail, embedded', rest'⟩
        rw [htail] at h
        cases h
        obtain ⟨r, hr, hle, hembedded, rfl⟩ := ih htail
        exact ⟨_, .cons hds hvalue hr, Nat.succ_le_succ hle, hembedded,
          by rw [Run.lead_cons, List.append_assoc, List.append_assoc]⟩
      next =>
        cases h
        exact ⟨_, .nil, Nat.zero_le _, rfl, by rw [Run.lead_nil, List.nil_append]⟩

/-- No field follows: the text ends, or a second colon comes. -/
def EndsRun (cs : List Char) : Prop := cs = [] ∨ ∃ rest, cs = ':' :: ':' :: rest

/-- If the text goes on behind a run, it is with a colon. -/
theorem EndsRun.head? (h : EndsRun rest) : ∀ c ∈ rest.head?, c = ':' := by
  rcases h with rfl | ⟨rest, rfl⟩ <;> simp

/-- Where no field follows, none is read. -/
theorem readGroups_of_endsRun (h : EndsRun rest) (limit : ℕ) (first : Bool) :
    readGroups limit first rest = ([], false, rest) := by
  rcases limit with - | limit
  · rfl
  -- Behind the colon that is skipped there is a second one, and no field begins with it.
  · have hfield : ∀ cs, skipColon? first rest = some cs →
        readFour? cs = none ∧ readDigits? 16 4 cs = none := by
      intro cs hcs
      have hcolon : ∀ c ∈ cs.head?, c = ':' := by
        obtain heq := skipColon?_eq_some_iff.1 hcs
        rcases first with - | -
        · rcases h with rfl | ⟨rest, rfl⟩
          · cases heq
          · obtain rfl := (List.cons.inj heq).2
            simp
        · obtain rfl : rest = cs := heq
          exact h.head?
      exact ⟨readFour?_of_endsDigits (endsDigits_of_colon (.inl rfl) hcolon),
        readDigits?_of_endsDigits (endsDigits_of_colon (.inr rfl) hcolon)⟩
    rcases hskip : skipColon? first rest with - | cs
    · simp [readGroups, hskip]
    · simp [readGroups, hskip, (hfield cs hskip).1, (hfield cs hskip).2]

/-- **A run is read as the groups that it denotes**, up to where it ends. -/
theorem readGroups_of_denotes {r : Run} {groups : List UInt16} (h : r.Denotes groups) {limit : ℕ}
    (hlimit : groups.length ≤ limit) (first : Bool) (hrest : EndsRun rest) :
    readGroups limit first (r.lead first ++ rest) = (groups, r.four.isSome, rest) := by
  induction h generalizing limit first with
  | nil =>
    rw [Run.lead_nil, List.nil_append, readGroups_of_endsRun hrest]
    rfl
  | four octets =>
    obtain ⟨limit, rfl⟩ : ∃ n, limit = n + 2 := ⟨limit - 2, (Nat.sub_add_cancel hlimit).symm⟩
    have hread : readFour? ((v4 octets).text.toList ++ rest) = some (octets, rest) :=
      readFour?_eq_some_iff.2 ⟨rfl, endsDigits_of_colon (.inl rfl) hrest.head?⟩
    rw [Run.lead_four, List.append_assoc]
    simp [readGroups, guard, skipColon?_append, hread]
  | @cons g n r groups hg hn h ih =>
    obtain ⟨limit, rfl⟩ : ∃ k, limit = k + 1 :=
      ⟨limit - 1, (Nat.sub_add_cancel (Nat.one_le_of_lt hlimit)).symm⟩
    have htail := ih (Nat.le_of_succ_le_succ hlimit) false
    have hcolon := Run.head?_lead_append (r := r) hrest.head?
    have hread := readDigits?_eq_some_iff.2
      ⟨g, rfl, hg.length_le, hn, endsDigits_of_colon (.inr rfl) hcolon⟩
    rw [Run.lead_cons, List.append_assoc, List.append_assoc]
    simp [readGroups, skipColon?_append, readFour?_of_isGroup hg hcolon, hread, htail]
    rfl

/-! ### Whole texts -/

/-- Groups are joined to eight by zeros between them. -/
theorem joinGroups?_eq_some_iff {before after : List UInt16} {groups : Vector UInt16 8} :
    joinGroups? before after = some groups ↔
      ∃ zeros, groups.toList = before ++ List.replicate zeros 0 ++ after := by
  constructor
  · intro h
    rw [joinGroups?] at h
    split at h
    · obtain rfl := Option.some.inj h
      exact ⟨_, rfl⟩
    · cases h
  · rintro ⟨zeros, h⟩
    have height := groups.length_toList
    rw [h, List.length_append, List.length_append, List.length_replicate] at height
    obtain rfl : zeros = 8 - before.length - after.length := by omega
    have hlength := groups.length_toList
    rw [h] at hlength
    rw [joinGroups?]
    simp only [hlength, dif_pos, Option.some.injEq]
    rw [← Vector.toList_inj, h]
    rfl

/-- **Eight groups are read from a text that denotes them.** -/
theorem readEight?_eq_some_iff {groups : Vector UInt16 8} :
    readEight? cs = some (groups, []) ↔ Denotes cs (v6 groups) := by
  have hend : EndsRun [] := .inl rfl
  constructor
  · intro h
    rw [readEight?] at h
    rcases hfront : readGroups 8 true cs with ⟨before, embedded, rest⟩
    obtain ⟨front, hbefore, hle, hembedded, rfl⟩ := exists_of_readGroups hfront
    simp only [hfront, Option.bind_eq_bind] at h
    split at h
    next hfull =>
      obtain ⟨_, hjoin, heq⟩ := Option.map_eq_some_iff.1 h
      obtain ⟨rfl, rfl⟩ := Prod.mk.inj heq
      obtain ⟨zeros, hgroups⟩ := joinGroups?_eq_some_iff.1 hjoin
      have hlength := congrArg List.length hgroups
      simp only [Vector.length_toList, List.length_append, List.length_replicate, hfull,
        List.length_nil] at hlength
      -- Eight groups were read before the colons would come, so none is left out.
      obtain rfl : zeros = 0 := by omega
      rw [List.replicate_zero, List.append_nil, List.append_nil] at hgroups
      rw [List.append_nil]
      exact .full (hgroups ▸ hbefore)
    next hpart =>
      simp only [Option.bind_eq_some_iff, Option.guard_eq_some', readChar?_eq_some_iff] at h
      obtain ⟨-, hplain, _, rfl, left, rfl, h⟩ := h
      obtain ⟨_, hjoin, heq⟩ := Option.map_eq_some_iff.1 h
      rcases hback : readGroups (7 - before.length) true left with ⟨after, embedded', rest'⟩
      simp only [hback, Prod.mk.injEq] at hjoin heq
      obtain ⟨rfl, rfl⟩ := heq
      obtain ⟨back, hafter, hle', -, rfl⟩ := exists_of_readGroups hback
      obtain ⟨zeros, hgroups⟩ := joinGroups?_eq_some_iff.1 hjoin
      have hlength := congrArg List.length hgroups
      simp only [Vector.length_toList, List.length_append, List.length_replicate] at hlength
      -- Seven groups were the limit, so at least one zero stands between them.
      obtain ⟨zeros, rfl⟩ : ∃ k, zeros = k + 1 := ⟨zeros - 1, by omega⟩
      have hfour : front.four = none := by simpa [hembedded] using hplain
      rw [List.append_nil]
      exact .short hbefore hafter hfour hgroups
  · intro h
    have height := groups.length_toList
    cases h with
    | @full r _ h =>
      have hread := readGroups_of_denotes h height.le true hend
      rw [List.append_nil] at hread
      have hread : readGroups 8 true r.text = (groups.toList, r.four.isSome, []) := hread
      have hjoin : joinGroups? groups.toList [] = some groups :=
        joinGroups?_eq_some_iff.2 ⟨0, by simp⟩
      simp only [readEight?, hread, height, if_true, hjoin, Option.map_some]
    | @short front back before after zeros _ hfront hback hplain hgroups =>
      have hjoin := joinGroups?_eq_some_iff.2 ⟨_, hgroups⟩
      rw [hgroups, List.length_append, List.length_append, List.length_replicate] at height
      have hread := readGroups_of_denotes hfront (show before.length ≤ 8 by omega) true
        (.inr ⟨back.text, rfl⟩)
      have hread' := readGroups_of_denotes hback (show after.length ≤ 7 - before.length by omega)
        true hend
      rw [List.append_nil] at hread'
      rw [hplain] at hread
      have hread : readGroups 8 true (front.text ++ ':' :: ':' :: back.text) =
          (before, false, ':' :: ':' :: back.text) := hread
      have hread' : readGroups (7 - before.length) true back.text =
          (after, back.four.isSome, []) := hread'
      have hpart : before.length ≠ 8 := by omega
      simp only [readEight?, hread, hpart, if_false, readChar?, if_true, hread', hjoin,
        Option.bind_eq_bind, Option.bind_some, Option.map_some]
      rfl

/-- A run is no IPv4 address, and does not start with one, unless it is one and nothing else. -/
theorem readFour?_text_append {r : Run} {groups : List UInt16} (h : r.Denotes groups)
    (hmore : r.four = none ∨ 2 < groups.length) (hrest : ∀ c ∈ rest.head?, c = ':') :
    readFour? (r.text ++ rest) = none := by
  cases h with
  | nil => exact readFour?_of_endsDigits (endsDigits_of_colon (.inl rfl) hrest)
  | four octets =>
    rcases hmore with hplain | hlength
    · cases hplain
    · exact absurd hlength (lt_irrefl 2)
  | @cons g _ r _ hg _ h =>
    have htext : (r.cons g).text = g ++ r.lead false := Run.lead_cons true g r
    rw [htext, List.append_assoc]
    exact readFour?_of_isGroup hg (Run.head?_lead_append hrest)

/-- **No text of an IPv6 address starts with an IPv4 address**, so it does not matter which is tried
first. -/
theorem readFour?_of_denotes {groups : Vector UInt16 8} (h : Denotes cs (v6 groups)) :
    readFour? cs = none := by
  cases h with
  | @full r _ h =>
    have hmore : readFour? (r.text ++ []) = none :=
      readFour?_text_append h (.inr (by simp)) (by simp)
    rwa [List.append_nil] at hmore
  | short hfront _ hplain _ => exact readFour?_text_append hfront (.inl hplain) (by simp)

/-- **A text is read as the address that it denotes.** -/
theorem parse?_eq_some_iff {s : String} {address : IpAddress} :
    parse? s = some address ↔ Denotes s.toList address := by
  rw [parse?]
  constructor
  · intro h
    rcases hfour : readFour? s.toList with - | ⟨octets, rest⟩
    · rcases height : readEight? s.toList with - | ⟨groups, rest⟩
      · simp [hfour, height] at h
      · rcases rest with - | ⟨c, rest⟩
        · simp only [hfour, height, Option.map_some, Option.some.injEq] at h
          exact h ▸ readEight?_eq_some_iff.1 height
        · simp [hfour, height] at h
    · rcases rest with - | ⟨c, rest⟩
      · simp only [hfour, Option.some.injEq] at h
        obtain ⟨htext, -⟩ := readFour?_eq_some_iff.1 hfour
        rw [← h, htext, List.append_nil]
        exact .four octets
      · simp [hfour] at h
  · rcases address with octets | groups
    · intro h
      generalize s.toList = cs at h ⊢
      cases h
      have hread := readFour?_eq_some_iff.2
        ⟨(List.append_nil (v4 octets).text.toList).symm, endsDigits_nil 10⟩
      simp [hread]
    · intro h
      simp [readFour?_of_denotes h, readEight?_eq_some_iff.2 h]

/-- **The texts that are read are those of the grammar.** -/
theorem isSome_parse?_iff {s : String} : (parse? s).isSome ↔ IsText s := by
  simp only [Option.isSome_iff_exists, parse?_eq_some_iff, isText_iff]

end Hygrometer.IpAddress
