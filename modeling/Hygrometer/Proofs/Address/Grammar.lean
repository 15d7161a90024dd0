import Hygrometer.Address.Parser
import Hygrometer.Address.Printer
import Hygrometer.Proofs.Text.Basic

/-!
# The grammar of internet addresses

Which texts are addresses, and which address each of them denotes, said without a reader.

**Texts.** An IPv4 address is four numerals of octets between points (`IsFour`). An IPv6 address is
made of runs of fields between colons (`Run`): groups of hexadecimal digits, and behind them an IPv4
address if there is one. It is one run that stands for eight groups, or two runs around a `::` that
stand for seven at most (`IsEight`).

**What they denote.** Octets have one spelling each, so an IPv4 address is denoted by its own text
and no other. A group is denoted by any digits that make it, of either case and with zeros in front,
and an address of eight groups has many texts: an IPv4 address at the end fills two groups, and a
`::` may stand for any run of zero groups, or for a single one (`Run.Denotes`, `Denotes`). The
relations follow the texts, so that a proof about what is read is an induction on them.

The two agree: the texts of the grammar are those that denote an address at all (`isText_iff`).
-/

namespace Hygrometer.IpAddress

open Text (natOfDigits? IsHexDigit)

/-! ### Texts of addresses -/

/-- The numeral of an octet. -/
def IsOctet (cs : List Char) : Prop := ∃ n ≤ 255, cs = Nat.toDigits 10 n

/-- Four octets between points. -/
def IsFour (cs : List Char) : Prop :=
  ∃ a b c d, IsOctet a ∧ IsOctet b ∧ IsOctet c ∧ IsOctet d ∧
    cs = a ++ '.' :: (b ++ '.' :: (c ++ '.' :: d))

/-- A group: one to four hexadecimal digits. -/
structure IsGroup (cs : List Char) : Prop where
  /-- There is a digit. -/
  ne_nil : cs ≠ []
  /-- There are no more than four. -/
  length_le : cs.length ≤ 4
  /-- They are nothing else. -/
  isHexDigit : ∀ c ∈ cs, IsHexDigit c

/-- Fields between colons: groups, and behind them an IPv4 address if there is one. -/
structure Run where
  /-- The groups. -/
  groups : List (List Char)
  /-- The IPv4 address. -/
  four : Option (List Char)

namespace Run

/-- The fields. -/
def fields (r : Run) : List (List Char) := r.groups ++ r.four.toList

/-- The text. -/
def text (r : Run) : List Char := [':'].intercalate r.fields

/-- How many groups the run stands for. An IPv4 address stands for two. -/
def size (r : Run) : ℕ := r.groups.length + 2 * r.four.toList.length

/-- The fields are what they should be. -/
structure IsWellFormed (r : Run) : Prop where
  /-- The groups are groups. -/
  groups : ∀ g ∈ r.groups, IsGroup g
  /-- The IPv4 address is one. -/
  four : ∀ q ∈ r.four, IsFour q

end Run

/-- Eight groups between colons, or fewer around a `::`, which stands for one at least and has no
IPv4 address before it. -/
def IsEight (cs : List Char) : Prop :=
  (∃ r : Run, r.IsWellFormed ∧ r.size = 8 ∧ cs = r.text) ∨
    ∃ front back : Run, front.IsWellFormed ∧ back.IsWellFormed ∧ front.four = none ∧
      front.size + back.size ≤ 7 ∧ cs = front.text ++ ':' :: ':' :: back.text

/-- The text of an internet address. -/
def IsText (s : String) : Prop := IsFour s.toList ∨ IsEight s.toList

/-! ### What the texts denote -/

/-- The run behind one more group. -/
def Run.cons (g : List Char) (r : Run) : Run := { r with groups := g :: r.groups }

/-- The groups that a run denotes. -/
inductive Run.Denotes : Run → List UInt16 → Prop
  /-- No field denotes no group. -/
  | nil : Denotes ⟨[], none⟩ []
  /-- An IPv4 address denotes the two groups that its octets fill. -/
  | four (octets : Vector UInt8 4) : Denotes ⟨[], some (v4 octets).text.toList⟩ (groupPair octets)
  /-- Digits denote the number that they make. -/
  | cons {g : List Char} {n : UInt16} {r : Run} {groups : List UInt16} (hg : IsGroup g)
      (hn : natOfDigits? 16 g = some n.toNat) (h : Denotes r groups) :
      Denotes (r.cons g) (n :: groups)

/-- The address that a text denotes. -/
inductive Denotes : List Char → IpAddress → Prop
  /-- Four octets are denoted by their numerals. -/
  | four (octets : Vector UInt8 4) : Denotes (v4 octets).text.toList (v4 octets)
  /-- Eight groups are denoted one by one. -/
  | full {r : Run} {groups : Vector UInt16 8} (h : r.Denotes groups.toList) :
      Denotes r.text (v6 groups)
  /-- Groups are denoted by those before and those after a run of zeros. -/
  | short {front back : Run} {before after : List UInt16} {zeros : ℕ} {groups : Vector UInt16 8}
      (hfront : front.Denotes before) (hback : back.Denotes after) (hplain : front.four = none)
      (hgroups : groups.toList = before ++ List.replicate (zeros + 1) 0 ++ after) :
      Denotes (front.text ++ ':' :: ':' :: back.text) (v6 groups)

/-! ### Octets -/

variable {cs : List Char}

theorem exists_eq_vector (octets : Vector UInt8 4) : ∃ a b c d, octets = #v[a, b, c, d] := by
  obtain ⟨⟨octets⟩, hsize⟩ := octets
  match octets, hsize with
  | [a, b, c, d], _ => exact ⟨a, b, c, d, rfl⟩

/-- The text of four octets, spelled out. -/
theorem toList_text_v4 (a b c d : UInt8) :
    (v4 #v[a, b, c, d]).text.toList = Nat.toDigits 10 a.toNat ++ '.' ::
      (Nat.toDigits 10 b.toNat ++ '.' ::
        (Nat.toDigits 10 c.toNat ++ '.' :: Nat.toDigits 10 d.toNat)) := by
  simp [text, fourText, Vector.toList]

/-- **Four octets are the text of an IPv4 address.** -/
theorem isFour_iff : IsFour cs ↔ ∃ octets, cs = (v4 octets).text.toList := by
  have hoctet {q : List Char} : IsOctet q ↔ ∃ b : UInt8, q = Nat.toDigits 10 b.toNat := by
    constructor
    · rintro ⟨n, hn, rfl⟩
      exact ⟨.ofNat n, by rw [UInt8.toNat_ofNat_of_lt' (Nat.lt_succ_of_le hn)]⟩
    · rintro ⟨b, rfl⟩
      exact ⟨b.toNat, Nat.le_of_lt_succ b.toNat_lt, rfl⟩
  constructor
  · rintro ⟨_, _, _, _, ha, hb, hc, hd, rfl⟩
    obtain ⟨a, rfl⟩ := hoctet.1 ha
    obtain ⟨b, rfl⟩ := hoctet.1 hb
    obtain ⟨c, rfl⟩ := hoctet.1 hc
    obtain ⟨d, rfl⟩ := hoctet.1 hd
    exact ⟨#v[a, b, c, d], (toList_text_v4 a b c d).symm⟩
  · rintro ⟨octets, rfl⟩
    obtain ⟨a, b, c, d, rfl⟩ := exists_eq_vector octets
    exact ⟨_, _, _, _, hoctet.2 ⟨a, rfl⟩, hoctet.2 ⟨b, rfl⟩, hoctet.2 ⟨c, rfl⟩, hoctet.2 ⟨d, rfl⟩,
      toList_text_v4 a b c d⟩

/-! ### Runs -/

/-- Sixteen bits hold any group. -/
theorem IsGroup.exists_natOfDigits?_eq {g : List Char} (h : IsGroup g) :
    ∃ n : UInt16, natOfDigits? 16 g = some n.toNat := by
  obtain ⟨n, hn⟩ := Option.isSome_iff_exists.1 (Text.isSome_natOfDigits?_iff.2 ⟨h.ne_nil,
    fun c hc ↦ Text.isSome_digitValue?_sixteen_iff.2 (h.isHexDigit c hc)⟩)
  have hlt : n < UInt16.size :=
    (Text.natOfDigits?_lt hn).trans_le (Nat.pow_le_pow_right (by decide) h.length_le)
  exact ⟨.ofNat n, by rw [hn, UInt16.toNat_ofNat_of_lt' hlt]⟩

namespace Run

variable {r : Run} {groups : List UInt16}

@[simp] theorem size_cons (g : List Char) (r : Run) : (r.cons g).size = r.size + 1 := by
  simp only [size, cons, List.length_cons]
  omega

theorem IsWellFormed.cons {g : List Char} (hg : IsGroup g) (h : r.IsWellFormed) :
    (r.cons g).IsWellFormed :=
  ⟨List.forall_mem_cons.2 ⟨hg, h.groups⟩, h.four⟩

/-- What denotes groups is well formed. -/
theorem Denotes.isWellFormed (h : r.Denotes groups) : r.IsWellFormed := by
  induction h with
  | nil => exact ⟨by simp, by simp⟩
  | four octets => exact ⟨by simp, by simpa using isFour_iff.2 ⟨octets, rfl⟩⟩
  | cons hg hn h ih => exact ih.cons hg

/-- It denotes as many as it stands for. -/
theorem Denotes.length_eq (h : r.Denotes groups) : groups.length = r.size := by
  induction h with
  | nil => rfl
  | four octets => rfl
  | cons hg hn h ih => rw [List.length_cons, size_cons, ih]

/-- **A well-formed run denotes groups.** -/
theorem IsWellFormed.exists_denotes (h : r.IsWellFormed) : ∃ groups, r.Denotes groups := by
  obtain ⟨fields, four⟩ := r
  induction fields with
  | nil =>
    rcases four with - | q
    · exact ⟨_, .nil⟩
    · obtain ⟨octets, rfl⟩ := isFour_iff.1 (h.four q rfl)
      exact ⟨_, .four octets⟩
  | cons g fields ih =>
    obtain ⟨hg, hfields⟩ := List.forall_mem_cons.1 h.groups
    obtain ⟨groups, hgroups⟩ := ih ⟨hfields, h.four⟩
    obtain ⟨n, hn⟩ := hg.exists_natOfDigits?_eq
    exact ⟨_, .cons hg hn hgroups⟩

end Run

/-! ### Whole texts -/

/-- Eight groups as a list. -/
theorem exists_toList_eq {groups : List UInt16} (h : groups.length = 8) :
    ∃ v : Vector UInt16 8, v.toList = groups :=
  ⟨⟨groups.toArray, by simpa using h⟩, rfl⟩

/-- Eight groups are a text of an IPv6 address. -/
theorem isEight_iff : IsEight cs ↔ ∃ groups, Denotes cs (v6 groups) := by
  constructor
  · rintro (⟨r, hr, hsize, rfl⟩ | ⟨front, back, hfront, hback, hplain, hsize, rfl⟩)
    · obtain ⟨groups, hgroups⟩ := hr.exists_denotes
      obtain ⟨v, rfl⟩ := exists_toList_eq (hgroups.length_eq.trans hsize)
      exact ⟨v, .full hgroups⟩
    · obtain ⟨before, hbefore⟩ := hfront.exists_denotes
      obtain ⟨after, hafter⟩ := hback.exists_denotes
      have hlength : (before ++ List.replicate (7 - front.size - back.size + 1) 0 ++ after).length =
          8 := by
        simp only [List.length_append, List.length_replicate, hbefore.length_eq, hafter.length_eq]
        omega
      obtain ⟨v, hv⟩ := exists_toList_eq hlength
      exact ⟨v, .short hbefore hafter hplain hv⟩
  · rintro ⟨groups, h⟩
    have height := groups.length_toList
    cases h with
    | full h => exact .inl ⟨_, h.isWellFormed, h.length_eq.symm.trans height, rfl⟩
    | short hfront hback hplain hgroups =>
      refine .inr ⟨_, _, hfront.isWellFormed, hback.isWellFormed, hplain, ?_, rfl⟩
      rw [hgroups, List.length_append, List.length_append, List.length_replicate, hfront.length_eq,
        hback.length_eq] at height
      omega

/-- **The texts of the grammar are those that denote an address.** -/
theorem isText_iff {s : String} : IsText s ↔ ∃ address, Denotes s.toList address := by
  rw [IsText, isFour_iff, isEight_iff]
  constructor
  · rintro (⟨octets, h⟩ | ⟨groups, h⟩)
    · exact ⟨v4 octets, h ▸ .four octets⟩
    · exact ⟨v6 groups, h⟩
  · rintro ⟨octets | groups, h⟩
    · refine .inl ⟨octets, ?_⟩
      generalize s.toList = cs at h
      cases h
      rfl
    · exact .inr ⟨groups, h⟩

end Hygrometer.IpAddress
