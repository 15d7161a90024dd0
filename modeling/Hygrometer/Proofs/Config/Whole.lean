import Hygrometer.Proofs.Config.Strictness
import Hygrometer.Proofs.Text.Basic
import Hygrometer.Proofs.Yaml.Nested.Document

/-!
# Whole numbers in a configuration

Five settings are whole numbers: the version, the port, the address of the climate sensor, the pin
of the light sensor and the simulated light sample. Each has a type that bounds it, and three have a
tighter range that is checked afterwards; `Whole.Admits` gives the ranges, as ranges of integers. A
text that sets one of them alone is read exactly if the integer is in its range, and then the
setting is that integer and all others are the defaults (`parse_whole_number`). Otherwise it is
refused. So no integer is taken for another one that has the same last bits, nor for the nearest
that fits.

**One leaf.** What a text that sets one leaf alone amounts to is settled first, for any leaf
(`parse_eq_ok_iff_of_isSetBy`): it is read exactly if its value is one of the leaf and the defaults
with this value are valid. The text is a block of nested keys with the value behind the last
(`Leaf.block`), which is scanned as such (`Leaf.isSetBy_block`), so the theorem is about characters
and not about a tree that someone has built.

**The numeral** of an integer is its digits behind a sign (`integerNumeral`). The reader of whole
numbers knows other bases and a plus sign; the digits of a number are read in base ten
because they begin with no zero or are one zero (`unsigned?_toDigits`,
`isPaddedDigits_integerNumeral`). A negative integer is read as no natural number.

**The five settings** are one family. They differ in their type and in what is checked, and
`read?_eq`, `get_only` and `isValid_only_iff` say for all of them how a scalar becomes the setting,
how it is found again, and what makes the configuration valid.
-/

namespace Hygrometer

open Yaml (Document Scalar)

namespace Config

/-! ### One leaf -/

/-- The defaults with another value in one leaf. -/
def only (leaf : Leaf) (value : leaf.Value) : Config :=
  ofLeaves (Function.update (fun leaf ↦ leaf.get {}) leaf value)

/-- The leaf has the value that it was set to. -/
@[simp] theorem get_only_self (leaf : Leaf) (value : leaf.Value) :
    leaf.get (only leaf value) = value := by
  rw [only, get_ofLeaves, Function.update_self]

/-- Every other leaf has its default. -/
theorem get_only_of_ne {leaf leaf' : Leaf} (h : leaf' ≠ leaf) (value : leaf.Value) :
    leaf'.get (only leaf value) = leaf'.get {} := by
  rw [only, get_ofLeaves, Function.update_of_ne h]

/-- The text sets the leaf to the plain scalar of these characters, and nothing else. -/
def Leaf.IsSetBy (leaf : Leaf) (value : List Char) (s : String) : Prop :=
  (Document.ofText s).whole = true ∧
    (Document.ofText s).SetsOnly (.plain value) leaf.path (Document.ofText s).root

/-- Such a text, as a block. -/
def Leaf.block (leaf : Leaf) (value : List Char) : String :=
  .ofList (Yaml.blockText value (leaf.path.map String.toList))

example : Leaf.lightRaw.block ['7'] = "source:\n  simulated:\n    light_raw: 7\n" := by
  decide +kernel

/-- The keys are words. -/
theorem Leaf.isKey_of_mem_path (leaf : Leaf) : ∀ key ∈ leaf.path, Yaml.IsKey key.toList := by
  rcases leaf with - | - | - | - | - | - | - | - | - | - | - | - | - <;> decide +kernel

/-- **The block of a leaf sets it alone.** -/
theorem Leaf.isSetBy_block (leaf : Leaf) {value : List Char} (h : Yaml.IsWord value) :
    leaf.IsSetBy value (leaf.block value) := by
  obtain ⟨key, path, hpath⟩ : ∃ key path, leaf.path = key :: path :=
    List.exists_cons_of_ne_nil (by simp [Leaf.path])
  have hkeys := leaf.isKey_of_mem_path
  rw [hpath, List.forall_mem_cons] at hkeys
  have hsets := Document.setsOnly_ofText_blockText h hkeys.1 (List.forall_mem_map.2 hkeys.2)
  rw [IsSetBy, block, hpath]
  simpa [Function.comp_def] using hsets

/-- No leaf stands inside another. -/
theorem Leaf.eq_of_prefix {leaf leaf' : Leaf} (h : leaf'.path <+: leaf.path) : leaf' = leaf := by
  revert h
  rcases leaf with - | - | - | - | - | - | - | - | - | - | - | - | - <;>
    rcases leaf' with - | - | - | - | - | - | - | - | - | - | - | - | - <;> decide +kernel

/-- What leads on from a section to a leaf is a key of the section. -/
theorem Leaf.exists_key_of_prefix {leaf : Leaf} {sec : Section} (h : sec.path <+: leaf.path) :
    ∃ key ∈ sec.keys, sec.path ++ [key] <+: leaf.path := by
  revert h
  rcases leaf with - | - | - | - | - | - | - | - | - | - | - | - | - <;>
    rcases sec with - | - | - | - | - <;> decide +kernel

section

variable {d : Document} {leaf : Leaf} {scalar : Scalar}
  (h : d.SetsOnly scalar leaf.path d.root)

include h

/-- The document says of the leaf what its scalar stands for. -/
theorem setting?_of_setsOnly : d.setting? leaf = leaf.read? scalar := by
  obtain ⟨value, hvalue, hscalar⟩ := h.exists_foldlM
  rw [Document.setting?, Document.nodeAt?, hvalue, Option.bind_some, hscalar, Option.bind_some]

/-- It says nothing of any other leaf. -/
theorem setting?_of_ne {leaf' : Leaf} (hne : leaf' ≠ leaf) : d.setting? leaf' = none := by
  rw [Document.setting?]
  rcases hnode : d.nodeAt? leaf'.path with - | value
  · rfl
  · obtain ⟨rest, hpath, -⟩ := h.exists_of_foldlM hnode
    exact absurd (Leaf.eq_of_prefix ⟨rest, hpath.symm⟩) hne

/-- Over the defaults, this is the one value. -/
theorem overlay_of_setsOnly {value : leaf.Value} (hvalue : leaf.read? scalar = some value) :
    overlay d.setting? = only leaf value := by
  refine congrArg ofLeaves (funext fun leaf' ↦ ?_)
  by_cases hleaf : leaf' = leaf
  · obtain rfl := hleaf
    rw [setting?_of_setsOnly h, hvalue, Function.update_self]
    rfl
  · rw [setting?_of_ne h hleaf, Function.update_of_ne hleaf]
    rfl

/-- The document is a configuration exactly if the scalar stands for a value of the leaf. -/
theorem isConfig_iff_of_setsOnly (hwhole : d.whole = true) :
    d.IsConfig ↔ (leaf.read? scalar).isSome := by
  constructor
  · intro hd
    obtain ⟨value, hvalue, hscalar⟩ := h.exists_foldlM
    have hread := hd.leaves leaf value hvalue
    rwa [hscalar] at hread
  · intro hread
    refine ⟨hwhole, fun sec node hnode ↦ ?_, fun leaf' node hnode ↦ ?_⟩
    · obtain ⟨rest, hpath, hrest⟩ := h.exists_of_foldlM hnode
      obtain ⟨key, hkey, rest', hpath'⟩ := Leaf.exists_key_of_prefix ⟨rest, hpath.symm⟩
      rw [List.append_assoc, hpath, List.append_cancel_left_eq] at hpath'
      obtain rfl := hpath'
      obtain ⟨entryKey, value, hentries, hname, -⟩ := hrest
      refine .inr ⟨_, hentries, ?_, List.nodup_singleton _⟩
      intro name? hmem
      obtain rfl := List.mem_singleton.1 hmem
      exact ⟨key, hkey, hname⟩
    · obtain ⟨rest, hpath, hrest⟩ := h.exists_of_foldlM hnode
      obtain rfl := Leaf.eq_of_prefix ⟨rest, hpath.symm⟩
      obtain rfl := List.self_eq_append_right.1 hpath
      have hscalar : d.scalar? node = some scalar := hrest
      rwa [hscalar]

end

/-- **What a text that sets one leaf is read as**: the defaults with what the leaf reads there, if
that is valid. -/
theorem parse_eq_ok_iff_of_isSetBy {leaf : Leaf} {value : List Char} {s : String} {c : Config}
    (h : leaf.IsSetBy value s) :
    parse s = .ok c ↔
      ∃ x, leaf.read? (.plain value) = some x ∧ (only leaf x).IsValid ∧ c = only leaf x := by
  obtain ⟨hwhole, hsets⟩ := h
  have hblank : Text.isBlankText s = false := by
    by_contra hblank
    have hnone := entries?_root_of_isBlankText (by simpa using hblank)
    obtain ⟨key, path, hpath⟩ : ∃ key path, leaf.path = key :: path :=
      List.exists_cons_of_ne_nil (by simp [Leaf.path])
    rw [hpath] at hsets
    obtain ⟨_, _, hentries, -⟩ := hsets
    cases hnone.symm.trans hentries
  rw [parse_eq_ok_iff hblank, ofDocument_eq_ok_iff, isConfig_iff_of_setsOnly hsets hwhole,
    validate_eq_ok_iff]
  constructor
  · rintro ⟨⟨hread, rfl⟩, hvalid⟩
    obtain ⟨x, hx⟩ := Option.isSome_iff_exists.1 hread
    rw [overlay_of_setsOnly hsets hx] at hvalid ⊢
    exact ⟨x, hx, hvalid, rfl⟩
  · rintro ⟨x, hx, hvalid, rfl⟩
    exact ⟨⟨Option.isSome_of_eq_some hx, (overlay_of_setsOnly hsets hx).symm⟩, hvalid⟩

/-! ### Whole numbers -/

/-- The leaves that are whole numbers. -/
inductive Whole where
  /-- The version of the format. -/
  | version
  /-- The port to listen on. -/
  | port
  /-- The bus address of the climate sensor. -/
  | address
  /-- The pin of the light sensor. -/
  | lightPin
  /-- The simulated light sample. -/
  | lightRaw
deriving DecidableEq

namespace Whole

/-- The leaf. -/
abbrev leaf : Whole → Leaf
  | version => .version
  | port => .port
  | address => .address
  | lightPin => .lightPin
  | lightRaw => .lightRaw

/-- The integers that the leaf may be. -/
def Admits : Whole → ℤ → Prop
  | version, n => n = 1
  | port, n => 0 ≤ n ∧ n ≤ 65535
  | address, n => 0 ≤ n ∧ n ≤ 127
  | lightPin, n => 0 ≤ n ∧ n ≤ 255
  | lightRaw, n => 0 ≤ n ∧ n ≤ 4095

/-- What the leaf is. -/
def get : Whole → Config → ℕ
  | version, c => c.version.toNat
  | port, c => c.server.port.toNat
  | address, c => c.source.address.toNat
  | lightPin, c => c.source.lightPin.toNat
  | lightRaw, c => c.source.ambient.lightRaw.toNat

/-- How many values the type of the leaf has. -/
def size : Whole → ℕ
  | version => UInt32.size
  | port | lightRaw => UInt16.size
  | address | lightPin => UInt8.size

/-- A value of the type. -/
def value : (w : Whole) → ℕ → w.leaf.Value
  | version, n => UInt32.ofNat n
  | port, n | lightRaw, n => UInt16.ofNat n
  | address, n | lightPin, n => UInt8.ofNat n

/-- A whole number is read as one that its type holds. -/
theorem read?_eq (w : Whole) (s : Scalar) : w.leaf.read? s = (s.natural? w.size).map w.value := by
  rcases w with - | - | - | - | - <;> rfl

/-- A setting is found again as the number that it was set to. -/
theorem get_only (w : Whole) {n : ℕ} (h : n < w.size) : w.get (only w.leaf (w.value n)) = n := by
  rcases w with - | - | - | - | -
  · exact UInt32.toNat_ofNat_of_lt h
  · exact UInt16.toNat_ofNat_of_lt h
  · exact UInt8.toNat_ofNat_of_lt h
  · exact UInt8.toNat_ofNat_of_lt h
  · exact UInt16.toNat_ofNat_of_lt h

/-- What is checked of the value of a leaf, where all others are the defaults. -/
def IsChecked : Whole → ℕ → Prop
  | version, n => n = 1
  | port, _ | lightPin, _ => True
  | address, n => n ≤ 127
  | lightRaw, n => n ≤ 4095

/-- Of a configuration with one setting, only the check of this setting can fail. -/
theorem isValid_only_iff (w : Whole) (x : w.leaf.Value) :
    (only w.leaf x).IsValid ↔ w.IsChecked (w.get (only w.leaf x)) := by
  have hdefault := isValid_default
  rcases w with - | - | - | - | -
  · refine ⟨fun hvalid ↦ congrArg UInt32.toNat hvalid.version, fun hone ↦ ?_⟩
    exact ⟨UInt32.toNat_inj.1 hone, hdefault.host, hdefault.serviceName, hdefault.address,
      hdefault.humidity, hdefault.temperatureC, hdefault.lightRaw⟩
  · exact iff_of_true ⟨hdefault.version, hdefault.host, hdefault.serviceName, hdefault.address,
      hdefault.humidity, hdefault.temperatureC, hdefault.lightRaw⟩ trivial
  · refine ⟨fun hvalid ↦ UInt8.le_iff_toNat_le.1 hvalid.address, fun hle ↦ ?_⟩
    exact ⟨hdefault.version, hdefault.host, hdefault.serviceName, UInt8.le_iff_toNat_le.2 hle,
      hdefault.humidity, hdefault.temperatureC, hdefault.lightRaw⟩
  · exact iff_of_true ⟨hdefault.version, hdefault.host, hdefault.serviceName, hdefault.address,
      hdefault.humidity, hdefault.temperatureC, hdefault.lightRaw⟩ trivial
  · refine ⟨fun hvalid ↦ UInt16.le_iff_toNat_le.1 hvalid.lightRaw, fun hle ↦ ?_⟩
    exact ⟨hdefault.version, hdefault.host, hdefault.serviceName, hdefault.address,
      hdefault.humidity, hdefault.temperatureC, UInt16.le_iff_toNat_le.2 hle⟩

/-- The range of a leaf is what its type leaves of what is checked. -/
theorem admits_iff (w : Whole) {n : ℕ} : w.Admits n ↔ n < w.size ∧ w.IsChecked n := by
  rcases w with - | - | - | - | - <;>
    simp only [Admits, IsChecked, size, UInt8.size, UInt16.size, UInt32.size, and_true] <;> omega

/-- No range has negative integers in it. -/
theorem nonneg_of_admits {w : Whole} {n : ℤ} (h : w.Admits n) : 0 ≤ n := by
  rcases w with - | - | - | - | - <;> simp only [Admits] at h <;> omega

end Whole

/-- The decimal numeral of an integer. -/
def integerNumeral (n : ℤ) : List Char :=
  if n < 0 then '-' :: Nat.toDigits 10 n.natAbs else Nat.toDigits 10 n.natAbs

/-- The numeral of an integer is a word: digits, with a sign that no blank follows. -/
theorem isWord_integerNumeral (n : ℤ) : Yaml.IsWord (integerNumeral n) := by
  have hdigits : ∀ c ∈ Nat.toDigits 10 n.natAbs, Yaml.isWordChar c = true := by
    intro c hc
    have hdigit := Text.isDigit_of_mem_toDigits hc
    rw [← Text.isDigit_eq, Text.isDigit] at hdigit
    simp [Yaml.isWordChar, hdigit]
  rw [integerNumeral]
  split
  · refine ⟨List.cons_ne_nil _ _, List.forall_mem_cons.2 ⟨rfl, hdigits⟩, fun h ↦ ?_⟩
    exact Nat.toDigits_ne_nil (List.cons.inj h).2
  · refine ⟨Nat.toDigits_ne_nil, hdigits, fun h ↦ ?_⟩
    have hhyphen := Text.isDigit_of_mem_toDigits (h ▸ List.mem_singleton_self '-')
    cases hhyphen

/-- Of the digits of a number, a zero stands alone. -/
theorem exists_toDigits_eq_cons (n : ℕ) :
    ∃ c cs, Nat.toDigits 10 n = c :: cs ∧ c.isDigit = true ∧ (c = '0' → cs = []) := by
  obtain ⟨c, cs, hcs⟩ := List.exists_cons_of_ne_nil (Nat.toDigits_ne_nil (b := 10) (n := n))
  refine ⟨c, cs, hcs, Text.isDigit_of_mem_toDigits (hcs ▸ List.mem_cons_self), ?_⟩
  rintro rfl
  rcases Nat.eq_zero_or_pos n with rfl | hpos
  · exact (List.cons.inj hcs).2.symm
  · exact absurd (by rw [hcs]; rfl) (Text.head?_toDigits_ne hpos)

/-- Behind its sign are the digits. -/
theorem takeSign_integerNumeral (n : ℤ) :
    (Decimal.takeSign (integerNumeral n)).2 = Nat.toDigits 10 n.natAbs := by
  obtain ⟨c, cs, hcs, hdigit, -⟩ := exists_toDigits_eq_cons n.natAbs
  rw [integerNumeral, hcs]
  split
  · rfl
  · rw [Decimal.takeSign]
    · intro _ heq
      obtain ⟨rfl, -⟩ := List.cons.inj heq
      cases hdigit
    · intro _ heq
      obtain ⟨rfl, -⟩ := List.cons.inj heq
      cases hdigit

/-- A numeral has no padding. -/
theorem isPaddedDigits_integerNumeral (n : ℤ) :
    Yaml.isPaddedDigits (integerNumeral n) = false := by
  obtain ⟨c, cs, hcs, -, hzero⟩ := exists_toDigits_eq_cons n.natAbs
  rw [Yaml.isPaddedDigits, takeSign_integerNumeral, hcs]
  split
  · next heq =>
    obtain ⟨rfl, rfl⟩ := List.cons.inj heq
    cases hzero rfl
  · rfl

/-- The digits of a number denote it; they announce no base. -/
theorem unsigned?_toDigits (n : ℕ) : Yaml.unsigned? (Nat.toDigits 10 n) = some n := by
  obtain ⟨c, cs, hcs, -, hzero⟩ := exists_toDigits_eq_cons n
  have hbase : Yaml.takeBase (c :: cs) = (10, c :: cs) := by
    by_cases hc : c = '0'
    · obtain rfl := hc
      obtain rfl := hzero rfl
      rfl
    · rw [Yaml.takeBase]
      all_goals exact fun _ heq ↦ hc (List.cons.inj heq).1
  rw [Yaml.unsigned?, hcs, hbase, ← hcs]
  exact Text.natOfDigits?_toDigits (by decide) (by decide) n

/-- A numeral denotes its number, and a minus sign no natural number. -/
theorem natural?_integerNumeral (n : ℤ) :
    Yaml.natural? (integerNumeral n) = if n < 0 then none else some n.toNat := by
  obtain ⟨c, cs, hcs, hdigit, -⟩ := exists_toDigits_eq_cons n.natAbs
  have hplus (rest : List Char) : integerNumeral n ≠ '+' :: rest := by
    rw [integerNumeral, hcs]
    split
    · exact fun heq ↦ nomatch heq
    · intro heq
      obtain ⟨rfl, -⟩ := List.cons.inj heq
      cases hdigit
  rw [Yaml.natural?, isPaddedDigits_integerNumeral, if_neg Bool.false_ne_true]
  · rw [integerNumeral]
    split
    · rcases hvalue : Text.natOfDigits? 10 ('-' :: Nat.toDigits 10 n.natAbs) with - | m
      · exact hvalue
      · obtain ⟨-, hdigits, -⟩ := Text.natOfDigits?_eq_some_iff.1 hvalue
        cases hdigits '-' List.mem_cons_self
    · next hnonneg => exact (unsigned?_toDigits _).trans (congrArg some (by omega))
  · exact hplus

/-- What a whole-number leaf reads in a numeral: the number, if it is one of its type. -/
theorem Whole.read?_integerNumeral_eq_some_iff {w : Whole} {n : ℤ} {x : w.leaf.Value} :
    w.leaf.read? (.plain (integerNumeral n)) = some x ↔
      0 ≤ n ∧ n.toNat < w.size ∧ x = w.value n.toNat := by
  have hnumber : Yaml.mayBeNumber Yaml.integerTag (.plain (integerNumeral n)) = true := rfl
  rw [w.read?_eq, Scalar.natural?, if_pos hnumber, Scalar.plain, String.toList_ofList,
    natural?_integerNumeral]
  split
  · next hneg =>
    constructor
    · intro h
      cases h
    · rintro ⟨hnonneg, -⟩
      exact absurd hnonneg (not_le.2 hneg)
  · next hnonneg =>
    simp only [Option.map_eq_some_iff, Option.filter_eq_some_iff, decide_eq_true_eq]
    constructor
    · rintro ⟨m, ⟨hm, hlt⟩, rfl⟩
      obtain rfl := Option.some.inj hm
      exact ⟨not_lt.1 hnonneg, hlt, rfl⟩
    · rintro ⟨-, hlt, rfl⟩
      exact ⟨n.toNat, ⟨rfl, hlt⟩, rfl⟩

/-- **A whole number is read as itself or not at all.** Whatever text sets one of the whole-number
leaves alone to the numeral of an integer, and a block is such a text: if the integer is in the
range of the leaf, the leaf is that integer and all others are the defaults; if not, the text is
refused as a bad request. -/
theorem parse_whole_number (w : Whole) (n : ℤ) :
    w.leaf.IsSetBy (integerNumeral n) (w.leaf.block (integerNumeral n)) ∧
      ∀ s, w.leaf.IsSetBy (integerNumeral n) s →
        (w.Admits n → ∃ c, parse s = .ok c ∧ (w.get c : ℤ) = n ∧
          ∀ leaf, leaf ≠ w.leaf → leaf.get c = leaf.get {}) ∧
        (¬w.Admits n → ∃ failure, parse s = .error failure ∧ failure.kind = .badRequest) := by
  refine ⟨w.leaf.isSetBy_block (isWord_integerNumeral n), fun s hs ↦ ⟨fun hadmits ↦ ?_,
    fun hbeyond ↦ ?_⟩⟩
  · obtain ⟨n, rfl⟩ := Int.eq_ofNat_of_zero_le (w.nonneg_of_admits hadmits)
    obtain ⟨hsize, hchecked⟩ := w.admits_iff.1 hadmits
    refine ⟨only w.leaf (w.value n), ?_, congrArg Nat.cast (w.get_only hsize), fun leaf hleaf ↦
      get_only_of_ne hleaf _⟩
    refine (parse_eq_ok_iff_of_isSetBy hs).2 ⟨_, ?_, ?_, rfl⟩
    · exact Whole.read?_integerNumeral_eq_some_iff.2 ⟨Int.natCast_nonneg n, hsize, rfl⟩
    · rwa [w.isValid_only_iff, w.get_only hsize]
  · rcases hparse : parse s with failure | c
    · exact ⟨failure, rfl, kind_of_parse_error hparse⟩
    · obtain ⟨x, hx, hvalid, rfl⟩ := (parse_eq_ok_iff_of_isSetBy hs).1 hparse
      obtain ⟨hnonneg, hsize, rfl⟩ := Whole.read?_integerNumeral_eq_some_iff.1 hx
      rw [w.isValid_only_iff, w.get_only hsize] at hvalid
      have hadmits := w.admits_iff.2 ⟨hsize, hvalid⟩
      rw [Int.toNat_of_nonneg hnonneg] at hadmits
      exact absurd hadmits hbeyond

/-- A port whose last sixteen bits are 80, and the last address of seven bits. -/
theorem parse_whole_number_wide :
    let wide := "server:\n  port: 340282366920938463463374607431768211536\n"
    let last := "source:\n  dht20_addr: 127\n"
    Leaf.port.IsSetBy (integerNumeral (2 ^ 128 + 80)) wide ∧
    (∃ failure, parse wide = .error failure ∧ failure.kind = .badRequest) ∧
    Leaf.address.IsSetBy (integerNumeral 127) last ∧
    ∃ c, parse last = .ok c ∧ c.source.address.toNat = 127 := by
  intro wide last
  have hwide : Leaf.port.block (integerNumeral (2 ^ 128 + 80)) = wide := by decide +kernel
  have hlast : Leaf.address.block (integerNumeral 127) = last := by decide +kernel
  obtain ⟨hset, hread⟩ := parse_whole_number .port (2 ^ 128 + 80)
  obtain ⟨hset', hread'⟩ := parse_whole_number .address 127
  rw [hwide] at hset
  rw [hlast] at hset'
  obtain ⟨c, hc, haddress, -⟩ := (hread' last hset').1 ⟨by decide, by decide⟩
  refine ⟨hset, (hread wide hset).2 fun hadmits ↦ absurd hadmits.2 (by decide), hset', c, hc, ?_⟩
  exact Int.ofNat_inj.1 haddress

end Config
end Hygrometer
