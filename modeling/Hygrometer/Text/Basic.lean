/-!
# Digits and blanks

Natural numbers as digits in a base up to sixteen, read with digits of either case and written; and
the characters of the Unicode property `White_Space`, with texts without their blank ends.

## Main definitions

* `digitValue?` – the value of one digit.
* `natOfDigits?` – the number that a non-empty run of digits denotes.
* `numeral`, `hexNumeral`, `hexByte` – a number in base ten, in base sixteen, and an octet as two
  capital hexadecimal digits.
* `trim`, `isBlankText` – a text without the blanks around it, and whether nothing is left of it.
-/

namespace Hygrometer.Text

/-! ### Numerals -/

/-- Whether a character is one of the ten ASCII digits. -/
def isDigit (c : Char) : Bool := '0' ≤ c && c ≤ '9'

/-- The value of a hexadecimal digit of either case. -/
def hexValue? (c : Char) : Option Nat :=
  if '0' ≤ c && c ≤ '9' then some (c.toNat - 48)
  else if 'a' ≤ c && c ≤ 'f' then some (c.toNat - 87)
  else if 'A' ≤ c && c ≤ 'F' then some (c.toNat - 55)
  else none

/-- The value of a digit in the given base, at most sixteen. -/
def digitValue? (base : Nat) (c : Char) : Option Nat :=
  (hexValue? c).filter (· < base)

/-- The number written by a run of digits after the digits already read. -/
def natOfDigitsFrom? (base : Nat) (start : Nat) (cs : List Char) : Option Nat :=
  cs.foldlM (fun n c ↦ (digitValue? base c).map (base * n + ·)) start

/-- The number that a non-empty run of digits denotes, and nothing for any other text. Leading zeros
do not matter. -/
def natOfDigits? (base : Nat) (cs : List Char) : Option Nat :=
  if cs.isEmpty then none else natOfDigitsFrom? base 0 cs

/-- The number that a run of ASCII digits denotes; other characters are taken for zeros. -/
def natOfDecimal (cs : List Char) : Nat :=
  cs.foldl (fun n c ↦ 10 * n + (digitValue? 10 c).getD 0) 0

/-- The decimal numeral of a natural number. -/
def numeral (n : Nat) : String := .ofList (Nat.toDigits 10 n)

/-- Different numbers have different numerals. -/
@[simp] theorem numeral_inj {m n : Nat} : numeral m = numeral n ↔ m = n := by
  refine ⟨fun h ↦ ?_, fun h ↦ h ▸ rfl⟩
  rw [← Nat.ofDigitChars_ten_toDigits (n := m), String.ofList_injective h,
    Nat.ofDigitChars_ten_toDigits]

/-- The hexadecimal numeral of a natural number, in small letters. -/
def hexNumeral (n : Nat) : String := .ofList (Nat.toDigits 16 n)

/-- An octet as two capital hexadecimal digits. -/
def hexByte (b : UInt8) : String := .ofList [digit (b.toNat / 16), digit (b.toNat % 16)]
where
  /-- One capital hexadecimal digit. -/
  digit (d : Nat) : Char := (Nat.digitChar d).toUpper

/-! ### Blanks -/

/-- Whether a character has the Unicode property `White_Space`. -/
def isBlank (c : Char) : Bool :=
  let n := c.toNat
  (9 ≤ n && n ≤ 13) || n == 32 || n == 0x85 || n == 0xA0 || n == 0x1680 ||
    (0x2000 ≤ n && n ≤ 0x200A) || n == 0x2028 || n == 0x2029 || n == 0x202F || n == 0x205F ||
    n == 0x3000

/-- The text without the blank characters at its start. -/
def trimStart (cs : List Char) : List Char := cs.dropWhile isBlank

/-- The text without the blank characters at its two ends. -/
def trim (cs : List Char) : List Char := (trimStart (trimStart cs).reverse).reverse

/-- Whether a text has no character that is not blank. -/
def isBlankText (s : String) : Bool := s.toList.all isBlank

end Hygrometer.Text
