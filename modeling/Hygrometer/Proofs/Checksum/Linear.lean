import Mathlib.Data.List.Induction
import Mathlib.Data.Nat.Bitwise
import Hygrometer.Frame

/-!
# The checksum is linear

Over exclusive or, a shift of the register is linear (`shift_xor`), and so is everything made of
shifts. The checksum of a corrupted text is therefore that of the text xor what the corruption does
on its own from an empty register (`crc8_xor`), and a text ends in its own checksum exactly if its
whole checksum is zero (`crc8_eq_zero_iff`). So whether a corruption is detected does not depend on
the text: it is a question about the corruption alone, and about its bits.

**Octets and bits.** The register takes a text octet by octet, each at once with eight shifts, while
corruptions are counted in bits. `push` takes one bit into the register, and `residue` takes a list
of them, most significant first, into an empty one. The two agree (`foldl_absorb_zero`): an octet
that is added at the top and shifted out is the same as its eight bits, each added when it is next.
The proof follows the shifts of the octet itself (`shiftOut`), whose top bit is the bit that is
pushed.

**By position only.** Bits are shifted on by those that follow them (`residue_append`), and an empty
register stays empty until the first bit that is set (`residue_of_not_mem`). So bits that are clear
in front do nothing, and those behind only shift (`residue_append_left`, `residue_append_right`). A
shift never empties a register that was not empty (`shift_eq_zero`), since the generator has a bit
that a shift cannot clear. What is left for the detection of a class of corruptions is what the bits
between the first and the last that are set come to.
-/

namespace Hygrometer.Checksum

/-- A mask of one bit asks for that bit. -/
theorem and_ne_zero_iff (octet : UInt8) {mask : UInt8} {i : Nat} (hmask : mask.toNat = 2 ^ i) :
    octet &&& mask ≠ 0 ↔ octet.toNat.testBit i = true := by
  rw [Ne, ← UInt8.toNat_inj, UInt8.toNat_and, hmask, Nat.and_two_pow]
  cases octet.toNat.testBit i <;> simp

/-- Two pairs, paired the other way. -/
theorem xor_xor_xor_comm (a b c d : UInt8) : a ^^^ b ^^^ (c ^^^ d) = a ^^^ c ^^^ (b ^^^ d) := by
  rw [UInt8.xor_assoc, UInt8.xor_assoc, ← UInt8.xor_assoc b, UInt8.xor_comm b, UInt8.xor_assoc c]

/-! ### Shifts -/

/-- An octet if a bit is set. -/
def ifSet (bit : Bool) (octet : UInt8) : UInt8 := if bit then octet else 0

/-- A set bit gives the octet. -/
@[simp] theorem ifSet_true (octet : UInt8) : ifSet true octet = octet := rfl

/-- A clear bit gives nothing. -/
@[simp] theorem ifSet_false (octet : UInt8) : ifSet false octet = 0 := rfl

/-- Two bits that are set give the octet twice, which is nothing. -/
theorem ifSet_xor (p q : Bool) (octet : UInt8) :
    ifSet (p ^^ q) octet = ifSet p octet ^^^ ifSet q octet := by
  cases p <;> cases q <;> simp

/-- Whether the bit that leaves the register next is set. -/
def isTop (register : UInt8) : Bool := register.toNat.testBit 7

/-- The top bit of a sum is that of the summands. -/
theorem isTop_xor (a b : UInt8) : isTop (a ^^^ b) = (isTop a ^^ isTop b) := by
  simp [isTop, Nat.testBit_xor]

/-- A shift adds the generator where the top bit goes out. -/
theorem shift_eq (register : UInt8) :
    shift register = register <<< 1 ^^^ ifSet (isTop register) generator := by
  have htop : register &&& 0x80 ≠ 0 ↔ isTop register = true := and_ne_zero_iff register rfl
  rw [shift]
  cases h : isTop register with
  | false => rw [if_neg (by simp [htop, h]), ifSet_false, UInt8.xor_zero]
  | true => rw [if_pos (htop.2 h), ifSet_true]

/-- **A shift is linear.** -/
theorem shift_xor (a b : UInt8) : shift (a ^^^ b) = shift a ^^^ shift b := by
  rw [shift_eq, shift_eq, shift_eq, UInt8.shiftLeft_xor, isTop_xor, ifSet_xor, xor_xor_xor_comm]

/-- An empty register stays empty. -/
@[simp] theorem shift_zero : shift 0 = 0 := rfl

/-- No other register becomes empty. -/
theorem shift_eq_zero {register : UInt8} (h : shift register = 0) : register = 0 := by
  rw [shift_eq, UInt8.xor_eq_zero_iff] at h
  have hdouble : (register <<< 1).toNat = register.toNat <<< 1 % 2 ^ 8 :=
    UInt8.toNat_shiftLeft register 1
  have htop : (isTop register).toNat = register.toNat / 2 ^ 7 % 2 := Nat.toNat_testBit ..
  have hlt := register.toNat_lt
  rw [h, Nat.shiftLeft_eq] at hdouble
  -- The generator is odd, so nothing can have left the register.
  cases hbit : isTop register with
  | false =>
    rw [hbit, ifSet_false, UInt8.toNat_zero] at hdouble
    rw [hbit, Bool.toNat_false] at htop
    exact UInt8.toNat_inj.1 (by rw [UInt8.toNat_zero]; omega)
  | true =>
    have hodd : generator.toNat = 49 := rfl
    rw [hbit, ifSet_true, hodd] at hdouble
    omega

/-- Shifts in a row are linear. -/
theorem repeat_shift_xor (n : Nat) (a b : UInt8) :
    Nat.repeat shift n (a ^^^ b) = Nat.repeat shift n a ^^^ Nat.repeat shift n b := by
  induction n with
  | zero => rfl
  | succ n ih => rw [Nat.repeat, ih, shift_xor]; rfl

/-- They leave an empty register empty. -/
@[simp] theorem repeat_shift_zero (n : Nat) : Nat.repeat shift n 0 = 0 := by
  induction n with
  | zero => rfl
  | succ n ih => rw [Nat.repeat, ih, shift_zero]

/-- No shift loses a register that is not empty. -/
theorem repeat_shift_eq_zero {n : Nat} {register : UInt8} (h : Nat.repeat shift n register = 0) :
    register = 0 := by
  induction n with
  | zero => exact h
  | succ n ih => exact ih (shift_eq_zero h)

/-! ### Octets -/

/-- Taking an octet is linear in the register and the octet. -/
theorem absorb_xor (a b x y : UInt8) :
    absorb (a ^^^ b) (x ^^^ y) = absorb a x ^^^ absorb b y := by
  rw [absorb, xor_xor_xor_comm, repeat_shift_xor]
  rfl

/-- So is taking texts of one length. -/
theorem foldl_absorb_xor (a b : UInt8) {xs ys : List UInt8} (h : xs.length = ys.length) :
    (List.zipWith (· ^^^ ·) xs ys).foldl absorb (a ^^^ b) =
      xs.foldl absorb a ^^^ ys.foldl absorb b := by
  induction xs generalizing a b ys with
  | nil =>
    obtain rfl : ys = [] := List.length_eq_zero_iff.1 h.symm
    rfl
  | cons x xs ih =>
    cases ys with
    | nil => cases h
    | cons y ys =>
      rw [List.zipWith_cons_cons, List.foldl_cons, absorb_xor, ih _ _ (Nat.succ.inj h)]
      rfl

/-- **The checksum of a corrupted text** is that of the text xor what the corruption does on its
own. -/
theorem crc8_xor {octets error : List UInt8} (h : octets.length = error.length) :
    crc8 (List.zipWith (· ^^^ ·) octets error) = crc8 octets ^^^ error.foldl absorb 0 := by
  have hfold := foldl_absorb_xor 0xFF 0 h
  rwa [UInt8.xor_zero] at hfold

/-- Another octet empties the register exactly if it is the checksum so far. -/
theorem crc8_concat_eq_zero_iff {octets : List UInt8} {octet : UInt8} :
    crc8 (octets ++ [octet]) = 0 ↔ octet = crc8 octets := by
  rw [crc8, List.foldl_append]
  constructor
  · intro h
    exact (UInt8.xor_eq_zero_iff.1 (repeat_shift_eq_zero h)).symm
  · rintro rfl
    show Nat.repeat shift 8 (crc8 octets ^^^ crc8 octets) = 0
    rw [UInt8.xor_self, repeat_shift_zero]

/-- **A text ends in its own checksum** exactly if its whole checksum is zero. -/
theorem crc8_eq_zero_iff {octets : List UInt8} :
    crc8 octets = 0 ↔ ∃ body, octets = body ++ [crc8 body] := by
  constructor
  · intro h
    induction octets using List.reverseRecOn with
    | nil => exact absurd h (by decide)
    | append_singleton body octet => exact ⟨body, by rw [crc8_concat_eq_zero_iff.1 h]⟩
  · rintro ⟨body, rfl⟩
    exact crc8_concat_eq_zero_iff.2 rfl

/-! ### Bits -/

/-- The bits of an octet, most significant first. -/
def octetBits (octet : UInt8) : List Bool :=
  (List.range 8).map fun i ↦ octet.toNat.testBit (7 - i)

/-- The bits of a text, octet after octet. -/
def bits (octets : List UInt8) : List Bool := octets.flatMap octetBits

/-- An octet has eight bits. -/
@[simp] theorem length_octetBits (octet : UInt8) : (octetBits octet).length = 8 := by
  simp [octetBits]

/-- The bits of an octet xor another are theirs, xor in pairs. -/
theorem octetBits_xor (a b : UInt8) :
    octetBits (a ^^^ b) = List.zipWith (· ^^ ·) (octetBits a) (octetBits b) := by
  simp [octetBits, List.zipWith_map_left, List.zipWith_map_right, List.zipWith_self,
    Nat.testBit_xor]

/-- The bits of the first octet come first. -/
@[simp] theorem bits_cons (octet : UInt8) (octets : List UInt8) :
    bits (octet :: octets) = octetBits octet ++ bits octets := rfl

/-- A text has eight bits for each octet. -/
theorem length_bits (octets : List UInt8) : (bits octets).length = 8 * octets.length := by
  induction octets with
  | nil => rfl
  | cons octet octets ih =>
    rw [bits_cons, List.length_append, length_octetBits, ih, List.length_cons]
    omega

/-- Take one bit into the register. -/
def push (register : UInt8) (bit : Bool) : UInt8 := shift (register ^^^ ifSet bit 0x80)

/-- What a list of bits leaves in an empty register. -/
def residue (bits : List Bool) : UInt8 := bits.foldl push 0

/-- A clear bit only shifts. -/
@[simp] theorem push_false (register : UInt8) : push register false = shift register := by
  rw [push, ifSet_false, UInt8.xor_zero]

/-- The last bit is taken last. -/
theorem residue_concat (bits : List Bool) (bit : Bool) :
    residue (bits ++ [bit]) = push (residue bits) bit := by
  rw [residue, List.foldl_append]
  rfl

/-- What is in the register already and the bits taken into it do not meddle with each other. -/
theorem foldl_push (register : UInt8) (bits : List Bool) :
    bits.foldl push register = Nat.repeat shift bits.length register ^^^ residue bits := by
  -- From the back, so that both sides end in the same shift.
  induction bits using List.reverseRecOn with
  | nil => exact (UInt8.xor_zero).symm
  | append_singleton bits bit ih =>
    calc
      (bits ++ [bit]).foldl push register =
          push (Nat.repeat shift bits.length register ^^^ residue bits) bit := by
        rw [List.foldl_append, ih]
        rfl
      _ = shift (Nat.repeat shift bits.length register) ^^^ push (residue bits) bit := by
        rw [push, UInt8.xor_assoc, shift_xor, push]
      _ = Nat.repeat shift (bits ++ [bit]).length register ^^^ residue (bits ++ [bit]) := by
        rw [residue_concat, List.length_append]
        rfl

/-- **Bits are shifted on by those that follow them.** -/
theorem residue_append (xs ys : List Bool) :
    residue (xs ++ ys) = Nat.repeat shift ys.length (residue xs) ^^^ residue ys := by
  rw [residue, List.foldl_append, foldl_push]
  rfl

/-- Without a set bit the register stays empty. -/
theorem residue_of_not_mem {bits : List Bool} (h : true ∉ bits) : residue bits = 0 := by
  induction bits with
  | nil => rfl
  | cons bit bits ih =>
    obtain ⟨hbit, hbits⟩ := not_or.1 (fun hmem ↦ h (List.mem_cons.2 hmem))
    obtain rfl : bit = false := by simpa using Ne.symm hbit
    rw [residue, List.foldl_cons, push_false, shift_zero]
    exact ih hbits

/-- Bits before the first set one do nothing. -/
theorem residue_append_left {front : List Bool} (bits : List Bool) (h : true ∉ front) :
    residue (front ++ bits) = residue bits := by
  rw [residue_append, residue_of_not_mem h, repeat_shift_zero, UInt8.zero_xor]

/-- Bits after the last set one shift the register. -/
theorem residue_append_right (bits : List Bool) {back : List Bool} (h : true ∉ back) :
    residue (bits ++ back) = Nat.repeat shift back.length (residue bits) := by
  rw [residue_append, residue_of_not_mem h, UInt8.xor_zero]

/-- Shift an octet out by one bit, without reducing it. -/
def shiftOut (octet : UInt8) : UInt8 := octet <<< 1

/-- The bit that leaves an octet next may as well be taken into the register. -/
theorem push_isTop (register octet : UInt8) :
    push register (isTop octet) = shift (register ^^^ octet) ^^^ shiftOut octet := by
  have htop (bit : Bool) : shift (ifSet bit 0x80) = ifSet bit generator := by
    cases bit <;> decide
  rw [push, shift_xor, htop, shift_xor, shift_eq octet, shiftOut, UInt8.xor_comm (octet <<< 1),
    ← UInt8.xor_assoc, UInt8.xor_assoc _ (octet <<< 1), UInt8.xor_self, UInt8.xor_zero]

/-- So may the bits that leave it one after another. -/
theorem foldl_push_isTop (register octet : UInt8) (n : Nat) :
    ((List.range n).map fun i ↦ isTop (Nat.repeat shiftOut i octet)).foldl push register =
      Nat.repeat shift n (register ^^^ octet) ^^^ Nat.repeat shiftOut n octet := by
  induction n with
  | zero =>
    show register = register ^^^ octet ^^^ octet
    rw [UInt8.xor_assoc, UInt8.xor_self, UInt8.xor_zero]
  | succ n ih =>
    rw [List.range_succ, List.map_append, List.foldl_append, ih]
    show push _ (isTop (Nat.repeat shiftOut n octet)) = _
    rw [push_isTop, UInt8.xor_assoc, UInt8.xor_self, UInt8.xor_zero]
    rfl

/-- What is left when the top bit goes out, as a number. -/
theorem toNat_shiftOut (octet : UInt8) : (shiftOut octet).toNat = octet.toNat <<< 1 % 2 ^ 8 :=
  UInt8.toNat_shiftLeft octet 1

/-- Its bits are those of the octet, one place up. -/
theorem testBit_shiftOut (octet : UInt8) {i : Nat} (hi : i + 1 < 8) :
    (shiftOut octet).toNat.testBit (i + 1) = octet.toNat.testBit i := by
  rw [toNat_shiftOut, Nat.testBit_mod_two_pow, Nat.testBit_shiftLeft]
  simp [hi]

/-- Shifting an octet out takes its top bit and leaves a place at the other end. -/
theorem exists_octetBits_shiftOut (octet : UInt8) : ∃ low, octetBits octet = isTop octet :: low ∧
    octetBits (shiftOut octet) = low ++ [false] := by
  have hempty : (shiftOut octet).toNat.testBit 0 = false := by
    rw [toNat_shiftOut, Nat.testBit_mod_two_pow, Nat.testBit_shiftLeft]
    rfl
  refine ⟨(List.range 7).map fun i ↦ octet.toNat.testBit (6 - i), rfl, ?_⟩
  rw [octetBits, List.range_succ, List.map_append, List.map_singleton, Nat.sub_self, hempty]
  refine congrArg (· ++ [false]) (List.map_congr_left fun i hi ↦ ?_)
  have hle : i < 7 := List.mem_range.1 hi
  rw [show 7 - i = 6 - i + 1 by omega, testBit_shiftOut octet (by omega)]

/-- After several shifts, as many places up. -/
theorem testBit_repeat_shiftOut (octet : UInt8) {i j : Nat} (h : j + i < 8) :
    (Nat.repeat shiftOut i octet).toNat.testBit (j + i) = octet.toNat.testBit j := by
  induction i with
  | zero => rfl
  | succ i ih => exact (testBit_shiftOut _ h).trans (ih (Nat.lt_of_succ_lt h))

/-- The bits of an octet leave it from the top. -/
theorem octetBits_eq (octet : UInt8) :
    octetBits octet = (List.range 8).map fun i ↦ isTop (Nat.repeat shiftOut i octet) := by
  refine List.map_congr_left fun i hi ↦ ?_
  have hsum : 7 - i + i = 7 := Nat.sub_add_cancel (Nat.le_of_lt_succ (List.mem_range.1 hi))
  rw [← testBit_repeat_shiftOut octet (by omega : 7 - i + i < 8), hsum, isTop]

/-- Eight shifts leave nothing of it. -/
theorem repeat_shiftOut_eight (octet : UInt8) : Nat.repeat shiftOut 8 octet = 0 := by
  refine UInt8.toNat_inj.1 ?_
  simp only [Nat.repeat, toNat_shiftOut, Nat.shiftLeft_eq, UInt8.toNat_zero]
  omega

/-- An octet is its eight bits. -/
theorem absorb_zero (octet : UInt8) : absorb 0 octet = residue (octetBits octet) := by
  rw [octetBits_eq, residue, foldl_push_isTop, repeat_shiftOut_eight, UInt8.xor_zero]
  rfl

/-- **A text is its bits**, taken into an empty register. -/
theorem foldl_absorb_zero (octets : List UInt8) :
    octets.foldl absorb 0 = residue (bits octets) := by
  have hfold (register : UInt8) :
      octets.foldl absorb register = (bits octets).foldl push register := by
    induction octets generalizing register with
    | nil => rfl
    | cons octet octets ih =>
      have hsplit := absorb_xor register 0 0 octet
      rw [UInt8.xor_zero, UInt8.zero_xor, absorb_zero] at hsplit
      rw [List.foldl_cons, bits_cons, List.foldl_append, ih, foldl_push register, hsplit,
        length_octetBits, absorb, UInt8.xor_zero]
  exact hfold 0

end Hygrometer.Checksum
