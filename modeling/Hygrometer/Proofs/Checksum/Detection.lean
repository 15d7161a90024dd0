import Hygrometer.Proofs.Checksum.Linear
import Hygrometer.Proofs.Frame.RoundTrip

/-!
# What the checksum detects

A corruption goes unnoticed only if its own residue is zero, so everything here is about the residue
of a list of bits. Three kinds of lists never have residue zero:

* **an odd number of set bits**, because the generator has an even number of terms: taking a bit
  into the register keeps the parity of the register and the bits taken so far (`weight_residue`);
* **a burst**, with all set bits within eight positions: the register holds those eight bits whole,
  and no shift empties it (`residue_ne_zero_of_isBurst`);
* **a pair** of set bits less than 127 positions apart, because 127 is the number of shifts that
  bring a single bit back to its place (`residue_ne_zero_of_isPair`).

**Texts of any length.** Only the third kind has a bound in it, and it is one on the distance of the
two bits. Everything before the first set bit and behind the last one drops out, so the length of a
text does not come up; the 126 shifts that are tried for pairs (`repeat_shift_generator_ne`) are all
that is decided by trying.

**Frames** carry the checksum of their first six octets, so what holds of texts holds of them
(`exists_body_of_decode`). A frame is short enough that any two of its bits are a pair, and three
are an odd number, so that up to three flipped bits are always noticed (`isDetectable_of_few`).

A corruption is laid over a text from its first octet on (`corrupt`), and what it leaves is not a
text with a checksum of its own: not the one that was there before, and no other one (`corrupt_ne`).
-/

namespace Hygrometer.Checksum

/-! ### Patterns of set bits -/

/-- All set bits are within eight consecutive positions. -/
def IsBurst (bits : List Bool) : Prop :=
  ∃ first, ∀ p, bits[p]? = some true → first ≤ p ∧ p < first + 8

/-- Exactly two bits are set, less than 127 positions apart. -/
def IsPair (bits : List Bool) : Prop :=
  bits.count true = 2 ∧
    ∀ p q, bits[p]? = some true → bits[q]? = some true → q < p + 127

/-- The patterns of which none goes unnoticed. -/
def IsDetectable (bits : List Bool) : Prop :=
  bits.count true % 2 = 1 ∨ (true ∈ bits ∧ IsBurst bits) ∨ IsPair bits

/-! ### An odd number of set bits -/

/-- The number of set bits in an octet. -/
def weight (octet : UInt8) : Nat := (octetBits octet).count true

theorem count_zipWith_xor {xs ys : List Bool} (h : xs.length = ys.length) :
    (List.zipWith (· ^^ ·) xs ys).count true % 2 = (xs.count true + ys.count true) % 2 := by
  induction xs generalizing ys with
  | nil =>
    obtain rfl : ys = [] := List.length_eq_zero_iff.1 h.symm
    rfl
  | cons x xs ih =>
    cases ys with
    | nil => cases h
    | cons y ys =>
      have hxs := ih (Nat.succ.inj h)
      rw [List.zipWith_cons_cons, List.count_cons, List.count_cons, List.count_cons]
      cases x <;> cases y <;> simp <;> omega

theorem weight_xor (a b : UInt8) : weight (a ^^^ b) % 2 = (weight a + weight b) % 2 := by
  rw [weight, octetBits_xor, count_zipWith_xor (by simp)]
  rfl

theorem weight_ifSet (bit : Bool) (octet : UInt8) :
    weight (ifSet bit octet) = bit.toNat * weight octet := by
  cases bit with
  | false =>
    rw [ifSet_false, Bool.toNat_false, Nat.zero_mul]
    decide
  | true => exact (Nat.one_mul _).symm

/-- Shifting an octet out takes its top bit. -/
theorem weight_shiftOut (octet : UInt8) :
    weight octet = (isTop octet).toNat + weight (shiftOut octet) := by
  obtain ⟨low, hoctet, hshifted⟩ := exists_octetBits_shiftOut octet
  rw [weight, weight, hoctet, hshifted, List.count_cons, List.count_append]
  cases isTop octet with
  | false => simp
  | true => simp [Nat.add_comm]

/-- So a shift keeps the parity: the generator has three bits without its leading term, and the
top bit goes. -/
theorem weight_shift (register : UInt8) : weight (shift register) % 2 = weight register % 2 := by
  have hgenerator : weight generator = 3 := by decide
  rw [shift_eq, weight_xor, weight_ifSet, weight_shiftOut register, hgenerator, shiftOut]
  omega

theorem weight_push (register : UInt8) (bit : Bool) :
    weight (push register bit) % 2 = (weight register + bit.toNat) % 2 := by
  have hone : weight 0x80 = 1 := by decide
  rw [push, weight_shift, weight_xor, weight_ifSet, hone, Nat.mul_one]

/-- The register has the parity of the bits taken into it. -/
theorem weight_residue (bits : List Bool) : weight (residue bits) % 2 = bits.count true % 2 := by
  induction bits using List.reverseRecOn with
  | nil => rfl
  | append_singleton bits bit ih =>
    rw [residue_concat, weight_push, List.count_append, Nat.add_mod, ih, ← Nat.add_mod]
    cases bit <;> rfl

theorem residue_ne_zero_of_odd {bits : List Bool} (h : bits.count true % 2 = 1) :
    residue bits ≠ 0 := by
  intro hzero
  have hweight := weight_residue bits
  rw [hzero, h] at hweight
  exact absurd hweight (by decide)

/-! ### Bursts -/

/-- Every eight bits are those of an octet. -/
theorem exists_octetBits : ∀ {bits : List Bool}, bits.length = 8 → ∃ octet, octetBits octet = bits
  | [a, b, c, d, e, f, g, h], _ => by
    refine ⟨.ofNat ([a, b, c, d, e, f, g, h].foldl (fun n bit ↦ 2 * n + bit.toNat) 0), ?_⟩
    revert a b c d e f g h
    decide +kernel

/-- The register holds eight bits whole. -/
theorem not_mem_of_residue_eq_zero {bits : List Bool} (hlength : bits.length ≤ 8)
    (h : residue bits = 0) : true ∉ bits := by
  -- Zeros in front make an octet of them, which eight shifts lose nothing of.
  have hfront : true ∉ List.replicate (8 - bits.length) false := by simp
  obtain ⟨octet, hoctet⟩ :
      ∃ octet, octetBits octet = List.replicate (8 - bits.length) false ++ bits :=
    exists_octetBits (by rw [List.length_append, List.length_replicate]; omega)
  rw [← residue_append_left bits hfront, ← hoctet, ← absorb_zero, absorb] at h
  have hzero : octet = 0 := by simpa using repeat_shift_eq_zero h
  intro hmem
  have htrue : true ∈ octetBits octet := hoctet ▸ List.mem_append_right _ hmem
  rw [hzero] at htrue
  exact absurd htrue (by decide)

theorem residue_ne_zero_of_isBurst {bits : List Bool} (hmem : true ∈ bits) (h : IsBurst bits) :
    residue bits ≠ 0 := by
  intro hzero
  obtain ⟨first, hfirst⟩ := h
  have hfront : true ∉ bits.take first := by
    intro hfront
    obtain ⟨p, hp⟩ := List.mem_iff_getElem?.1 hfront
    rw [List.getElem?_take] at hp
    split at hp
    · have := (hfirst p hp).1
      omega
    · cases hp
  have hback : true ∉ bits.drop (first + 8) := by
    intro hback
    obtain ⟨p, hp⟩ := List.mem_iff_getElem?.1 hback
    rw [List.getElem?_drop] at hp
    have := (hfirst _ hp).2
    omega
  have hsplit : bits = bits.take first ++ ((bits.drop first).take 8 ++ bits.drop (first + 8)) := by
    rw [← List.drop_drop, List.take_append_drop, List.take_append_drop]
  rw [hsplit, residue_append_left _ hfront, residue_append_right _ hback] at hzero
  have hwindow : true ∉ (bits.drop first).take 8 :=
    not_mem_of_residue_eq_zero (List.length_take_le _ _) (repeat_shift_eq_zero hzero)
  rw [hsplit, List.mem_append, List.mem_append] at hmem
  exact hmem.elim hfront fun hmem ↦ hmem.elim hwindow hback

/-! ### Pairs -/

/-- A single bit is not back in its place before 127 shifts: one puts the generator into the
register, and 126 more are needed. -/
theorem repeat_shift_generator_ne : ∀ n < 126, Nat.repeat shift n generator ≠ 0x80 := by
  decide +kernel

theorem residue_ne_zero_of_isPair {bits : List Bool} (h : IsPair bits) : residue bits ≠ 0 := by
  obtain ⟨hcount, hnear⟩ := h
  obtain ⟨front, rest, rfl, hfront⟩ : ∃ front rest, bits = front ++ true :: rest ∧ true ∉ front :=
    List.eq_append_cons_of_mem (List.count_pos_iff.1 (by omega))
  have hrest : rest.count true = 1 := by
    rw [List.count_append, List.count_eq_zero.2 hfront, List.count_cons_self] at hcount
    omega
  obtain ⟨middle, back, rfl, hmiddle⟩ :
      ∃ middle back, rest = middle ++ true :: back ∧ true ∉ middle :=
    List.eq_append_cons_of_mem (List.count_pos_iff.1 (by omega))
  have hback : true ∉ back := by
    rw [List.count_append, List.count_eq_zero.2 hmiddle, List.count_cons_self] at hrest
    exact List.count_eq_zero.1 (by omega)
  have hlength : middle.length < 126 := by
    have hfar := hnear front.length (front.length + (middle.length + 1)) (by simp) (by simp)
    omega
  intro hzero
  -- The first bit is shifted through the middle, and the second would have to cancel it.
  rw [residue_append_left _ hfront, show true :: (middle ++ true :: back) =
    true :: middle ++ [true] ++ back by simp, residue_append_right _ hback] at hzero
  have hcancel := repeat_shift_eq_zero hzero
  rw [residue_concat, show true :: middle = [true] ++ middle from rfl,
    residue_append_right _ hmiddle] at hcancel
  exact repeat_shift_generator_ne _ hlength (UInt8.xor_eq_zero_iff.1 (shift_eq_zero hcancel))

/-- **No detectable pattern has residue zero.** -/
theorem residue_ne_zero {bits : List Bool} (h : IsDetectable bits) : residue bits ≠ 0 := by
  rcases h with hodd | ⟨hmem, hburst⟩ | hpair
  · exact residue_ne_zero_of_odd hodd
  · exact residue_ne_zero_of_isBurst hmem hburst
  · exact residue_ne_zero_of_isPair hpair

/-! ### Corrupted texts and frames -/

/-- Flip the bits of a text that are set in an error, octet by octet from the first on. -/
def corrupt (octets error : List UInt8) : List UInt8 :=
  List.zipWith (· ^^^ ·) octets error ++ octets.drop error.length

theorem corrupt_append {octets error : List UInt8} (rest : List UInt8)
    (h : error.length = octets.length) :
    corrupt (octets ++ rest) error = corrupt octets error ++ rest := by
  have hzip : List.zipWith (· ^^^ ·) (octets ++ rest) (error ++ []) =
      List.zipWith (· ^^^ ·) octets error ++ List.zipWith (· ^^^ ·) rest [] :=
    List.zipWith_append h.symm
  rw [List.append_nil, List.zipWith_nil_right, List.append_nil] at hzip
  rw [corrupt, corrupt, hzip, h, List.drop_left, List.drop_length, List.append_nil]

/-- A text with its checksum does not become one by a detectable error. -/
theorem corrupt_ne {octets error : List UInt8} (hlength : error.length = octets.length + 1)
    (h : IsDetectable (bits error)) (octets' : List UInt8) :
    corrupt (octets ++ [crc8 octets]) error ≠ octets' ++ [crc8 octets'] := by
  intro heq
  have hlength' : (octets ++ [crc8 octets]).length = error.length := by
    rw [hlength, List.length_append, List.length_singleton]
  have hzero : crc8 (corrupt (octets ++ [crc8 octets]) error) = 0 := crc8_eq_zero_iff.2 ⟨_, heq⟩
  rw [corrupt, ← hlength', List.drop_length, List.append_nil, crc8_xor hlength',
    crc8_eq_zero_iff.2 ⟨octets, rfl⟩, UInt8.zero_xor, foldl_absorb_zero] at hzero
  exact residue_ne_zero h hzero

/-- A frame that is read begins with a text of six octets and its checksum. -/
theorem exists_body_of_decode {frame : List UInt8} {s : Sample} (h : Frame.decode frame = .ok s) :
    ∃ body rest, body.length = 6 ∧ frame = body ++ [crc8 body] ++ rest := by
  obtain ⟨raw, hparse, -⟩ := Frame.decode_eq_ok_iff.1 h
  obtain ⟨status, b1, b2, b3, b4, b5, rest, rfl, -⟩ := Frame.parse_eq_ok_iff.1 hparse
  exact ⟨[status, b1, b2, b3, b4, b5], rest, rfl, rfl⟩

/-- Up to three set bits in the seven octets of a frame are few enough, wherever they are: an even
number of them is a pair, and its bits are close. -/
theorem isDetectable_of_few {error : List UInt8} (hlength : error.length ≤ 15)
    (hpos : 0 < (bits error).count true) (hfew : (bits error).count true ≤ 3) :
    IsDetectable (bits error) := by
  by_cases hodd : (bits error).count true % 2 = 1
  · exact .inl hodd
  · refine .inr (.inr ⟨by omega, ?_⟩)
    intro p q _ hq
    obtain ⟨hlt, -⟩ := List.getElem?_eq_some_iff.1 hq
    rw [length_bits] at hlt
    omega

/-- **Corruption is detected.** Flip bits of a text that ends in its own checksum. If they are odd
in number, or a burst, or a pair, the result is not again a text that ends in its own checksum. So a
frame that is read is rejected once one, two or three bits of its seven octets are flipped, or an
odd number of them, or a burst. -/
theorem detects_corruption :
    (∀ octets error : List UInt8, error.length = octets.length + 1 → IsDetectable (bits error) →
      ∀ octets', corrupt (octets ++ [crc8 octets]) error ≠ octets' ++ [crc8 octets']) ∧
    (∀ frame s error, Frame.decode frame = .ok s → error.length = 7 →
      ((0 < (bits error).count true ∧ (bits error).count true ≤ 3) ∨
        (bits error).count true % 2 = 1 ∨ (true ∈ bits error ∧ IsBurst (bits error))) →
      ∃ fault, Frame.decode (corrupt frame error) = .error fault) := by
  refine ⟨fun octets error hlength h ↦ corrupt_ne hlength h, ?_⟩
  intro frame s error hdecode hlength h
  have hdetectable : IsDetectable (bits error) := by
    rcases h with ⟨hpos, hfew⟩ | hodd | hburst
    · exact isDetectable_of_few (by omega) hpos hfew
    · exact .inl hodd
    · exact .inr (.inl hburst)
  obtain ⟨body, rest, hbody, rfl⟩ := exists_body_of_decode hdecode
  cases hcorrupt : Frame.decode (corrupt (body ++ [crc8 body] ++ rest) error) with
  | error fault => exact ⟨fault, rfl⟩
  | ok s' =>
    obtain ⟨body', rest', hbody', heq⟩ := exists_body_of_decode hcorrupt
    rw [corrupt_append rest (by rw [List.length_append, hbody, hlength]; rfl)] at heq
    have hlengths : (corrupt (body ++ [crc8 body]) error).length =
        (body' ++ [crc8 body']).length := by
      simp [corrupt, hbody, hbody', hlength]
    obtain ⟨hsame, -⟩ := List.append_inj heq hlengths
    exact absurd hsame (corrupt_ne (by rw [hlength, hbody]) hdetectable body')

/-- The first and the last bit of a frame. -/
def farPair : List UInt8 := [0x80, 0, 0, 0, 0, 0, 0x01]

theorem detects_corruption_farPair :
    let octets : List UInt8 := [0x1C, 0x80, 0x00, 0x08, 0x00, 0x00]
    let s := RawSample.toSample ⟨0x80000, 0x80000⟩
    corrupt (octets ++ [crc8 octets]) farPair ≠
      [0x9C, 0x80, 0x00, 0x08, 0x00, 0x00] ++ [crc8 [0x9C, 0x80, 0x00, 0x08, 0x00, 0x00]] ∧
    Frame.decode (octets ++ [crc8 octets]) = .ok s ∧
    ∃ fault, Frame.decode (corrupt (octets ++ [crc8 octets]) farPair) = .error fault := by
  intro octets s
  obtain ⟨htexts, hframes⟩ := detects_corruption
  have hfew : 0 < (bits farPair).count true ∧ (bits farPair).count true ≤ 3 := by decide
  have hdecode : Frame.decode (octets ++ [crc8 octets]) = .ok s :=
    Frame.decode_eq_ok_iff.2 ⟨⟨0x80000, 0x80000⟩, Frame.parse_eq_ok_iff.2
      ⟨0x1C, 0x80, 0x00, 0x08, 0x00, 0x00, [], rfl, by decide, by decide, by decide⟩, rfl⟩
  exact ⟨htexts octets farPair rfl (isDetectable_of_few (by decide) hfew.1 hfew.2) _, hdecode,
    hframes _ s farPair hdecode rfl (.inl hfew)⟩

end Hygrometer.Checksum
