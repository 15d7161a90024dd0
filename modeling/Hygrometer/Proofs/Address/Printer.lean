import Hygrometer.Proofs.Address.Reader

/-!
# Reading back written addresses

An address is written in one of its many texts, and **the text that is written denotes the address**
(`denotes_text`), so it is read back as it was (`parse?_text`). What is written to a log or a
configuration therefore names one address and no other (`text_injective`), also with a port behind
it (`Endpoint.text_injective`).

An IPv4 address has only one text. For eight groups the proof follows the ways in which they are
written:

* an address that stands for an IPv4 address ends in it, with five zero groups before its `ffff`;
* else the longest of its runs of zero groups is left out, if there is one of at least two
  (`longestZeroRun_spec` – the first one, where several are equally long);
* else all groups are written.

What is left out are zeros (`take_append_replicate_append_drop`), which is all that the grammar asks
of a `::`. That the run is the longest makes the text the shortest, and plays no part in reading it.
-/

namespace Hygrometer

namespace IpAddress

open Text (natOfDigits?)

/-! ### Groups -/

/-- The digits of a group are one. -/
theorem isGroup_toDigits (n : UInt16) : IsGroup (Nat.toDigits 16 n.toNat) := by
  have hdigits := Text.natOfDigits?_toDigits (by decide : 1 < 16) le_rfl n.toNat
  obtain ⟨hne, hdigits⟩ := Text.isSome_natOfDigits?_iff.1 (Option.isSome_of_eq_some hdigits)
  refine ⟨hne, ?_, fun c hc ↦ Text.isSome_digitValue?_sixteen_iff.1 (hdigits c hc)⟩
  exact (Nat.length_toDigits_le_iff (by decide) (by decide)).2 n.toNat_lt

namespace Run

/-- The run of given groups, each written without zeros in front. -/
def ofGroups (groups : List UInt16) : Run := ⟨groups.map fun n ↦ Nat.toDigits 16 n.toNat, none⟩

theorem text_ofGroups (groups : List UInt16) :
    (ofGroups groups).text = (groupsText groups).toList := by
  simp [text, fields, ofGroups, groupsText, Text.hexNumeral, Function.comp_def]

/-- It denotes the groups. -/
theorem denotes_ofGroups (groups : List UInt16) : (ofGroups groups).Denotes groups := by
  induction groups with
  | nil => exact .nil
  | cons n groups ih =>
    exact ih.cons (isGroup_toDigits n) (Text.natOfDigits?_toDigits (by decide) le_rfl n.toNat)

end Run

/-! ### Runs of zero groups -/

/-- The zero groups at the front, and what follows them. -/
theorem replicate_zeroRun_append_drop (groups : List UInt16) :
    List.replicate (zeroRun groups) 0 ++ groups.drop (zeroRun groups) = groups := by
  induction groups with
  | nil => rfl
  | cons g groups ih =>
    by_cases hg : g = 0
    · have hmore : zeroRun (g :: groups) = zeroRun groups + 1 := by simp [zeroRun, hg]
      rw [hmore, List.replicate_succ, List.drop_succ_cons, List.cons_append, ih, hg]
    · have hnone : zeroRun (g :: groups) = 0 := by simp [zeroRun, hg]
      rw [hnone, List.replicate_zero, List.drop_zero, List.nil_append]

theorem longestZeroRun_cons (g : UInt16) (groups : List UInt16) :
    longestZeroRun (g :: groups) =
      if (longestZeroRun groups).2 ≤ zeroRun (g :: groups) then (0, zeroRun (g :: groups))
      else ((longestZeroRun groups).1 + 1, (longestZeroRun groups).2) := rfl

/-- **The first of the longest runs**: it is where it is said to be, none is longer, and those
before it are shorter. -/
theorem longestZeroRun_spec (groups : List UInt16) :
    zeroRun (groups.drop (longestZeroRun groups).1) = (longestZeroRun groups).2 ∧
      (∀ place, zeroRun (groups.drop place) ≤ (longestZeroRun groups).2) ∧
      ∀ place < (longestZeroRun groups).1,
        zeroRun (groups.drop place) < (longestZeroRun groups).2 := by
  induction groups with
  | nil => simp [longestZeroRun, zeroRun]
  | cons g groups ih =>
    obtain ⟨hhere, hlongest, hfirst⟩ := ih
    rw [longestZeroRun_cons]
    by_cases hle : (longestZeroRun groups).2 ≤ zeroRun (g :: groups)
    · rw [if_pos hle]
      refine ⟨rfl, fun place ↦ ?_, fun place hplace ↦ absurd hplace (Nat.not_lt_zero place)⟩
      rcases place with - | place
      · exact le_rfl
      · exact (hlongest place).trans hle
    · rw [if_neg hle]
      refine ⟨hhere, fun place ↦ ?_, fun place hplace ↦ ?_⟩
      · rcases place with - | place
        · exact (Nat.lt_of_not_le hle).le
        · exact hlongest place
      · rcases place with - | place
        · exact Nat.lt_of_not_le hle
        · exact hfirst place (Nat.lt_of_succ_lt_succ hplace)

/-- What a longest run stands between. -/
theorem take_append_replicate_append_drop (groups : List UInt16) :
    groups.take (longestZeroRun groups).1 ++ List.replicate (longestZeroRun groups).2 0 ++
      groups.drop ((longestZeroRun groups).1 + (longestZeroRun groups).2) = groups := by
  obtain ⟨hhere, -, -⟩ := longestZeroRun_spec groups
  have hrun := replicate_zeroRun_append_drop (groups.drop (longestZeroRun groups).1)
  rw [hhere, List.drop_drop] at hrun
  rw [List.append_assoc, hrun, List.take_append_drop]

/-! ### Addresses -/

/-- The two groups that the octets of two groups fill. -/
theorem groupPair_octets (hi lo : UInt16) :
    groupPair #v[.ofNat (hi.toNat / 256), .ofNat (hi.toNat % 256), .ofNat (lo.toNat / 256),
      .ofNat (lo.toNat % 256)] = [hi, lo] := by
  have hgroup (n : UInt16) : UInt16.ofNat ((UInt8.ofNat (n.toNat / 256)).toNat * 256 +
      (UInt8.ofNat (n.toNat % 256)).toNat) = n := by
    have hlt := n.toNat_lt
    rw [UInt8.toNat_ofNat_of_lt' (show n.toNat / 256 < 256 by omega),
      UInt8.toNat_ofNat_of_lt' (Nat.mod_lt _ (by decide)), Nat.div_add_mod', UInt16.ofNat_toNat]
  simp only [groupPair]
  exact congrArg₂ (fun a b ↦ [a, b]) (hgroup hi) (hgroup lo)

/-- An address that stands for an IPv4 address is denoted by a text that ends in it. -/
theorem denotes_mapped {groups : Vector UInt16 8} {hi lo : UInt16}
    (h : groups.toList = [0, 0, 0, 0, 0, 0xffff, hi, lo]) :
    Denotes ("::ffff:" ++ fourText [hi.toNat / 256, hi.toNat % 256, lo.toNat / 256,
      lo.toNat % 256]).toList (v6 groups) := by
  have htext : (fourText [hi.toNat / 256, hi.toNat % 256, lo.toNat / 256, lo.toNat % 256]).toList =
      (v4 #v[.ofNat (hi.toNat / 256), .ofNat (hi.toNat % 256), .ofNat (lo.toNat / 256),
        .ofNat (lo.toNat % 256)]).text.toList := by
    have hhi := hi.toNat_lt
    have hlo := lo.toNat_lt
    simp only [text, Vector.toList, List.map_cons, List.map_nil]
    rw [UInt8.toNat_ofNat_of_lt' (show hi.toNat / 256 < 256 by omega),
      UInt8.toNat_ofNat_of_lt' (show hi.toNat % 256 < 256 by omega),
      UInt8.toNat_ofNat_of_lt' (show lo.toNat / 256 < 256 by omega),
      UInt8.toNat_ofNat_of_lt' (show lo.toNat % 256 < 256 by omega)]
  have hback := (Run.Denotes.four #v[.ofNat (hi.toNat / 256), .ofNat (hi.toNat % 256),
    .ofNat (lo.toNat / 256), .ofNat (lo.toNat % 256)]).cons (isGroup_toDigits 0xffff)
      (Text.natOfDigits?_toDigits (by decide) le_rfl _)
  rw [groupPair_octets] at hback
  have hfields (q : List Char) :
      (Run.cons (Nat.toDigits 16 (0xffff : UInt16).toNat) ⟨[], some q⟩).text =
        "ffff:".toList ++ q := by
    have hlead := Run.lead_cons true (Nat.toDigits 16 (0xffff : UInt16).toNat) ⟨[], some q⟩
    rw [Run.lead_four] at hlead
    exact hlead
  have hgroups : groups.toList = [] ++ List.replicate (4 + 1) 0 ++ [0xffff, hi, lo] := h
  have hdenotes := Denotes.short .nil hback rfl hgroups
  rw [hfields] at hdenotes
  rw [String.toList_append, htext]
  exact hdenotes

/-- Any other address is denoted by its groups, with a `::` for zeros or without. -/
theorem denotes_groups {groups : Vector UInt16 8}
    (h : ∀ hi lo, groups.toList ≠ [0, 0, 0, 0, 0, 0xffff, hi, lo]) :
    Denotes (eightText groups.toList).toList (v6 groups) := by
  have hsplit := take_append_replicate_append_drop groups.toList
  rw [eightText.eq_2 _ h]
  generalize longestZeroRun groups.toList = run at hsplit ⊢
  obtain ⟨place, length⟩ := run
  by_cases hlong : 1 < length
  · obtain ⟨zeros, rfl⟩ : ∃ k, length = k + 1 := ⟨length - 1, (Nat.sub_add_cancel hlong.le).symm⟩
    have hdenotes := Denotes.short (Run.denotes_ofGroups (groups.toList.take place))
      (Run.denotes_ofGroups (groups.toList.drop (place + (zeros + 1)))) rfl hsplit.symm
    simpa [hlong, Run.text_ofGroups] using hdenotes
  · have hdenotes := Denotes.full (Run.denotes_ofGroups groups.toList)
    simpa [hlong, Run.text_ofGroups] using hdenotes

/-- **An address is denoted by its text.** -/
theorem denotes_text (address : IpAddress) : Denotes address.text.toList address := by
  rcases address with octets | groups
  · exact .four octets
  · by_cases h : ∃ hi lo, groups.toList = [0, 0, 0, 0, 0, 0xffff, hi, lo]
    · obtain ⟨hi, lo, h⟩ := h
      rw [text, h]
      exact denotes_mapped h
    · exact denotes_groups fun hi lo heq ↦ h ⟨hi, lo, heq⟩

/-- **An address that was written is read back.** -/
theorem parse?_text (address : IpAddress) : parse? address.text = some address :=
  parse?_eq_some_iff.2 (denotes_text address)

/-- Different addresses have different texts. -/
theorem text_injective : Function.Injective text := by
  intro a b h
  have hread := parse?_text a
  rw [h, parse?_text] at hread
  exact (Option.some.inj hread).symm

end IpAddress

namespace Endpoint

/-- The port is what follows the last colon. -/
theorem append_port_inj {front front' : List Char} {m n : ℕ}
    (h : front ++ ':' :: Nat.toDigits 10 m = front' ++ ':' :: Nat.toDigits 10 n) :
    front = front' ∧ m = n := by
  have hback (front : List Char) (k : ℕ) :
      (front ++ ':' :: Nat.toDigits 10 k).reverse.takeWhile (fun c ↦ decide (c ≠ ':')) =
        (Nat.toDigits 10 k).reverse := by
    rw [List.reverse_append, List.reverse_cons, List.append_assoc]
    -- A port is written in digits, so the last colon is the one before it.
    refine Text.takeWhile_run (fun c hc ↦ decide_eq_true ?_) (by simp)
    rintro rfl
    cases Text.isDigit_of_mem_toDigits (List.mem_reverse.1 hc)
  have hport := hback front m
  rw [h, hback front' n] at hport
  obtain rfl : n = m :=
    Text.numeral_inj.1 (congrArg String.ofList (List.reverse_injective hport))
  exact ⟨List.append_cancel_right h, rfl⟩

/-- The text of an address as it stands before the port. -/
theorem toList_text (e : Endpoint) :
    e.text.toList = (match e.address with
      | .v4 octets => (IpAddress.v4 octets).text.toList
      | .v6 groups => '[' :: ((IpAddress.v6 groups).text.toList ++ [']'])) ++
        ':' :: Nat.toDigits 10 e.port.toNat := by
  obtain ⟨address, port⟩ := e
  rcases address with octets | groups <;> simp [text]

/-- The first character of an IPv4 address is a digit, and no bracket. -/
theorem toList_text_v4_ne (octets : Vector UInt8 4) (cs : List Char) :
    (IpAddress.v4 octets).text.toList ≠ '[' :: cs := by
  obtain ⟨a, b, c, d, rfl⟩ := IpAddress.exists_eq_vector octets
  obtain ⟨e, ds, hds⟩ := List.exists_cons_of_ne_nil (Nat.toDigits_ne_nil (n := a.toNat) (b := 10))
  rw [IpAddress.toList_text_v4, hds]
  intro h
  obtain ⟨rfl, -⟩ := List.cons.inj h
  cases Text.isDigit_of_mem_toDigits (hds ▸ List.mem_cons_self : '[' ∈ Nat.toDigits 10 a.toNat)

/-- **Different endpoints have different texts.** -/
theorem text_injective : Function.Injective text := by
  intro e e' h
  have hlist := congrArg String.toList h
  rw [toList_text, toList_text] at hlist
  obtain ⟨haddress, hport⟩ := append_port_inj hlist
  obtain ⟨address, port⟩ := e
  obtain ⟨address', port'⟩ := e'
  obtain rfl : port = port' := UInt16.toNat_inj.1 hport
  have hinj {a b : IpAddress} (h : a.text.toList = b.text.toList) : a = b :=
    IpAddress.text_injective (String.toList_inj.1 h)
  rcases address with octets | groups <;> rcases address' with octets' | groups'
  · rw [hinj haddress]
  · exact absurd haddress (toList_text_v4_ne octets _)
  · exact absurd haddress.symm (toList_text_v4_ne octets' _)
  · rw [hinj (List.append_cancel_right (List.cons.inj haddress).2)]

end Endpoint

end Hygrometer
