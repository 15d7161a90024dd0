import Hygrometer.Config.Load
import Hygrometer.Proofs.Except
import Hygrometer.Proofs.Text.Basic

/-!
# What the variable `PORT` may hold

A value **names** a number if it is a numeral between blanks: one or more ASCII digits, behind a
plus sign at most (`Port.Names`). The grammar knows nothing of sixteen bits, and a number that does
not fit into them is named like any other.

**Reading into sixteen bits.** The digits are read one by one into sixteen bits, and reading stops
as soon as the number would leave them. As digits only ever make a number greater, nothing is
refused that way which fits in the end (`foldlM_append_eq_ok_iff`), however many leading zeros there
are. So the values that are accepted are those that name a number of sixteen bits
(`ofVariable_some_eq_ok_iff`). The equivalence has all of the grammar in it: a value that is refused
names no port at all (`not_names_of_eq_error`), whichever of the faults is reported.

The blanks around the numeral are those of Unicode. None of them is a digit or a sign, so that
cutting them off leaves the numeral alone (`IsNumeral.isBlank_eq_false`).

**Overrides.** A variable that is not set changes nothing, one that is accepted changes the port
only, and one that is refused leaves the server as it was. A sequence of them therefore ends with
the port of the last one that succeeded, and with the port that was there before if none did
(`afterOverrides_of_names`, `afterOverrides_of_not_names`). Both are by induction on the sequence,
which is what runs when the variable is looked at more than once.
-/

namespace Hygrometer

open Text (IsGap isBlank)

namespace Port

/-! ### The grammar -/

/-- A text that is a decimal numeral: one or more digits, behind a plus sign at most. -/
def IsNumeral (cs : List Char) (n : ℕ) : Prop :=
  ∃ digits, (cs = digits ∨ cs = '+' :: digits) ∧ digits ≠ [] ∧
    (∀ c ∈ digits, c.isDigit = true) ∧ Nat.ofDigitChars 10 digits 0 = n

/-- A value that is a decimal numeral once the blanks around it are gone. -/
def Names (value : String) (n : ℕ) : Prop :=
  ∃ before cs after, IsGap before ∧ IsGap after ∧ value.toList = before ++ cs ++ after ∧
    IsNumeral cs n

theorem isBlank_of_isDigit {c : Char} (h : c.isDigit = true) : isBlank c = false := by
  rw [Char.isDigit, Bool.and_eq_true, decide_eq_true_iff, decide_eq_true_iff] at h
  have hlow : 48 ≤ c.toNat := UInt32.le_iff_toNat_le.1 h.1
  have hhigh : c.toNat ≤ 57 := UInt32.le_iff_toNat_le.1 h.2
  simp only [isBlank, Bool.or_eq_false_iff, Bool.and_eq_false_iff, decide_eq_false_iff_not,
    beq_eq_false_iff_ne]
  omega

/-- A numeral has something in it, and no blanks. -/
theorem IsNumeral.isBlank_eq_false {cs : List Char} {n : ℕ} (h : IsNumeral cs n) :
    cs ≠ [] ∧ ∀ c ∈ cs, isBlank c = false := by
  obtain ⟨digits, rfl | rfl, hne, hdigits, -⟩ := h
  · exact ⟨hne, fun c hc ↦ isBlank_of_isDigit (hdigits c hc)⟩
  · refine ⟨List.cons_ne_nil _ _, fun c hc ↦ ?_⟩
    rcases List.mem_cons.1 hc with rfl | hc
    · decide
    · exact isBlank_of_isDigit (hdigits c hc)

/-! ### Reading into sixteen bits -/

/-- Digits never make a number smaller. -/
theorem le_ofDigitChars (cs : List Char) (n : ℕ) : n ≤ Nat.ofDigitChars 10 cs n := by
  rw [Nat.ofDigitChars_eq_ofDigitChars_zero]
  have hpow : 1 * n ≤ 10 ^ cs.length * n := Nat.mul_le_mul_right n (Nat.one_le_pow _ _ (by decide))
  omega

theorem append_eq_ok_iff {p q : UInt16} {c : Char} :
    append p c = .ok q ↔ c.isDigit = true ∧ 10 * p.toNat + (c.toNat - '0'.toNat) = q.toNat := by
  rw [append]
  cases hvalue : Text.digitValue? 10 c with
  | none =>
    have hdigit : ¬c.isDigit = true := by
      intro h
      rw [Text.digitValue?_of_isDigit h] at hvalue
      cases hvalue
    simp [hdigit]
  | some d =>
    obtain ⟨hdigit, rfl⟩ := Text.digitValue?_eq_some_iff.1 hvalue
    have hq := q.toNat_lt
    dsimp only
    split
    · next hfits =>
      rw [Except.ok.injEq, ← UInt16.toNat_inj, UInt16.toNat_ofNat_of_lt' hfits]
      exact ⟨fun h ↦ ⟨hdigit, h⟩, fun h ↦ h.2⟩
    · next hlarge =>
      refine ⟨fun h ↦ (nomatch h), fun h ↦ absurd ?_ hlarge⟩
      rw [h.2]
      exact hq

/-- **Digits are read into sixteen bits exactly if they fit.** The number of the digits so far is at
most that of all of them, so no step is refused on the way. -/
theorem foldlM_append_eq_ok_iff {digits : List Char} {p q : UInt16} :
    digits.foldlM append p = .ok q ↔
      (∀ c ∈ digits, c.isDigit = true) ∧ Nat.ofDigitChars 10 digits p.toNat = q.toNat := by
  induction digits generalizing p with
  | nil => simp [pure, Except.pure, UInt16.toNat_inj]
  | cons c cs ih =>
    rw [List.foldlM_cons, Except.bind_eq_ok_iff, Nat.ofDigitChars_cons, List.forall_mem_cons]
    constructor
    · rintro ⟨r, hr, hq⟩
      obtain ⟨hdigit, hr⟩ := append_eq_ok_iff.1 hr
      obtain ⟨hdigits, hq⟩ := ih.1 hq
      exact ⟨⟨hdigit, hdigits⟩, by rw [hr, hq]⟩
    · rintro ⟨⟨hdigit, hdigits⟩, hq⟩
      have hle := le_ofDigitChars cs (10 * p.toNat + (c.toNat - '0'.toNat))
      have hlt : 10 * p.toNat + (c.toNat - '0'.toNat) < UInt16.size :=
        hle.trans_lt (hq ▸ q.toNat_lt)
      have hr := UInt16.toNat_ofNat_of_lt' hlt
      exact ⟨_, append_eq_ok_iff.2 ⟨hdigit, hr.symm⟩, ih.2 ⟨hdigits, by rw [hr, hq]⟩⟩

theorem read_eq_ok_iff {cs : List Char} {port : UInt16} :
    read cs = .ok port ↔ IsNumeral cs port.toNat := by
  have hread (digits : List Char) :
      (if digits.isEmpty then .error .badDigit else digits.foldlM append 0) = .ok port ↔
        digits ≠ [] ∧ (∀ c ∈ digits, c.isDigit = true) ∧
          Nat.ofDigitChars 10 digits 0 = port.toNat := by
    cases digits with
    | nil => simp
    | cons c cs =>
      rw [List.isEmpty_cons, if_neg Bool.false_ne_true, foldlM_append_eq_ok_iff]
      simp
  by_cases hsign : ∃ digits, cs = '+' :: digits
  · obtain ⟨digits, rfl⟩ := hsign
    refine (hread digits).trans ⟨fun h ↦ ⟨digits, .inr rfl, h⟩, ?_⟩
    rintro ⟨_, rfl | hcons, h⟩
    · -- A plus sign is no digit.
      exact absurd (h.2.1 '+' List.mem_cons_self) (by decide)
    · obtain rfl := (List.cons.inj hcons).2
      exact h
  · have hplain : read cs = if cs.isEmpty then .error .badDigit else cs.foldlM append 0 := by
      unfold read
      split
      · next digits => exact absurd ⟨digits, rfl⟩ hsign
      · rfl
    rw [hplain, hread]
    refine ⟨fun h ↦ ⟨cs, .inl rfl, h⟩, ?_⟩
    rintro ⟨digits, rfl | rfl, h⟩
    · exact h
    · exact absurd ⟨digits, rfl⟩ hsign

/-- **What a value decides**: a port exactly if it names a number of sixteen bits. -/
theorem ofVariable_some_eq_ok_iff {value : String} {port? : Option UInt16} :
    ofVariable (some value) = .ok port? ↔
      ∃ port : UInt16, Names value port.toNat ∧ port? = some port := by
  have hnames (port : UInt16) :
      Names value port.toNat ↔
        Text.isBlankText value = false ∧ read (Text.trim value.toList) = .ok port := by
    rw [read_eq_ok_iff]
    constructor
    · rintro ⟨before, cs, after, hbefore, hafter, hvalue, hcs⟩
      obtain ⟨hne, hblank⟩ := hcs.isBlank_eq_false
      refine ⟨?_, by rwa [hvalue, Text.trim_append hbefore hafter hne hblank]⟩
      rw [Bool.eq_false_iff, ne_eq, Text.isBlankText_iff, hvalue]
      intro hgap
      obtain ⟨c, hc⟩ := List.exists_mem_of_ne_nil cs hne
      have htrue := hgap c (by simp [hc])
      rw [hblank c hc] at htrue
      cases htrue
    · rintro ⟨-, hcs⟩
      obtain ⟨before, after, hbefore, hafter, hvalue⟩ := Text.exists_trim_eq value.toList
      exact ⟨before, _, after, hbefore, hafter, hvalue, hcs⟩
  rw [ofVariable]
  split
  · next hblank => simp [hnames, hblank]
  · next hblank =>
    rw [Bool.not_eq_true] at hblank
    split
    · next port hread => simp [hnames, hblank, hread, eq_comm]
    · next reason hread => simp [hnames, hblank, hread]

theorem not_names_of_eq_error {value : String} {fault : PortFault}
    (h : ofVariable (some value) = .error fault) : ∀ n ≤ 65535, ¬Names value n := by
  intro n hn hnames
  have hport : (UInt16.ofNat n).toNat = n := UInt16.toNat_ofNat_of_lt' (Nat.lt_succ_of_le hn)
  rw [ofVariable_some_eq_ok_iff.2 ⟨_, hport.symm ▸ hnames, rfl⟩] at h
  cases h

end Port

namespace ServerConfig

variable {c : ServerConfig} {value : String}

theorem overridePort_some_eq_ok_iff {c' : ServerConfig} :
    c.overridePort (some value) = .ok c' ↔
      ∃ port : UInt16, Port.Names value port.toNat ∧ c' = { c with port } := by
  rw [overridePort, Except.map_eq_ok_iff]
  constructor
  · rintro ⟨port?, hport, rfl⟩
    obtain ⟨port, hnames, rfl⟩ := Port.ofVariable_some_eq_ok_iff.1 hport
    exact ⟨port, hnames, rfl⟩
  · rintro ⟨port, hnames, rfl⟩
    exact ⟨_, Port.ofVariable_some_eq_ok_iff.2 ⟨port, hnames, rfl⟩, rfl⟩

theorem overridePort_of_names {n : ℕ} (h : Port.Names value n) (hn : n ≤ 65535) :
    ∃ port : UInt16, port.toNat = n ∧ c.overridePort (some value) = .ok { c with port } := by
  have hport : (UInt16.ofNat n).toNat = n := UInt16.toNat_ofNat_of_lt' (Nat.lt_succ_of_le hn)
  exact ⟨_, hport, overridePort_some_eq_ok_iff.2 ⟨_, hport.symm ▸ h, rfl⟩⟩

theorem exists_overridePort_eq_error (h : ∀ n ≤ 65535, ¬Port.Names value n) :
    ∃ fault, c.overridePort (some value) = .error fault := by
  cases hresult : c.overridePort (some value) with
  | error fault => exact ⟨fault, rfl⟩
  | ok c' =>
    obtain ⟨port, hnames, -⟩ := overridePort_some_eq_ok_iff.1 hresult
    exact absurd hnames (h _ (Nat.le_of_lt_succ port.toNat_lt))

/-! ### Overrides one after another -/

/-- A server after the variable was looked at; a value that is refused leaves it as it was. -/
def afterOverride (c : ServerConfig) (value? : Option String) : ServerConfig :=
  (c.overridePort value?).toOption.getD c

/-- A server after the variable was looked at several times. -/
def afterOverrides (c : ServerConfig) (values : List (Option String)) : ServerConfig :=
  values.foldl afterOverride c

theorem afterOverrides_append (c : ServerConfig) (before after : List (Option String)) :
    c.afterOverrides (before ++ after) = (c.afterOverrides before).afterOverrides after :=
  List.foldl_append

theorem afterOverrides_cons (c : ServerConfig) (value? : Option String)
    (values : List (Option String)) :
    c.afterOverrides (value? :: values) = (c.afterOverride value?).afterOverrides values := rfl

/-- One override touches nothing but the port. -/
theorem afterOverride_eq (c : ServerConfig) (value? : Option String) :
    c.afterOverride value? = { c with port := (c.afterOverride value?).port } := by
  rcases value? with - | value
  · rfl
  · rw [afterOverride]
    cases hresult : c.overridePort (some value) with
    | error fault => rfl
    | ok c' =>
      obtain ⟨port, -, rfl⟩ := overridePort_some_eq_ok_iff.1 hresult
      rfl

/-- Nor do several. -/
theorem afterOverrides_eq (c : ServerConfig) (values : List (Option String)) :
    c.afterOverrides values = { c with port := (c.afterOverrides values).port } := by
  induction values generalizing c with
  | nil => rfl
  | cons value? values ih =>
    have hstep := ih (c.afterOverride value?)
    rw [afterOverride_eq c value?] at hstep
    rwa [afterOverrides_cons, afterOverride_eq c value?]

/-- Values that name no port change nothing at all. -/
theorem afterOverrides_of_not_names {values : List (Option String)}
    (h : ∀ value, some value ∈ values → ∀ n ≤ 65535, ¬Port.Names value n) :
    c.afterOverrides values = c := by
  induction values with
  | nil => rfl
  | cons value? values ih =>
    have hstep : c.afterOverride value? = c := by
      rcases value? with - | value
      · rfl
      · obtain ⟨fault, hfault⟩ := exists_overridePort_eq_error (c := c) (h value List.mem_cons_self)
        rw [afterOverride, hfault]
        rfl
    rw [afterOverrides_cons, hstep]
    exact ih fun value hvalue ↦ h value (List.mem_cons_of_mem _ hvalue)

/-- The last value that names a port decides it. -/
theorem afterOverrides_of_names {before after : List (Option String)} {n : ℕ}
    (h : Port.Names value n) (hn : n ≤ 65535)
    (hafter : ∀ later, some later ∈ after → ∀ m ≤ 65535, ¬Port.Names later m) :
    ∃ port : UInt16, port.toNat = n ∧
      c.afterOverrides (before ++ some value :: after) = { c with port } := by
  obtain ⟨port, hport, hresult⟩ := overridePort_of_names (c := c.afterOverrides before) h hn
  have hstep : (c.afterOverrides before).afterOverride (some value) =
      { c.afterOverrides before with port } := by
    rw [afterOverride, hresult]
    rfl
  refine ⟨port, hport, ?_⟩
  rw [afterOverrides_append, afterOverrides_cons, hstep, afterOverrides_of_not_names hafter,
    afterOverrides_eq c before]

/-- **What the variable `PORT` does to a server.** Unset it changes nothing. A value is accepted if
it is, between blanks, a plus sign at most and then ASCII digits of a number up to 65535; the port
is that number then, and nothing else has changed. Every other value is a bad request. So of any
sequence of values the last one that names a port decides it, and if there is none, the server is as
it was before. -/
theorem overrides_follow_grammar (c : ServerConfig) :
    c.overridePort none = .ok c ∧
    (∀ value n, Port.Names value n → n ≤ 65535 →
      ∃ port : UInt16, port.toNat = n ∧ c.overridePort (some value) = .ok { c with port }) ∧
    (∀ value, (∀ n ≤ 65535, ¬Port.Names value n) →
      ∃ fault, c.overridePort (some value) = .error fault ∧ fault.toFailure.kind = .badRequest) ∧
    (∀ values, (∀ value, some value ∈ values → ∀ n ≤ 65535, ¬Port.Names value n) →
      c.afterOverrides values = c) ∧
    (∀ before value after n, Port.Names value n → n ≤ 65535 →
      (∀ later, some later ∈ after → ∀ m ≤ 65535, ¬Port.Names later m) →
      ∃ port : UInt16, port.toNat = n ∧
        c.afterOverrides (before ++ some value :: after) = { c with port }) := by
  refine ⟨rfl, fun value n ↦ overridePort_of_names, ?_, fun values ↦ afterOverrides_of_not_names,
    fun before value after n ↦ afterOverrides_of_names⟩
  intro value h
  obtain ⟨fault, hfault⟩ := exists_overridePort_eq_error (c := c) h
  exact ⟨fault, hfault, rfl⟩

/-- A port with a sign, leading zeros and a no-break space, and after it a number that is one too
large and one with a blank inside. -/
theorem overrides_follow_grammar_zeros :
    let c : ServerConfig := { serviceName := "bench" }
    Port.Names "\t+0000000808 \u00a0" 808 ∧ (∀ n ≤ 65535, ¬Port.Names "65536" n) ∧
      (∀ n ≤ 65535, ¬Port.Names "8 0" n) ∧
      c.afterOverrides [some "1", some "\t+0000000808 \u00a0", none, some "65536", some "8 0"] =
        { c with port := 808 } := by
  intro c
  have hnames : Port.Names "\t+0000000808 \u00a0" 808 :=
    ⟨['\t'], "+0000000808".toList, [' ', '\u00a0'], by decide, by decide, by decide +kernel,
      "0000000808".toList, .inr (by decide +kernel), by decide +kernel,
      List.all_eq_true.1 (by decide +kernel), by decide +kernel⟩
  have hlarge : ∀ n ≤ 65535, ¬Port.Names "65536" n :=
    Port.not_names_of_eq_error
      (show Port.ofVariable _ = .error (.invalid "65536" .tooLarge) by decide +kernel)
  have hgap : ∀ n ≤ 65535, ¬Port.Names "8 0" n :=
    Port.not_names_of_eq_error
      (show Port.ofVariable _ = .error (.invalid "8 0" .badDigit) by decide +kernel)
  obtain ⟨-, -, -, -, hlast⟩ := overrides_follow_grammar c
  obtain ⟨port, hport, hresult⟩ := hlast [some "1"] "\t+0000000808 \u00a0"
    [none, some "65536", some "8 0"] 808 hnames (by decide) (by
      intro later hlater
      simp only [List.mem_cons, reduceCtorEq, Option.some.injEq, List.not_mem_nil, or_false,
        false_or] at hlater
      rcases hlater with rfl | rfl
      · exact hlarge
      · exact hgap)
  obtain rfl : port = 808 := UInt16.toNat_inj.1 hport
  exact ⟨hnames, hlarge, hgap, hresult⟩

end ServerConfig
end Hygrometer
