import Hygrometer.Session

/-!
# Transcripts of sessions

A session is a program that calls hardware, and all that it keeps of a call is the call itself. What
the hardware answered is not kept. It can still be found: the hardware is a function, so making the
calls again from the same state gives the same answers again, and the same state behind them
(`Hardware.answers`). The calls with these answers are the **transcript** of a session, and two
properties of sessions are about it.

* A **faithful** session leaves the state that its calls leave (`IsFaithful`), so it called nothing
  else: the list of calls is complete, and not merely a list of some of them.
* A session **mirrors** another one, on other hardware, if the same answers to its calls make the
  other end as it does, with the same calls (`Mirrors`). A session that mirrors itself on all
  hardware depends on nothing but the answers that it is given: neither on the state behind them nor
  on what was asked before it began.

Both are kept by `bind`, and the three calls have them, so whatever is composed of calls has them.
For a given protocol nothing is left but to name its parts in their order, and its proof follows the
protocol as it is written.

**Why two hardwares.** A statement that one device gives the same reading in two states would say
less: it could not tell a session that looks at the state from one that looks at the answers, if the
hardware at hand never lets the two differ. With another hardware, of another type of state, there
is nothing else that the two runs could share.
-/

namespace Hygrometer

/-- What the hardware answers to a call. -/
inductive Answer where
  /-- To a write. -/
  | wrote (result : Except Failure Unit)
  /-- To a read. -/
  | got (result : Except Failure (List UInt8))
  /-- To a sample. -/
  | sampled (result : Except Failure UInt16)

namespace Hardware

variable {σ : Type} (hw : Hardware σ)

/-- The answer to a call, and the state after it. -/
@[simp] def answer : Call → σ → Answer × σ
  | .write address octets, state =>
    (.wrote (hw.write address octets state).1, (hw.write address octets state).2)
  | .read address count, state =>
    (.got (hw.read address count state).1, (hw.read address count state).2)
  | .sample pin, state => (.sampled (hw.sample pin state).1, (hw.sample pin state).2)

/-- The answers to calls in a row, and the state after the last. -/
@[simp] def answers : List Call → σ → List Answer × σ
  | [], state => ([], state)
  | call :: calls, state =>
    let first := hw.answer call state
    let others := answers calls first.2
    (first.1 :: others.1, others.2)

/-- The answers to calls and others after them: the others are answered from the state that the
first have left. -/
theorem answers_append (calls others : List Call) (state : σ) :
    hw.answers (calls ++ others) state =
      ((hw.answers calls state).1 ++ (hw.answers others (hw.answers calls state).2).1,
        (hw.answers others (hw.answers calls state).2).2) := by
  induction calls generalizing state with
  | nil => rfl
  | cons call calls ih => rw [List.cons_append, answers, answers, ih, List.cons_append]

/-- Every call is answered. -/
theorem length_answers (calls : List Call) (state : σ) :
    (hw.answers calls state).1.length = calls.length := by
  induction calls generalizing state with
  | nil => rfl
  | cons call calls ih => rw [answers, List.length_cons, List.length_cons, ih]

end Hardware

namespace Session

variable {σ τ α β : Type} {hw : Hardware σ} {hw' : Hardware τ}

/-- A write is one call, which leaves what the hardware leaves. -/
@[simp] theorem run_write (hw : Hardware σ) (address : UInt8) (octets : List UInt8) (state : σ) :
    (write hw address octets).run state =
      ⟨(hw.write address octets state).1, [.write address octets],
        (hw.write address octets state).2⟩ := rfl

/-- So is a read. -/
@[simp] theorem run_read (hw : Hardware σ) (address : UInt8) (count : Nat) (state : σ) :
    (read hw address count).run state =
      ⟨(hw.read address count state).1, [.read address count],
        (hw.read address count state).2⟩ := rfl

/-- So is a sample. -/
@[simp] theorem run_sample (hw : Hardware σ) (pin : UInt8) (state : σ) :
    (sample hw pin).run state =
      ⟨(hw.sample pin state).1, [.sample pin], (hw.sample pin state).2⟩ := rfl

/-! ### Faithful sessions -/

/-- The session leaves the state that its calls leave. -/
def IsFaithful (hw : Hardware σ) (session : Session σ α) : Prop :=
  ∀ state, (session.run state).state = (hw.answers (session.run state).calls state).2

/-- What calls nothing leaves the state alone. -/
theorem isFaithful_pure (a : α) : IsFaithful hw (Pure.pure a) := fun _ ↦ rfl

/-- Neither does a result that is there already, be it an error or not. -/
theorem isFaithful_ofExcept (result : Except Failure α) : IsFaithful hw (ofExcept result) := by
  intro state
  cases result <;> rfl

/-- A write leaves what its own call leaves. -/
theorem isFaithful_write (address : UInt8) (octets : List UInt8) :
    IsFaithful hw (write hw address octets) := fun _ ↦ rfl

/-- A read leaves what its own call leaves. -/
theorem isFaithful_read (address : UInt8) (count : Nat) :
    IsFaithful hw (read hw address count) := fun _ ↦ rfl

/-- A sample leaves what its own call leaves. -/
theorem isFaithful_sample (pin : UInt8) : IsFaithful hw (sample hw pin) := fun _ ↦ rfl

/-- **Faithful sessions compose**: if the first ends in an error, its calls are all, and otherwise
those of the next follow them. -/
theorem IsFaithful.bind {session : Session σ α} {next : α → Session σ β}
    (hsession : IsFaithful hw session) (hnext : ∀ a, IsFaithful hw (next a)) :
    IsFaithful hw (session >>= next) := by
  intro state
  cases hresult : (session.run state).result with
  | error f =>
    rw [run_bind_of_error hresult]
    exact hsession state
  | ok a =>
    rw [run_bind_of_ok hresult, Hardware.answers_append, ← hsession state]
    exact hnext a _

/-! ### Mirrored sessions -/

/-- Given the same answers to its calls, the other session makes the same calls, with the same
result. -/
def Mirrors (hw : Hardware σ) (hw' : Hardware τ) (session : Session σ α)
    (session' : Session τ α) : Prop :=
  ∀ state state',
    (hw'.answers (session.run state).calls state').1 =
      (hw.answers (session.run state).calls state).1 →
    (session'.run state').calls = (session.run state).calls ∧
      (session'.run state').result = (session.run state).result

/-- What calls nothing ends the same on any hardware. -/
theorem mirrors_pure (a : α) : Mirrors hw hw' (Pure.pure a) (Pure.pure a) :=
  fun _ _ _ ↦ ⟨rfl, rfl⟩

/-- So does a result that is there already. -/
theorem mirrors_ofExcept (result : Except Failure α) :
    Mirrors hw hw' (ofExcept result) (ofExcept result) := by
  intro state state' _
  cases result <;> exact ⟨rfl, rfl⟩

/-- A write ends as it is answered. -/
theorem mirrors_write (address : UInt8) (octets : List UInt8) :
    Mirrors hw hw' (write hw address octets) (write hw' address octets) := by
  intro state state' h
  exact ⟨rfl, by simpa using h⟩

/-- A read ends as it is answered. -/
theorem mirrors_read (address : UInt8) (count : Nat) :
    Mirrors hw hw' (read hw address count) (read hw' address count) := by
  intro state state' h
  exact ⟨rfl, by simpa using h⟩

/-- A sample ends as it is answered. -/
theorem mirrors_sample (pin : UInt8) : Mirrors hw hw' (sample hw pin) (sample hw' pin) := by
  intro state state' h
  exact ⟨rfl, by simpa using h⟩

/-- **Mirrored steps make a mirrored session**, as long as the first of them is faithful: then the
answers to the second begin where those to the first end. -/
theorem Mirrors.bind {session : Session σ α} {session' : Session τ α} {next : α → Session σ β}
    {next' : α → Session τ β} (hsession : Mirrors hw hw' session session')
    (hnext : ∀ a, Mirrors hw hw' (next a) (next' a)) (hfaithful : IsFaithful hw session)
    (hfaithful' : IsFaithful hw' session') :
    Mirrors hw hw' (session >>= next) (session' >>= next') := by
  intro state state' h
  cases hresult : (session.run state).result with
  | error f =>
    rw [run_bind_of_error hresult] at h ⊢
    obtain ⟨hcalls, hresult'⟩ := hsession state state' h
    rw [run_bind_of_error (hresult'.trans hresult)]
    exact ⟨hcalls, rfl⟩
  | ok a =>
    rw [run_bind_of_ok hresult] at h ⊢
    simp only [Hardware.answers_append] at h
    -- There are as many answers as calls, so both lists of answers split after the first session.
    have hlength : (hw'.answers (session.run state).calls state').1.length =
        (hw.answers (session.run state).calls state).1.length := by
      rw [Hardware.length_answers, Hardware.length_answers]
    obtain ⟨hfirst, hsecond⟩ := List.append_inj h hlength
    obtain ⟨hcalls, hresult'⟩ := hsession state state' hfirst
    rw [run_bind_of_ok (hresult'.trans hresult)]
    rw [← hfaithful state, ← hcalls, ← hfaithful' state'] at hsecond
    obtain ⟨hcalls₂, hresult₂⟩ := hnext a _ _ hsecond
    refine ⟨?_, hresult₂⟩
    simp only [hcalls, hcalls₂]

end Session
end Hygrometer
