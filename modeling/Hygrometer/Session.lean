import Hygrometer.Failure

/-!
# Sessions with the board's hardware

The hardware is an I²C bus and an analogue converter, which answer a call with a result or a failure
and may change their state. A session is a computation that makes such calls. It leaves the list of
its calls, and stops at the first failure.

**The calls are part of the outcome** (`Outcome.calls`), in the order in which they were made. So
what a session does to the hardware can be stated, and not only what it returns: that nothing was
called behind a failure, or that a pin was not sampled.

**The state of the hardware is a parameter.** A session passes it from one call to the next and
never looks at it. It is hidden to the program as well; whatever is proved of all states is proved
of any hardware, with a memory or without.
-/

namespace Hygrometer

/-- A call of the hardware. -/
inductive Call where
  /-- Write octets to a bus address. -/
  | write (address : UInt8) (octets : List UInt8)
  /-- Read octets from a bus address. -/
  | read (address : UInt8) (count : Nat)
  /-- Sample an analogue pin. -/
  | sample (pin : UInt8)
deriving DecidableEq

/-- Hardware with a state: how it answers each call. -/
structure Hardware (σ : Type) where
  /-- The bus answers a write. -/
  write : UInt8 → List UInt8 → σ → Except Failure Unit × σ
  /-- The bus answers a read. -/
  read : UInt8 → Nat → σ → Except Failure (List UInt8) × σ
  /-- The converter answers with a sample. -/
  sample : UInt8 → σ → Except Failure UInt16 × σ

/-- How a session ends: its result, its calls in order, and the state it leaves. -/
structure Outcome (σ α : Type) where
  /-- The result. -/
  result : Except Failure α
  /-- The calls made. -/
  calls : List Call
  /-- The state of the hardware. -/
  state : σ

/-- A computation that calls hardware. -/
def Session (σ α : Type) : Type := σ → Outcome σ α

namespace Session

variable {σ α β : Type}

/-- Run a session from a state of the hardware. -/
def run (session : Session σ α) (state : σ) : Outcome σ α := session state

/-- The session that makes no call. -/
def pure (a : α) : Session σ α := fun state ↦ ⟨.ok a, [], state⟩

/-- The session that makes no call and fails. -/
def fail (f : Failure) : Session σ α := fun state ↦ ⟨.error f, [], state⟩

/-- One session and then, unless it fails, another. -/
def bind (session : Session σ α) (next : α → Session σ β) : Session σ β := fun state ↦
  let first := session.run state
  match first.result with
  | .error f => ⟨.error f, first.calls, first.state⟩
  | .ok a =>
    let second := (next a).run first.state
    ⟨second.result, first.calls ++ second.calls, second.state⟩

instance : Monad (Session σ) where
  pure := pure
  bind := bind

@[simp] theorem run_pure (a : α) (state : σ) :
    (Pure.pure a : Session σ α).run state = ⟨.ok a, [], state⟩ := rfl

@[simp] theorem run_fail (f : Failure) (state : σ) :
    (fail f : Session σ α).run state = ⟨.error f, [], state⟩ := rfl

/-- A session that fails is not gone on with. -/
theorem run_bind_of_error {session : Session σ α} {state : σ} {f : Failure}
    (h : (session.run state).result = .error f) (next : α → Session σ β) :
    (session >>= next).run state =
      ⟨.error f, (session.run state).calls, (session.run state).state⟩ := by
  show bind session next state = _
  simp [bind, h]

/-- A session that succeeds is gone on with from the state it leaves. -/
theorem run_bind_of_ok {session : Session σ α} {state : σ} {a : α}
    (h : (session.run state).result = .ok a) (next : α → Session σ β) :
    (session >>= next).run state =
      let second := (next a).run (session.run state).state
      ⟨second.result, (session.run state).calls ++ second.calls, second.state⟩ := by
  show bind session next state = _
  simp [bind, h]

/-- The session with a known result. -/
def ofExcept : Except Failure α → Session σ α
  | .ok a => pure a
  | .error f => fail f

/-- Write to the bus. -/
def write (hw : Hardware σ) (address : UInt8) (octets : List UInt8) : Session σ Unit := fun state ↦
  let (result, state) := hw.write address octets state
  ⟨result, [.write address octets], state⟩

/-- Read from the bus. -/
def read (hw : Hardware σ) (address : UInt8) (count : Nat) : Session σ (List UInt8) := fun state ↦
  let (result, state) := hw.read address count state
  ⟨result, [.read address count], state⟩

/-- Sample an analogue pin. -/
def sample (hw : Hardware σ) (pin : UInt8) : Session σ UInt16 := fun state ↦
  let (result, state) := hw.sample pin state
  ⟨result, [.sample pin], state⟩

end Session
end Hygrometer
