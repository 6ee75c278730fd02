import MemStream.Cursor

/-!
# `MemStream.StateAction` — steps that report and may fault

An action takes a state and gives a value, the state afterwards and the events on the way; or it meets a fault, and then
there is no state any more. Actions are put together with `do`, which passes the state on and joins the events. Buffers
and sessions are the two kinds of state, each with events of its own kind.

## Contents
- **Actions.** `Step`, `StateAction`, and the monad with its laws.
- **Primitives.** `StateAction.look` and `StateAction.alter` for the state, `StateAction.emit` for events,
  `StateAction.ensure` for checks that may fault. Each has a lemma that says what it does to a state (`run_look`,
  `run_alter`, `run_emit`, `run_ensure_ok`, `run_ensure_error`), and `run_bind_eq_ok_iff` takes runs of `do` blocks
  apart.
-/

namespace MemStream

/-- What an action leads to: its `value`, the `state` afterwards and the `events` on the way. -/
structure Step (ρ ε β : Type) where
  value : β
  state : ρ
  events : List ε
  deriving DecidableEq

/-- The step with `earlier` events before its own. -/
def Step.after {ρ ε β : Type} (earlier : List ε) (step : Step ρ ε β) : Step ρ ε β :=
  { step with events := earlier ++ step.events }

@[simp] theorem Step.after_mk {ρ β : Type} (earlier events : List ε) (value : β) (state : ρ) :
    Step.after earlier ⟨value, state, events⟩ = ⟨value, state, earlier ++ events⟩ := rfl

@[simp] theorem Step.after_nil {ρ ε β : Type} (step : Step ρ ε β) : step.after [] = step := rfl

@[simp] theorem Step.after_after {ρ ε β : Type} (first second : List ε) (step : Step ρ ε β) :
    (step.after second).after first = step.after (first ++ second) := by
  simp [Step.after]

/-- A step of a state `ρ` that reports events `ε` and gives a `β`, or meets a `Fault`. -/
def StateAction (ρ ε β : Type) : Type :=
  ρ → Except Fault (Step ρ ε β)

namespace StateAction

variable {ρ ε β γ δ : Type}

/-- Runs an action from a `state`. -/
def run (x : StateAction ρ ε β) (state : ρ) : Except Fault (Step ρ ε β) :=
  x state

/-! ## Sequencing -/

/-- The action that only gives `value`. -/
def give (value : β) : StateAction ρ ε β :=
  fun state => .ok ⟨value, state, []⟩

/-- The action `x` and then `f` on its value; after a `Fault` there is no `f`. -/
def andThen (x : StateAction ρ ε β) (f : β → StateAction ρ ε γ) : StateAction ρ ε γ := fun state =>
  match x state with
  | .error fault => .error fault
  | .ok first => (f first.value first.state).map (·.after first.events)

instance : Monad (StateAction ρ ε) where
  pure := give
  bind := andThen

/-- To `give` a value first makes no difference to what follows. -/
theorem give_andThen (value : β) (f : β → StateAction ρ ε γ) : andThen (give value) f = f value := by
  funext state
  simp only [andThen, give]
  cases f value state <;> rfl

/-- To `give` the value on makes no difference to what went before. -/
theorem andThen_give (x : StateAction ρ ε β) : andThen x give = x := by
  funext state
  simp only [andThen, give]
  cases x state with
  | error fault => rfl
  | ok step => simp [Except.map]

/-- The two ways to put three actions together with `andThen` agree. -/
theorem andThen_assoc (x : StateAction ρ ε β) (f : β → StateAction ρ ε γ) (g : γ → StateAction ρ ε δ) :
    andThen (andThen x f) g = andThen x fun value => andThen (f value) g := by
  funext state
  simp only [andThen]
  cases x state with
  | error fault => rfl
  | ok first =>
      simp only
      cases f first.value first.state with
      | error fault => rfl
      | ok second =>
          simp only [Except.map, Step.after]
          cases g second.value second.state with
          | error fault => rfl
          | ok third => simp

instance : LawfulMonad (StateAction ρ ε) :=
  LawfulMonad.mk' (StateAction ρ ε) andThen_give give_andThen andThen_assoc

/-! ## Primitives -/

/-- The state as it is. -/
def look : StateAction ρ ε ρ :=
  fun state => .ok ⟨state, state, []⟩

/-- Changes the state by `f`. -/
def alter (f : ρ → ρ) : StateAction ρ ε Unit :=
  fun state => .ok ⟨(), f state, []⟩

/-- Adds `events` to the report. -/
def emit (events : List ε) : StateAction ρ ε Unit :=
  fun state => .ok ⟨(), state, events⟩

/-- Goes on with the value of a `check`, or meets its `Fault`. -/
def ensure (check : Except Fault β) : StateAction ρ ε β := fun state =>
  check.map (⟨·, state, []⟩)

/-! ## What a run does -/

@[simp] theorem run_pure (value : β) (state : ρ) :
    (pure value : StateAction ρ ε β).run state = .ok ⟨value, state, []⟩ := rfl

@[simp] theorem run_look (state : ρ) : (look : StateAction ρ ε ρ).run state = .ok ⟨state, state, []⟩ := rfl

@[simp] theorem run_alter (f : ρ → ρ) (state : ρ) :
    (alter f : StateAction ρ ε Unit).run state = .ok ⟨(), f state, []⟩ := rfl

@[simp] theorem run_emit (events : List ε) (state : ρ) :
    (emit events).run state = .ok ⟨(), state, events⟩ := rfl

@[simp] theorem run_ensure_ok (value : β) (state : ρ) :
    (ensure (.ok value) : StateAction ρ ε β).run state = .ok ⟨value, state, []⟩ := rfl

@[simp] theorem run_ensure_error (fault : Fault) (state : ρ) :
    (ensure (.error fault) : StateAction ρ ε β).run state = .error fault := rfl

@[simp] theorem run_ite (c : Prop) [Decidable c] (x y : StateAction ρ ε β) (state : ρ) :
    (if c then x else y).run state = if c then x.run state else y.run state := by
  split <;> rfl

/-- A map over an action changes its `Step.value` and leaves the state and the events as they are. -/
@[simp] theorem run_map (f : β → γ) (x : StateAction ρ ε β) (state : ρ) :
    (f <$> x).run state = (x.run state).map fun step => ⟨f step.value, step.state, step.events⟩ := by
  show andThen x (fun value => give (f value)) state = _
  simp only [andThen, give, run]
  cases x state with
  | error fault => rfl
  | ok step => simp [Except.map]

/-- After a run of `x` that succeeds, `f` runs on what it left, and its events come later (`Step.after`). -/
theorem run_bind_of_ok {x : StateAction ρ ε β} {f : β → StateAction ρ ε γ} {state : ρ} {first : Step ρ ε β}
    (h : x.run state = .ok first) :
    (x >>= f).run state = ((f first.value).run first.state).map (·.after first.events) := by
  show andThen x f state = _
  simp only [run] at h
  simp only [andThen, h, run]

/-- The same as `run_bind_of_ok`, for a first run with known parts. -/
theorem run_bind_of_run {x : StateAction ρ ε β} {f : β → StateAction ρ ε γ} {state after : ρ} {value : β} {events : List ε}
    (h : x.run state = .ok ⟨value, after, events⟩) :
    (x >>= f).run state = ((f value).run after).map (·.after events) :=
  run_bind_of_ok h

/-- After a run without events, there is nothing for `Step.after` to put before those of `f`. -/
theorem run_bind_of_silent {x : StateAction ρ ε β} {f : β → StateAction ρ ε γ} {state after : ρ} {value : β}
    (h : x.run state = .ok ⟨value, after, []⟩) : (x >>= f).run state = (f value).run after := by
  rw [run_bind_of_run h]
  cases (f value).run after <;> rfl

/-- After a `Fault` in `x` there is no second action. -/
theorem run_bind_of_error {x : StateAction ρ ε β} {f : β → StateAction ρ ε γ} {state : ρ} {fault : Fault}
    (h : x.run state = .error fault) : (x >>= f).run state = .error fault := by
  show andThen x f state = _
  simp only [run] at h
  simp only [andThen, h]

/-- A bind that succeeds went well in both parts; this is how runs of `do` blocks are taken apart. -/
theorem run_bind_eq_ok_iff {x : StateAction ρ ε β} {f : β → StateAction ρ ε γ} {state : ρ} {step : Step ρ ε γ} :
    (x >>= f).run state = .ok step ↔
      ∃ first second, x.run state = .ok first ∧ (f first.value).run first.state = .ok second ∧
        step = second.after first.events := by
  cases h : x.run state with
  | error fault => simp [run_bind_of_error h]
  | ok first =>
      rw [run_bind_of_ok h]
      cases hf : (f first.value).run first.state with
      | error fault => simp [Except.map, hf]
      | ok second => simp [Except.map, hf, eq_comm]

@[simp] theorem run_look_bind (f : ρ → StateAction ρ ε γ) (state : ρ) :
    (look >>= f).run state = (f state).run state := by
  rw [run_bind_of_ok (run_look state)]
  cases (f state).run state <;> rfl

@[simp] theorem run_alter_bind (g : ρ → ρ) (f : Unit → StateAction ρ ε γ) (state : ρ) :
    (alter g >>= f).run state = (f ()).run (g state) := by
  rw [run_bind_of_ok (run_alter g state)]
  cases (f ()).run (g state) <;> rfl

@[simp] theorem run_emit_bind (events : List ε) (f : Unit → StateAction ρ ε γ) (state : ρ) :
    (emit events >>= f).run state = ((f ()).run state).map (·.after events) :=
  run_bind_of_ok (run_emit events state)

@[simp] theorem run_ensure_ok_bind (value : β) (f : β → StateAction ρ ε γ) (state : ρ) :
    (ensure (.ok value) >>= f).run state = (f value).run state := by
  rw [run_bind_of_ok (run_ensure_ok value state)]
  cases (f value).run state <;> rfl

@[simp] theorem run_ensure_error_bind (fault : Fault) (f : β → StateAction ρ ε γ) (state : ρ) :
    (ensure (.error fault) >>= f).run state = .error fault :=
  run_bind_of_error (run_ensure_error fault state)

end StateAction

end MemStream
