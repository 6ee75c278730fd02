import MemStream.Proofs.Performing

/-!
# `MemStream.Proofs.Run` — runs of one buffer

A run is a list of entries, one for each operation, with the buffer before and after it and the answer. It starts at a
new buffer and goes on as long as nothing faults; what it says of a buffer then holds for any order of any operations.

## Contents
- **Runs.** `Entry`, `Run`, `Run.append_iff`, `Run.of_mem`; `Run.performAll` ties a run to performing its operations in turn.
- **Tickets.** `granted`, and `OwnTickets` for runs that settle what they were granted.
- **Beginnings.** `Buffer.New`, a buffer nothing was done to.
- **Guarded runs.** `Run.guarded`: a run that does not run out of epochs keeps the guard, with the tickets it granted.
-/

namespace MemStream

open StateAction

variable {σ α : Type}

/-! ## Runs -/

/-- An operation of a run, with the buffer `before` and `after` it and the `answer` it got. -/
structure Entry (σ α : Type) where
  before : Buffer σ
  operation : Operation σ α
  answer : Answer σ α
  after : Buffer σ

/-- The tickets granted on the way, by `Answer.ticket?`. -/
def granted (entries : List (Entry σ α)) : List Ticket :=
  entries.filterMap (·.answer.ticket?)

/-- No ticket is presented that was not `granted` before. -/
def OwnTickets (entries : List (Entry σ α)) : Prop :=
  ∀ earlier e later, entries = earlier ++ e :: later →
    ∀ t, e.operation.presented? = some t → t ∈ granted earlier

/-- The epochs do not start over: no buffer on the way has counted up to `epochLimit`. -/
def EpochsFit (entries : List (Entry σ α)) : Prop :=
  ∀ e ∈ entries, e.after.changes < epochLimit

/-- The tickets `granted` in a run are that of its first entry and those of the rest. -/
theorem granted_cons (e : Entry σ α) (entries : List (Entry σ α)) (t : Ticket) :
    t ∈ granted (e :: entries) ↔ e.answer.ticket? = some t ∨ t ∈ granted entries := by
  unfold granted
  rw [List.mem_filterMap, List.mem_filterMap]
  constructor
  · rintro ⟨x, hx, ht⟩
    rcases List.mem_cons.mp hx with rfl | hx
    · exact .inl ht
    · exact .inr ⟨x, hx, ht⟩
  · rintro (ht | ⟨x, hx, ht⟩)
    · exact ⟨e, List.mem_cons_self, ht⟩
    · exact ⟨x, List.mem_cons_of_mem e hx, ht⟩

theorem EpochsFit.tail {e : Entry σ α} {entries : List (Entry σ α)} (h : EpochsFit (e :: entries)) :
    EpochsFit entries := by
  intro x hx
  exact h x (List.mem_cons_of_mem e hx)

theorem EpochsFit.right {earlier later : List (Entry σ α)} (h : EpochsFit (earlier ++ later)) : EpochsFit later := by
  intro x hx
  exact h x (List.mem_append_right earlier hx)

theorem EpochsFit.left {earlier later : List (Entry σ α)} (h : EpochsFit (earlier ++ later)) : EpochsFit earlier := by
  intro x hx
  exact h x (List.mem_append_left later hx)

/-- Where nothing is `presented?`, no ticket of another buffer is. -/
theorem OwnTickets.of_none {entries : List (Entry σ α)} (h : ∀ e ∈ entries, e.operation.presented? = none) :
    OwnTickets entries := by
  intro earlier e later hsplit t ht
  have hmem : e ∈ entries := by
    rw [hsplit]
    exact List.mem_append_right earlier List.mem_cons_self
  rw [h e hmem] at ht
  cases ht

/-- A run that keeps to `OwnTickets` did so all the while. -/
theorem OwnTickets.left {earlier later : List (Entry σ α)} (h : OwnTickets (earlier ++ later)) : OwnTickets earlier := by
  intro before e after hsplit t ht
  apply h before e (after ++ later) _ t ht
  rw [hsplit, List.append_assoc, List.cons_append]

/-- What is known of every entry and those before it is known after one more entry `e`. -/
theorem forall_split_concat {P : List (Entry σ α) → Entry σ α → Prop} {entries : List (Entry σ α)}
    (h : ∀ earlier x later, entries = earlier ++ x :: later → P earlier x) {e : Entry σ α} (he : P entries e) :
    ∀ earlier x later, entries ++ [e] = earlier ++ x :: later → P earlier x := by
  intro earlier x later hsplit
  rcases List.eq_nil_or_concat later with rfl | ⟨others, y, rfl⟩
  · obtain ⟨rfl, hsame⟩ := List.append_inj' hsplit rfl
    cases hsame
    exact he
  · rw [List.concat_eq_append, ← List.cons_append, ← List.append_assoc] at hsplit
    exact h earlier x others (List.append_inj' hsplit rfl).1

/-- One more operation keeps `OwnTickets`, if its ticket was `granted` before. -/
theorem OwnTickets.concat {entries : List (Entry σ α)} (h : OwnTickets entries) {e : Entry σ α}
    (he : ∀ t, e.operation.presented? = some t → t ∈ granted entries) : OwnTickets (entries ++ [e]) :=
  forall_split_concat h he

/-- Operations in turn, from one buffer to another; each one `Fits` and was performed without a fault. -/
inductive Run [Store σ α] : Buffer σ → List (Entry σ α) → Buffer σ → Prop where
  | done (b : Buffer σ) : Run b [] b
  | next {b c : Buffer σ} {operation : Operation σ α} {step : Step (Buffer σ) Event (Answer σ α)}
      {entries : List (Entry σ α)} :
      operation.Fits → operation.perform.run b = .ok step → Run step.state entries c →
      Run b (⟨b, operation, step.value, step.state⟩ :: entries) c

variable [Store σ α] {b c : Buffer σ} {entries earlier later : List (Entry σ α)}

/-- A `Run` in two parts is two runs. -/
theorem Run.append_iff : Run b (earlier ++ later) c ↔ ∃ m, Run b earlier m ∧ Run m later c := by
  constructor
  · intro h
    induction earlier generalizing b with
    | nil => exact ⟨b, .done b, h⟩
    | cons e earlier ih =>
        cases h with
        | next hfits hrun hrest =>
            obtain ⟨m, hearlier, hlater⟩ := ih hrest
            exact ⟨m, .next hfits hrun hearlier, hlater⟩
  · rintro ⟨m, hearlier, hlater⟩
    induction hearlier with
    | done b => exact hlater
    | next hfits hrun _ ih => exact .next hfits hrun (ih hlater)

/-- An entry of a `Run` is an operation that was performed between two parts of it. -/
theorem Run.of_mem (h : Run b entries c) {e : Entry σ α} (he : e ∈ entries) :
    ∃ earlier later events, entries = earlier ++ e :: later ∧ Run b earlier e.before ∧ e.operation.Fits ∧
      e.operation.perform.run e.before = .ok ⟨e.answer, e.after, events⟩ ∧ Run e.after later c := by
  obtain ⟨earlier, later, rfl⟩ := List.append_of_mem he
  obtain ⟨m, hearlier, hrest⟩ := Run.append_iff.mp h
  cases hrest with
  | next hfits hrun hlater => exact ⟨earlier, later, _, rfl, hearlier, hfits, hrun, hlater⟩

/-- A `Run` is what `Operation.performAll` does with its operations, and lists their answers. -/
theorem Run.performAll (h : Run b entries c) :
    ∃ events, (Operation.performAll (entries.map (·.operation))).run b =
      .ok ⟨entries.map (·.answer), c, events⟩ := by
  induction h with
  | done b => exact ⟨[], rfl⟩
  | @next b c operation step entries _ hrun _ ih =>
      obtain ⟨events, hrest⟩ := ih
      refine ⟨step.events ++ events, ?_⟩
      rw [List.map_cons, Operation.performAll_cons, run_bind_of_ok hrun, bind_pure_comp, run_map, hrest]
      rfl

/-! ## Beginnings -/

/-- A buffer just made by `Buffer.start`: any store of representable size, any mode but both, any label. -/
def Buffer.New (b : Buffer σ) : Prop :=
  ∃ (data : σ) (mode : Directions) (access : Access) (label : String),
    Access.ofMode? mode = .ok access ∧ Store.size data < positionLimit ∧ b = Buffer.start data access label

/-- A new buffer is `Guarded`, with no tickets granted. -/
theorem Buffer.New.guarded (h : b.New) : b.Guarded fun _ => False := by
  obtain ⟨data, mode, access, label, hmode, hsize, rfl⟩ := h
  have hhead : (Buffer.start data access label).head ≤ Store.size data := by
    show (if access.mode.reads then 0 else Store.size data) ≤ Store.size data
    split
    · exact Nat.zero_le _
    · exact Nat.le_refl _
  exact {
    ordered := ⟨hhead, Nat.le_refl _, hsize⟩
    coherent := Access.coherent_of_ofMode? hmode
    unwritten := fun _ => ⟨rfl, rfl⟩
    issued := fun _ ht => ht.elim
    lease := fun _ ht => ht.elim
    reserved := fun r hr => by cases hr
    live := fun r hr => by cases hr.1 }

/-- A new buffer has counted no changes, so its `epoch` is good. -/
theorem Buffer.New.changes_lt (h : b.New) : b.changes < epochLimit := by
  obtain ⟨data, mode, access, label, -, -, rfl⟩ := h
  show 0 < epochLimit
  decide

/-! ## Guarded runs -/

variable [LawfulStore σ] {own : Ticket → Prop}

/-- What an operation left that was performed without a fault is `Guarded`, the ticket it granted included, and no
    change was taken back. -/
theorem Buffer.Guarded.perform (h : b.Guarded own) (hlimit : b.changes < epochLimit) {operation : Operation σ α}
    (hfits : operation.Fits) {step : Step (Buffer σ) Event (Answer σ α)}
    (hrun : operation.perform.run b = .ok step) :
    (step.state.Guarded fun t => own t ∨ step.value.ticket? = some t) ∧ b.changes ≤ step.state.changes := by
  -- the ticket that is about to be granted can be relied on before the operation as well as after it
  obtain ⟨other, hother, hguarded⟩ | ⟨t, fault, -, -, hfault, -⟩ :=
    perform_guarded (h.granting hlimit hrun) hlimit hfits
  · rw [hrun] at hother
    cases hother
    exact hguarded
  · rw [hrun] at hfault
    cases hfault

/-- A `Run` that does not run out of epochs keeps `Guarded`, with the tickets it `granted` among those to be kept. -/
theorem Run.guarded (h : Run b entries c) (hb : b.Guarded own) (hstart : b.changes < epochLimit)
    (hlimit : EpochsFit entries) :
    c.Guarded (fun t => own t ∨ t ∈ granted entries) ∧ b.changes ≤ c.changes ∧ c.changes < epochLimit := by
  -- the tickets to keep become more with every grant
  induction h generalizing own with
  | done b =>
      refine ⟨hb.of_subset ?_, Nat.le_refl _, hstart⟩
      rintro t (ht | ht)
      · exact ht
      · cases ht
  | next hfits hrun _ ih =>
      obtain ⟨hstep, hle⟩ := hb.perform hstart hfits hrun
      obtain ⟨hrest, hle', hend⟩ := ih hstep (hlimit _ List.mem_cons_self) hlimit.tail
      refine ⟨hrest.of_subset ?_, Nat.le_trans hle hle', hend⟩
      intro t ht
      rw [granted_cons] at ht
      exact or_assoc.mpr ht

/-- A `Run` from a new buffer can be taken up anywhere: the buffer is `Guarded` there. -/
theorem Run.resume (h : Run b (earlier ++ later) c) (hnew : b.New) (hlimit : EpochsFit (earlier ++ later)) :
    ∃ (m : Buffer σ) (own : Ticket → Prop),
      Run m later c ∧ m.Guarded own ∧ m.changes < epochLimit ∧ EpochsFit later := by
  obtain ⟨m, hearlier, hlater⟩ := Run.append_iff.mp h
  obtain ⟨hguard, -, hend⟩ := hearlier.guarded hnew.guarded hnew.changes_lt hlimit.left
  exact ⟨m, _, hlater, hguard, hend, hlimit.right⟩

end MemStream
