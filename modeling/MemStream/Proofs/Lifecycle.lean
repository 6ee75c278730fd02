import Mathlib.Algebra.BigOperators.Group.Finset.Piecewise
import MemStream.Proofs.Harvest
import MemStream.Proofs.Lives

/-!
# `MemStream.Proofs.Lifecycle` — what the log of a session says of its buffers

A session tells, for every buffer apart, of a whole life: it is opened, it is closed once if it has a side, and with its
last handle it is released, after which nothing more is told of it. That holds whichever way handles come and go — slots
are filled, shared, filled again, emptied, or harvested — and whichever way a buffer is closed before.

The log is compared with the session after every action. A buffer that is there has a handle; only between the moment
that its last handle goes and the moment that it retires is it without one, and then it is the spare one.

## Contents
- **Logs.** `toldOf` is what a log tells of one buffer.
- **The invariant.** `Session.Chronicled`, with what happens to it as buffers and slots change.
- **Actions that keep it.** `Chronicles`, with rules for the monad, the primitives and every command.
- **Runs.** `perform_chronicles`, `finish_chronicles`, and `lives_told_in_full` for a whole session.
-/

namespace MemStream

open StateAction

variable {σ α β γ : Type} [Store σ α]

/-! ## Logs -/

/-- What a log tells of the buffer `id`. -/
def toldOf (id : BufferId) (log : List Report) : List Event :=
  (log.filter fun r => decide (r.source = some id)).map (·.event)

@[simp] theorem toldOf_nil (id : BufferId) : toldOf id [] = [] := rfl

@[simp] theorem toldOf_append (id : BufferId) (log later : List Report) :
    toldOf id (log ++ later) = toldOf id log ++ toldOf id later := by
  simp [toldOf]

/-- The first report of a log is told of its `source`. -/
theorem toldOf_cons (id : BufferId) (r : Report) (log : List Report) :
    toldOf id (r :: log) = (if r.source = some id then [r.event] else []) ++ toldOf id log := by
  unfold toldOf
  by_cases h : r.source = some id <;> simp [h]

/-- What a buffer reports is told of it. -/
@[simp] theorem toldOf_own (id : BufferId) (events : List Event) :
    toldOf id (events.map (⟨some id, ·⟩)) = events := by
  induction events with
  | nil => rfl
  | cons e events ih => simp [toldOf_cons, ih]

/-- What another buffer reports is not. -/
theorem toldOf_other {id : BufferId} {source : Option BufferId} (h : source ≠ some id) (events : List Event) :
    toldOf id (events.map (⟨source, ·⟩)) = [] := by
  induction events with
  | nil => rfl
  | cons e events ih => simp [toldOf_cons, ih, h]

/-- The reports of a `kind` are those that the buffers make, each by itself. -/
theorem countP_eq_sum_toldOf {n : Nat} (kind : Notice → Bool) {log : List Report}
    (hlog : ∀ r ∈ log, kind r.event.notice = true → ∃ id < n, r.source = some id) :
    log.countP (fun r => kind r.event.notice) =
      ∑ id ∈ Finset.range n, (toldOf id log).countP (fun e => kind e.notice) := by
  induction log with
  | nil => simp
  | cons r log ih =>
      have hrest := ih fun r' hr' => hlog r' (List.mem_cons_of_mem r hr')
      have hsplit : ∀ id, (toldOf id (r :: log)).countP (fun e => kind e.notice) =
          (if r.source = some id then (if kind r.event.notice then 1 else 0) else 0) +
            (toldOf id log).countP (fun e => kind e.notice) := by
        intro id
        rw [toldOf_cons, List.countP_append]
        by_cases h : r.source = some id <;> simp [h, List.countP_cons]
      simp only [hsplit, Finset.sum_add_distrib, List.countP_cons, hrest]
      by_cases hkind : kind r.event.notice = true
      · obtain ⟨id, hid, hsource⟩ := hlog r List.mem_cons_self hkind
        simp [hkind, hsource, hid, Nat.add_comm]
      · simp [hkind]

/-! ## The invariant -/

/-- A session and the log of all that was reported in it: every buffer that is there is `Alive` by what is `toldOf` it,
    and every one that is gone has `Lived`. The buffer `spare` may be without a handle. -/
structure Session.Chronicled (spare : Option BufferId) (s : Session σ) (log : List Report) : Prop where
  names : s.slots.names.Nodup
  referred : ∀ slot id, s.slots.find? slot = some id → ∃ b, s.buffers.find? id = some b
  held : ∀ id b, s.buffers.find? id = some b → s.handles id ≠ 0 ∨ spare = some id
  alive : ∀ id b, s.buffers.find? id = some b → id < s.nextId ∧ b.Alive (toldOf id log)
  gone : ∀ id, id < s.nextId → s.buffers.find? id = none → Lived (toldOf id log)
  unborn : ∀ id, s.nextId ≤ id → toldOf id log = []
  nameless : ∀ r ∈ log, r.source = none → r.event.notice.isLifecycle = false

namespace Session

variable {s : Session σ} {log : List Report} {spare : Option BufferId} {id : BufferId} {slot : String}

omit [Store σ α] in
/-- A buffer has `handles` as long as some slot refers to it. -/
theorem handles_ne_zero_iff (hnames : s.slots.names.Nodup) :
    s.handles id ≠ 0 ↔ ∃ slot, s.slots.find? slot = some id := by
  unfold handles
  rw [← Table.mem_values_iff hnames, ← Nat.pos_iff_ne_zero, List.countP_pos_iff]
  simp

/-- In `Session.empty` there is nothing to be told. -/
theorem chronicled_empty : (Session.empty : Session σ).Chronicled none [] where
  names := List.nodup_nil
  referred slot id h := by cases h
  held id b h := by cases h
  alive id b h := by cases h
  gone id h := absurd h (Nat.not_lt_zero id)
  unborn id _ := toldOf_nil id
  nameless r h := absurd h List.not_mem_nil

theorem Chronicled.with_ticket (h : s.Chronicled spare log) (name : String) (t : Ticket) :
    ({ s with tickets := s.tickets.insert name t } : Session σ).Chronicled spare log :=
  ⟨h.names, h.referred, h.held, h.alive, h.gone, h.unborn, h.nameless⟩

/-- What a buffer that never came to be reports is nothing about a life (`isLifecycle`). -/
theorem Chronicled.with_nameless (h : s.Chronicled spare log) {events : List Event}
    (hevents : ∀ e ∈ events, e.notice.isLifecycle = false) :
    s.Chronicled spare (log ++ events.map (⟨none, ·⟩)) := by
  have htold : ∀ id, toldOf id (log ++ events.map (⟨none, ·⟩)) = toldOf id log := by
    intro id
    rw [toldOf_append, toldOf_other (by simp), List.append_nil]
  refine ⟨h.names, h.referred, h.held, ?_, ?_, ?_, ?_⟩
  · intro id b hfind
    rw [htold]
    exact h.alive id b hfind
  · intro id hid hfind
    rw [htold]
    exact h.gone id hid hfind
  · intro id hid
    rw [htold]
    exact h.unborn id hid
  · intro r hr hsource
    rcases List.mem_append.mp hr with hr | hr
    · exact h.nameless r hr hsource
    · obtain ⟨e, he, rfl⟩ := List.mem_map.mp hr
      exact hevents e he

/-- What one buffer reports is nothing that the others say, and nothing without a name. -/
theorem nameless_own (h : s.Chronicled spare log) (id : BufferId) (events : List Event) :
    ∀ r ∈ log ++ events.map (⟨some id, ·⟩), r.source = none → r.event.notice.isLifecycle = false := by
  intro r hr hsource
  rcases List.mem_append.mp hr with hr | hr
  · exact h.nameless r hr hsource
  · obtain ⟨e, -, rfl⟩ := List.mem_map.mp hr
    cases hsource

omit [Store σ α] in
theorem toldOf_append_own (id : BufferId) (events : List Event) :
    toldOf id (log ++ events.map (⟨some id, ·⟩)) = toldOf id log ++ events := by
  rw [toldOf_append, toldOf_own]

theorem toldOf_append_other {other : BufferId} (h : other ≠ id) (events : List Event) :
    toldOf other (log ++ events.map (⟨some id, ·⟩)) = toldOf other log := by
  rw [toldOf_append, toldOf_other (by simpa using h.symm), List.append_nil]

/-- A buffer that is there lives on, by `Buffer.Lives`. -/
theorem Chronicled.with_buffer (h : s.Chronicled spare log) {b c : Buffer σ} (hfind : s.buffers.find? id = some b)
    {events : List Event} (hlives : b.Sound → b.Lives events c) :
    ({ s with buffers := s.buffers.insert id c } : Session σ).Chronicled spare (log ++ events.map (⟨some id, ·⟩)) := by
  obtain ⟨hid, halive⟩ := h.alive id b hfind
  refine ⟨h.names, ?_, ?_, ?_, ?_, ?_, nameless_own h id events⟩
  · intro slot other hslot
    by_cases heq : other = id
    · exact ⟨c, by rw [heq, Table.find?_insert_self]⟩
    · obtain ⟨found, hfound⟩ := h.referred slot other hslot
      exact ⟨found, by rw [Table.find?_insert_of_ne _ heq, hfound]⟩
  · intro other found hfound
    rcases Table.find?_insert_eq_some hfound with ⟨rfl, -⟩ | ⟨-, hold⟩
    · exact h.held other b hfind
    · exact h.held other found hold
  · intro other found hfound
    rcases Table.find?_insert_eq_some hfound with ⟨rfl, rfl⟩ | ⟨hne, hold⟩
    · rw [toldOf_append_own]
      exact ⟨hid, halive.lives (hlives halive.sound)⟩
    · rw [toldOf_append_other hne]
      exact h.alive other found hold
  · intro other hother hnone
    have hne : other ≠ id := by
      rintro rfl
      rw [Table.find?_insert_self] at hnone
      cases hnone
    rw [Table.find?_insert_of_ne _ hne] at hnone
    rw [toldOf_append_other hne]
    exact h.gone other hother hnone
  · intro other hother
    have hne : other ≠ id := Nat.ne_of_gt (Nat.lt_of_lt_of_le hid hother)
    rw [toldOf_append_other hne]
    exact h.unborn other hother

/-- A buffer without `handles` may go, if what is told of it by then has it `Lived`. -/
theorem Chronicled.without_buffer (h : s.Chronicled (some id) log) (hhandles : s.handles id = 0)
    {buffers : Table BufferId (Buffer σ)} (hself : buffers.find? id = none)
    (hothers : ∀ other, other ≠ id → buffers.find? other = s.buffers.find? other) {events : List Event}
    (hlived : id < s.nextId → Lived (toldOf id log ++ events)) (hunborn : s.nextId ≤ id → events = []) :
    ({ s with buffers } : Session σ).Chronicled none (log ++ events.map (⟨some id, ·⟩)) := by
  have hne_of_find : ∀ {other found}, buffers.find? other = some found → other ≠ id := by
    rintro other found hfound rfl
    rw [hself] at hfound
    cases hfound
  refine ⟨h.names, ?_, ?_, ?_, ?_, ?_, nameless_own h id events⟩
  · intro slot other hslot
    have hne : other ≠ id := by
      rintro rfl
      exact (handles_ne_zero_iff h.names).mpr ⟨slot, hslot⟩ hhandles
    obtain ⟨found, hfound⟩ := h.referred slot other hslot
    exact ⟨found, by rw [hothers other hne, hfound]⟩
  · intro other found hfound
    have hne := hne_of_find hfound
    rcases h.held other found (hothers other hne ▸ hfound) with hheld | hspare
    · exact .inl hheld
    · exact absurd (Option.some.inj hspare).symm hne
  · intro other found hfound
    have hne := hne_of_find hfound
    rw [toldOf_append_other hne]
    exact h.alive other found (hothers other hne ▸ hfound)
  · intro other hother hnone
    by_cases heq : other = id
    · subst heq
      rw [toldOf_append_own]
      exact hlived hother
    · rw [toldOf_append_other heq]
      exact h.gone other hother (hothers other heq ▸ hnone)
  · intro other hother
    by_cases heq : other = id
    · subst heq
      rw [toldOf_append_own, h.unborn other hother, hunborn hother]
      rfl
    · rw [toldOf_append_other heq]
      exact h.unborn other hother

/-- A new buffer that is `Alive` comes without a handle, as the `spare` one. -/
theorem Chronicled.with_new (h : s.Chronicled none log) {b : Buffer σ} {events : List Event} (hb : b.Alive events) :
    ({ s with buffers := s.buffers.insert s.nextId b, nextId := s.nextId + 1 } : Session σ).Chronicled (some s.nextId)
      (log ++ events.map (⟨some s.nextId, ·⟩)) := by
  have hnew : toldOf s.nextId (log ++ events.map (⟨some s.nextId, ·⟩)) = events := by
    rw [toldOf_append_own, h.unborn s.nextId (Nat.le_refl _), List.nil_append]
  refine ⟨h.names, ?_, ?_, ?_, ?_, ?_, nameless_own h s.nextId events⟩
  · intro slot other hslot
    obtain ⟨found, hfound⟩ := h.referred slot other hslot
    have hne : other ≠ s.nextId := Nat.ne_of_lt (h.alive other found hfound).1
    exact ⟨found, by rw [Table.find?_insert_of_ne _ hne, hfound]⟩
  · intro other found hfound
    rcases Table.find?_insert_eq_some hfound with ⟨rfl, -⟩ | ⟨-, hold⟩
    · exact .inr rfl
    · rcases h.held other found hold with hheld | hspare
      · exact .inl hheld
      · cases hspare
  · intro other found hfound
    rcases Table.find?_insert_eq_some hfound with ⟨rfl, rfl⟩ | ⟨hne, hold⟩
    · rw [hnew]
      exact ⟨Nat.lt_succ_self _, hb⟩
    · rw [toldOf_append_other hne]
      obtain ⟨hother, halive⟩ := h.alive other found hold
      exact ⟨Nat.lt_succ_of_lt hother, halive⟩
  · intro other hother hnone
    have hne : other ≠ s.nextId := by
      rintro rfl
      rw [Table.find?_insert_self] at hnone
      cases hnone
    rw [Table.find?_insert_of_ne _ hne] at hnone
    rw [toldOf_append_other hne]
    exact h.gone other (Nat.lt_of_le_of_ne (Nat.le_of_lt_succ hother) hne) hnone
  · intro other hother
    have hne : other ≠ s.nextId := Nat.ne_of_gt hother
    rw [toldOf_append_other hne]
    exact h.unborn other (Nat.le_of_succ_le hother)

/-- As a slot changes, the only buffer that may have lost its last handle is the one that the slot referred to. -/
theorem Chronicled.with_slots (h : s.Chronicled spare log) {slots : Table String BufferId} (hnames : slots.names.Nodup)
    (hreferred : ∀ slot id, slots.find? slot = some id → ∃ b, s.buffers.find? id = some b)
    (hheld : ∀ id, s.handles id ≠ 0 ∨ spare = some id →
      (∃ slot, slots.find? slot = some id) ∨ s.slots.find? slot = some id) :
    ({ s with slots } : Session σ).Chronicled (s.slots.find? slot) log := by
  refine ⟨hnames, hreferred, ?_, h.alive, h.gone, h.unborn, h.nameless⟩
  intro id b hfind
  rcases hheld id (h.held id b hfind) with hslot | hold
  · exact .inl ((handles_ne_zero_iff hnames).mpr hslot)
  · exact .inr hold

/-- A handle is put into a `slot`; if there was a `spare` buffer, it is the one that gets the handle. -/
theorem Chronicled.with_handle (h : s.Chronicled spare log) (hspare : ∀ other, spare = some other → other = id)
    (slot : String) {b : Buffer σ} (hfind : s.buffers.find? id = some b) :
    ({ s with slots := s.slots.insert slot id } : Session σ).Chronicled (s.slots.find? slot) log := by
  refine h.with_slots (Table.nodup_names_insert h.names slot id) ?_ ?_
  · intro other target hslot
    rcases Table.find?_insert_eq_some hslot with ⟨-, rfl⟩ | ⟨-, hold⟩
    · exact ⟨b, hfind⟩
    · exact h.referred other target hold
  · rintro target (hheld | htarget)
    · obtain ⟨other, hother⟩ := (handles_ne_zero_iff h.names).mp hheld
      by_cases heq : other = slot
      · exact .inr (heq ▸ hother)
      · exact .inl ⟨other, by rw [Table.find?_insert_of_ne _ heq, hother]⟩
    · rw [hspare target htarget]
      exact .inl ⟨slot, Table.find?_insert_self _ _ _⟩

/-- The handle of a `slot` is taken out, which leaves its buffer to spare. -/
theorem Chronicled.without_handle (h : s.Chronicled none log) (slot : String) :
    ({ s with slots := s.slots.erase slot } : Session σ).Chronicled (s.slots.find? slot) log := by
  refine h.with_slots (Table.nodup_names_erase h.names slot) ?_ ?_
  · intro other target hslot
    exact h.referred other target (Table.find?_of_find?_erase hslot)
  · rintro target (hheld | htarget)
    · obtain ⟨other, hother⟩ := (handles_ne_zero_iff h.names).mp hheld
      by_cases heq : other = slot
      · exact .inr (heq ▸ hother)
      · exact .inl ⟨other, by rw [Table.find?_erase_of_ne _ heq, hother]⟩
    · cases htarget

end Session

/-! ## Actions that keep it -/

/-- An action that succeeds keeps a session `Chronicled`, and brings so many new buffers (`births`) into it. -/
def Chronicles (births : Nat) (x : SessionAction σ β) : Prop :=
  ∀ s log step, s.Chronicled none log → x.run s = .ok step →
    step.state.Chronicled none (log ++ step.events) ∧ step.state.nextId = s.nextId + births

variable {births : Nat} {s : Session σ} {log : List Report}

theorem Chronicles.pure (value : β) : Chronicles 0 (Pure.pure value : SessionAction σ β) := by
  intro s log step hs hrun
  cases hrun
  simpa using hs

theorem Chronicles.look : Chronicles 0 (StateAction.look : SessionAction σ (Session σ)) := by
  intro s log step hs hrun
  cases hrun
  simpa using hs

/-- Two actions in a row bring in the `births` of both. -/
theorem Chronicles.andThen {later : Nat} {x : SessionAction σ β} {f : β → SessionAction σ γ} (hx : Chronicles births x)
    (hf : ∀ value, Chronicles later (f value)) : Chronicles (births + later) (x >>= f) := by
  intro s log step hs hrun
  obtain ⟨first, second, hfirst, hsecond, rfl⟩ := run_bind_eq_ok_iff.mp hrun
  obtain ⟨hmiddle, hbirths⟩ := hx s log first hs hfirst
  obtain ⟨hend, hlater⟩ := hf first.value first.state _ second hmiddle hsecond
  constructor
  · rw [List.append_assoc] at hend
    exact hend
  · show second.state.nextId = _
    rw [hlater, hbirths, Nat.add_assoc]

/-- Two actions without births are one without births. -/
theorem Chronicles.bind {x : SessionAction σ β} {f : β → SessionAction σ γ} (hx : Chronicles 0 x)
    (hf : ∀ value, Chronicles 0 (f value)) : Chronicles 0 (x >>= f) :=
  hx.andThen hf

theorem Chronicles.forM {names : List β} {f : β → SessionAction σ PUnit} (hf : ∀ name, Chronicles 0 (f name)) :
    Chronicles 0 (names.forM f) := by
  induction names with
  | nil => exact .pure _
  | cons name names ih => exact .bind (hf name) fun _ => ih

/-- What lets a buffer live on (`Buffer.Lives`) keeps the log, whichever buffer of the session it works on. -/
theorem chronicles_within (id : BufferId) {x : BufferAction σ β}
    (hx : ∀ (b : Buffer σ) step, b.Sound → x.run b = .ok step → b.Lives step.events step.state) :
    Chronicles 0 (Session.within id x) := by
  intro s log step hs hrun
  cases hfind : s.buffers.find? id with
  | none =>
      rw [run_within_none hfind] at hrun
      cases hrun
      simpa using hs
  | some b =>
      cases hstep : x.run b with
      | error fault =>
          rw [run_within_error hfind hstep] at hrun
          cases hrun
      | ok inner =>
          rw [run_within_ok hfind hstep] at hrun
          cases hrun
          exact ⟨hs.with_buffer hfind fun hsound => hx b inner hsound hstep, rfl⟩

theorem chronicles_keepTicket (keep : Option String) (ticket : Option Ticket) :
    Chronicles 0 (Session.keepTicket keep ticket : SessionAction σ Unit) := by
  intro s log step hs hrun
  cases keep with
  | none =>
      cases hrun
      simpa using hs
  | some name =>
      cases ticket with
      | none =>
          cases hrun
          simpa using hs
      | some t =>
          cases hrun
          simpa using hs.with_ticket name t

variable [LawfulStore σ]

/-- By `Session.settle`, the `spare` buffer retires, unless it has a handle after all. -/
theorem settle_chronicled {id : BufferId} {step : Step (Session σ) Report Unit}
    (hs : s.Chronicled (some id) log) (hrun : (Session.settle id).run s = .ok step) :
    step.state.Chronicled none (log ++ step.events) ∧ step.state.nextId = s.nextId := by
  unfold Session.settle at hrun
  rw [run_look_bind, run_ite] at hrun
  split at hrun
  next hhandles =>
    cases hfind : s.buffers.find? id with
    | none =>
        rw [run_bind_of_silent (run_within_none hfind _)] at hrun
        cases hrun
        have hothers : ∀ other, other ≠ id → (s.buffers.erase id).find? other = s.buffers.find? other :=
          fun other hne => Table.find?_erase_of_ne _ hne
        have hlived : id < s.nextId → Lived (toldOf id log ++ []) := by
          intro hid
          rw [List.append_nil]
          exact hs.gone id hid hfind
        exact ⟨hs.without_buffer hhandles (Table.find?_erase_self _ _) hothers hlived fun _ => rfl, rfl⟩
    | some b =>
        obtain ⟨hid, halive⟩ := hs.alive id b hfind
        have hretire := Buffer.run_retire b
        rw [run_bind_of_ok (run_within_ok hfind hretire)] at hrun
        cases hrun
        have hothers : ∀ (c : Buffer σ) other, other ≠ id →
            ((s.buffers.insert id c).erase id).find? other = s.buffers.find? other := by
          intro c other hne
          rw [Table.find?_erase_of_ne _ hne, Table.find?_insert_of_ne _ hne]
        refine ⟨?_, rfl⟩
        simp only [Step.after, List.append_nil]
        exact hs.without_buffer hhandles (Table.find?_erase_self _ _) (hothers _) (fun _ => halive.retire hretire)
          fun hunborn => absurd hid (Nat.not_lt.mpr hunborn)
  next hhandles =>
    cases hrun
    refine ⟨?_, rfl⟩
    rw [List.append_nil]
    refine ⟨hs.names, hs.referred, ?_, hs.alive, hs.gone, hs.unborn, hs.nameless⟩
    intro other found hfound
    rcases hs.held other found hfound with hheld | hspare
    · exact .inl hheld
    · cases hspare
      exact .inl hhandles

/-- What a slot referred to before may go, and it is the only buffer that may. -/
theorem letGo_chronicled {slot : Option BufferId} {step : Step (Session σ) Report Unit}
    (hrun : (match slot with
      | some old => Session.settle old
      | none => Pure.pure () : SessionAction σ Unit).run s = .ok step) (hs : s.Chronicled slot log) :
    step.state.Chronicled none (log ++ step.events) ∧ step.state.nextId = s.nextId := by
  cases slot with
  | some old => exact settle_chronicled hs hrun
  | none =>
      cases hrun
      simpa using hs

/-- By `Session.enter`, a handle of a buffer of the session may be put into any slot. -/
theorem enter_chronicled {spare : Option BufferId} {id : BufferId} {b : Buffer σ} (hs : s.Chronicled spare log)
    (hspare : ∀ other, spare = some other → other = id) (hfind : s.buffers.find? id = some b) {slot : String}
    {step : Step (Session σ) Report Unit} (hrun : (Session.enter slot id).run s = .ok step) :
    step.state.Chronicled none (log ++ step.events) ∧ step.state.nextId = s.nextId := by
  unfold Session.enter at hrun
  rw [run_look_bind, run_alter_bind] at hrun
  have hend := letGo_chronicled hrun (hs.with_handle hspare slot hfind)
  exact hend

theorem chronicles_leave (slot : String) : Chronicles 0 (Session.leave slot : SessionAction σ Unit) := by
  intro s log step hs hrun
  unfold Session.leave at hrun
  rw [run_look_bind, run_alter_bind] at hrun
  have hend := letGo_chronicled hrun (hs.without_handle slot)
  exact hend

/-- A buffer that comes into a session by `Session.adopt` is `Alive`, and is told of under its own identity. -/
theorem chronicles_adopt (slot : String) {b : Buffer σ} {events : List Event} (hb : b.Alive events) :
    Chronicles 1 (Session.adopt slot b events) := by
  intro s log step hs hrun
  unfold Session.adopt at hrun
  rw [run_look_bind] at hrun
  obtain ⟨told, entered, htold, hentered, rfl⟩ := run_bind_eq_ok_iff.mp hrun
  cases htold
  rw [run_alter_bind] at hentered
  obtain ⟨hend, hnext⟩ := enter_chronicled (hs.with_new hb) (fun other hother => (Option.some.inj hother).symm)
    (Table.find?_insert_self _ _ _) hentered
  refine ⟨?_, hnext⟩
  rw [List.append_assoc] at hend
  exact hend

/-- To `Session.collect` lets a buffer live on, and then lets go of a handle. -/
theorem chronicles_collect (slot : String) (id : BufferId) :
    Chronicles 0 (Session.collect slot id : SessionAction σ (Option σ)) := by
  refine .bind .look fun s => ?_
  have helements : Chronicles 0 (Session.within id (if s.handles id = 1 then Buffer.takeData else Buffer.dataCopy) :
      SessionAction σ (Option σ)) := by
    refine chronicles_within id fun b step hb hrun => ?_
    split at hrun
    · exact Buffer.takeData_lives hb hrun
    · cases hrun
      exact .refl hb
  exact .bind helements fun _ => .bind (chronicles_leave slot) fun _ => .pure _

/-! ## Commands -/

omit [LawfulStore σ] in
theorem chronicles_onSlot (slot : String) {work : BufferId → SessionAction σ (Reply σ α)}
    (hwork : ∀ id, Chronicles 0 (work id)) : Chronicles 0 (Session.onSlot slot work) := by
  refine .bind .look fun s => ?_
  cases s.slots.find? slot with
  | none => exact .pure _
  | some id => exact hwork id

omit [LawfulStore σ] in
theorem chronicles_onBuffer (slot : String) {x : BufferAction σ β} {reply : β → Reply σ α}
    (hx : ∀ (b : Buffer σ) step, b.Sound → x.run b = .ok step → b.Lives step.events step.state) :
    Chronicles 0 (Session.onBuffer slot x reply) := by
  refine chronicles_onSlot slot fun id => .bind (chronicles_within id hx) fun value => ?_
  cases value with
  | none => exact .pure _
  | some value => exact .pure _

omit [LawfulStore σ] in
/-- To `look` at a buffer is nothing in its life. -/
theorem chronicles_inspection (slot : String) {reply : Buffer σ → Reply σ α} :
    Chronicles 0 (Session.onBuffer slot StateAction.look reply) := by
  refine chronicles_onBuffer slot fun b step hb hrun => ?_
  cases hrun
  exact .refl hb

/-- Whether a command brings a new buffer into the session: an `opening` that is not rejected. -/
def Command.opens : Command σ α → Bool
  | .opening _ way => way.make.value.isOk
  | _ => false

omit [LawfulStore σ] in
/-- A buffer that is not made tells of it, and that is nothing about a life (`isLifecycle`). -/
theorem isLifecycle_of_rejected {way : Opening σ} {refusal : Refusal} (hmade : way.make.value = .error refusal) {e : Event}
    (he : e ∈ way.make.events) : e.notice.isLifecycle = false := by
  obtain ⟨label, mode, code, hevents⟩ := Buffer.rejected_of_opening hmade
  rw [hevents] at he
  cases List.mem_singleton.mp he
  rfl

/-- An `opening` brings in one buffer, or none where it is rejected. -/
theorem chronicles_opening (slot : String) (way : Opening σ) :
    Chronicles (Command.opening slot way : Command σ α).opens.toNat (Command.opening slot way : Command σ α).perform := by
  cases hmade : way.make.value with
  | ok b =>
      simp only [Command.opens, Command.perform, hmade]
      exact (chronicles_adopt slot (Buffer.alive_of_opening hmade)).andThen fun _ => .pure _
  | error refusal =>
      simp only [Command.opens, Command.perform, hmade]
      have hemit : Chronicles 0 (StateAction.emit (way.make.events.map (⟨none, ·⟩)) : SessionAction σ Unit) := by
        intro s log step hs hrun
        cases hrun
        exact ⟨hs.with_nameless fun e he => isLifecycle_of_rejected hmade he, rfl⟩
      exact .bind hemit fun _ => .pure _

/-- To `share` a handle is no birth. -/
theorem chronicles_share (slot copy : String) : Chronicles 0 (Command.share slot copy : Command σ α).perform := by
  intro s log step hs hrun
  have hslot := run_onSlot slot (fun id => do Session.enter copy id; Pure.pure (.done : Reply σ α)) s
  cases hentered : s.slots.find? slot with
  | none =>
      rw [hentered] at hslot
      cases hslot.symm.trans hrun
      simpa using hs
  | some id =>
      rw [hentered] at hslot
      obtain ⟨b, hfind⟩ := hs.referred slot id hentered
      obtain ⟨first, second, hfirst, hsecond, rfl⟩ := run_bind_eq_ok_iff.mp (hslot.symm.trans hrun)
      cases hsecond
      simpa [Step.after] using enter_chronicled hs (fun _ hnone => by cases hnone) hfind hfirst

/-- **Every command keeps the log in step with the session** (`Chronicles`). -/
theorem perform_chronicles (command : Command σ α) : Chronicles command.opens.toNat command.perform := by
  have hrequest : ∀ (request : Operation σ α) (b : Buffer σ) step, b.Sound → request.perform.run b = .ok step →
      b.Lives step.events step.state := fun _ _ _ hb hrun => Buffer.perform_lives hb hrun
  cases command with
  | opening slot way => exact chronicles_opening slot way
  | operation slot request keep =>
      refine chronicles_onSlot slot fun id => .bind (chronicles_within id (hrequest request)) fun answer => ?_
      cases answer with
      | none => exact .pure _
      | some value => exact .bind (chronicles_keepTicket keep _) fun _ => .pure _
  | silently slot request => exact chronicles_onBuffer slot (hrequest request)
  | release slot ticket count =>
      refine chronicles_onSlot slot fun _ => .bind .look fun s => ?_
      cases s.tickets.find? ticket with
      | none => exact .pure _
      | some kept => exact chronicles_onBuffer slot fun b step hb hrun => (Buffer.traced_release kept count).lives hb hrun
  | share slot copy => exact chronicles_share slot copy
  | drop slot => exact chronicles_onSlot slot fun _ => .bind (chronicles_leave slot) fun _ => .pure _
  | compare slot other => exact chronicles_onSlot slot fun _ => chronicles_onSlot other fun _ => .pure _
  | countHandles slot => exact chronicles_onSlot slot fun _ => .bind .look fun _ => .pure _
  | surrender slot =>
      refine chronicles_onSlot slot fun id => .bind .look fun s => ?_
      split
      · exact .bind (chronicles_collect slot id) fun _ => .pure _
      · exact .pure _
  | harvest slot =>
      refine chronicles_onSlot slot fun id => .bind (chronicles_collect slot id) fun elements => ?_
      cases elements with
      | none => exact .pure _
      | some elements => exact .pure _
  | harvestText slot codec =>
      refine chronicles_onSlot slot fun id => .bind (chronicles_collect slot id) fun elements => ?_
      cases elements with
      | none => exact .pure _
      | some elements => exact .pure _
  | status slot => exact chronicles_onSlot slot fun _ => .bind .look fun _ => chronicles_inspection slot
  | inspect slot indented => exact chronicles_inspection slot
  | inspectBusy slot => exact chronicles_inspection slot
  | inspectData slot render => exact chronicles_inspection slot

/-! ## Runs -/

/-- So do commands in turn, by induction on `commands`; their births are those that `opens` counts. -/
theorem performAll_chronicles (commands : List (Command σ α)) :
    Chronicles (commands.countP (·.opens)) (Command.performAll commands) := by
  induction commands with
  | nil => exact .pure _
  | cons command rest ih =>
      have hall := (perform_chronicles command).andThen fun reply => ih.andThen fun replies =>
        Chronicles.pure (σ := σ) (reply :: replies)
      have hcount : (command :: rest).countP (·.opens) = command.opens.toNat + (rest.countP (·.opens) + 0) := by
        rw [List.countP_cons]
        cases command.opens <;> simp [Nat.add_comm]
      rw [Command.performAll_cons, hcount]
      exact hall

omit [LawfulStore σ] in
/-- To `leave` slots never fails, and what they referred to is not referred to by them any more. -/
theorem run_forM_leave (names : List String) (s : Session σ) :
    ∃ step, (names.forM Session.leave : SessionAction σ PUnit).run s = .ok step ∧
      ∀ slot id, step.state.slots.find? slot = some id → slot ∉ names ∧ s.slots.find? slot = some id := by
  induction names generalizing s with
  | nil => exact ⟨_, rfl, fun slot id hfind => ⟨List.not_mem_nil, hfind⟩⟩
  | cons name names ih =>
      obtain ⟨first, hfirst, hslots⟩ := run_leave s name
      obtain ⟨last, hlast, hrest⟩ := ih first.state
      refine ⟨last.after first.events, ?_, ?_⟩
      · show StateAction.run (Session.leave name >>= fun _ => names.forM Session.leave) s = _
        rw [run_bind_of_ok hfirst, hlast]
        rfl
      · intro slot id hfind
        obtain ⟨hlater, hbefore⟩ := hrest slot id hfind
        rw [hslots] at hbefore
        refine ⟨?_, Table.find?_of_find?_erase hbefore⟩
        intro hmem
        rcases List.mem_cons.mp hmem with rfl | hmem
        · rw [Table.find?_erase_self] at hbefore
          cases hbefore
        · exact hlater hmem

omit [Store σ α] [LawfulStore σ] in
theorem Session.mem_names_of_find? {slot : String} {id : BufferId} (h : s.slots.find? slot = some id) :
    slot ∈ s.slots.names :=
  List.mem_map_of_mem (f := (·.1)) (Table.mem_entries_of_find? h)

/-- After `Session.finish` all slots are empty, so all buffers are gone and have `Lived`. -/
theorem finish_chronicles (hs : s.Chronicled none log) :
    ∃ step, (Session.finish : SessionAction σ Unit).run s = .ok step ∧ step.state.Chronicled none (log ++ step.events) ∧
      step.state.nextId = s.nextId ∧ ∀ id, step.state.buffers.find? id = none := by
  obtain ⟨step, hrun, hslots⟩ := run_forM_leave (s.slots.names.mergeSort fun a b => decide (a ≤ b)) s
  have hfinish : (Session.finish : SessionAction σ Unit).run s = .ok step := by
    unfold Session.finish
    rw [run_look_bind, hrun]
  obtain ⟨hend, hnext⟩ := (Chronicles.bind .look fun _ => .forM fun slot => chronicles_leave slot :
    Chronicles 0 (Session.finish : SessionAction σ Unit)) s log step hs hfinish
  refine ⟨step, hfinish, hend, hnext, ?_⟩
  intro id
  cases hfind : step.state.buffers.find? id with
  | none => rfl
  | some b =>
      rcases hend.held id b hfind with hheld | hspare
      · obtain ⟨slot, hslot⟩ := (Session.handles_ne_zero_iff hend.names).mp hheld
        obtain ⟨hleft, hbefore⟩ := hslots slot id hslot
        exact absurd (List.mem_mergeSort.mpr (Session.mem_names_of_find? hbefore)) hleft
      · cases hspare

omit [LawfulStore σ] in
/-- At the end of every run, the buffers that have reported `Notice.released` are those that have lost their last
    handle. -/
theorem Session.Chronicled.released_iff (hs : s.Chronicled none log) (id : BufferId) :
    (∃ e ∈ toldOf id log, e.notice = .released) ↔ id < s.nextId ∧ s.handles id = 0 := by
  constructor
  · rintro ⟨e, he, hnotice⟩
    have hid : id < s.nextId := by
      refine Nat.lt_of_not_le fun hunborn => ?_
      rw [hs.unborn id hunborn] at he
      cases he
    refine ⟨hid, ?_⟩
    by_contra hhandles
    obtain ⟨slot, hslot⟩ := (Session.handles_ne_zero_iff hs.names).mp hhandles
    obtain ⟨b, hfind⟩ := hs.referred slot id hslot
    have hquiet := (hs.alive id b hfind).2.not_released e he
    rw [hnotice] at hquiet
    cases hquiet
  · rintro ⟨hid, hhandles⟩
    cases hfind : s.buffers.find? id with
    | none => exact (hs.gone id hid hfind).released
    | some b =>
        rcases hs.held id b hfind with hheld | hspare
        · exact absurd hhandles hheld
        · cases hspare

omit [LawfulStore σ] in
/-- A report about a life (`isLifecycle`) has a `source`, and it is that of a buffer that came to be. -/
theorem Session.Chronicled.source_of_lifecycle (hs : s.Chronicled none log) {r : Report} (hr : r ∈ log)
    (hlifecycle : r.event.notice.isLifecycle = true) : ∃ id < s.nextId, r.source = some id := by
  cases hsource : r.source with
  | none =>
      have hnone := hs.nameless r hr hsource
      rw [hlifecycle] at hnone
      cases hnone
  | some id =>
      refine ⟨id, Nat.lt_of_not_le fun hunborn => ?_, rfl⟩
      have htold : r.event ∈ toldOf id log :=
        List.mem_map_of_mem (List.mem_filter.mpr ⟨hr, decide_eq_true hsource⟩)
      rw [hs.unborn id hunborn] at htold
      cases htold

omit [LawfulStore σ] in
/-- Where all buffers are gone, the reports of their lives add up, since each of them has `Lived`. -/
theorem Session.Chronicled.counts (hs : s.Chronicled none log) (hgone : ∀ id, s.buffers.find? id = none) :
    log.countP (·.event.notice.isOpened) = s.nextId ∧ log.countP (·.event.notice.isReleased) = s.nextId ∧
      log.countP (·.event.notice.isClosed) = log.countP (·.event.notice.isOpenedSided) := by
  have hsum : ∀ kind : Notice → Bool, (∀ n, kind n = true → n.isLifecycle = true) →
      log.countP (fun r => kind r.event.notice) =
        ∑ id ∈ Finset.range s.nextId, (toldOf id log).countP (fun e => kind e.notice) :=
    fun kind hkind => countP_eq_sum_toldOf kind fun r hr h => hs.source_of_lifecycle hr (hkind _ h)
  have hlived : ∀ id ∈ Finset.range s.nextId, Lived (toldOf id log) :=
    fun id hid => hs.gone id (Finset.mem_range.mp hid) (hgone id)
  have hopened : ∀ n : Notice, n.isOpened = true → n.isLifecycle = true := by
    intro n h
    simp [Notice.isLifecycle, h]
  have hreleased : ∀ n : Notice, n.isReleased = true → n.isLifecycle = true := by
    intro n h
    simp [Notice.isLifecycle, h]
  have hclosed : ∀ n : Notice, n.isClosed = true → n.isLifecycle = true := by
    intro n h
    simp [Notice.isLifecycle, h]
  have hsided : ∀ n : Notice, n.isOpenedSided = true → n.isLifecycle = true := by
    intro n h
    cases n with
    | opened mode length => rfl
    | _ => cases h
  refine ⟨?_, ?_, ?_⟩
  · rw [hsum _ hopened, Finset.sum_congr rfl fun id hid => (hlived id hid).counts.1]
    simp
  · rw [hsum _ hreleased, Finset.sum_congr rfl fun id hid => (hlived id hid).counts.2.1]
    simp
  · rw [hsum _ hclosed, hsum _ hsided]
    exact Finset.sum_congr rfl fun id hid => (hlived id hid).counts.2.2

/-- **Every life is told in full.** Whatever commands a session performs, and with its slots emptied in the end by
    `finish`:
    - buffers come to be by openings that are not rejected (`Command.opens`), and a rejected one tells of no life and
      changes nothing;
    - after every run of commands, the buffers that have told of their release are those without `handles`;
    - in the end each buffer has told a whole life (`Lived`): its opening first, its release last, and between them one
      close if its mode has a side and none otherwise; nothing else in the log is about a life;
    - so there are as many openings as releases, and as many closes as openings with a side. -/
theorem lives_told_in_full {commands : List (Command σ α)} {step : Step (Session σ) Report (List (Reply σ α))}
    (hrun : (Command.performAll commands).run Session.empty = .ok step) :
    step.state.nextId = commands.countP (·.opens) ∧
      (∀ (s : Session σ) slot (way : Opening σ) refusal, way.make.value = .error refusal →
        ∃ events, (Command.opening slot way : Command σ α).perform.run s = .ok ⟨.rejected refusal, s, events⟩ ∧
          ∀ r ∈ events, r.event.notice.isLifecycle = false) ∧
      (∀ id, (∃ e ∈ toldOf id step.events, e.notice = .released) ↔
        id < step.state.nextId ∧ step.state.handles id = 0) ∧
      ∃ last log, (Session.finish : SessionAction σ Unit).run step.state = .ok last ∧ log = step.events ++ last.events ∧
        (∀ id < step.state.nextId, Lived (toldOf id log)) ∧
        (∀ r ∈ log, r.event.notice.isLifecycle = true → ∃ id < step.state.nextId, r.source = some id) ∧
        log.countP (·.event.notice.isOpened) = log.countP (·.event.notice.isReleased) ∧
        log.countP (·.event.notice.isClosed) = log.countP (·.event.notice.isOpenedSided) := by
  obtain ⟨hstep, hbirths⟩ := performAll_chronicles commands _ _ step Session.chronicled_empty hrun
  rw [List.nil_append] at hstep
  obtain ⟨last, hfinish, hlast, hnext, hgone⟩ := finish_chronicles hstep
  obtain ⟨hopened, hreleased, hclosed⟩ := hlast.counts hgone
  refine ⟨?_, ?_, hstep.released_iff, last, _, hfinish, rfl, ?_, ?_, hopened.trans hreleased.symm, hclosed⟩
  · rw [hbirths]
    exact Nat.zero_add _
  · intro s slot way refusal hmade
    refine ⟨way.make.events.map (⟨none, ·⟩), ?_, ?_⟩
    · simp only [Command.perform, hmade, run_emit_bind, run_pure]
      simp [Except.map]
    · intro r hr
      obtain ⟨e, he, rfl⟩ := List.mem_map.mp hr
      exact isLifecycle_of_rejected hmade he
  · intro id hid
    exact hlast.gone id (hnext.symm ▸ hid) (hgone id)
  · intro r hr hlifecycle
    rw [← hnext]
    exact hlast.source_of_lifecycle hr hlifecycle

/-- A reader is shared and dropped, a buffer for `Directions.none` takes over the slot of the other handle, and a
    configuration is rejected: two buffers came to be, and each has told a whole life in the end. -/
theorem lives_told_in_full_replaced :
    ∃ (commands : List (Command SmallBytes UInt8)) (step : Step (Session SmallBytes) Report (List (Reply SmallBytes UInt8)))
        (last : Step (Session SmallBytes) Report Unit) (log : List Report),
      (Command.performAll commands).run Session.empty = .ok step ∧ step.state.nextId = 2 ∧
        (Session.finish : SessionAction SmallBytes Unit).run step.state = .ok last ∧
        log = step.events ++ last.events ∧ Lived (toldOf 0 log) ∧ Lived (toldOf 1 log) := by
  let commands : List (Command SmallBytes UInt8) :=
    [.opening "a" (.reader ⟨#[1, 2]⟩), .share "a" "b", .drop "a",
      .opening "b" (.configured { mode := .none }), .opening "c" (.configured { mode := .both })]
  have hok : ((Command.performAll commands).run Session.empty).isOk = true := by decide +kernel
  have hopens : commands.countP (·.opens) = 2 := by decide +kernel
  generalize commands = commands at hok hopens
  cases hrun : (Command.performAll commands).run Session.empty with
  | error fault =>
      rw [hrun] at hok
      cases hok
  | ok step =>
      obtain ⟨hnext, -, -, last, log, hfinish, hlog, hlived, -⟩ := lives_told_in_full hrun
      rw [hopens] at hnext
      rw [hnext] at hlived
      exact ⟨commands, step, last, log, hrun, hnext, hfinish, hlog, hlived 0 (by decide), hlived 1 (by decide)⟩

end MemStream
