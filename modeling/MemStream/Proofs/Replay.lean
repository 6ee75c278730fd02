import MemStream.Proofs.History
import MemStream.Store.Cells

/-!
# `MemStream.Proofs.Replay` — the store in the events

The events of a buffer tell how long its store is. Whoever reads them in order, starting from the length in the report of
the making, knows the capacity after every operation: no change of it goes unreported, and nothing is reported that did
not happen. One thing has to be looked out for. A store is asked to grow after the event that says so, so the event of an
attempt counts only if the next event does not say that the attempt was refused.

## Contents
- **Reading events.** `replay`, and `replay_append` for reading on.
- **Deeds.** `Deed.accords`: an event about the store says how long it is at that moment; `Deed.replay`: what the events
  of one deed come to.
- **Histories.** `History.replay` and `History.accords`; with operations, `storage_replays`.
-/

namespace MemStream

open StateAction

/-! ## Reading events -/

/-- Whether the next event is a `growthRefused`, which says that the store would not be resized. -/
def refusedNext (size target : Nat) : List Event → Bool
  | [] => false
  | e :: _ => decide (e.notice = .growthRefused size target)

/-- The length of the store after an event, where `size` was its length before and `later` are the events that come
    next. -/
def Event.sizeAfter (size : Nat) (later : List Event) (e : Event) : Nat :=
  match e.notice with
  | .opened _ length => length
  | .storeResizing source target => if refusedNext source target later then size else target
  | .tailDropped _ target => target
  | _ => size

/-- The length of the store that events come to, starting from `size`. -/
def replay (size : Nat) : List Event → Nat
  | [] => size
  | e :: later => replay (e.sizeAfter size later) later

/-- Events that do not begin with a `growthRefused` can be read on their own, whatever `storeResizing` may have come
    before them. -/
def SelfContained (events : List Event) : Prop :=
  ∀ size target, refusedNext size target events = false

theorem selfContained_nil : SelfContained [] :=
  fun _ _ => rfl

theorem selfContained_cons {label : String} {notice : Notice} (h : ∀ size target, notice ≠ .growthRefused size target)
    (later : List Event) : SelfContained (⟨label, notice⟩ :: later) :=
  fun size target => decide_eq_false (h size target)

/-- What is read on later does not change what was read before, if it is `SelfContained`. -/
theorem replay_append {later : List Event} (h : SelfContained later) (size : Nat) (earlier : List Event) :
    replay size (earlier ++ later) = replay (replay size earlier) later := by
  induction earlier generalizing size with
  | nil => rfl
  | cons e earlier ih =>
      have hsame : e.sizeAfter size (earlier ++ later) = e.sizeAfter size earlier := by
        have hnext : ∀ source target, refusedNext source target (earlier ++ later) = refusedNext source target earlier := by
          intro source target
          cases earlier with
          | nil => exact h source target
          | cons next earlier => rfl
        unfold Event.sizeAfter
        simp only [hnext]
      rw [List.cons_append, replay, replay, hsame, ih]

/-- What an event says about the store is so at its moment: an attempt to grow starts from the present `capacity` and
    goes beyond it, and a tail that is dropped is everything beyond the `valid` elements. -/
def Buffer.Accords {σ α : Type} [Store σ α] (b : Buffer σ) : Notice → Prop
  | .storeResizing size target => size = b.capacity ∧ size < target
  | .growthRefused size target => size = b.capacity ∧ size < target
  | .tailDropped size target => size = b.capacity ∧ target = b.valid ∧ target < size
  | _ => True

namespace Buffer

variable {σ α β : Type} [Store σ α] {b c : Buffer σ} {events timeline : List (Buffer σ × Event)}

/-! ## Deeds -/

omit [Store σ α] in
theorem of_mem_moments {m : Buffer σ} {e : Event} {reports : List Event} (h : (m, e) ∈ b.moments reports) :
    m = b ∧ e ∈ reports := by
  obtain ⟨report, hreport, heq⟩ := List.mem_map.mp h
  cases heq
  exact ⟨rfl, hreport⟩

theorem accords_of_trim {e : Event} (h : e ∈ b.trimEvents) : b.Accords e.notice := by
  unfold trimEvents at h
  split at h
  · next htail =>
      cases List.mem_singleton.mp h
      exact ⟨rfl, rfl, htail⟩
  · cases h

/-- Once the tail is gone, room beyond the `valid` elements is room beyond the store. -/
theorem accords_of_grow (hnone : b.capacity = b.valid) {p : Nat} {e : Event} (h : e ∈ b.growEvents p) :
    b.Accords e.notice := by
  unfold growEvents at h
  split at h
  · cases h
  · next hroom =>
      have hlt : b.capacity < p := by omega
      split at h
      · cases List.mem_singleton.mp h
        exact ⟨rfl, hlt⟩
      · rcases List.mem_cons.mp h with rfl | h
        · exact ⟨rfl, hlt⟩
        · cases List.mem_singleton.mp h
          exact ⟨rfl, hlt⟩

theorem accords_of_remark {notice : Notice} (h : notice.isRemark = true) : b.Accords notice := by
  cases notice with
  | storeResizing | growthRefused | tailDropped => cases h
  | _ => trivial

/-- Every event of a `Deed` `Accords` with the buffer of its moment. -/
theorem Deed.accords (h : Deed b events c) {m : Buffer σ} {e : Event} (hmem : (m, e) ∈ events) : m.Accords e.notice := by
  cases h with
  | remark notice hremark =>
      obtain ⟨rfl, he⟩ := of_mem_moments hmem
      cases List.mem_singleton.mp he
      exact accords_of_remark hremark
  | note | move | put => cases hmem
  | trim =>
      obtain ⟨rfl, he⟩ := of_mem_moments hmem
      exact accords_of_trim he
  | grow p hnone =>
      obtain ⟨rfl, he⟩ := of_mem_moments hmem
      exact accords_of_grow hnone he
  | close direction _ =>
      rcases List.mem_append.mp hmem with hmem | hmem
      · obtain ⟨rfl, he⟩ := of_mem_moments hmem
        exact accords_of_trim he
      · obtain ⟨-, he⟩ := of_mem_moments hmem
        cases List.mem_singleton.mp he
        trivial

theorem selfContained_trim (b : Buffer σ) {later : List Event} (h : SelfContained later) :
    SelfContained (b.trimEvents ++ later) := by
  unfold trimEvents
  split
  · exact selfContained_cons (by simp) later
  · exact h

/-- No `Deed` begins with a `growthRefused`. -/
theorem Deed.selfContained (h : Deed b events c) {later : List Event} (hlater : SelfContained later) :
    SelfContained (events.map (·.2) ++ later) := by
  cases h with
  | remark notice hremark =>
      rw [map_snd_moments]
      refine selfContained_cons ?_ later
      rintro size target rfl
      cases hremark
  | note | move | put => exact hlater
  | trim =>
      rw [map_snd_moments]
      exact selfContained_trim b hlater
  | grow p _ =>
      rw [map_snd_moments]
      unfold growEvents
      split
      · exact hlater
      split
      · exact selfContained_cons (by simp) later
      · exact selfContained_cons (by simp) _
  | close direction _ =>
      rw [List.map_append, map_snd_moments, map_snd_moments, List.append_assoc]
      exact selfContained_trim _ (selfContained_cons (by simp) later)

variable [LawfulStore σ]

/-- The report of a dropped tail comes to the `capacity` that is left when the buffer is `trimmed`. -/
theorem replay_trimEvents : replay b.capacity b.trimEvents = b.trimmed.capacity := by
  rw [capacity_trimmed]
  unfold trimEvents
  split
  · next htail => exact (Nat.min_eq_left (Nat.le_of_lt htail)).symm
  · next hnone => exact (Nat.min_eq_right (Nat.not_lt.mp hnone)).symm

/-- The reports of making room come to the length of the store, whether it grew or would not. -/
theorem replay_growEvents (p : Nat) :
    replay b.capacity (b.growEvents p) = (if b.admits p then b.grown p else b).capacity := by
  unfold growEvents admits grown
  by_cases hroom : p ≤ b.valid ∨ p = b.capacity
  · rw [if_pos hroom, if_pos hroom, ite_self]
    rfl
  · rw [if_neg hroom, if_neg hroom]
    obtain ⟨hvalid, hcapacity⟩ := not_or.mp hroom
    rw [decide_eq_false hvalid, decide_eq_false hcapacity, Bool.false_or, Bool.false_or]
    split
    · show p = Store.size (Store.resize b.data p)
      rw [Store.size_resize]
    · show (if decide _ = true then b.capacity else p) = b.capacity
      rw [decide_eq_true rfl, if_pos rfl]

/-- **The events of a `Deed` tell the length of the store after it.** They `replay` from one `capacity` to the other. -/
theorem Deed.replay (h : Deed b events c) :
    MemStream.replay b.capacity (events.map (·.2)) = c.capacity := by
  cases h with
  | remark notice hremark =>
      rw [map_snd_moments]
      cases notice with
      | storeResizing | growthRefused | tailDropped | opened | configurationRejected | closed | released => cases hremark
      | _ => rfl
  | note | move => rfl
  | put start elements hstop => exact (capacity_placed hstop).symm
  | trim =>
      rw [map_snd_moments]
      exact replay_trimEvents
  | grow p _ =>
      rw [map_snd_moments]
      exact replay_growEvents p
  | close direction hc =>
      have hclose : SelfContained [⟨b.label, .closed direction (b.closed direction).isOpen⟩] :=
        selfContained_cons (by simp) []
      rw [List.map_append, map_snd_moments, map_snd_moments, replay_append hclose, closed_of_closes hc]
      exact replay_trimEvents (b := b.shutting direction)

/-! ## Histories -/

omit [LawfulStore σ] in
theorem History.selfContained (h : History b timeline c) : SelfContained (timeline.map (·.2)) := by
  induction h with
  | done b => exact selfContained_nil
  | next hdeed _ ih =>
      rw [List.map_append]
      exact hdeed.selfContained ih

omit [LawfulStore σ] in
theorem History.accords (h : History b timeline c) {m : Buffer σ} {e : Event} (hmem : (m, e) ∈ timeline) :
    m.Accords e.notice := by
  induction h with
  | done b => cases hmem
  | next hdeed _ ih =>
      rcases List.mem_append.mp hmem with hmem | hmem
      · exact hdeed.accords hmem
      · exact ih hmem

/-- The events of a `History` `replay` from one `capacity` to the other, by induction over its deeds. -/
theorem History.replay (h : History b timeline c) :
    MemStream.replay b.capacity (timeline.map (·.2)) = c.capacity := by
  induction h with
  | done b => rfl
  | next hdeed hrest ih =>
      rw [List.map_append, replay_append hrest.selfContained, hdeed.replay]
      exact ih

end Buffer

variable {σ α : Type} [Store σ α] [LawfulStore σ]

/-- **The events replay to the capacity.** However a buffer is made, and whatever is done to it but `takeData`, with
    whatever tickets:
    - Read in order by `replay`, the events come to the `capacity`. That is so for any row of operations, and so after
      each operation of a longer one.
    - Of the states in between, each event `Accords` with the buffer of its moment: each attempt to grow names the
      length of the store at its moment and a greater one, and each dropped tail names the length at its moment and the
      number of valid elements, which is smaller. -/
theorem storage_replays {way : Opening σ} {first : Buffer σ} (hmade : way.make.value = .ok first)
    {operations : List (Operation σ α)} (hkept : .takeData ∉ operations)
    {step : Step (Buffer σ) Event (List (Answer σ α))} (hrun : (Operation.performAll operations).run first = .ok step) :
    replay 0 (way.make.events ++ step.events) = step.state.capacity ∧
      ∃ timeline, Buffer.History first timeline step.state ∧ timeline.map (·.2) = step.events ∧
        ∀ m e, (m, e) ∈ timeline → m.Accords e.notice := by
  obtain ⟨⟨label, hopened⟩, hvalid, -⟩ := Buffer.made_of_opening hmade
  obtain ⟨timeline, hhistory, hevents⟩ := Buffer.traced_performAll hkept first step (Nat.le_of_eq hvalid) hrun
  constructor
  · rw [hopened, ← hevents, replay_append hhistory.selfContained]
    exact hhistory.replay
  · exact ⟨timeline, hhistory, hevents, fun m e hmem => hhistory.accords hmem⟩

/-- A writer of `SmallBytes` writes two, reserves two more, asks for a hundred, which drops the tail and is refused, and
    writes one. -/
theorem storage_replays_refused :
    ∃ (first : Buffer SmallBytes) (step : Step (Buffer SmallBytes) Event (List (Answer SmallBytes UInt8))),
      (Operation.performAll [.write ⟨#[1, 2]⟩, .reserve 2 ⟨#[7]⟩, .reserve 100 ⟨#[]⟩, .writeOne 3] :
        BufferAction SmallBytes (List (Answer SmallBytes UInt8))).run first = .ok step ∧
      step.events.map (·.notice) = [.storeResizing 0 2, .storeResizing 2 4, .tailDropped 4 2, .storeResizing 2 102,
        .growthRefused 2 102, .storeResizing 2 3] ∧
      step.state.capacity = 3 ∧
      replay 0 ((Opening.writer : Opening SmallBytes).make.events ++ step.events) = step.state.capacity := by
  let operations : List (Operation SmallBytes UInt8) :=
    [.write ⟨#[1, 2]⟩, .reserve 2 ⟨#[7]⟩, .reserve 100 ⟨#[]⟩, .writeOne 3]
  let first : Buffer SmallBytes := Buffer.start ⟨#[]⟩ .writer defaultLabel
  let last : Buffer SmallBytes :=
    { data := ⟨#[1, 2, 3]⟩, cursor := ⟨3, 3⟩, access := .writer, changes := 4, reservation := some ⟨2, 2⟩,
      label := defaultLabel }
  let notices : List Notice := [.storeResizing 0 2, .storeResizing 2 4, .tailDropped 4 2, .storeResizing 2 102,
    .growthRefused 2 102, .storeResizing 2 3]
  let step : Step (Buffer SmallBytes) Event (List (Answer SmallBytes UInt8)) :=
    ⟨[.count 2, .region (some ⟨#[0, 0]⟩), .region none, .element (some 3)], last, notices.map (⟨defaultLabel, ·⟩)⟩
  have hmade : (Opening.writer : Opening SmallBytes).make.value = .ok first := rfl
  have hkept : .takeData ∉ operations := by simp [operations]
  have hrun : (Operation.performAll operations).run first = .ok step := by
    cbv
  exact ⟨first, step, hrun, rfl, rfl, (storage_replays hmade hkept hrun).1⟩

end MemStream
