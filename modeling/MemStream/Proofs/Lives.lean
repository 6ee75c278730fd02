import MemStream.Proofs.History

/-!
# `MemStream.Proofs.Lives` — what the events of a buffer say of its life

A buffer reports that it was opened, that a close took effect, and that it was released. Its mode gives it one side or
none, so a close that takes effect takes the only side that is open: the closes that are reported and the side that is
left always add up to what the mode gave. A buffer that is released has been closed on both sides before, so in the end
there is one close for a mode that names a side and none otherwise.

## Contents
- **Reports.** `Notice.isLifecycle`; `closings` counts closes, `Midlife` says that nothing came or went.
- **Between two states.** `Buffer.Lives`, which every deed, every history and every operation brings about
  (`Deed.lives`, `perform_lives`).
- **From the beginning.** `Alive` for a buffer that is still there, `Lived` for one that is gone.
-/

namespace MemStream

open StateAction

/-! ## Reports -/

namespace Notice

/-- Whether the `Notice` is that a buffer came to be. -/
def isOpened : Notice → Bool
  | .opened _ _ => true
  | _ => false

/-- Whether the `Notice` is that a buffer with a side came to be. -/
def isOpenedSided : Notice → Bool
  | .opened mode _ => decide (mode ≠ .none)
  | _ => false

/-- Whether the `Notice` is that a close took effect. -/
def isClosed : Notice → Bool
  | .closed _ _ => true
  | _ => false

/-- Whether the `Notice` is that a buffer went away. -/
def isReleased : Notice → Bool
  | .released => true
  | _ => false

/-- Whether the `Notice` is about the life of a buffer. -/
def isLifecycle (n : Notice) : Bool :=
  n.isOpened || n.isClosed || n.isReleased

end Notice

/-- How many closes took effect, by `isClosed`. -/
def closings (events : List Event) : Nat :=
  events.countP (·.notice.isClosed)

/-- Nothing came to be and nothing went away: no event is `isOpened` or `isReleased`. -/
def Midlife (events : List Event) : Prop :=
  ∀ e ∈ events, e.notice.isOpened = false ∧ e.notice.isReleased = false

theorem midlife_nil : Midlife [] :=
  fun _ he => absurd he List.not_mem_nil

theorem Midlife.append {first second : List Event} (h : Midlife first) (h' : Midlife second) :
    Midlife (first ++ second) := by
  intro e he
  rcases List.mem_append.mp he with he | he
  · exact h e he
  · exact h' e he

/-- What says nothing of a life (`isLifecycle`) tells of no beginning, of no end and of no close. -/
theorem midlife_of_quiet {events : List Event} (h : ∀ e ∈ events, e.notice.isLifecycle = false) :
    Midlife events ∧ closings events = 0 := by
  have hnone : ∀ e ∈ events,
      e.notice.isOpened = false ∧ e.notice.isClosed = false ∧ e.notice.isReleased = false := by
    intro e he
    simpa [Notice.isLifecycle, and_assoc] using h e he
  constructor
  · intro e he
    exact ⟨(hnone e he).1, (hnone e he).2.2⟩
  · refine List.countP_eq_zero.mpr fun e he => ?_
    simp [(hnone e he).2.1]

/-- The number of sides that a mode gives; `both` at once are never given. -/
def Directions.sides (m : Directions) : Nat :=
  if m = .none then 0 else 1

namespace Buffer

variable {σ α : Type} [Store σ α] {b c d : Buffer σ}

/-! ## Between two states -/

/-- The number of sides that are open, of which there is never more than one. -/
def openSides (b : Buffer σ) : Nat :=
  if b.isOpen then 1 else 0

/-- What a buffer can be sure of that was made as buffers are made: its access is `Coherent`, and its `valid` elements
    lie in the store. -/
structure Sound (b : Buffer σ) : Prop where
  coherent : b.access.Coherent
  valid_le : b.valid ≤ b.capacity

/-- The buffer lives on, and as many `closings` are reported as sides have been closed. -/
structure Lives (b : Buffer σ) (events : List Event) (c : Buffer σ) : Prop where
  sound : c.Sound
  mode : c.mode = b.mode
  midlife : Midlife events
  closings : closings events + c.openSides = b.openSides

/-- Where the access stays and nothing is said of a life, the buffer `Lives` on. -/
theorem Lives.of_access {events : List Event} (hb : b.Sound) (haccess : c.access = b.access)
    (hvalid : c.valid ≤ c.capacity)
    (hevents : ∀ e ∈ events, e.notice.isLifecycle = false) : Lives b events c where
  sound := ⟨haccess ▸ hb.coherent, hvalid⟩
  mode := congrArg Access.mode haccess
  midlife := (midlife_of_quiet hevents).1
  closings := by
    rw [(midlife_of_quiet hevents).2, Nat.zero_add]
    unfold openSides isOpen
    rw [haccess]

theorem Lives.refl (hb : b.Sound) : Lives b [] b :=
  .of_access hb rfl hb.valid_le fun _ he => absurd he List.not_mem_nil

/-- What a buffer lives through in two parts it lives through in a row. -/
theorem Lives.trans {first second : List Event} (h : Lives b first c) (h' : Lives c second d) :
    Lives b (first ++ second) d where
  sound := h'.sound
  mode := h'.mode.trans h.mode
  midlife := h.midlife.append h'.midlife
  closings := by
    have hfirst := h.closings
    have hsecond := h'.closings
    unfold MemStream.closings at *
    rw [List.countP_append]
    omega

theorem isLifecycle_of_trim {e : Event} (h : e ∈ b.trimEvents) : e.notice.isLifecycle = false := by
  unfold trimEvents at h
  split at h
  · cases List.mem_singleton.mp h
    rfl
  · cases h

theorem isLifecycle_of_grow {p : Nat} {e : Event} (h : e ∈ b.growEvents p) : e.notice.isLifecycle = false := by
  unfold growEvents at h
  split at h
  · cases h
  split at h
  · cases List.mem_singleton.mp h
    rfl
  · rcases List.mem_cons.mp h with rfl | h
    · rfl
    · cases List.mem_singleton.mp h
      rfl

/-- A remark (`isRemark`) is nothing about a life. -/
theorem isLifecycle_of_remark {notice : Notice} (h : notice.isRemark = true) : notice.isLifecycle = false := by
  cases notice with
  | opened | closed | released => cases h
  | _ => rfl

omit [Store σ α] in
/-- At most one side is open, so a close that takes effect leaves no side open. -/
theorem isOpen_close {a : Access} (h : a.Coherent) {direction : Directions} (hc : a.closes direction = true) :
    a.isOpen = true ∧ (a.close direction).isOpen = false := by
  have hone : a.readOpen = true → a.writeOpen = false := fun hr => h.writeOpen_eq_false hr
  rcases a with ⟨mode, _ | _, _ | _⟩ <;> rcases direction with ⟨_ | _, _ | _⟩ <;>
    simp_all [Access.closes, Access.close, Access.isOpen]

variable [LawfulStore σ]

/-- A close that `closes` the one open side is one of the `closings`. -/
theorem lives_closed (hb : b.Sound) {direction : Directions} (hc : b.access.closes direction = true) :
    Lives b ((b.shutting direction).trimEvents ++ [⟨b.label, .closed direction (b.closed direction).isOpen⟩])
      (b.closed direction) := by
  obtain ⟨hopen, hshut⟩ := isOpen_close hb.coherent hc
  obtain ⟨hmidlife, hquiet⟩ := midlife_of_quiet fun e => isLifecycle_of_trim (b := b.shutting direction) (e := e)
  refine ⟨⟨?_, ?_⟩, ?_, ?_, ?_⟩
  · rw [access_closed]
    exact hb.coherent.close direction
  · exact (Deed.close direction hc).valid_le hb.valid_le
  · show (b.closed direction).access.mode = b.access.mode
    rw [access_closed]
    rfl
  · refine hmidlife.append fun e he => ?_
    cases List.mem_singleton.mp he
    exact ⟨rfl, rfl⟩
  · have hleft : (b.closed direction).openSides = 0 := by
      unfold openSides isOpen
      rw [access_closed, hshut]
      rfl
    have hbefore : b.openSides = 1 := by
      unfold openSides isOpen
      rw [hopen]
      rfl
    unfold MemStream.closings at hquiet ⊢
    rw [List.countP_append, hquiet, hleft, hbefore]
    rfl

/-- **Every `Deed` lets a buffer live on.** -/
theorem Deed.lives {events : List (Buffer σ × Event)} (h : Deed b events c) (hb : b.Sound) :
    Lives b (events.map (·.2)) c := by
  have hvalid := h.valid_le hb.valid_le
  cases h with
  | remark notice hremark =>
      rw [map_snd_moments]
      refine .of_access hb rfl hvalid fun e he => ?_
      cases List.mem_singleton.mp he
      exact isLifecycle_of_remark hremark
  | note | move | put => exact .of_access hb rfl hvalid fun _ he => absurd he List.not_mem_nil
  | trim =>
      rw [map_snd_moments]
      exact .of_access hb (access_trimmed b) hvalid fun e he => isLifecycle_of_trim he
  | grow p _ =>
      rw [map_snd_moments]
      refine .of_access hb ?_ hvalid fun e he => isLifecycle_of_grow he
      split
      · exact access_grown b p
      · rfl
  | close direction hc =>
      rw [List.map_append, map_snd_moments, map_snd_moments]
      exact lives_closed hb hc

/-- So does every `History`, by induction over its deeds. -/
theorem History.lives {timeline : List (Buffer σ × Event)} (h : History b timeline c) (hb : b.Sound) :
    Lives b (timeline.map (·.2)) c := by
  induction h with
  | done b => exact .refl hb
  | next hdeed _ ih =>
      have hfirst := hdeed.lives hb
      rw [List.map_append]
      exact hfirst.trans (ih hfirst.sound)

/-- An action that is `Traced` lets a buffer live on where it does not fault. -/
theorem Traced.lives {β : Type} {x : BufferAction σ β} (hx : Traced x) (hb : b.Sound)
    {step : Step (Buffer σ) Event β} (hrun : x.run b = .ok step) : Lives b step.events step.state := by
  obtain ⟨timeline, hhistory, hevents⟩ := hx b step hb.valid_le hrun
  rw [← hevents]
  exact hhistory.lives hb

theorem closed_lives (hb : b.Sound) (direction : Directions) : Lives b (b.closeEvents direction) (b.closed direction) :=
  (traced_close direction).lives hb (run_close b direction)

/-- To `takeData` closes what is open; head and store are reset without a word. -/
theorem takeData_lives (hb : b.Sound) {step : Step (Buffer σ) Event σ} (hrun : takeData.run b = .ok step) :
    Lives b step.events step.state := by
  have hclosed := closed_lives hb .both
  have htrimmed := traced_dropTail.lives hclosed.sound (run_dropTail_trimmed (b.closed .both))
  have hzero : b.emptied.capacity = 0 := Store.size_empty
  have hemptied : Lives (b.closed .both).trimmed [] b.emptied :=
    .of_access htrimmed.sound rfl (by rw [hzero]; exact Nat.le_refl 0) fun _ he => absurd he List.not_mem_nil
  have hall := hclosed.trans (htrimmed.trans hemptied)
  rw [run_takeData] at hrun
  cases hrun
  rwa [List.append_nil] at hall

/-- Every operation lets a buffer live on: it is `Traced`, or it is `takeData`. -/
theorem perform_lives (hb : b.Sound) {operation : Operation σ α} {step : Step (Buffer σ) Event (Answer σ α)}
    (hrun : operation.perform.run b = .ok step) : Lives b step.events step.state := by
  by_cases hother : operation = .takeData
  · subst hother
    obtain ⟨first, second, hfirst, hanswer, rfl⟩ := run_bind_eq_ok_iff.mp hrun
    cases hanswer
    have hlives := takeData_lives hb hfirst
    simpa [Step.after] using hlives
  · exact (traced_perform hother).lives hb hrun

/-! ## From the beginning -/

/-- What a buffer has told by now that is still there: first that it was opened, and since then of its `closings`. -/
structure Alive (events : List Event) (b : Buffer σ) : Prop where
  sound : b.Sound
  told : ∃ label length middle, events = ⟨label, .opened b.mode length⟩ :: middle ∧ Midlife middle ∧
    closings middle + b.openSides = b.mode.sides

end Buffer

/-- What a buffer has told that is gone: that it was opened, then of one close if its mode gave it a side, and last of
    all that it was `released`. -/
def Lived (events : List Event) : Prop :=
  ∃ label label' mode length middle,
    events = ⟨label, .opened mode length⟩ :: (middle ++ [⟨label', .released⟩]) ∧ Midlife middle ∧
      closings middle = mode.sides

namespace Buffer

variable {σ α : Type} [Store σ α] [LawfulStore σ] {b c : Buffer σ} {events later : List Event}

omit [LawfulStore σ] in
/-- A buffer that `Opening.make` brought about is `Alive`. -/
theorem alive_of_opening {way : Opening σ} (hmade : way.make.value = .ok b) : Alive way.make.events b := by
  obtain ⟨⟨label, hopened⟩, hvalid, haccess⟩ := made_of_opening hmade
  refine ⟨⟨Access.coherent_of_ofMode? haccess, Nat.le_of_eq hvalid⟩, label, b.capacity, [], hopened, midlife_nil, ?_⟩
  have hsides : b.openSides = b.mode.sides := by
    unfold openSides isOpen Access.isOpen Directions.sides
    generalize b.mode = mode at haccess
    generalize b.access = access at haccess
    rcases mode with ⟨_ | _, _ | _⟩ <;> cases haccess <;> rfl
  exact (Nat.zero_add _).trans hsides

omit [LawfulStore σ] in
/-- A buffer that `Lives` on stays `Alive`. -/
theorem Alive.lives (h : Alive events b) (hlives : Lives b later c) : Alive (events ++ later) c := by
  obtain ⟨label, length, middle, rfl, hmiddle, hclosings⟩ := h.told
  refine ⟨hlives.sound, label, length, middle ++ later, ?_, hmiddle.append hlives.midlife, ?_⟩
  · rw [hlives.mode]
    rfl
  · have hlater := hlives.closings
    unfold closings at *
    rw [List.countP_append, hlives.mode]
    omega

/-- To `retire` closes what is still open and tells of it, and the last word is that the buffer is gone. -/
theorem Alive.retire (h : Alive events b) {step : Step (Buffer σ) Event Unit} (hrun : retire.run b = .ok step) :
    Lived (events ++ step.events) := by
  have hreading := closed_lives h.sound .reading
  have hwriting := closed_lives hreading.sound .writing
  obtain ⟨label, length, middle, hevents, hmiddle, hclosings⟩ := (h.lives (hreading.trans hwriting)).told
  have hshut : ((b.closed .reading).closed .writing).openSides = 0 := by
    unfold openSides isOpen
    rw [access_closed, access_closed]
    simp [Access.isOpen, Access.close, Directions.reading, Directions.writing]
  rw [hshut] at hclosings
  rw [run_retire] at hrun
  cases hrun
  refine ⟨label, ((b.closed .reading).closed .writing).label, _, length, middle, ?_, hmiddle, hclosings⟩
  rw [← List.append_assoc (b.closeEvents _), ← List.append_assoc events, hevents, List.cons_append]

omit [LawfulStore σ] in
theorem Alive.not_released (h : Alive events b) : ∀ e ∈ events, e.notice.isReleased = false := by
  obtain ⟨label, length, middle, rfl, hmiddle, -⟩ := h.told
  intro e he
  rcases List.mem_cons.mp he with rfl | he
  · rfl
  · exact (hmiddle e he).2

end Buffer

theorem Lived.released {events : List Event} (h : Lived events) : ∃ e ∈ events, e.notice = .released := by
  obtain ⟨label, label', mode, length, middle, rfl, -, -⟩ := h
  exact ⟨⟨label', .released⟩, List.mem_cons_of_mem _ (List.mem_append_right _ (List.mem_singleton_self _)), rfl⟩

/-- A life that was `Lived` has one beginning and one end, and a close if it began with a side. -/
theorem Lived.counts {events : List Event} (h : Lived events) :
    events.countP (·.notice.isOpened) = 1 ∧ events.countP (·.notice.isReleased) = 1 ∧
      events.countP (·.notice.isClosed) = events.countP (·.notice.isOpenedSided) := by
  obtain ⟨label, label', mode, length, middle, rfl, hmiddle, hclosings⟩ := h
  have hopened : middle.countP (·.notice.isOpened) = 0 :=
    List.countP_eq_zero.mpr fun e he => by simp [(hmiddle e he).1]
  have hreleased : middle.countP (·.notice.isReleased) = 0 :=
    List.countP_eq_zero.mpr fun e he => by simp [(hmiddle e he).2]
  have hsided : middle.countP (·.notice.isOpenedSided) = 0 := by
    refine List.countP_eq_zero.mpr fun e he => ?_
    have hnone := (hmiddle e he).1
    cases hnotice : e.notice with
    | opened mode length =>
        rw [hnotice] at hnone
        cases hnone
    | _ => simp [Notice.isOpenedSided]
  unfold closings at hclosings
  refine ⟨?_, ?_, ?_⟩
  · simp only [List.countP_cons, List.countP_append, List.countP_nil, hopened]
    rfl
  · simp only [List.countP_cons, List.countP_append, List.countP_nil, hreleased]
    rfl
  · simp only [List.countP_cons, List.countP_append, hclosings, hsided]
    unfold Directions.sides
    by_cases hnone : mode = .none <;> simp [hnone, Notice.isClosed, Notice.isOpenedSided]

end MemStream
