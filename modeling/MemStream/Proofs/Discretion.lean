import Mathlib.Data.List.Forall2
import MemStream.Proofs.Counting
import MemStream.Proofs.Harvest
import MemStream.Proofs.Leftover

/-!
# `MemStream.Proofs.Discretion` — what was filled and never committed stays unseen

Whoever is granted room may fill it with anything and then commit less of it, or nothing. Nobody gets to see the rest: it
is neither written around, nor sought over, nor granted to the next one, nor handed out to the last handle. Two runs that
differ in such fillings only cannot be told apart by any answer, and as soon as nothing can be committed any more, they
have come to the same buffer.

## Contents
- **Runs.** `Entry.taken` is how much of a granted room is committed later; `Vary` relates runs whose fillings differ
  behind that only.
- **Steps.** `Discreet` is what a step keeps (`Discreet.perform`) and with it a run (`Run.discreet`): at most the tails
  differ, the part of them that is going to be committed does not, and they do only while a reservation is there.
- **Harvests.** `run_harvest_sole`; together, `fillings_stay_unseen`.
-/

namespace MemStream

open StateAction

variable {σ α : Type}

/-! ## Fillings -/

namespace Operation

/-- What room is to be filled with, by `reserve` or `reserveWith`. -/
def filling? : Operation σ α → Option σ
  | .reserve _ filling | .reserveWith _ filling _ => some filling
  | _ => none

/-- The operation with another `filling`; one without a filling stays as it is. -/
def refilled (filling : σ) : Operation σ α → Operation σ α
  | .reserve count _ => .reserve count filling
  | .reserveWith count _ written => .reserveWith count filling written
  | operation => operation

/-- An operation that has nothing to do with rooms is not changed by being `refilled`. -/
theorem refilled_of_not_concernsRoom {operation : Operation σ α} (h : operation.concernsRoom = false) (filling : σ) :
    operation.refilled filling = operation := by
  cases operation with
  | reserve | reserveWith => cases h
  | _ => rfl

end Operation

/-- What was in the room that an `Answer` grants. -/
def Answer.region? : Answer σ α → Option σ
  | .region granted => granted
  | .filled result => result.granted
  | _ => none

/-- How much an entry commits of what was reserved before, if it is a `commit` that goes through. -/
def Entry.commits? (e : Entry σ α) : Option Nat :=
  match e.operation, e.answer with
  | .commit _, .settled (.ok count) => some count
  | _, _ => none

/-- How much of what is reserved now is committed later: what the next entry that `commits?` takes, unless room is
    granted again before there is one. -/
def committedNext : List (Entry σ α) → Nat
  | [] => 0
  | e :: later => if e.answer.region?.isSome then 0 else e.commits?.getD (committedNext later)

/-- How much was committed of a room that `reserveWith` reserved, filled and committed in one go. -/
def Buffer.Filled.taken (result : Buffer.Filled σ) : Nat :=
  match result.committed with
  | .ok count => count
  | .error _ => 0

/-- How much is committed of the room that an entry was granted, at once or by `committedNext`. -/
def Entry.taken (later : List (Entry σ α)) (e : Entry σ α) : Nat :=
  match e.operation, e.answer with
  | .reserve _ _, _ => committedNext later
  | .reserveWith _ _ _, .filled result => result.taken
  | _, _ => 0

variable [Store σ α]

/-- The same operation but for what a granted room is `refilled` with, and there the same at every place that was among
    the valid elements at the grant or is `taken`. -/
def Entry.Varies (later : List (Entry σ α)) (e e' : Entry σ α) : Prop :=
  ∃ filling', e'.operation = e.operation.refilled filling' ∧
    ∀ region filling, e.answer.region? = some region → e.operation.filling? = some filling →
      ∀ j, e.before.head + j < e.before.valid ∨ j < e.taken later →
        (Store.toList (Store.overlayFront region filling'))[j]? =
          (Store.toList (Store.overlayFront region filling))[j]?

/-- The same operations in the same order, with rooms filled differently at most as `Entry.Varies` allows. -/
inductive Vary : List (Entry σ α) → List (Entry σ α) → Prop where
  | nil : Vary [] []
  | cons {e e' : Entry σ α} {later later' : List (Entry σ α)} :
      e.Varies later e' → Vary later later' → Vary (e :: later) (e' :: later')

/-- The same answer, and no more than `TailApart` between what is left; and not even that where no reservation of the
    present epoch is there. -/
structure Entry.Agrees (e e' : Entry σ α) : Prop where
  answer : e'.answer = e.answer
  apart : Buffer.TailApart e.after e'.after
  same : (∀ r, e.after.reservation = some r → r.epoch ≠ e.after.epoch) → e'.after = e.after

/-! ## Steps -/

namespace Buffer

variable {b c : Buffer σ} {kept : Nat}

/-- At most `TailApart`, with as much of the tail the same as is going to be committed (`kept`), and only while there is
    something to be committed. -/
structure Discreet (kept : Nat) (b c : Buffer σ) : Prop where
  apart : TailApart b c
  kept : (Store.toList c.data).take (b.head + kept) = (Store.toList b.data).take (b.head + kept)
  reserved : c = b ∨ ∃ r, b.reservation = some r ∧ r.epoch = b.epoch

theorem Discreet.refl (kept : Nat) (b : Buffer σ) : Discreet kept b b :=
  ⟨.refl b, rfl, .inl rfl⟩

theorem Discreet.of_eq (h : c = b) : Discreet kept b c :=
  h ▸ .refl kept b

/-- Entries with the same answer that leave `Discreet` buffers are such that `Entry.Agrees`. -/
theorem Discreet.agrees (h : Discreet kept b c) {e e' : Entry σ α} (hb : e.after = b) (hc : e'.after = c)
    (hanswer : e'.answer = e.answer) : e.Agrees e' := by
  subst hb hc
  refine ⟨hanswer, h.apart, fun hstale => ?_⟩
  rcases h.reserved with hsame | ⟨r, hres, hepoch⟩
  · exact hsame
  · exact absurd hepoch (hstale r hres)

/-- What is done `Together` answers the same and leaves buffers `Discreet`. -/
theorem Together.discreet {β : Type} {x : BufferAction σ β} (hx : Together x b c) (h : Discreet kept b c)
    {first second : Step (Buffer σ) Event β} (hfirst : x.run b = .ok first) (hsecond : x.run c = .ok second) :
    second.value = first.value ∧ Discreet kept first.state second.state := by
  obtain ⟨first', second', hfirst', hsecond', hvalue, hstate⟩ := hx
  rw [hfirst] at hfirst'
  rw [hsecond] at hsecond'
  cases hfirst'
  cases hsecond'
  refine ⟨hvalue, ?_⟩
  rcases hstate with ⟨rfl, rfl⟩ | hsame
  · exact h
  · exact .of_eq hsame

/-- What has nothing to do with rooms does not change `committedNext`. -/
theorem committedNext_cons {operation : Operation σ α} (hroom : operation.concernsRoom = false)
    {step : Step (Buffer σ) Event (Answer σ α)} (hrun : operation.perform.run b = .ok step)
    (later : List (Entry σ α)) :
    committedNext (⟨b, operation, step.value, step.state⟩ :: later) = committedNext later := by
  cases operation with
  | reserve | commit | reserveWith => cases hroom
  | _ =>
      obtain ⟨first, -, rfl⟩ := value_of_answer hrun
      rfl

variable [LawfulStore σ]

/-- A `commit` takes the same of both where the tails agree as far as it goes, or is refused by both. -/
theorem Discreet.commit (h : Discreet kept b c) (hb : b.Ordered) {count : Nat}
    {first second : Step (Buffer σ) Event (Except Refusal Nat)} (hfirst : (commit count).run b = .ok first)
    (hsecond : (Buffer.commit count).run c = .ok second) (hkept : ∀ k, first.value = .ok k → k = kept) :
    second.value = first.value ∧
      (second.state = first.state ∨
        (first.state = b ∧ second.state = c ∧ ∃ refusal, first.value = .error refusal)) := by
  rcases h.reserved with rfl | ⟨r, hres, hepoch⟩
  · rw [hfirst] at hsecond
    cases hsecond
    exact ⟨rfl, .inl rfl⟩
  have hres' : c.reservation = some r := h.apart.reservation.trans hres
  have hepoch' : r.epoch = c.epoch := hepoch.trans h.apart.epoch.symm
  by_cases hcount : count ≤ r.length
  · have hmove := room_of_commit hres hepoch hcount hfirst
    have hmove' : c.head + count ≤ if c.canWrite then c.capacity else c.valid := by
      rw [h.apart.head, h.apart.canWrite, h.apart.capacity, h.apart.valid]
      exact hmove
    rw [run_commit_moved hb hres hepoch hcount hmove] at hfirst
    rw [run_commit_moved (h.apart.ordered hb) hres' hepoch' hcount hmove'] at hsecond
    cases hfirst
    cases hsecond
    cases hkept count rfl
    exact ⟨rfl, .inl (h.apart.committed h.kept)⟩
  · rw [run_commit_overrun hres hepoch (Nat.not_le.mp hcount)] at hfirst
    rw [run_commit_overrun hres' hepoch' (Nat.not_le.mp hcount)] at hsecond
    cases hfirst
    cases hsecond
    exact ⟨rfl, .inr ⟨rfl, rfl, _, rfl⟩⟩

/-- Where two fillings agree in every place of the `valid` elements and in as many as are `kept`, the buffers stay
    `Discreet`. -/
theorem Discreet.filled (hb : b.Ordered) (n : Nat) {filling filling' : σ}
    (hagree : ∀ j, b.head + j < b.valid ∨ j < kept →
      (Store.toList (Store.overlayFront (b.room n) filling'))[j]? =
        (Store.toList (Store.overlayFront (b.room n) filling))[j]?) :
    Discreet kept (b.filled n filling) (b.filled n filling') := by
  have htake : ∀ m, (∀ j < m, b.head + j < b.valid ∨ j < kept) →
      (Store.toList (Store.overlayFront (b.room n) filling')).take m =
        (Store.toList (Store.overlayFront (b.room n) filling)).take m := by
    intro m hm
    apply List.ext_getElem?
    intro j
    rw [List.getElem?_take, List.getElem?_take]
    split
    · next hj => exact hagree j (hm j hj)
    · rfl
  refine ⟨filled_apart hb (htake _ fun j hj => .inl (by omega)), take_toList_filled hb ?_, .inr ⟨_, rfl, rfl⟩⟩
  rw [head_filled, Nat.add_sub_cancel_left]
  exact htake kept fun j hj => .inr hj

/-- Where no room is granted, nothing comes of what it would have been filled with: the buffers are `denied` alike. -/
theorem Discreet.denied (h : Discreet kept b c) (n : Nat) : Discreet kept (b.denied n) (c.denied n) := by
  unfold Buffer.denied
  rw [h.apart.canWrite, h.apart.head]
  split
  · exact .of_eq h.apart.trimmed
  · exact h

/-- Room is granted by `reserveAndFill` to both or to neither, with the same in it. -/
theorem Discreet.reserveAndFill (h : Discreet kept b c) (hb : b.Ordered) {n kept' : Nat} {filling filling' : σ}
    {first second : Step (Buffer σ) Event (Option σ)} (hfirst : (reserveAndFill n filling).run b = .ok first)
    (hsecond : (Buffer.reserveAndFill n filling').run c = .ok second) (hdenied : first.value = none → kept = kept')
    (hagree : ∀ region, first.value = some region → ∀ j, b.head + j < b.valid ∨ j < kept' →
      (Store.toList (Store.overlayFront region filling'))[j]? =
        (Store.toList (Store.overlayFront region filling))[j]?) :
    second.value = first.value ∧ Discreet kept' first.state second.state := by
  rw [run_reserveAndFill hb] at hfirst
  rw [run_reserveAndFill (h.apart.ordered hb), h.apart.grants, h.apart.room, h.apart.filled] at hsecond
  cases hg : b.grants n with
  | true =>
      rw [hg, if_pos rfl] at hfirst hsecond
      cases hfirst
      cases hsecond
      exact ⟨rfl, .filled hb n (hagree _ rfl)⟩
  | false =>
      rw [hg, if_neg Bool.false_ne_true] at hfirst hsecond
      cases hfirst
      cases hsecond
      cases hdenied rfl
      exact ⟨rfl, h.denied n⟩

/-- Room that `reserveWith` settles in one go leaves nothing different behind: the buffers are the same, or `Discreet`
    where none was granted. -/
theorem Discreet.reserveWith (h : Discreet kept b c) (hb : b.Ordered) {n written : Nat} {filling filling' : σ}
    {first second : Step (Buffer σ) Event (Filled σ)}
    (hfirst : (reserveWith n fun _ => (filling, written)).run b = .ok first)
    (hsecond : (Buffer.reserveWith n fun _ => (filling', written)).run c = .ok second)
    (hagree : ∀ region, first.value.granted = some region → ∀ j, b.head + j < b.valid ∨ j < first.value.taken →
      (Store.toList (Store.overlayFront region filling'))[j]? =
        (Store.toList (Store.overlayFront region filling))[j]?) :
    second.value = first.value ∧
      (second.state = first.state ∨
        (first.value.granted = none ∧ Discreet kept first.state second.state)) := by
  rw [run_reserveWith hb] at hfirst
  rw [run_reserveWith (h.apart.ordered hb), h.apart.grants, h.apart.room, h.apart.filled] at hsecond
  cases hg : b.grants n with
  | true =>
      rw [hg, if_pos rfl] at hfirst hsecond
      simp only at hfirst hsecond
      by_cases hwritten : written ≤ n
      · rw [if_pos hwritten] at hfirst hsecond
        cases hfirst
        cases hsecond
        have hfilled := Discreet.filled hb n (hagree _ rfl)
        exact ⟨rfl, .inl (hfilled.apart.committed hfilled.kept)⟩
      · rw [if_neg hwritten] at hfirst hsecond
        cases hfirst
        cases hsecond
        have hfilled := Discreet.filled hb n (hagree _ rfl)
        exact ⟨rfl, .inl hfilled.apart.abandoned⟩
  | false =>
      rw [hg, if_neg Bool.false_ne_true] at hfirst hsecond
      cases hfirst
      cases hsecond
      exact ⟨rfl, .inr ⟨rfl, h.denied n⟩⟩

/-- **What one operation keeps.** Where `Entry.Varies` holds of two entries, they answer the same and leave buffers
    `Discreet` with regard to the rest of `committedNext`. -/
theorem Discreet.perform {later : List (Entry σ α)} {operation : Operation σ α} {e' : Entry σ α}
    {step step' : Step (Buffer σ) Event (Answer σ α)} (hb : b.Ordered) (hr : b.canRead = false)
    (hfits : operation.Fits) (hdiscreet : operation.discreet = true) (hrun : operation.perform.run b = .ok step)
    (hrun' : e'.operation.perform.run c = .ok step')
    (hvary : Entry.Varies later ⟨b, operation, step.value, step.state⟩ e')
    (h : Discreet (committedNext (⟨b, operation, step.value, step.state⟩ :: later)) b c) :
    step'.value = step.value ∧ Discreet (committedNext later) step.state step'.state := by
  obtain ⟨filling', hoperation, hagree⟩ := hvary
  by_cases hroom : operation.concernsRoom = false
  · rw [committedNext_cons hroom hrun] at h
    rw [hoperation, Operation.refilled_of_not_concernsRoom hroom] at hrun'
    exact (h.apart.together hb hr hfits hdiscreet hroom).discreet h hrun hrun'
  rw [hoperation] at hrun'
  cases operation with
  | commit count =>
      obtain ⟨⟨result, after, events⟩, hfirst, rfl⟩ := value_of_answer hrun
      obtain ⟨second, hsecond, rfl⟩ := value_of_answer hrun'
      cases result with
      | ok k =>
          obtain ⟨hvalue, hsame | ⟨-, -, refusal, hrefused⟩⟩ := h.commit hb hfirst hsecond (by rintro _ ⟨⟩; rfl)
          · exact ⟨congrArg Answer.settled hvalue, .of_eq hsame⟩
          · cases hrefused
      | error refusal =>
          -- a commit that is refused leaves what is committed next to the others
          obtain ⟨hvalue, hsame | ⟨rfl, hstay, -⟩⟩ := h.commit hb hfirst hsecond nofun
          · exact ⟨congrArg Answer.settled hvalue, .of_eq hsame⟩
          · exact ⟨congrArg Answer.settled hvalue, hstay ▸ h⟩
  | reserve n filling =>
      obtain ⟨⟨granted, after, events⟩, hfirst, rfl⟩ := value_of_answer hrun
      obtain ⟨second, hsecond, rfl⟩ := value_of_answer hrun'
      obtain ⟨hvalue, hdiscreet⟩ := h.reserveAndFill hb hfirst hsecond (by rintro rfl; rfl)
        fun region hregion => hagree region filling hregion rfl
      exact ⟨congrArg Answer.region hvalue, hdiscreet⟩
  | reserveWith n filling written =>
      obtain ⟨⟨⟨granted, committed⟩, after, events⟩, hfirst, rfl⟩ := value_of_answer hrun
      obtain ⟨second, hsecond, rfl⟩ := value_of_answer hrun'
      obtain ⟨hvalue, hsame | ⟨hnone, hdiscreet⟩⟩ := h.reserveWith hb hfirst hsecond
        fun region hregion => hagree region filling hregion rfl
      · exact ⟨congrArg Answer.filled hvalue, .of_eq hsame⟩
      · cases hnone
        exact ⟨congrArg Answer.filled hvalue, hdiscreet⟩
  | _ => exact absurd rfl hroom

end Buffer

/-! ## Runs -/

variable [LawfulStore σ] {b c d first last last' : Buffer σ} {earlier entries entries' : List (Entry σ α)}

/-- What cannot be read stays so: no operation sets `canRead`. -/
theorem Buffer.not_canRead_of_perform (h : b.Ordered) (hr : b.canRead = false) {operation : Operation σ α}
    (hfits : operation.Fits) {step : Step (Buffer σ) Event (Answer σ α)} (hrun : operation.perform.run b = .ok step) :
    step.state.canRead = false :=
  Bool.eq_false_iff.mpr fun hopen => Bool.false_ne_true (hr.symm.trans (canRead_of_perform h hfits hrun hopen))

theorem Run.not_canRead (h : Run b entries d) (hb : b.Neat) (hr : b.canRead = false) : d.canRead = false := by
  induction h with
  | done b => exact hr
  | next hfits hrun _ ih => exact ih (hb.perform hfits hrun) (Buffer.not_canRead_of_perform hb.ordered hr hfits hrun)

/-- What two runs keep that `Vary`: entry by entry `Entry.Agrees` holds, and what they come to is `TailApart`. -/
theorem Run.discreet {d' : Buffer σ} (hrun : Run b entries d) (hrun' : Run c entries' d') (hb : b.Neat)
    (hr : b.canRead = false) (hdiscreet : ∀ e ∈ entries, e.operation.discreet = true) (hvary : Vary entries entries')
    (h : Buffer.Discreet (committedNext entries) b c) :
    List.Forall₂ Entry.Agrees entries entries' ∧ Buffer.TailApart d d' := by
  -- the buffers of the second run are generalized over, and so is what is committed next
  induction hrun generalizing c entries' with
  | done b =>
      cases hvary
      cases hrun'
      exact ⟨.nil, h.apart⟩
  | next hfits hperform _ ih =>
      cases hvary with
      | cons hvaries hrest =>
          cases hrun' with
          | next _ hperform' hrun' =>
              have hfirst := hdiscreet _ List.mem_cons_self
              obtain ⟨hanswer, hnext⟩ := h.perform hb.ordered hr hfits hfirst hperform hperform' hvaries
              have hclosed := Buffer.not_canRead_of_perform hb.ordered hr hfits hperform
              have hothers := fun x hx => hdiscreet x (List.mem_cons_of_mem _ hx)
              obtain ⟨hagree, hlast⟩ := ih hrun' (hb.perform hfits hperform) hclosed hothers hrest hnext
              exact ⟨.cons (hnext.agrees rfl rfl hanswer) hagree, hlast⟩

/-! ## Harvests -/

/-- The `slot` has the only handle of the buffer `b`. -/
def Session.SoleHandle (s : Session σ) (slot : String) (b : Buffer σ) : Prop :=
  ∃ id, s.slots.find? slot = some id ∧ s.buffers.find? id = some b ∧ s.handles id = 1

/-- The commands that take the elements of the buffer of a slot: `surrender`, `harvest` and `harvestText`. -/
def Command.Harvests (slot : String) : Command σ α → Prop
  | .surrender other | .harvest other | .harvestText other _ => other = slot
  | _ => False

omit [LawfulStore σ] in
theorem run_collect_sole {s : Session σ} (slot : String) {id : BufferId} (hfind : s.buffers.find? id = some b)
    (hsole : s.handles id = 1) {elements : σ} (helements : (b.closed .both).trimmed.data = elements) :
    ∃ step, (Session.collect slot id).run s = .ok step ∧ step.value = some elements := by
  obtain ⟨step, hcollect, hvalue⟩ := run_collect slot hfind
  rw [if_pos hsole, helements] at hvalue
  exact ⟨step, hcollect, hvalue⟩

omit [LawfulStore σ] in
/-- What a command that `Harvests` gets from the only handle of a buffer depends on nothing but what the buffer hands
    out. -/
theorem run_harvest_sole {slot : String} {command : Command σ α} (hcommand : command.Harvests slot) (elements : σ) :
    ∃ reply, ∀ (s : Session σ) (b : Buffer σ), s.SoleHandle slot b → (b.closed .both).trimmed.data = elements →
      ∃ step, command.perform.run s = .ok step ∧ step.value = reply := by
  cases command with
  | surrender other =>
      cases hcommand
      refine ⟨.surrendered (some elements), ?_⟩
      rintro s b ⟨id, hslot, hfind, hsole⟩ helements
      obtain ⟨step, hcollect, hvalue⟩ := run_collect_sole slot hfind hsole helements
      refine ⟨⟨.surrendered (some elements), step.state, step.events⟩, ?_, rfl⟩
      show (Session.onSlot slot _).run s = _
      rw [run_onSlot, hslot]
      show StateAction.run (look >>= _) s = _
      rw [run_look_bind, run_ite, if_pos hsole, run_bind_of_ok hcollect, hvalue]
      simp [Except.map]
  | harvest other =>
      cases hcommand
      refine ⟨.answer (.elements elements), ?_⟩
      rintro s b ⟨id, hslot, hfind, hsole⟩ helements
      obtain ⟨step, hcollect, hvalue⟩ := run_collect_sole slot hfind hsole helements
      refine ⟨⟨.answer (.elements elements), step.state, step.events⟩, ?_, rfl⟩
      show (Session.onSlot slot _).run s = _
      rw [run_onSlot, hslot]
      show StateAction.run (Session.collect slot id >>= _) s = _
      rw [run_bind_of_ok hcollect, hvalue]
      simp [Except.map]
  | harvestText other codec =>
      cases hcommand
      refine ⟨.text (Command.readHarvest codec elements), ?_⟩
      rintro s b ⟨id, hslot, hfind, hsole⟩ helements
      obtain ⟨step, hcollect, hvalue⟩ := run_collect_sole slot hfind hsole helements
      exact ⟨_, (run_harvest (α := α) hslot hcollect hvalue codec).2, rfl⟩
  | _ => cases hcommand

/-- **Nobody gets to see what was filled and never committed.** Take two runs that `Vary`, of the same operations from a
    buffer that was opened for writing, whatever was done to it before. They may differ in what granted rooms are filled
    with, at places that were behind the valid elements at the grant and are not committed later. Then, operation by
    operation,
    - both answer the same, what is in a granted room included;
    - they leave the same head, valid elements, capacity, epoch and open sides, and so the same in everything but the
      tail (`Entry.Agrees`);
    - wherever no reservation of the present epoch is there, they leave the same altogether;

    and a command that `Harvests` what they leave in the end, by the only handle, yields the same. -/
theorem fillings_stay_unseen {start : Buffer σ} (hnew : start.New) (hmode : start.mode = .writing)
    (hreach : Run start earlier first) (hrun : Run first entries last) (hrun' : Run first entries' last')
    (hdiscreet : ∀ e ∈ entries, e.operation.discreet = true) (hvary : Vary entries entries') :
    List.Forall₂ Entry.Agrees entries entries' ∧
      ∀ (slot : String) (command : Command σ α), command.Harvests slot → ∃ reply,
        (∀ s : Session σ, s.SoleHandle slot last → ∃ step, command.perform.run s = .ok step ∧ step.value = reply) ∧
          ∀ s : Session σ, s.SoleHandle slot last' →
            ∃ step, command.perform.run s = .ok step ∧ step.value = reply := by
  have hclosed : start.canRead = false := by
    apply Bool.eq_false_iff.mpr
    intro hopen
    have hreads : start.mode.reads = true := hnew.guarded.coherent.reads_of_readOpen hopen
    rw [hmode] at hreads
    cases hreads
  have hneat := hreach.neat hnew.neat
  have hr := hreach.not_canRead hnew.neat hclosed
  obtain ⟨hagree, hlast⟩ := hrun.discreet hrun' hneat hr hdiscreet hvary (.refl _ first)
  refine ⟨hagree, fun slot command hcommand => ?_⟩
  obtain ⟨reply, hreply⟩ := run_harvest_sole hcommand (last.closed .both).trimmed.data
  exact ⟨reply, fun s hs => hreply s last hs rfl,
    fun s hs => hreply s last' hs (congrArg Buffer.data hlast.handedOut)⟩

/-- A writer of two bytes does `reserve` three, fills them with 7, 8, 9 or with 7, 5, 5, and commits the first. In
    between the stores differ, and what is left in the end is the same. -/
theorem fillings_stay_unseen_committed :
    ∃ (entries entries' : List (Entry SmallBytes UInt8)) (first last last' : Buffer SmallBytes),
      first.New ∧ first.mode = .writing ∧ Run first [] first ∧ Run first entries last ∧ Run first entries' last' ∧
        (∀ e ∈ entries, e.operation.discreet = true) ∧ Vary entries entries' ∧
        entries.map (·.after.data) ≠ entries'.map (·.after.data) ∧ List.Forall₂ Entry.Agrees entries entries' := by
  let first : Buffer SmallBytes := Buffer.start ⟨#[1, 2]⟩ .writer "w"
  let held (data : SmallBytes) : Buffer SmallBytes :=
    { first with data := data, changes := 1, reservation := some ⟨1, 3⟩ }
  let last : Buffer SmallBytes := { first with data := ⟨#[1, 2, 7]⟩, cursor := ⟨3, 3⟩, changes := 3 }
  let reserve (filling data : SmallBytes) : Entry SmallBytes UInt8 :=
    ⟨first, .reserve 3 filling, .region (some ⟨#[0, 0, 0]⟩), held data⟩
  let commit (data : SmallBytes) : Entry SmallBytes UInt8 := ⟨held data, .commit 1, .settled (.ok 1), last⟩
  let entries := [reserve ⟨#[7, 8, 9]⟩ ⟨#[1, 2, 7, 8, 9]⟩, commit ⟨#[1, 2, 7, 8, 9]⟩]
  let entries' := [reserve ⟨#[7, 5, 5]⟩ ⟨#[1, 2, 7, 5, 5]⟩, commit ⟨#[1, 2, 7, 5, 5]⟩]
  have hnew : first.New := ⟨⟨#[1, 2]⟩, .writing, .writer, "w", rfl, by decide, rfl⟩
  have hreserve : (Operation.reserve 3 ⟨#[7, 8, 9]⟩ : Operation SmallBytes UInt8).perform.run first =
      .ok ⟨.region (some ⟨#[0, 0, 0]⟩), held ⟨#[1, 2, 7, 8, 9]⟩, [⟨"w", .storeResizing 2 5⟩]⟩ := by
    cbv
  have hreserve' : (Operation.reserve 3 ⟨#[7, 5, 5]⟩ : Operation SmallBytes UInt8).perform.run first =
      .ok ⟨.region (some ⟨#[0, 0, 0]⟩), held ⟨#[1, 2, 7, 5, 5]⟩, [⟨"w", .storeResizing 2 5⟩]⟩ := by
    cbv
  have hcommit : (Operation.commit 1 : Operation SmallBytes UInt8).perform.run (held ⟨#[1, 2, 7, 8, 9]⟩) =
      .ok ⟨.settled (.ok 1), last, [⟨"w", .tailDropped 5 3⟩]⟩ := by
    cbv
  have hcommit' : (Operation.commit 1 : Operation SmallBytes UInt8).perform.run (held ⟨#[1, 2, 7, 5, 5]⟩) =
      .ok ⟨.settled (.ok 1), last, [⟨"w", .tailDropped 5 3⟩]⟩ := by
    cbv
  have hroom (filling : SmallBytes) : (Operation.reserve 3 filling : Operation SmallBytes UInt8).Fits := trivial
  have hcount : (Operation.commit 1 : Operation SmallBytes UInt8).Fits := trivial
  have hrun : Run first entries last := .next (hroom _) hreserve (.next hcount hcommit (.done last))
  have hrun' : Run first entries' last := .next (hroom _) hreserve' (.next hcount hcommit' (.done last))
  have hdiscreet : ∀ e ∈ entries, e.operation.discreet = true := by
    intro e he
    rcases List.mem_cons.mp he with rfl | he
    · rfl
    · cases List.mem_singleton.mp he
      rfl
  have hvary : Vary entries entries' := by
    have hlast : Entry.Varies [] (commit ⟨#[1, 2, 7, 8, 9]⟩) (commit ⟨#[1, 2, 7, 5, 5]⟩) := by
      refine ⟨⟨#[]⟩, rfl, ?_⟩
      rintro _ _ ⟨⟩
    refine .cons ⟨⟨#[7, 5, 5]⟩, rfl, ?_⟩ (.cons hlast .nil)
    rintro _ _ ⟨⟩ ⟨⟩ j hj
    -- nothing of the room is valid at the grant, and one element of it is committed
    have hfirst : j = 0 := by
      have htaken : (reserve ⟨#[7, 8, 9]⟩ ⟨#[1, 2, 7, 8, 9]⟩).taken [commit ⟨#[1, 2, 7, 8, 9]⟩] = 1 := rfl
      have hnone : ¬ 2 + j < 2 := by omega
      have hone := hj.resolve_left hnone
      omega
    subst hfirst
    decide
  have hdiffer : entries.map (·.after.data) ≠ entries'.map (·.after.data) := by decide
  obtain ⟨hagree, -⟩ := fillings_stay_unseen hnew rfl (.done first) hrun hrun' hdiscreet hvary
  exact ⟨entries, entries', first, last, last, hnew, rfl, .done first, hrun, hrun', hdiscreet, hvary, hdiffer, hagree⟩

end MemStream
