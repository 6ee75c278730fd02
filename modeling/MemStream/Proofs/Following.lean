import Mathlib.Data.List.Induction
import MemStream.Proofs.Scrolling

/-!
# `MemStream.Proofs.Following` — runs of a reader

A run of a reader is followed by a scroll of which the same is asked, from the start and one operation after the other.
Each operation is answered alike and leaves them alike, so that whatever can be said of the scroll is true of the reader.

## Contents
- **Tickets.** `GrantedAt` keeps the count of changes with each ticket that was granted; `PromptTickets` for runs that
  settle what they were granted, and in time.
- **Runs.** `Scroll.after`, `Shows.release_as_read`, `Run.shows`, `Run.shows_at`; together, `reader_follows_scroll`.
-/

namespace MemStream

open StateAction

variable {σ α : Type}

/-! ## Tickets -/

/-- The ticket `t` was granted on the way, at the count of changes `n`. -/
def GrantedAt (entries : List (Entry σ α)) (n : Nat) (t : Ticket) : Prop :=
  ∃ e ∈ entries, e.before.changes = n ∧ e.answer.ticket? = some t

/-- The ticket was granted on the way (`GrantedAt`), and not so many changes ago that its epoch could have come
    again. -/
def Prompt (entries : List (Entry σ α)) (b : Buffer σ) (t : Ticket) : Prop :=
  ∃ n, GrantedAt entries n t ∧ b.changes < n + epochLimit

/-- No ticket is presented that is not `Prompt`: none that was not granted before, or that was kept until the epochs
    started over. -/
def PromptTickets (entries : List (Entry σ α)) : Prop :=
  ∀ earlier e later, entries = earlier ++ e :: later →
    ∀ t, e.operation.presented? = some t → Prompt earlier e.before t

variable {entries earlier later : List (Entry σ α)}

theorem mem_granted {t : Ticket} : t ∈ granted entries ↔ ∃ e ∈ entries, e.answer.ticket? = some t :=
  List.mem_filterMap

/-- What is `GrantedAt` some count after one more entry is what `Issued` says of its answer. -/
theorem grantedAt_append (e : Entry σ α) (n : Nat) (t : Ticket) :
    GrantedAt (entries ++ [e]) n t ↔ Issued (GrantedAt entries) e.before.changes e.answer n t := by
  unfold GrantedAt Issued
  constructor
  · rintro ⟨x, hx, ht⟩
    rcases List.mem_append.mp hx with hold | hnew
    · exact .inl ⟨x, hold, ht⟩
    · cases List.mem_singleton.mp hnew
      exact .inr ht
  · rintro (⟨x, hx, ht⟩ | ht)
    · exact ⟨x, List.mem_append_left [e] hx, ht⟩
    · exact ⟨e, List.mem_append_right entries List.mem_cons_self, ht⟩

theorem PromptTickets.left (h : PromptTickets (earlier ++ later)) : PromptTickets earlier := by
  intro before e after hsplit t ht
  apply h before e (after ++ later) _ t ht
  rw [hsplit, List.append_assoc, List.cons_append]

theorem PromptTickets.nil : PromptTickets ([] : List (Entry σ α)) := by
  intro earlier e later hsplit
  cases earlier <;> cases hsplit

/-- One more operation keeps `PromptTickets`, if its ticket is `Prompt`. -/
theorem PromptTickets.concat (h : PromptTickets entries) {e : Entry σ α}
    (he : ∀ t, e.operation.presented? = some t → Prompt entries e.before t) : PromptTickets (entries ++ [e]) :=
  forall_split_concat h he

theorem PromptTickets.concat_of_none (h : PromptTickets entries) {e : Entry σ α} (he : e.operation.presented? = none) :
    PromptTickets (entries ++ [e]) := by
  apply h.concat
  intro t ht
  rw [he] at ht
  cases ht

/-! ## Runs -/

variable [Store σ α] {b first last : Buffer σ}

/-- The `Scroll` of which a run makes the same requests as of its reader. -/
def Scroll.after (data : σ) (entries : List (Entry σ α)) : Scroll σ :=
  entries.foldl (fun s e => (s.perform e.before.epoch e.operation).2) (.start data)

/-- One more entry is one more `Scroll.perform`. -/
theorem Scroll.after_append (data : σ) (entries : List (Entry σ α)) (e : Entry σ α) :
    Scroll.after data (entries ++ [e]) = ((Scroll.after data entries).perform e.before.epoch e.operation).2 := by
  unfold Scroll.after
  rw [List.foldl_append]
  rfl

/-- A new reader `Shows` a scroll at its start. -/
theorem shows_start {data : σ} (hsize : Store.size data < positionLimit) (label : String) :
    Shows (GrantedAt ([] : List (Entry σ α))) (Buffer.start data .reader label) (Scroll.start data) where
  data := rfl
  cursor := rfl
  access := rfl
  reservation := rfl
  position_le := Nat.zero_le _
  size_lt := hsize
  lent t := by
    refine ⟨nofun, ?_⟩
    rintro ⟨e, he, -⟩
    cases he
  lease := nofun
  stamped n t := by
    rintro ⟨e, he, -⟩
    cases he

variable [LawfulStore σ] {data : σ} {label : String}

/-- A settlement puts the scroll where the head is after an advancing `read` of as many elements, and there are that
    many. -/
theorem Shows.release_as_read {issued : Nat → Ticket → Prop} {s : Scroll σ} (h : Shows issued b s) {t : Ticket}
    {count reached : Nat} (hsettled : (s.release b.epoch t count).1 = .ok reached) :
    Store.size (b.upcoming count) = count ∧
      (s.release b.epoch t count).2.position = (b.consumed count).head := by
  obtain ⟨hmem, hcount, hmoved⟩ := Scroll.release_eq_ok hsettled
  obtain ⟨hopen, hticket⟩ := h.lease t hmem
  -- everything from the head on was lent, so there is as much to read as was settled
  have hgiven : Store.size (b.upcoming count) = count := by
    rw [Buffer.size_upcoming h.ordered, h.canRead, if_pos hopen]
    rw [hticket] at hcount
    exact Nat.min_eq_left hcount
  refine ⟨hgiven, ?_⟩
  rw [hmoved, Buffer.head_consumed, hgiven, h.head]

/-- One more operation on a reader that `Shows` a scroll leaves it showing the scroll after that operation. -/
theorem Shows.entry (h : Shows (GrantedAt earlier) b (Scroll.after data earlier)) {operation : Operation σ α}
    (hfits : operation.Fits) {step : Step (Buffer σ) Event (Answer σ α)}
    (hrun : operation.perform.run b = .ok step)
    (hprompt : ∀ t, operation.presented? = some t → Prompt earlier b t) :
    step.value = ((Scroll.after data earlier).perform b.epoch operation).1 ∧
      Shows (GrantedAt (earlier ++ [⟨b, operation, step.value, step.state⟩])) step.state
        (Scroll.after data (earlier ++ [⟨b, operation, step.value, step.state⟩])) := by
  obtain ⟨other, hother, hvalue, hshown⟩ := h.perform hfits hprompt
  rw [hrun] at hother
  cases hother
  refine ⟨hvalue, ?_⟩
  rw [Scroll.after_append]
  apply hshown.congr
  intro n t
  rw [grantedAt_append, hvalue]

/-- Whatever is done to a reader, it `Shows` the scroll of which the same was asked (`Scroll.after`). -/
theorem Run.shows (h : Run (Buffer.start data .reader label) entries last) (hsize : Store.size data < positionLimit)
    (hprompt : PromptTickets entries) : Shows (GrantedAt entries) last (Scroll.after data entries) := by
  induction entries using List.reverseRecOn generalizing last with
  | nil =>
      cases h
      exact shows_start hsize label
  | append_singleton earlier e ih =>
      obtain ⟨middle, hearlier, hrest⟩ := Run.append_iff.mp h
      have hmiddle := ih hearlier hprompt.left
      cases hrest with
      | next hfits hperform hdone =>
          cases hdone
          exact (hmiddle.entry hfits hperform (hprompt earlier _ [] rfl)).2

/-- Any operation of a run is answered as `Scroll.perform` says of the scroll before it, and leaves the reader showing
    the scroll after it. -/
theorem Run.shows_at {e : Entry σ α} (h : Run (Buffer.start data .reader label) (earlier ++ e :: later) last)
    (hsize : Store.size data < positionLimit) (hprompt : PromptTickets (earlier ++ e :: later)) :
    Shows (GrantedAt earlier) e.before (Scroll.after data earlier) ∧
      e.answer = ((Scroll.after data earlier).perform e.before.epoch e.operation).1 ∧
      Shows (GrantedAt (earlier ++ [e])) e.after (Scroll.after data (earlier ++ [e])) := by
  obtain ⟨middle, hearlier, hrest⟩ := Run.append_iff.mp h
  have hmiddle := hearlier.shows hsize hprompt.left
  cases hrest with
  | next hfits hperform hlater => exact ⟨hmiddle, hmiddle.entry hfits hperform (hprompt earlier _ later rfl)⟩

/-- Where the epochs do not start over at all, `OwnTickets` are `PromptTickets`. -/
theorem OwnTickets.prompt (h : OwnTickets entries) (hrun : Run first entries last) (hnew : first.New)
    (hlimit : EpochsFit entries) : PromptTickets entries := by
  rintro earlier e later rfl t ht
  obtain ⟨middle, hearlier, hrest⟩ := Run.append_iff.mp hrun
  obtain ⟨-, -, hmiddle⟩ := hearlier.guarded hnew.guarded hnew.changes_lt hlimit.left
  obtain ⟨g, hg, hticket⟩ := mem_granted.mp (h earlier e later rfl t ht)
  have hbefore : e.before = middle := by
    cases hrest
    rfl
  rw [← hbefore] at hmiddle
  exact ⟨g.before.changes, ⟨g, hg, rfl, hticket⟩, Nat.lt_of_lt_of_le hmiddle (Nat.le_add_left _ _)⟩

/-- **A reader does what a scroll does.** Over any store and any data, in every `Run` of a reader with `PromptTickets`,
    in which no ticket is presented but those it granted, and none is kept until the epochs start over:
    - every answer is that of a `Scroll` over the data of which the same was asked, and after it the head is where the
      scroll is and the reading side is open as long as the scroll is;
    - no operation faults;
    - a `release` for `count` elements moves the head where an advancing `read` of `count` elements would;
    - a `stepBack` right after an element was read gives the same element again, and puts the head where it was. -/
theorem reader_follows_scroll (hsize : Store.size data < positionLimit)
    (hrun : Run (Buffer.start data .reader label) entries last) (hprompt : PromptTickets entries) :
    (∀ earlier e later, entries = earlier ++ e :: later →
      let after := (Scroll.after data earlier).perform e.before.epoch e.operation
      e.answer = after.1 ∧ e.after.head = after.2.position ∧ e.after.canRead = after.2.isOpen) ∧
    (∀ operation : Operation σ α, operation.Fits →
      (∀ t, operation.presented? = some t → Prompt entries last t) →
      ∃ step, operation.perform.run last = .ok step) ∧
    (∀ e ∈ entries, ∀ t count reached, e.operation = .release t count → e.answer = .settled (.ok reached) →
      ∃ step, (Buffer.read count true).run e.before = .ok step ∧ Store.size step.value = count ∧
        e.after.head = step.state.head) ∧
    (∀ earlier first second later x, entries = earlier ++ first :: second :: later →
      first.operation = .readOne true → first.answer = .element (some x) → second.operation = .stepBack →
      second.answer = .element (some x) ∧ second.after.head = first.before.head) := by
  refine ⟨?_, ?_, ?_, ?_⟩
  · rintro earlier e later rfl
    obtain ⟨-, hanswer, hafter⟩ := hrun.shows_at hsize hprompt
    rw [Scroll.after_append] at hafter
    exact ⟨hanswer, hafter.head, hafter.canRead⟩
  · intro operation hfits hown
    obtain ⟨step, hperform, -⟩ := (hrun.shows hsize hprompt).perform hfits hown
    exact ⟨step, hperform⟩
  · intro e he t count reached hoperation hsettled
    obtain ⟨earlier, later, rfl⟩ := List.append_of_mem he
    obtain ⟨hbefore, hanswer, hafter⟩ := hrun.shows_at hsize hprompt
    rw [Scroll.after_append, hoperation] at hafter
    rw [hoperation, hsettled] at hanswer
    obtain ⟨hgiven, hmoved⟩ := hbefore.release_as_read (Answer.settled.inj hanswer).symm
    exact ⟨_, Buffer.run_read hbefore.ordered count true, hgiven, hafter.head.trans hmoved⟩
  · rintro earlier first second later x rfl hone hx hback
    have hsplit : earlier ++ first :: second :: later = (earlier ++ [first]) ++ second :: later := by simp
    obtain ⟨hbefore, hanswer, -⟩ := hrun.shows_at hsize hprompt
    rw [hsplit] at hrun hprompt
    obtain ⟨-, hanswer', hafter'⟩ := hrun.shows_at hsize hprompt
    rw [hone, hx] at hanswer
    rw [Scroll.after_append, hback] at hafter'
    rw [Scroll.after_append, hone] at hafter'
    rw [Scroll.after_append, hone, hback] at hanswer'
    obtain ⟨hsame, hposition⟩ := Scroll.stepBack_take (Answer.element.inj hanswer).symm
    refine ⟨hanswer'.trans (congrArg Answer.element hsame), ?_⟩
    rw [hafter'.head, hbefore.head]
    exact hposition

/-- A reader of three bytes lends everything and has two bytes of it settled, which is as far as a `read` of two would
    have gone. It reads the third and goes back over it by `stepBack`. -/
theorem reader_follows_scroll_back :
    ∃ (entries : List (Entry SmallBytes UInt8)) (first last : Buffer SmallBytes),
      Run first entries last ∧ PromptTickets entries ∧ last.head = 2 ∧
        ∃ step, (Buffer.read 2 true).run first = .ok step ∧ step.state.head = 2 := by
  let first : Buffer SmallBytes := Buffer.start ⟨#[1, 2, 3]⟩ .reader "r"
  let settled : Buffer SmallBytes := { first with cursor := ⟨2, 3⟩, changes := 1 }
  let passed : Buffer SmallBytes := { first with cursor := ⟨3, 3⟩, changes := 2 }
  let last : Buffer SmallBytes := { first with cursor := ⟨2, 3⟩, changes := 3 }
  let granting : Entry SmallBytes UInt8 :=
    ⟨first, .acquire, .lease (.granted ⟨⟨#[1, 2, 3]⟩, ⟨0, 0, 3⟩⟩), first⟩
  let settling : Entry SmallBytes UInt8 := ⟨first, .release ⟨0, 0, 3⟩ 2, .settled (.ok 2), settled⟩
  let reading : Entry SmallBytes UInt8 := ⟨settled, .readOne true, .element (some 3), passed⟩
  let returning : Entry SmallBytes UInt8 := ⟨passed, .stepBack, .element (some 3), last⟩
  have hgrant : granting.operation.perform.run first = .ok ⟨granting.answer, first, []⟩ := by
    cbv
  have hsettle : settling.operation.perform.run first = .ok ⟨settling.answer, settled, []⟩ := by
    cbv
  have hread : reading.operation.perform.run settled = .ok ⟨reading.answer, passed, []⟩ := by
    cbv
  have hreturn : returning.operation.perform.run passed = .ok ⟨returning.answer, last, []⟩ := by
    have hback := Buffer.run_stepBack (b := passed) ⟨by decide, by decide, by decide⟩
    rw [if_neg (by decide), show passed.canRead = true from rfl, if_pos rfl] at hback
    exact Buffer.run_answer hback Answer.element
  have hfits : granting.operation.Fits ∧ reading.operation.Fits ∧ returning.operation.Fits :=
    ⟨trivial, trivial, trivial⟩
  have hfit : settling.operation.Fits := by
    show 0 + 3 < positionLimit
    decide
  have hrun : Run first [granting, settling, reading, returning] last :=
    .next hfits.1 hgrant (.next hfit hsettle (.next hfits.2.1 hread (.next hfits.2.2 hreturn (.done last))))
  have hgranted : Prompt [granting] first ⟨0, 0, 3⟩ :=
    ⟨0, ⟨granting, List.mem_cons_self, rfl, rfl⟩, by decide⟩
  have hsettling : ∀ t, settling.operation.presented? = some t → Prompt [granting] settling.before t := by
    rintro t ⟨⟩
    exact hgranted
  have hprompt : PromptTickets [granting, settling, reading, returning] :=
    (((PromptTickets.nil.concat_of_none rfl).concat hsettling).concat_of_none rfl).concat_of_none rfl
  obtain ⟨-, -, hsettled, hback⟩ := reader_follows_scroll (by decide) hrun hprompt
  obtain ⟨step, hstep, -, hhead⟩ :=
    hsettled settling (List.mem_cons_of_mem _ List.mem_cons_self) _ _ _ rfl rfl
  obtain ⟨-, hlast⟩ := hback [granting, settling] reading returning [] _ rfl rfl rfl rfl
  exact ⟨_, first, last, hrun, hprompt, hlast, step, hstep, hhead.symm⟩

end MemStream
