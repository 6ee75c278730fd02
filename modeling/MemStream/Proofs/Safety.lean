import MemStream.Proofs.Keeping
import MemStream.Store.Cells

/-!
# `MemStream.Proofs.Safety` — what can go wrong in a session

Nothing, as long as every ticket goes back to the buffer that granted it. A ticket that is settled with another buffer
may be refused, may move the head of that buffer, or may be found out by the check that follows the move; no other fault
can come about, and no other command can fault.

## Contents
- **What commands hold.** `Opening.Fits` and `Command.Fits`; `Command.presents?` for the ticket that is to be settled
  and `Command.grants` for those that are granted.
- **Sessions that come about.** `Session.Reached`, with the ledger of what was granted; `Session.OwnRun` for commands
  that settle tickets where they came from.
- **Commands.** `Outcome` is what a command comes to, and `perform_outcome` shows that no other outcome is possible.
- **Runs.** `Session.Reached.guarded`, `Session.OwnRun.performAll`, and both together in `session_safe`.
-/

namespace MemStream

open StateAction

variable {σ α β : Type} [Store σ α]

/-! ## What commands hold -/

/-- The data of a new buffer has a size below `positionLimit`. -/
def Opening.Fits : Opening σ → Prop
  | .configured c => Store.size (c.data.getD Store.empty) < positionLimit
  | .relabelled c _ => Store.size (c.data.getD Store.empty) < positionLimit
  | .reader data => Store.size data < positionLimit
  | .writer => True

/-- All positions and sizes in a command are below `positionLimit`, by `Operation.Fits` and `Opening.Fits`. -/
def Command.Fits : Command σ α → Prop
  | .opening _ way => way.Fits
  | .operation _ request _ => request.Fits
  | .silently _ request => request.Fits
  | _ => True

/-- The `ticket` that a request to the buffer of a slot presents, and that buffer. -/
def Session.presentedAt (s : Session σ) (slot : String) (ticket : Option Ticket) : Option (BufferId × Ticket) :=
  (s.slots.find? slot).bind fun id => ticket.map (id, ·)

/-- The ticket that a command presents, and the buffer that it presents it to, by `presentedAt`. -/
def Command.presents? (s : Session σ) : Command σ α → Option (BufferId × Ticket)
  | .operation slot request _ => s.presentedAt slot request.presented?
  | .silently slot request => s.presentedAt slot request.presented?
  | .release slot ticket _ => s.presentedAt slot (s.tickets.find? ticket)
  | _ => none

/-- The ticket that the buffer `id` grants on `request`. -/
def Session.grantOf (s : Session σ) (id : BufferId) (request : Operation σ α) : Option Ticket :=
  (s.buffers.find? id).bind fun b =>
    match request.perform.run b with
    | .ok step => step.value.ticket?
    | .error _ => none

/-- What a `request` to the buffer of a slot adds to the `Ledger`. -/
def Session.grantsAt (s : Session σ) (slot : String) (request : Operation σ α) : Ledger :=
  match s.slots.find? slot with
  | some id => ((s.grantOf id request).map (id, ·)).toList
  | none => []

/-- What a command adds to the `Ledger`. -/
def Command.grants (s : Session σ) : Command σ α → Ledger
  | .operation slot request _ => s.grantsAt slot request
  | .silently slot request => s.grantsAt slot request
  | _ => []

/-! ## Sessions that come about -/

/-- In no buffer have the epochs started over: all `changes` are below `epochLimit`. -/
def Session.EpochsFit (s : Session σ) : Prop :=
  ∀ id b, s.buffers.find? id = some b → b.changes < epochLimit

/-- The sessions that commands lead to, with the `Ledger` of what was granted on the way. -/
inductive Session.Reached (α : Type) [Store σ α] : Session σ → Ledger → Prop where
  | start : Session.Reached α Session.empty []
  | next {s : Session σ} {ledger : Ledger} {command : Command σ α} {step : Step (Session σ) Report (Reply σ α)} :
      Session.Reached α s ledger → s.EpochsFit → command.Fits → command.perform.run s = .ok step →
      Session.Reached α step.state (ledger ++ command.grants s)

/-- The commands fit (`Command.Fits`), the epochs do not start over on the way, and every ticket is presented to the
    buffer that granted it. -/
def Session.OwnRun (s : Session σ) (ledger : Ledger) : List (Command σ α) → Prop
  | [] => True
  | command :: rest =>
      s.EpochsFit ∧ command.Fits ∧ (∀ presented, command.presents? s = some presented → presented ∈ ledger) ∧
        ∀ step, command.perform.run s = .ok step → step.state.OwnRun (ledger ++ command.grants s) rest

variable {ledger : Ledger} {s : Session σ}

/-- What holds of all `entries` of the table holds of all buffers. -/
theorem Session.EpochsFit.of_entries (h : ∀ entry ∈ s.buffers.entries, entry.2.changes < epochLimit) :
    s.EpochsFit := by
  intro id b hfind
  obtain ⟨entry, hentry, rfl⟩ := Option.map_eq_some_iff.mp hfind
  exact h entry (List.mem_of_find?_eq_some hentry)

/-- A command that is known to succeed leads an `OwnRun` on. -/
theorem Session.OwnRun.cons {command : Command σ α} {rest : List (Command σ α)}
    {step : Step (Session σ) Report (Reply σ α)} (hlimit : s.EpochsFit) (hfits : command.Fits)
    (hpresented : ∀ presented, command.presents? s = some presented → presented ∈ ledger)
    (hrun : command.perform.run s = .ok step) (hrest : step.state.OwnRun (ledger ++ command.grants s) rest) :
    s.OwnRun ledger (command :: rest) := by
  refine ⟨hlimit, hfits, hpresented, ?_⟩
  intro other hother
  rw [hrun] at hother
  cases hother
  exact hrest

/-! ## Commands -/

/-- What `Configuration.build?` makes is a new buffer. -/
theorem Configuration.new_of_build {c : Configuration σ} (hsize : Store.size (c.data.getD Store.empty) < positionLimit)
    {b : Buffer σ} (h : c.build?.value = .ok b) : b.New := by
  unfold Configuration.build? Buffer.open? at h
  cases hmode : Access.ofMode? c.mode with
  | error refusal =>
      simp only [hmode] at h
      cases h
  | ok access =>
      simp only [hmode] at h
      cases h
      exact ⟨_, _, access, _, hmode, hsize, rfl⟩

theorem Buffer.New.relabel {b : Buffer σ} (h : b.New) (label : String) : (b.relabel label).New := by
  obtain ⟨data, mode, access, _, hmode, hsize, rfl⟩ := h
  exact ⟨data, mode, access, label, hmode, hsize, rfl⟩

/-- A grant is entered into the `Ledger` under the buffer that made it, and the session stays `Guarded`. -/
theorem Session.Guarded.with_grant (h : s.Guarded ledger) {id : BufferId} {b c : Buffer σ} {ticket : Option Ticket}
    (hfind : s.buffers.find? id = some b) (hc : c.Guarded fun t => (id, t) ∈ ledger ∨ ticket = some t)
    (hticket : ∀ t, ticket = some t → t.offset + t.length < positionLimit) :
    ({ s with buffers := s.buffers.insert id c } : Session σ).Guarded (ledger ++ (ticket.map (id, ·)).toList) := by
  have hmem : ∀ other t, (other, t) ∈ ledger ++ (ticket.map (id, ·)).toList →
      (other, t) ∈ ledger ∨ (other = id ∧ ticket = some t) := by
    intro other t ht
    rcases List.mem_append.mp ht with hold | hnew
    · exact .inl hold
    · obtain ⟨found, hfound, heq⟩ := Option.map_eq_some_iff.mp (Option.mem_toList.mp hnew)
      cases heq
      exact .inr ⟨rfl, hfound⟩
  refine ⟨?_, ?_, ?_, ?_, ?_⟩
  · intro other found hfound
    rcases Table.find?_insert_eq_some hfound with ⟨rfl, rfl⟩ | ⟨hne, hold⟩
    · apply hc.of_subset
      intro t ht
      rcases hmem _ t ht with hold | ⟨-, hnew⟩
      · exact .inl hold
      · exact .inr hnew
    · apply (h.buffers other found hold).of_subset
      intro t ht
      rcases hmem other t ht with hin | ⟨heq, -⟩
      · exact hin
      · exact absurd heq hne
  · intro name t ht
    obtain ⟨granter, hgranter⟩ := h.tickets name t ht
    exact ⟨granter, List.mem_append_left _ hgranter⟩
  · intro other t ht
    rcases hmem other t ht with hold | ⟨-, hnew⟩
    · exact h.positions other t hold
    · exact hticket t hnew
  · intro other found hfound
    rcases Table.find?_insert_eq_some hfound with ⟨rfl, rfl⟩ | ⟨-, hold⟩
    · exact h.older other b hfind
    · exact h.older other found hold
  · intro other t ht
    rcases hmem other t ht with hold | ⟨rfl, -⟩
    · exact h.granters other t hold
    · exact h.older other b hfind

variable [LawfulStore σ]

/-- Where a buffer comes to be by `Opening.make`, it is a new one. -/
theorem Opening.new_of_make {way : Opening σ} (hfits : way.Fits) {b : Buffer σ} (h : way.make.value = .ok b) :
    b.New := by
  cases way with
  | configured c => exact c.new_of_build hfits h
  | relabelled c label =>
      cases hmade : c.build?.value with
      | error refusal =>
          have hnone : (Except.error refusal : Except Refusal (Buffer σ)).map (·.relabel label) = .ok b := hmade ▸ h
          cases hnone
      | ok made =>
          have hsome : (Except.ok made : Except Refusal (Buffer σ)).map (·.relabel label) = .ok b := hmade ▸ h
          cases hsome
          exact (c.new_of_build hfits hmade).relabel label
  | reader data =>
      cases h
      exact ⟨data, .reading, .reader, _, rfl, hfits, rfl⟩
  | writer =>
      cases h
      refine ⟨Store.empty, .writing, .writer, _, rfl, ?_, rfl⟩
      rw [Store.size_empty]
      decide

/-- A request to one of the buffers keeps the session `Guarded`, with what is granted in the `Ledger`, or it presents a
    foreign ticket and faults. -/
theorem within_perform (hs : s.Guarded ledger) (hlimit : s.EpochsFit) (id : BufferId) {request : Operation σ α}
    (hfits : request.Fits) :
    (∃ step, (Session.within id request.perform).run s = .ok step ∧
        step.state.Guarded (ledger ++ ((s.grantOf id request).map (id, ·)).toList) ∧
        ∀ answer, step.value = some answer → s.grantOf id request = answer.ticket?) ∨
      ∃ t fault, request.presented? = some t ∧ (id, t) ∉ ledger ∧
        (Session.within id request.perform).run s = .error fault ∧ fault.isOrder = true := by
  cases hfind : s.buffers.find? id with
  | none =>
      refine .inl ⟨_, run_within_none hfind _, ?_, ?_⟩
      · unfold Session.grantOf
        rw [hfind]
        exact (List.append_nil ledger).symm ▸ hs
      · intro answer hvalue
        cases hvalue
  | some b =>
      have hb := hs.buffers id b hfind
      have hstart := hlimit id b hfind
      rcases Buffer.perform_guarded hb hstart hfits with ⟨step, hrun, -, -⟩ | ⟨t, fault, ht, hforeign, hfault, horder⟩
      · obtain ⟨hguard, -⟩ := hb.perform hstart hfits hrun
        have hgrant : s.grantOf id request = step.value.ticket? := by
          unfold Session.grantOf
          rw [hfind]
          simp only [Option.bind_some, hrun]
        have hfit : ∀ t, step.value.ticket? = some t → t.offset + t.length < positionLimit := by
          intro t ht
          obtain ⟨-, -, rfl⟩ := Buffer.ticket_of_perform hb.ordered hrun ht
          have havail : b.lease.ticket.offset + b.lease.ticket.length = b.valid := hb.ordered.head_add_available
          rw [havail]
          exact Nat.lt_of_le_of_lt hb.ordered.valid_le hb.ordered.capacity_lt
        refine .inl ⟨_, run_within_ok hfind hrun, ?_, ?_⟩
        · rw [hgrant]
          exact hs.with_grant hfind hguard hfit
        · intro answer hvalue
          cases hvalue
          exact hgrant
      · exact .inr ⟨t, fault, ht, hforeign, run_within_error hfind hfault, horder⟩

/-- What a command comes to: the session stays `Guarded`, or the command presents a foreign ticket and faults in the
    check of the order (`Fault.isOrder`). -/
def Outcome (s : Session σ) (ledger : Ledger) (command : Command σ α) : Prop :=
  (∃ step, command.perform.run s = .ok step ∧ step.state.Guarded (ledger ++ command.grants s)) ∨
    ∃ id t fault, command.presents? s = some (id, t) ∧ (id, t) ∉ ledger ∧
      command.perform.run s = .error fault ∧ fault.isOrder = true

omit [LawfulStore σ] in
/-- A command that `Keeps` a session guarded and grants nothing is safe. -/
theorem Outcome.of_keeps {command : Command σ α} (hk : Keeps ledger command.perform) (hs : s.Guarded ledger)
    (hgrants : command.grants s = []) : Outcome s ledger command := by
  obtain ⟨step, hrun, hstate⟩ := hk s hs
  refine .inl ⟨step, hrun, ?_⟩
  rw [hgrants, List.append_nil]
  exact hstate

/-- An `opening` brings in a new buffer, which has granted nothing, or changes nothing. -/
theorem outcome_opening (hs : s.Guarded ledger) (slot : String) {way : Opening σ} (hfits : way.Fits) :
    Outcome s ledger (.opening slot way : Command σ α) := by
  refine .of_keeps ?_ hs rfl
  cases hmade : way.make.value with
  | ok b =>
      simp only [Command.perform, hmade]
      exact .bind (keeps_adopt slot (Opening.new_of_make hfits hmade).guarded _) fun _ => .pure _
  | error refusal =>
      simp only [Command.perform, hmade]
      exact .bind (.emit _) fun _ => .pure _

/-- A request to the buffer of a slot by `Session.onSlot`, with something harmless to follow it. -/
theorem onSlot_request (hs : s.Guarded ledger) (hlimit : s.EpochsFit) (slot : String) {request : Operation σ α}
    (hfits : request.Fits) {follow : Option (Answer σ α) → SessionAction σ (Reply σ α)}
    (hfollow : ∀ (later : Ledger) (answer : Option (Answer σ α)),
      (∀ value t, answer = some value → value.ticket? = some t → ∃ id, (id, t) ∈ later) → Keeps later (follow answer)) :
    (∃ step, (Session.onSlot slot fun id => Session.within id request.perform >>= follow).run s = .ok step ∧
        step.state.Guarded (ledger ++ s.grantsAt slot request)) ∨
      ∃ id t fault, s.presentedAt slot request.presented? = some (id, t) ∧ (id, t) ∉ ledger ∧
        (Session.onSlot slot fun id => Session.within id request.perform >>= follow).run s = .error fault ∧
        fault.isOrder = true := by
  unfold Session.grantsAt Session.presentedAt
  rw [run_onSlot]
  cases s.slots.find? slot with
  | none => exact .inl ⟨_, rfl, (List.append_nil ledger).symm ▸ hs⟩  -- no handle, nothing happens
  | some id =>
      rcases within_perform hs hlimit id hfits with
        ⟨first, hfirst, hstate, hgrant⟩ | ⟨t, fault, ht, hforeign, hfault, horder⟩
      · -- what follows may keep the ticket that was just granted
        have hknown : ∀ value t, first.value = some value → value.ticket? = some t →
            ∃ id', (id', t) ∈ ledger ++ ((s.grantOf id request).map (id, ·)).toList := by
          intro value t hvalue ht
          refine ⟨id, List.mem_append_right _ ?_⟩
          rw [hgrant value hvalue, ht]
          exact List.mem_singleton_self _
        obtain ⟨second, hsecond, hend⟩ := hfollow _ first.value hknown first.state hstate
        refine .inl ⟨second.after first.events, ?_, hend⟩
        show (Session.within id request.perform >>= follow).run s = _
        rw [run_bind_of_ok hfirst, hsecond]
        rfl
      · refine .inr ⟨id, t, fault, ?_, hforeign, run_bind_of_error hfault, horder⟩
        rw [ht]
        rfl

theorem outcome_operation (hs : s.Guarded ledger) (hlimit : s.EpochsFit) (slot : String) {request : Operation σ α}
    (hfits : request.Fits) (keep : Option String) : Outcome s ledger (.operation slot request keep) := by
  apply onSlot_request hs hlimit slot hfits
  intro later answer hknown
  cases answer with
  | none => exact .pure _
  | some value => exact .bind (keeps_keepTicket keep fun t ht => hknown value t rfl ht) fun _ => .pure _

theorem outcome_silently (hs : s.Guarded ledger) (hlimit : s.EpochsFit) (slot : String) {request : Operation σ α}
    (hfits : request.Fits) : Outcome s ledger (.silently slot request) := by
  apply onSlot_request hs hlimit slot hfits
  intro later answer _
  cases answer with
  | none => exact .pure _
  | some value => exact .pure _

/-- A ticket that was kept is settled by `Command.release`, refused, or foreign to the buffer. -/
theorem outcome_release (hs : s.Guarded ledger) (hlimit : s.EpochsFit) (slot ticket : String) (count : Nat) :
    Outcome s ledger (.release slot ticket count : Command σ α) := by
  have hempty : s.Guarded (ledger ++ []) := (List.append_nil ledger).symm ▸ hs
  unfold Outcome
  simp only [Command.perform, Command.presents?, Command.grants, Session.presentedAt, run_onSlot]
  cases hslot : s.slots.find? slot with
  | none => exact .inl ⟨_, rfl, hempty⟩
  | some id =>
      simp only [run_look_bind]
      cases hkept : s.tickets.find? ticket with
      | none => exact .inl ⟨_, rfl, hempty⟩
      | some kept =>
          simp only [Session.onBuffer, run_onSlot, hslot]
          cases hfind : s.buffers.find? id with
          | none =>
              rw [run_bind_of_ok (run_within_none hfind _)]
              exact .inl ⟨_, rfl, hempty⟩
          | some b =>
              -- whoever granted the ticket, its positions are in order
              obtain ⟨granter, hgranter⟩ := hs.tickets ticket kept hkept
              have hpositions := hs.positions granter kept hgranter
              rcases Buffer.release_guarded_or_foreign (hs.buffers id b hfind) (hlimit id b hfind) hpositions count with
                ⟨step, hrun, hstate, -⟩ | ⟨fault, hfault, hforeign, horder⟩
              · rw [run_bind_of_ok (run_within_ok hfind hrun), List.append_nil]
                exact .inl ⟨_, rfl, hs.with_buffer hfind hstate⟩
              · rw [run_bind_of_error (run_within_error hfind hfault)]
                exact .inr ⟨id, kept, fault, rfl, hforeign, rfl, horder⟩

/-- **A command keeps a session `Guarded`, or it presents a foreign ticket and faults.** -/
theorem perform_outcome (hs : s.Guarded ledger) (hlimit : s.EpochsFit) {command : Command σ α} (hfits : command.Fits) :
    Outcome s ledger command := by
  cases command with
  | opening slot way => exact outcome_opening hs slot hfits
  | operation slot request keep => exact outcome_operation hs hlimit slot hfits keep
  | silently slot request => exact outcome_silently hs hlimit slot hfits
  | release slot ticket count => exact outcome_release hs hlimit slot ticket count
  | share slot copy =>
      exact .of_keeps (keeps_onSlot slot fun id => .bind (keeps_enter copy id) fun _ => .pure _) hs rfl
  | drop slot => exact .of_keeps (keeps_onSlot slot fun _ => .bind (keeps_leave slot) fun _ => .pure _) hs rfl
  | compare slot other => exact .of_keeps (keeps_onSlot slot fun _ => keeps_onSlot other fun _ => .pure _) hs rfl
  | countHandles slot => exact .of_keeps (keeps_onSlot slot fun _ => .bind .look fun _ => .pure _) hs rfl
  | surrender slot =>
      refine .of_keeps (keeps_onSlot slot fun id => .bind .look fun found => ?_) hs rfl
      split
      · exact .bind (keeps_collect slot id) fun _ => .pure _
      · exact .pure _
  | harvest slot =>
      refine .of_keeps (keeps_onSlot slot fun id => .bind (keeps_collect slot id) fun elements => ?_) hs rfl
      cases elements with
      | none => exact .pure _
      | some elements => exact .pure _
  | harvestText slot codec =>
      refine .of_keeps (keeps_onSlot slot fun id => .bind (keeps_collect slot id) fun elements => ?_) hs rfl
      cases elements with
      | none => exact .pure _
      | some elements => exact .pure _
  | status slot =>
      refine .of_keeps (keeps_onSlot slot fun id => .bind .look fun found => ?_) hs rfl
      exact keeps_onBuffer slot fun _ b hb => ⟨_, rfl, hb⟩
  | inspect slot indented => exact .of_keeps (keeps_onBuffer slot fun _ b hb => ⟨_, rfl, hb⟩) hs rfl
  | inspectBusy slot => exact .of_keeps (keeps_onBuffer slot fun _ b hb => ⟨_, rfl, hb⟩) hs rfl
  | inspectData slot render => exact .of_keeps (keeps_onBuffer slot fun _ b hb => ⟨_, rfl, hb⟩) hs rfl

/-! ## Runs -/

/-- Every session that is `Reached` is `Guarded`. -/
theorem Session.Reached.guarded (h : Session.Reached α s ledger) : s.Guarded ledger := by
  induction h with
  | start => exact Session.guarded_empty
  | next _ hlimit hfits hrun ih =>
      obtain ⟨step, hstep, hstate⟩ | ⟨_, _, _, _, _, hfault, _⟩ := perform_outcome ih hlimit hfits
      · rw [hrun] at hstep
        cases hstep
        exact hstate
      · rw [hrun] at hfault
        cases hfault

/-- Commands that are an `OwnRun` can be performed in turn. -/
theorem Session.OwnRun.performAll {commands : List (Command σ α)} (hown : s.OwnRun ledger commands)
    (hs : s.Guarded ledger) :
    ∃ step, (Command.performAll commands).run s = .ok step ∧ ∃ later, step.state.Guarded later := by
  -- the ledger grows on the way, so the induction takes any session that is guarded with regard to any ledger
  induction commands generalizing s ledger with
  | nil => exact ⟨_, rfl, ledger, hs⟩
  | cons command rest ih =>
      obtain ⟨hlimit, hfits, hpresented, hrest⟩ := hown
      obtain ⟨first, hfirst, hmiddle⟩ | ⟨id, t, fault, hpresents, hforeign, _⟩ := perform_outcome hs hlimit hfits
      · obtain ⟨second, hsecond, hend⟩ := ih (hrest first hfirst) hmiddle
        rw [Command.performAll_cons, run_bind_of_ok hfirst, bind_pure_comp, run_map, hsecond]
        exact ⟨_, rfl, hend⟩
      · exact absurd (hpresented _ hpresents) hforeign

/-- **A session is safe.** However it came about (`Session.Reached`), and whatever tickets were presented to whom on the
    way:
    - In each of its buffers, `head`, `valid` and `capacity` come in order.
    - It keeps no tickets but those that buffers have granted.
    - All its slots can be emptied by `finish`.
    - A command faults only if it presents a ticket to a buffer that did not grant it (`presents?`), and then only in
      the check of the order (`Fault.isOrder`): no position overflows, and nothing is read or written beyond the end of
      a store.

    Commands that are an `OwnRun`, which present every ticket to the buffer that granted it, never fault. -/
theorem session_safe :
    (∀ (s : Session σ) (ledger : Ledger), Session.Reached α s ledger →
      (∀ id b, s.buffers.find? id = some b → b.head ≤ b.valid ∧ b.valid ≤ b.capacity) ∧
      (∀ name t, s.tickets.find? name = some t → ∃ id, (id, t) ∈ ledger) ∧
      (∃ last, (Session.finish : SessionAction σ Unit).run s = .ok last) ∧
      (s.EpochsFit → ∀ command : Command σ α, command.Fits →
        (∃ step, command.perform.run s = .ok step) ∨
          ∃ id t fault, command.presents? s = some (id, t) ∧ (id, t) ∉ ledger ∧
            command.perform.run s = .error fault ∧ fault.isOrder = true)) ∧
    ∀ commands : List (Command σ α), (Session.empty : Session σ).OwnRun [] commands →
      ∃ step, (Command.performAll commands).run Session.empty = .ok step ∧
        ∃ last, (Session.finish : SessionAction σ Unit).run step.state = .ok last := by
  constructor
  · intro s ledger hreached
    have hs := hreached.guarded
    refine ⟨?_, hs.tickets, ?_, ?_⟩
    · intro id b hfind
      have hordered := (hs.buffers id b hfind).ordered
      exact ⟨hordered.head_le, hordered.valid_le⟩
    · obtain ⟨last, hlast, -⟩ := keeps_finish s hs
      exact ⟨last, hlast⟩
    · intro hlimit command hfits
      obtain ⟨step, hstep, -⟩ | hforeign := perform_outcome hs hlimit hfits
      · exact .inl ⟨step, hstep⟩
      · exact .inr hforeign
  · intro commands hown
    obtain ⟨step, hstep, later, hstate⟩ := hown.performAll Session.guarded_empty
    obtain ⟨last, hlast, -⟩ := keeps_finish step.state hstate
    exact ⟨step, hstep, last, hlast⟩

/-- Two readers: a ticket of the first, settled by `Command.release` with the second, takes its head past its only
    element, and that is found out. Settled with the first, it is fine. -/
theorem session_safe_of_two_readers :
    (∃ (s : Session SmallBytes) (ledger : Ledger), Session.Reached UInt8 s ledger ∧ s.EpochsFit ∧
      ∃ id t fault, (id, t) ∉ ledger ∧
        (Command.release "second" "ticket" 3 : Command SmallBytes UInt8).perform.run s = .error fault ∧
        fault.isOrder = true) ∧
    ∃ step, (Command.performAll [.opening "first" (.reader ⟨#[1, 2, 3]⟩), .opening "second" (.reader ⟨#[4]⟩),
        .operation "first" .acquire (some "ticket"), .release "first" "ticket" 2] :
        SessionAction SmallBytes (List (Reply SmallBytes UInt8))).run Session.empty = .ok step := by
  let long : Buffer SmallBytes := Buffer.start ⟨#[1, 2, 3]⟩ .reader defaultLabel
  let short : Buffer SmallBytes := Buffer.start ⟨#[4]⟩ .reader defaultLabel
  let openLong : Command SmallBytes UInt8 := .opening "first" (.reader ⟨#[1, 2, 3]⟩)
  let openShort : Command SmallBytes UInt8 := .opening "second" (.reader ⟨#[4]⟩)
  let acquire : Command SmallBytes UInt8 := .operation "first" .acquire (some "ticket")
  let settle : Command SmallBytes UInt8 := .release "first" "ticket" 2
  let one : Session SmallBytes := ⟨⟨[(0, long)]⟩, ⟨[("first", 0)]⟩, .empty, 1⟩
  let two : Session SmallBytes := ⟨⟨[(1, short), (0, long)]⟩, ⟨[("second", 1), ("first", 0)]⟩, .empty, 2⟩
  let held : Session SmallBytes :=
    ⟨⟨[(0, long), (1, short)]⟩, ⟨[("second", 1), ("first", 0)]⟩, ⟨[("ticket", ⟨0, 0, 3⟩)]⟩, 2⟩
  have hlong : openLong.perform.run Session.empty =
      .ok ⟨.done, one, [⟨some 0, ⟨defaultLabel, .opened .reading 3⟩⟩]⟩ := rfl
  have hshort : openShort.perform.run one = .ok ⟨.done, two, [⟨some 1, ⟨defaultLabel, .opened .reading 1⟩⟩]⟩ := rfl
  have hacquire : acquire.perform.run two =
      .ok ⟨.answer (.lease (.granted ⟨⟨#[1, 2, 3]⟩, ⟨0, 0, 3⟩⟩)), held, []⟩ := rfl
  have hgrants : acquire.grants two = [(0, ⟨0, 0, 3⟩)] := rfl
  have hempty : (Session.empty : Session SmallBytes).EpochsFit := .of_entries (by decide)
  have hone : one.EpochsFit := .of_entries (by decide)
  have htwo : two.EpochsFit := .of_entries (by decide)
  have hheld : held.EpochsFit := .of_entries (by decide)
  have hfits : openLong.Fits := (by decide : 3 < positionLimit)
  have hfits' : openShort.Fits := (by decide : 1 < positionLimit)
  have hplain : acquire.Fits := trivial
  obtain ⟨hreached, hown⟩ := session_safe (σ := SmallBytes) (α := UInt8)
  constructor
  · have hopened : Session.Reached UInt8 one [] := .next .start hempty hfits hlong
    have hboth : Session.Reached UInt8 two [] := .next hopened hone hfits' hshort
    have hgranted : Session.Reached UInt8 held (acquire.grants two) := .next hboth htwo hplain hacquire
    refine ⟨held, acquire.grants two, hgranted, hheld, ?_⟩
    have hfault : (Command.release "second" "ticket" 3 : Command SmallBytes UInt8).perform.run held =
        .error (.headPastValid 3 1) := rfl
    obtain ⟨step, hrun⟩ | ⟨id, t, fault, -, hforeign, hrun, horder⟩ :=
      (hreached held _ hgranted).2.2.2 hheld (.release "second" "ticket" 3) trivial
    · rw [hfault] at hrun
      cases hrun
    · exact ⟨id, t, fault, hforeign, hrun, horder⟩
  · refine (hown _ ?_).imp fun step hstep => hstep.1
    refine .cons hempty hfits (fun presented h => by cases h) hlong ?_
    refine .cons hone hfits' (fun presented h => by cases h) hshort ?_
    refine .cons htwo hplain (fun presented h => by cases h) hacquire ?_
    refine ⟨hheld, trivial, ?_, fun _ _ => trivial⟩
    intro presented hpresented
    have hticket : settle.presents? held = some (0, ⟨0, 0, 3⟩) := rfl
    rw [hticket] at hpresented
    cases hpresented
    rw [hgrants]
    exact List.mem_singleton_self _

end MemStream
