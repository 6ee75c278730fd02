import MemStream.Proofs.Following

/-!
# `MemStream.Proofs.Delivery` — nothing is lost and nothing is delivered twice

A reader hands its elements out in two ways: it copies them in a read, or lends them and has the lease settled. Leases
may be kept, settled late, twice or never, while reads go on; still, as long as the head only moves forwards, all that
was delivered so far, in the order of delivery, is the data up to the head.

## Contents
- **Deliveries.** `Entry.delivered`, `delivered`: what one operation and what a run delivered. A settlement delivers
  what was lent with its ticket (`lentWith`).
- **Forward operations.** `Operation.forward`.
- **Runs.** `Shows.advances` for one operation, `delivered_once` for all.
-/

namespace MemStream

open StateAction

variable {σ α : Type} [Store σ α]

/-! ## Deliveries -/

/-- The leases granted on the way, by `Answer.lease?`. -/
def leases (entries : List (Entry σ α)) : List (Lease σ) :=
  entries.filterMap (·.answer.lease?)

/-- The elements lent with the ticket `t`, or none if there is no such lease among the `leases`. -/
def lentWith (entries : List (Entry σ α)) (t : Ticket) : List α :=
  match (leases entries).find? fun held => held.ticket = t with
  | some held => Store.toList held.elements
  | none => []

/-- What an operation delivered, after the `earlier` ones: the elements of its `answer`, or the front of a lease that it
    settled. -/
def Entry.delivered (earlier : List (Entry σ α)) (e : Entry σ α) : List α :=
  match e.operation, e.answer with
  | .read _ true, .taken elements => Store.toList elements
  | .readOne true, .element value => value.toList
  -- the answer is the element after the one passed by, which is the one that a look would have shown
  | .skipOne, _ => (Store.head? (e.before.upcoming 1)).toList
  | .readToEnd, .elements elements => Store.toList elements
  | .release t count, .settled (.ok _) => (lentWith earlier t).take count
  | .borrow (some count), .borrowed (.granted (held, some (.ok _))) => (Store.toList held.elements).take count
  | _, _ => []

/-- What a run delivered, in order, after the `earlier` entries. -/
def deliveredAfter (earlier : List (Entry σ α)) : List (Entry σ α) → List α
  | [] => []
  | e :: later => e.delivered earlier ++ deliveredAfter (earlier ++ [e]) later

/-- What a run delivered from its beginning, in order: `deliveredAfter` nothing. -/
def delivered (entries : List (Entry σ α)) : List α :=
  deliveredAfter [] entries

/-- One more entry adds what it `delivered`, after all those before it. -/
theorem deliveredAfter_append (earlier entries : List (Entry σ α)) (e : Entry σ α) :
    deliveredAfter earlier (entries ++ [e]) = deliveredAfter earlier entries ++ e.delivered (earlier ++ entries) := by
  induction entries generalizing earlier with
  | nil => simp [deliveredAfter]
  | cons x entries ih => simp [deliveredAfter, ih]

theorem delivered_append (entries : List (Entry σ α)) (e : Entry σ α) :
    delivered (entries ++ [e]) = delivered entries ++ e.delivered entries :=
  deliveredAfter_append [] entries e

/-! ## Forward operations -/

/-- Whether an operation never sets the head back, hands the whole store out (`takeData`), or keeps what it has read to
    itself (`readExact`, `readText`). -/
def Operation.forward : Operation σ α → Bool
  | .stepBack | .seekTo _ _ | .seek _ _ | .seekAny _ | .takeData | .readExact _ | .readText _ => false
  | _ => true

/-- The `content` stays, and the `position` moves behind `elements`, which lay ahead. -/
structure Scroll.Advances (s s' : Scroll σ) (elements : List α) : Prop where
  content : s'.content = s.content
  take : (Store.toList s.content).take s'.position = (Store.toList s.content).take s.position ++ elements

namespace Scroll

variable {s s' : Scroll σ}

theorem Advances.stay (hcontent : s'.content = s.content) (hposition : s'.position = s.position) :
    s.Advances s' [] := by
  refine ⟨hcontent, ?_⟩
  rw [hposition, List.append_nil]

variable [LawfulStore σ]

/-- What `Scroll.take` takes lay ahead. -/
theorem advances_take (s : Scroll σ) (n : Nat) : s.Advances (s.take n).2 (Store.toList (s.upcoming n)) := by
  have hposition : (s.take n).2.position = s.position + Store.size (s.upcoming n) := by
    unfold Scroll.take Scroll.passed
    split
    · next hzero => rw [hzero, Nat.add_zero]
    · rfl
  refine ⟨?_, ?_⟩
  · unfold Scroll.take Scroll.passed
    split
    · rfl
    · rfl
  · rw [hposition, List.take_add]
    congr 1
    unfold upcoming
    cases s.isOpen with
    | true =>
        rw [if_pos rfl, LawfulStore.toList_slice, Store.size_slice]
        congr 1
        unfold rest
        omega
    | false => simp

/-- What is settled of a lease on everything ahead lay ahead, so the `position` is set behind it. -/
theorem advances_setTo (s : Scroll σ) {count : Nat} (hcount : count ≤ s.rest) :
    s.Advances (s.setTo (s.position + count))
      ((Store.toList (Store.slice s.content s.position s.rest)).take count) := by
  refine ⟨rfl, ?_⟩
  show (Store.toList s.content).take (s.position + count) = _
  rw [List.take_add, LawfulStore.toList_slice, List.take_take, Nat.min_eq_left hcount]

end Scroll

/-! ## Runs -/

variable [LawfulStore σ] {issued : Nat → Ticket → Prop} {b : Buffer σ} {s : Scroll σ}
  {entries : List (Entry σ α)}

/-- A store of at most one element is its `Store.head?`. -/
theorem toList_head? {t : σ} (h : Store.size t ≤ 1) : (Store.head? t).toList = Store.toList t := by
  rw [← Store.length_toList] at h
  rw [LawfulStore.head?_eq]
  cases hlist : Store.toList t with
  | nil => rfl
  | cons a rest =>
      rw [hlist, List.length_cons] at h
      rw [List.eq_nil_of_length_eq_zero (Nat.le_zero.mp (Nat.le_of_succ_le_succ h))]
      rfl

/-- **An operation that never goes back delivers what it passes by.** It `Advances` the scroll that the reader shows by
    just those elements. -/
theorem Shows.advances (h : Shows issued b s) (earlier : List (Entry σ α)) {operation : Operation σ α}
    (hforward : operation.forward = true)
    (hlent : ∀ t ∈ s.lent, lentWith earlier t = Store.toList (Store.slice s.content t.offset t.length))
    (after : Buffer σ) :
    s.Advances (s.perform b.epoch operation).2
      (Entry.delivered earlier ⟨b, operation, (s.perform b.epoch operation).1, after⟩) := by
  have hone : Store.size (s.upcoming 1) ≤ 1 := by
    rw [← h.upcoming, Buffer.size_upcoming h.ordered]
    split <;> omega
  have hpass : s.Advances (s.take 1).2 (Store.head? (s.upcoming 1)).toList := by
    rw [toList_head? hone]
    exact s.advances_take 1
  cases operation with
  | read count advance =>
      cases advance with
      | true => exact s.advances_take count
      | false => exact .stay rfl rfl
  | readOne advance =>
      cases advance with
      | true => exact hpass
      | false => exact .stay rfl rfl
  | skipOne =>
      show s.Advances (s.take 1).2 (Store.head? (b.upcoming 1)).toList
      rw [h.upcoming]
      exact hpass
  | readToEnd => exact s.advances_take s.rest
  | acquire =>
      show s.Advances (s.acquire b.epoch).2 []
      unfold Scroll.acquire
      split
      · split
        · exact .stay rfl rfl
        · exact .stay rfl rfl
      · exact .stay rfl rfl
  | borrow settle =>
      show s.Advances (s.borrow b.epoch settle).2
        (Entry.delivered earlier ⟨b, .borrow settle, .borrowed (s.borrow b.epoch settle).1, after⟩)
      unfold Scroll.borrow Scroll.acquire
      cases s.isOpen with
      | false => cases settle <;> exact .stay rfl rfl
      | true =>
          by_cases hrest : s.rest = 0
          · rw [if_pos rfl, if_pos hrest]
            cases settle <;> exact .stay rfl rfl
          · rw [if_pos rfl, if_neg hrest]
            cases settle with
            | none => exact .stay rfl rfl
            | some count =>
                -- the ticket is the last one lent, so only its length can stand in the way
                have hmem : (s.lease b.epoch).ticket ∈ (s.lending b.epoch).lent := List.mem_cons_self
                unfold Scroll.release
                by_cases hcount : count ≤ (s.lease b.epoch).ticket.length
                · simp only [if_pos hmem, if_pos hcount]
                  exact s.advances_setTo hcount
                · simp only [if_pos hmem, if_neg hcount]
                  exact .stay rfl rfl
  | release ticket count =>
      show s.Advances (s.release b.epoch ticket count).2
        (Entry.delivered earlier ⟨b, .release ticket count, .settled (s.release b.epoch ticket count).1, after⟩)
      unfold Scroll.release
      by_cases hmem : ticket ∈ s.lent
      · by_cases hcount : count ≤ ticket.length
        · rw [if_pos hmem, if_pos hcount]
          show s.Advances _ ((lentWith earlier ticket).take count)
          obtain ⟨-, hlease⟩ := h.lease ticket hmem
          have hoffset : ticket.offset = s.position := by
            rw [hlease]
            exact h.head
          have hlength : ticket.length = s.rest := by
            rw [hlease]
            exact h.available
          rw [hlent ticket hmem, hoffset, hlength]
          exact s.advances_setTo (hlength ▸ hcount)
        · rw [if_pos hmem, if_neg hcount]
          exact .stay rfl rfl
      · rw [if_neg hmem]
        exact .stay rfl rfl
  | close direction =>
      show s.Advances (s.close direction).2 []
      unfold Scroll.close
      split
      · exact .stay rfl rfl
      · exact .stay rfl rfl
  | stepBack | seekTo | seek | seekAny | takeData | readExact | readText => cases hforward
  | _ => exact .stay rfl rfl

omit [Store σ α] [LawfulStore σ] in
theorem mem_leases {held : Lease σ} : held ∈ leases entries ↔ ∃ e ∈ entries, e.answer.lease? = some held :=
  List.mem_filterMap

omit [LawfulStore σ] in
/-- Where every lease is a piece of the `data`, so is what was `lentWith` a ticket that was granted. -/
theorem lentWith_eq {data : σ}
    (hpieces : ∀ held ∈ leases entries, held.elements = Store.slice data held.ticket.offset held.ticket.length)
    {n : Nat} {t : Ticket} (ht : GrantedAt entries n t) :
    lentWith entries t = Store.toList (Store.slice data t.offset t.length) := by
  obtain ⟨e, he, -, hticket⟩ := ht
  rw [Answer.ticket?_eq] at hticket
  obtain ⟨held, hheld, rfl⟩ := Option.map_eq_some_iff.mp hticket
  unfold lentWith
  cases hfind : (leases entries).find? fun other => other.ticket = held.ticket with
  | some other =>
      have hsame : other.ticket = held.ticket := by simpa using List.find?_some hfind
      show Store.toList other.elements = _
      rw [hpieces other (List.mem_of_find?_eq_some hfind), hsame]
  | none =>
      have hnone := List.find?_eq_none.mp hfind held (mem_leases.mpr ⟨e, he, hheld⟩)
      exact absurd (decide_eq_true rfl) hnone

variable {data : σ} {label : String} {last : Buffer σ}

/-- On the way `forward`, the scroll keeps its `content`, all `leases` are pieces of it, and what was `delivered` is
    what lies behind the `position`. -/
theorem Run.delivers (h : Run (Buffer.start data .reader label) entries last) (hsize : Store.size data < positionLimit)
    (hprompt : PromptTickets entries) (hforward : ∀ e ∈ entries, e.operation.forward = true) :
    (Scroll.after data entries).content = data ∧
      (∀ held ∈ leases entries, held.elements = Store.slice data held.ticket.offset held.ticket.length) ∧
      delivered entries = (Store.toList data).take (Scroll.after data entries).position := by
  induction entries using List.reverseRecOn generalizing last with
  | nil => exact ⟨rfl, nofun, rfl⟩
  | append_singleton earlier e ih =>
      obtain ⟨middle, hearlier, hrest⟩ := Run.append_iff.mp h
      obtain ⟨hcontent, hpieces, hdelivered⟩ :=
        ih hearlier hprompt.left fun x hx => hforward x (List.mem_append_left [e] hx)
      have hmiddle := hearlier.shows hsize hprompt.left
      have hgoes := hforward e (List.mem_append_right earlier List.mem_cons_self)
      cases hrest with
      | @next _ _ operation step _ hfits hperform hdone =>
          cases hdone
          obtain ⟨hanswer, -⟩ := hmiddle.entry hfits hperform (hprompt earlier _ [] rfl)
          have hadvances := hmiddle.advances earlier hgoes (fun t ht => by
            rw [hcontent]
            exact lentWith_eq hpieces ((hmiddle.lent t).mp ht)) step.state
          rw [← hanswer] at hadvances
          rw [Scroll.after_append]
          refine ⟨hadvances.content.trans hcontent, ?_, ?_⟩
          · intro held hheld
            obtain ⟨x, hx, hlease⟩ := mem_leases.mp hheld
            rcases List.mem_append.mp hx with hold | hnew
            · exact hpieces held (mem_leases.mpr ⟨x, hold, hlease⟩)
            · -- a lease granted just now is a piece of the store, which is the content
              cases List.mem_singleton.mp hnew
              obtain ⟨-, -, rfl⟩ := Buffer.lease_of_perform hmiddle.ordered hperform hlease
              show Store.slice middle.data middle.head middle.available = _
              rw [hmiddle.data, hcontent]
              rfl
          · have htake := hadvances.take
            rw [hcontent] at htake
            rw [delivered_append, hdelivered]
            exact htake.symm

/-- **Nothing is lost and nothing is delivered twice.** Over any data, in every `Run` of a reader with `OwnTickets` that
    does not run out of epochs, and in which all operations go `forward`:
    - what was `delivered` so far, in the order of delivery, is the data up to the head;
    - a settlement that is refused leaves the reader as it was;
    - two leases granted with the same ticket lent the same elements, so it does not matter which one is settled. -/
theorem delivered_once (hsize : Store.size data < positionLimit)
    (hrun : Run (Buffer.start data .reader label) entries last) (hown : OwnTickets entries)
    (hlimit : EpochsFit entries) (hforward : ∀ e ∈ entries, e.operation.forward = true) :
    delivered entries = (Store.toList data).take last.head ∧
    (∀ e ∈ entries, ∀ t count refusal, e.operation = .release t count → e.answer = .settled (.error refusal) →
      e.after = e.before) ∧
    (∀ held ∈ leases entries, ∀ other ∈ leases entries, held.ticket = other.ticket →
      held.elements = other.elements) := by
  have hnew : (Buffer.start data .reader label).New := ⟨data, .reading, .reader, label, rfl, hsize, rfl⟩
  have hprompt := hown.prompt hrun hnew hlimit
  obtain ⟨-, hpieces, hdelivered⟩ := hrun.delivers hsize hprompt hforward
  refine ⟨?_, ?_, ?_⟩
  · rw [hdelivered, (hrun.shows hsize hprompt).head]
  · intro e he t count refusal hoperation hrefused
    obtain ⟨earlier, later, rfl⟩ := List.append_of_mem he
    obtain ⟨middle, hearlier, hrest⟩ := Run.append_iff.mp hrun
    have hordered := (hearlier.shows hsize hprompt.left).ordered
    cases hrest with
    | next hfits hperform hlater =>
        cases hoperation
        obtain ⟨first, hfirst, rfl⟩ := Buffer.value_of_answer hperform
        rcases Buffer.release_cases hfits hordered hfirst with ⟨-, -, hvalue, -⟩ | ⟨-, -, hstate⟩
        · have hboth := Answer.settled.inj hrefused
          rw [hvalue] at hboth
          cases hboth
        · exact hstate
  · intro held hheld other hother hsame
    rw [hpieces held hheld, hpieces other hother, hsame]

/-- A reader of three bytes lends everything and has one byte of it settled by `release`, has the same ticket refused
    the second time, and reads on: the three bytes come in order, each of them once. -/
theorem delivered_once_settled_twice :
    ∃ (entries : List (Entry SmallBytes UInt8)) (first last : Buffer SmallBytes),
      Run first entries last ∧ OwnTickets entries ∧ EpochsFit entries ∧
        (∀ e ∈ entries, e.operation.forward = true) ∧ delivered entries = [1, 2, 3] := by
  let first : Buffer SmallBytes := Buffer.start ⟨#[1, 2, 3]⟩ .reader "r"
  let settled : Buffer SmallBytes := { first with cursor := ⟨1, 3⟩, changes := 1 }
  let last : Buffer SmallBytes := { first with cursor := ⟨3, 3⟩, changes := 2 }
  let granting : Entry SmallBytes UInt8 :=
    ⟨first, .acquire, .lease (.granted ⟨⟨#[1, 2, 3]⟩, ⟨0, 0, 3⟩⟩), first⟩
  let settling : Entry SmallBytes UInt8 := ⟨first, .release ⟨0, 0, 3⟩ 1, .settled (.ok 1), settled⟩
  let again : Entry SmallBytes UInt8 :=
    ⟨settled, .release ⟨0, 0, 3⟩ 1, .settled (.error (.staleLease 0 1)), settled⟩
  let reading : Entry SmallBytes UInt8 := ⟨settled, .read 5 true, .taken ⟨#[2, 3]⟩, last⟩
  have hgrant : granting.operation.perform.run first = .ok ⟨granting.answer, first, []⟩ := by
    cbv
  have hsettle : settling.operation.perform.run first = .ok ⟨settling.answer, settled, []⟩ := by
    cbv
  have hagain : again.operation.perform.run settled =
      .ok ⟨again.answer, settled, [⟨"r", .staleLease (Refusal.staleLease 0 1).code⟩]⟩ := by
    cbv
  have hread : reading.operation.perform.run settled = .ok ⟨reading.answer, last, []⟩ := by
    cbv
  have hplain : granting.operation.Fits ∧ reading.operation.Fits := ⟨trivial, trivial⟩
  have hfits : settling.operation.Fits ∧ again.operation.Fits := by
    show 0 + 3 < positionLimit ∧ 0 + 3 < positionLimit
    decide
  have hrun : Run first [granting, settling, again, reading] last :=
    .next hplain.1 hgrant (.next hfits.1 hsettle (.next hfits.2 hagain (.next hplain.2 hread (.done last))))
  have hfirst : OwnTickets [granting] := by
    apply OwnTickets.of_none
    intro e he
    cases List.mem_singleton.mp he
    rfl
  have hsettling : ∀ t, settling.operation.presented? = some t → t ∈ granted [granting] := by
    rintro t ⟨⟩
    exact List.mem_cons_self
  have hsettled : ∀ t, again.operation.presented? = some t → t ∈ granted [granting, settling] := by
    rintro t ⟨⟩
    exact List.mem_cons_self
  have hreading : ∀ t, reading.operation.presented? = some t → t ∈ granted [granting, settling, again] := by
    rintro t ⟨⟩
  have hown : OwnTickets [granting, settling, again, reading] :=
    ((hfirst.concat hsettling).concat hsettled).concat hreading
  have hlimit : EpochsFit [granting, settling, again, reading] := by
    intro e he
    have hle : e.after.changes ≤ 2 := by
      revert e
      decide
    exact Nat.lt_of_le_of_lt hle (by decide)
  have hforward : ∀ e ∈ [granting, settling, again, reading], e.operation.forward = true := by
    decide
  obtain ⟨hdelivered, -, -⟩ := delivered_once (by decide) hrun hown hlimit hforward
  exact ⟨_, first, last, hrun, hown, hlimit, hforward, hdelivered⟩

end MemStream
