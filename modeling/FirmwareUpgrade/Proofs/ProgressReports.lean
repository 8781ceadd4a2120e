import FirmwareUpgrade.Proofs.ConfirmedBlocks
import FirmwareUpgrade.Proofs.UploadTermination

/-!
# Reports of progress

A download reports nothing at its start and then, each time the device has confirmed a block, the
bytes up to its end.  An upload reports after each block all the bytes received so far.  Whether a
report is due, and which, depends on the events before it only, so the reports are shown to be exact
by going through the events: at each place of a transfer the next event is a report exactly if one
is due there.
-/

namespace FirmwareUpgrade

variable {ω : Type}

/-! ## Reports that are due -/

/-- Wherever the events after the history are divided, what comes next is a report exactly if one is
due after the events so far, and then it is this one. -/
def ReportsAsDue (due : List Event → Option Event) (history events : List Event) : Prop :=
  ∀ earlier later, events = earlier ++ later →
    later.head?.filter Event.isProgress = due (history ++ earlier)

namespace ReportsAsDue

variable {due : List Event → Option Event} {history first second events : List Event}
  {event : Event}

theorem nil (hnone : due history = none) : ReportsAsDue due history [] := by
  intro earlier later hsplit
  rcases List.append_eq_nil_iff.mp hsplit.symm with ⟨rfl, rfl⟩
  rw [List.append_nil, hnone]
  rfl

theorem cons (hdue : (some event).filter Event.isProgress = due history)
    (hrest : ReportsAsDue due (history ++ [event]) events) :
    ReportsAsDue due history (event :: events) := by
  intro earlier later hsplit
  cases earlier with
  | nil =>
      rw [List.nil_append] at hsplit
      rwa [← hsplit, List.append_nil]
  | cons head earlier =>
      rcases List.cons.inj hsplit with ⟨rfl, hinside⟩
      rw [List.append_cons]
      exact hrest earlier later hinside

theorem silent (hsilent : event.isProgress = false) (hnone : due history = none)
    (hrest : ReportsAsDue due (history ++ [event]) events) :
    ReportsAsDue due history (event :: events) := by
  apply cons _ hrest
  simp [hsilent, hnone]

theorem report (hprogress : event.isProgress) (hdue : due history = some event)
    (hrest : ReportsAsDue due (history ++ [event]) events) :
    ReportsAsDue due history (event :: events) := by
  apply cons _ hrest
  simp [hprogress, hdue]

/-- Events without reports stand where none is due. -/
theorem append (hnone : Unreported first)
    (hdue : ∀ earlier later, first = earlier ++ later → later ≠ [] →
      due (history ++ earlier) = none)
    (hrest : ReportsAsDue due (history ++ first) second) :
    ReportsAsDue due history (first ++ second) := by
  intro earlier later hsplit
  rcases List.append_eq_append_iff.mp hsplit with ⟨rest, rfl, hsecond⟩ | ⟨rest, hfirst, rfl⟩
  · rw [← List.append_assoc]
    exact hrest rest later hsecond
  · cases rest with
    | nil =>
        rw [List.append_nil] at hfirst
        have hhere := hrest [] second rfl
        rwa [List.append_nil, hfirst] at hhere
    | cons event rest =>
        have hsilent := hnone event (by simp [hfirst])
        rw [hdue earlier _ hfirst (List.cons_ne_nil event rest)]
        simp [hsilent]

theorem of_unreported (hnone : Unreported events)
    (hdue : ∀ earlier later, events = earlier ++ later → due (history ++ earlier) = none) :
    ReportsAsDue due history events := by
  have hlast := hdue events [] (List.append_nil events).symm
  have hall := append hnone (fun earlier later hsplit _ => hdue earlier later hsplit) (nil hlast)
  rwa [List.append_nil] at hall

end ReportsAsDue

/-- No report becomes due in the middle of events none of which makes one due. -/
theorem due_within {due : List Event → Option Event} {history events earlier later : List Event}
    (hcalm : ∀ event ∈ events, ∀ before, due (before ++ [event]) = none)
    (hnone : due history = none) (hsplit : events = earlier ++ later) :
    due (history ++ earlier) = none := by
  rcases List.eq_nil_or_concat' earlier with rfl | ⟨first, event, rfl⟩
  · rwa [List.append_nil]
  · rw [← List.append_assoc]
    exact hcalm event (by simp [hsplit]) (history ++ first)

theorem due_before_last {due : List Event → Option Event}
    {history events earlier later : List Event} {last : Event}
    (hcalm : ∀ event ∈ events, ∀ before, due (before ++ [event]) = none)
    (hnone : due history = none) (hsplit : events ++ [last] = earlier ++ later)
    (hlater : later ≠ []) : due (history ++ earlier) = none := by
  rcases List.eq_nil_or_concat' later with rfl | ⟨rest, final, rfl⟩
  · contradiction
  · rw [← List.append_assoc] at hsplit
    exact due_within hcalm hnone (List.append_inj' hsplit rfl).1

/-- The transfer with which the events end, if they end with one. -/
def lastTransfer? (events : List Event) : Option Exchange :=
  events.getLast?.bind Event.exchange?

@[simp]
theorem lastTransfer?_concat (events : List Event) (event : Event) :
    lastTransfer? (events ++ [event]) = event.exchange? := by
  simp [lastTransfer?]

theorem exchange?_any_eq_false {events : List Event} {p : Exchange → Bool}
    (hnone : ∀ transfer ∈ exchanges events, p transfer = false) :
    ∀ event ∈ events, event.exchange?.any p = false := by
  intro event hmem
  cases htransfer : event.exchange? with
  | none => rfl
  | some transfer => exact hnone transfer (List.mem_filterMap.mpr ⟨event, hmem, htransfer⟩)

/-! ## Uploads -/

namespace Upload

/-- The report that is due after some events of an upload. -/
def due (limit : Option Nat) (earlier : List Event) : Option Event :=
  if (lastTransfer? earlier).any Exchange.isBlock then
    some (.uploaded (receivedBytes (exchanges earlier)).length (limit.getD 0))
  else none

theorem eq_of_due {limit : Option Nat} {earlier : List Event} {event : Event}
    (hdue : due limit earlier = some event) :
    event = .uploaded (receivedBytes (exchanges earlier)).length (limit.getD 0) := by
  unfold due at hdue
  split at hdue
  · exact (Option.some.inj hdue).symm
  · contradiction

end Upload

namespace Session

open Download Upload

variable {session : Session ω} {chunk bound position : Nat} {limit : Option Nat}
  {received : ByteArray} {before after : Moment ω} {deeds history : List Event}

theorem due_block (history : List Event) (block length : UInt16) (data : ByteArray) (delay : Nat) :
    Upload.due limit (history ++ [session.blockDeed block length (.ok data) delay]) =
      some (.uploaded ((receivedBytes (exchanges history)).length + data.size) (limit.getD 0)) := by
  have hblock : (lastTransfer? (history ++ [session.blockDeed block length (.ok data) delay])).any
      Exchange.isBlock := by
    rw [lastTransfer?_concat]
    rfl
  rw [Upload.due, if_pos hblock, exchanges_append, receivedBytes_append, List.length_append,
    exchanges_cons_blockDeed, length_receivedBytes_cons]
  rfl

theorem due_of_not_isBlock {event : Event} (hother : event.exchange?.any Exchange.isBlock = false)
    (history : List Event) : Upload.due limit (history ++ [event]) = none := by
  rw [Upload.due, lastTransfer?_concat, hother]
  rfl

theorem Cancelling.due_eq_none {result : Except Fault StatusReply}
    (hcancelling : session.Cancelling before deeds result after)
    (hnone : Upload.due limit history = none) {earlier later : List Event}
    (hsplit : deeds = earlier ++ later) : Upload.due limit (history ++ earlier) = none := by
  have hother : ∀ transfer ∈ exchanges deeds, transfer.isBlock = false := by
    cases hcancelling with
    | unsent | unconfirmed | ignored | cancelled => simp [Exchange.isBlock, Exchange.isUpload]
  apply due_within _ hnone hsplit
  intro event hmem
  exact due_of_not_isBlock (exchange?_any_eq_false hother event hmem)

theorem Cancelling.reportsAsDue {result : Except Fault StatusReply}
    (hcancelling : session.Cancelling before deeds result after)
    (hnone : Upload.due limit history = none) : ReportsAsDue (Upload.due limit) history deeds :=
  .of_unreported hcancelling.does.unreported fun _ _ => hcancelling.due_eq_none hnone

theorem Reading.reportsAsDue {result : Except Fault ByteArray}
    (hreading : session.Reading chunk limit bound position received before deeds result after)
    (hreceived : (receivedBytes (exchanges history)).length = received.size)
    (hnone : Upload.due limit history = none) :
    ReportsAsDue (Upload.due limit) history deeds := by
  induction hreading generalizing history with
  | failed hmore hasked =>
      apply ReportsAsDue.silent rfl hnone
      exact .nil (due_of_not_isBlock rfl history)
  | short hmore hasked hshort =>
      apply ReportsAsDue.silent rfl hnone
      apply ReportsAsDue.report rfl
      · rw [due_block, hreceived]
      · exact .nil (due_of_not_isBlock rfl _)
  | full hmore hasked hfull hrest ih =>
      apply ReportsAsDue.silent rfl hnone
      apply ReportsAsDue.report rfl
      · rw [due_block, hreceived]
      · apply ih
        · have hnil : receivedBytes [] = [] := rfl
          simp [hreceived, length_receivedBytes_cons, hnil]
        · exact due_of_not_isBlock rfl _
  | stuck hdone hcancelling | complete hlimit hdone hcancelling
  | tooLarge hlimit hdone hcancelling => exact hcancelling.reportsAsDue hnone

theorem Fetching.reportsAsDue {result : Except Fault ByteArray}
    (hfetching : session.Fetching chunk limit bound before deeds result after) :
    ReportsAsDue (Upload.due limit) [] deeds := by
  cases hfetching with
  | unready hcancelling => exact hcancelling.reportsAsDue rfl
  | ready hcancelling hreading =>
      apply ReportsAsDue.append hcancelling.does.unreported
      · intro earlier later hsplit _
        exact hcancelling.due_eq_none rfl hsplit
      · apply hreading.reportsAsDue
        · rw [List.nil_append, hcancelling.receivedBytes_eq]
          rfl
        · exact hcancelling.due_eq_none rfl (List.append_nil _).symm

end Session

/-! ## Downloads -/

/-- The device has stored a block: it ends the polls after the block, and without error. -/
def Exchange.confirms (transfer : Exchange) : Bool :=
  transfer.report? = some (.ok, .dfuDownloadIdle) ∨ transfer.report? = some (.ok, .dfuError)

/-- How many blocks have been confirmed. -/
def confirmed (transfers : List Exchange) : Nat :=
  (beforeEmptyBlock transfers).countP Exchange.confirms

theorem confirmed_append {first : List Exchange}
    (hopen : ∀ transfer ∈ first, transfer.isEmptyBlock = false) (rest : List Exchange) :
    confirmed (first ++ rest) = first.countP Exchange.confirms + confirmed rest := by
  have hfirst : beforeEmptyBlock (first ++ rest) = first ++ beforeEmptyBlock rest := by
    apply List.takeWhile_append_of_pos
    intro transfer hmem
    simp [hopen transfer hmem]
  rw [confirmed, hfirst, List.countP_append, confirmed]

theorem confirmed_eq_zero {transfers : List Exchange}
    (hnone : ∀ transfer ∈ transfers, transfer.confirms = false) : confirmed transfers = 0 := by
  apply List.countP_eq_zero.mpr
  intro transfer hmem
  simp [hnone transfer ((List.takeWhile_prefix _).mem hmem)]

namespace Download

/-- What is reported once so many blocks have been confirmed. -/
def reported (chunk size count : Nat) : Nat × Nat :=
  (min (count * chunk) size, size)

/-- The report that is due after some events of a download: the first one at its start, the others
after the confirmation of a block. -/
def due (chunk size : Nat) (earlier : List Event) : Option Event :=
  if earlier.isEmpty || (lastTransfer? earlier).any Exchange.confirms &&
      (exchanges earlier).all fun transfer => !transfer.isEmptyBlock then
    some (.downloaded (min (confirmed (exchanges earlier) * chunk) size) size)
  else none

end Download

namespace Session

open Download

variable {session : Session ω} {payload data : ByteArray} {block : UInt16}
  {start chunk position : Nat} {before after : Moment ω} {deeds history : List Event}

/-- The answers that confirm a block are those that end its polls without error. -/
theorem confirms_iff (session : Session ω) (bytes : ByteArray) :
    (Exchange.receive .getStatus 0 6 (.ok bytes)).confirms ↔
      (session.replyTo bytes).status.isOk ∧ (session.replyTo bytes).isSettled := by
  rw [StatusCode.isOk_iff, StatusReply.isSettled, session.replyTo_status, session.replyTo_state]
  simp only [Exchange.confirms, Exchange.report?, Option.some.injEq, Prod.ext_iff,
    decide_eq_true_eq]
  exact and_or_left.symm

theorem confirms_eq_false_of_not_settled {bytes : ByteArray}
    (hsettled : ¬ (session.replyTo bytes).isSettled) :
    (Exchange.receive .getStatus 0 6 (.ok bytes)).confirms = false :=
  Bool.eq_false_iff.mpr fun hconfirms => hsettled ((session.confirms_iff bytes).mp hconfirms).2

/-- No poll before the last one confirms the block, and the last one only with the status `OK`. -/
theorem Busy.confirms_of_error {fault : Fault}
    (hbusy : session.Busy start before deeds (.error fault) after) :
    ∀ transfer ∈ exchanges deeds, transfer.confirms = false := by
  generalize hresult : Except.error fault = result at hbusy
  induction hbusy with
  | lost => simp [Exchange.confirms, Exchange.report?]
  | settled => simp at hresult
  | late hasked hsettled hlate => simpa using confirms_eq_false_of_not_settled hsettled
  | again hasked hsettled hinTime hrest ih =>
      simpa using ⟨confirms_eq_false_of_not_settled hsettled, ih hresult⟩

theorem Busy.split_of_ok {reply : StatusReply}
    (hbusy : session.Busy start before deeds (.ok reply) after) :
    ∃ polls bytes delay, deeds = polls ++ [session.statusDeed (.ok bytes) delay] ∧
      (∀ poll ∈ exchanges polls, poll.confirms = false) ∧
      reply = session.replyTo bytes ∧ reply.isSettled := by
  generalize hresult : Except.ok reply = result at hbusy
  induction hbusy with
  | lost => simp at hresult
  | @settled _ _ bytes delay hasked hsettled =>
      cases hresult
      exact ⟨[], bytes, delay, rfl, by simp, rfl, hsettled⟩
  | late => simp at hresult
  | @again _ _ _ first wait _ _ hasked hsettled hinTime hrest ih =>
      rcases ih hresult with ⟨polls, bytes, delay, hdeeds, hpolls, hreply⟩
      refine ⟨session.statusDeed (.ok first) wait :: (session.replyTo first).sleeps ++ polls, bytes,
        delay, ?_, ?_, hreply⟩
      · rw [hdeeds, List.append_assoc]
      · simpa using ⟨confirms_eq_false_of_not_settled hsettled, hpolls⟩

theorem confirms_orderDeed (request : Request) (value : UInt16) (data : ByteArray)
    (taken : Except TransferError Nat) :
    (Exchange.out request value data taken).confirms = false := rfl

theorem Storing.confirms_of_error {fault : Fault}
    (hstoring : session.Storing block data before deeds (.error fault) after) :
    ∀ transfer ∈ exchanges deeds, transfer.confirms = false := by
  cases hstoring with
  | unsent htold => simp [confirms_orderDeed]
  | unsettled htold hbusy => simpa [confirms_orderDeed] using hbusy.confirms_of_error
  | refused htold hbusy hbad =>
      rcases hbusy.split_of_ok with ⟨polls, bytes, delay, rfl, hpolls, rfl, hsettled⟩
      have hlast : (Exchange.receive .getStatus 0 6 (.ok bytes)).confirms = false := by
        apply Bool.eq_false_iff.mpr
        intro hconfirms
        have hok := ((session.confirms_iff bytes).mp hconfirms).1
        rw [hbad] at hok
        contradiction
      simpa [confirms_orderDeed, or_imp, forall_and, hlast] using hpolls

theorem Storing.split_of_ok
    (hstoring : session.Storing block data before deeds (.ok ()) after) :
    ∃ polls bytes delay, deeds = polls ++ [session.statusDeed (.ok bytes) delay] ∧
      (∀ poll ∈ exchanges polls, poll.confirms = false) ∧
      (Exchange.receive .getStatus 0 6 (.ok bytes)).confirms := by
  cases hstoring with
  | stored htold hbusy hok =>
      rcases hbusy.split_of_ok with ⟨polls, bytes, delay, rfl, hpolls, rfl, hsettled⟩
      refine ⟨session.orderDeed .download block data (.ok _) _ :: polls, bytes, delay, rfl, ?_, ?_⟩
      · simpa [confirms_orderDeed] using hpolls
      · exact (session.confirms_iff bytes).mpr ⟨hok, hsettled⟩

/-- In the events so far, so many blocks have been confirmed, and the empty block is to come. -/
structure Sent (count : Nat) (history : List Event) : Prop where
  begun : history ≠ []
  unended : ∀ transfer ∈ exchanges history, transfer.isEmptyBlock = false
  count : (exchanges history).countP Exchange.confirms = count

theorem Sent.confirmed_eq {count : Nat} (hsent : Sent count history) :
    confirmed (exchanges history) = count := by
  have hall := confirmed_append hsent.unended []
  rwa [List.append_nil, hsent.count] at hall

theorem Sent.note {count : Nat} (hsent : Sent count history) (done total : Nat) :
    Sent count (history ++ [.downloaded done total]) where
  begun := by simp
  unended := by simpa using hsent.unended
  count := by simpa using hsent.count

theorem due_of_not_confirms {size : Nat} {event : Event}
    (hother : event.exchange?.any Exchange.confirms = false) (history : List Event) :
    Download.due chunk size (history ++ [event]) = none := by
  simp [Download.due, hother]

theorem due_after_emptyBlock (size : Nat) (block : UInt16) (taken : Except TransferError Nat)
    (delay : Nat) (rest : List Event) :
    Download.due chunk size
      (history ++ session.orderDeed .download block .empty taken delay :: rest) = none := by
  have hempty : (Exchange.out .download block .empty taken).isEmptyBlock := rfl
  simp [Download.due, hempty]

theorem confirmed_of_emptyBlock (block : UInt16) (taken : Except TransferError Nat)
    (transfers : List Exchange) : confirmed (.out .download block .empty taken :: transfers) = 0 :=
  rfl

theorem due_of_confirms {size count : Nat} {answer : Exchange} {route : Route} {delay : Nat}
    (hsent : Sent count (history ++ [.exchange route answer delay])) (hconfirms : answer.confirms) :
    Download.due chunk size (history ++ [.exchange route answer delay]) =
      some (.downloaded (min (count * chunk) size) size) := by
  have hlast : (lastTransfer? (history ++ [.exchange route answer delay])).any
      Exchange.confirms := by
    rw [lastTransfer?_concat]
    exact hconfirms
  have hopen : (exchanges (history ++ [.exchange route answer delay])).all
      fun transfer => !transfer.isEmptyBlock := by
    apply List.all_eq_true.mpr
    intro transfer hmem
    simp [hsent.unended transfer hmem]
  rw [Download.due, hlast, hopen, hsent.confirmed_eq]
  simp

theorem Storing.confirms_once
    (hstoring : session.Storing block data before deeds (.ok ()) after) :
    (exchanges deeds).countP Exchange.confirms = 1 := by
  rcases hstoring.split_of_ok with ⟨polls, bytes, delay, rfl, hpolls, hconfirms⟩
  have hnone : (exchanges polls).countP Exchange.confirms = 0 := by
    apply List.countP_eq_zero.mpr
    simpa using hpolls
  simp [hnone, hconfirms]

theorem Storing.sent {count : Nat} (hsent : Sent count history) (hdata : data ≠ .empty)
    (hstoring : session.Storing block data before deeds (.ok ()) after) :
    Sent (count + 1) (history ++ deeds) where
  begun := by simp [hsent.begun]
  unended := by
    rw [exchanges_append]
    exact List.forall_mem_append.mpr ⟨hsent.unended, hstoring.isEmptyBlock_eq_false hdata⟩
  count := by
    rw [exchanges_append, List.countP_append, hsent.count, hstoring.confirms_once]

theorem Sending.reportsAsDue {result : Except Fault Unit} (positive : 0 < chunk)
    (hsending : session.Sending payload chunk position before deeds result after)
    (hsent : Sent position history) (hnone : Download.due chunk payload.size history = none) :
    ReportsAsDue (Download.due chunk payload.size) history deeds := by
  induction hsending generalizing history with
  | failed hinside hstoring =>
      apply ReportsAsDue.of_unreported hstoring.does.unreported
      intro earlier later hsplit
      apply due_within _ hnone hsplit
      intro event hmem
      exact due_of_not_confirms (exchange?_any_eq_false hstoring.confirms_of_error event hmem)
  | stored hinside hstoring hrest ih =>
      have hdata := (planned_data_eq_empty_iff _ positive _).not.mpr (Nat.not_le_of_lt hinside)
      have hmore := hstoring.sent hsent hdata
      have hsilent := hstoring.does.unreported
      rcases hstoring.split_of_ok with ⟨polls, bytes, delay, rfl, hpolls, hconfirms⟩
      apply ReportsAsDue.append hsilent
      · intro earlier later hsplit hlater
        apply due_before_last _ hnone hsplit hlater
        intro event hmem
        exact due_of_not_confirms (exchange?_any_eq_false hpolls event hmem)
      · apply ReportsAsDue.report rfl
        · rw [planned_end hinside]
          rw [← List.append_assoc] at hmore ⊢
          exact due_of_confirms hmore hconfirms
        · apply ih
          · exact hmore.note _ _
          · exact due_of_not_confirms rfl _
  | endUnsent houtside htold =>
      apply ReportsAsDue.silent rfl hnone
      exact .nil (due_of_not_confirms rfl history)
  | ended houtside htold hmanifesting =>
      apply ReportsAsDue.of_unreported
      · simpa using hmanifesting.does.unreported
      · intro earlier later hsplit
        cases earlier with
        | nil => rwa [List.append_nil]
        | cons head rest =>
            rcases List.cons.inj hsplit with ⟨rfl, -⟩
            exact due_after_emptyBlock ..

/-- The reports from a position on are those of the blocks that are confirmed, in their order. -/
theorem Sending.progressReports_eq {result : Except Fault Unit} (positive : 0 < chunk)
    (hsending : session.Sending payload chunk position before deeds result after) :
    progressReports deeds = (List.range (confirmed (exchanges deeds))).map (fun count =>
        reported chunk payload.size (position + (count + 1))) ∧
      (result = .ok () → payload.size ≤ (position + confirmed (exchanges deeds)) * chunk) := by
  induction hsending with
  | failed hinside hstoring =>
      rw [hstoring.does.unreported.progressReports_eq,
        confirmed_eq_zero hstoring.confirms_of_error]
      exact ⟨rfl, by simp⟩
  | @stored position _ _ _ _ more _ hinside hstoring hrest ih =>
      have hdata := (planned_data_eq_empty_iff _ positive _).not.mpr (Nat.not_le_of_lt hinside)
      have hcount : confirmed (exchanges more) + 1 = 1 + confirmed (exchanges more) :=
        Nat.add_comm ..
      have hreport : progressReports (.downloaded (position * chunk +
          (planned payload chunk position).2.size) payload.size :: more) =
            reported chunk payload.size (position + 1) :: progressReports more := by
        rw [planned_end hinside]
        rfl
      rw [exchanges_append, exchanges_cons_downloaded,
        confirmed_append (hstoring.isEmptyBlock_eq_false hdata), hstoring.confirms_once,
        progressReports_append, hstoring.does.unreported.progressReports_eq, hreport, ih.1,
        ← hcount]
      constructor
      · simp [List.range_succ_eq_map, Nat.add_assoc, Nat.add_comm 1]
      · intro hok
        have hall := ih.2 hok
        rwa [Nat.add_assoc, Nat.add_comm 1] at hall
  | endUnsent houtside htold =>
      rw [exchanges_cons_orderDeed, confirmed_of_emptyBlock]
      exact ⟨rfl, by simp⟩
  | ended houtside htold hmanifesting =>
      have hsilent := hmanifesting.does.unreported.progressReports_eq
      rw [exchanges_cons_orderDeed, confirmed_of_emptyBlock]
      exact ⟨hsilent, fun _ => houtside⟩

end Session

/-! ## Exact reports -/

theorem ReportsAsDue.due_of_mem {due : List Event → Option Event} {history events : List Event}
    {report : Nat × Nat} (hplaced : ReportsAsDue due history events)
    (hmem : report ∈ progressReports events) :
    ∃ earlier event later, events = earlier ++ event :: later ∧
      due (history ++ earlier) = some event ∧ event.progress? = some report := by
  rcases List.mem_filterMap.mp hmem with ⟨event, hevent, hreport⟩
  rcases List.append_of_mem hevent with ⟨earlier, later, hsplit⟩
  have hprogress : event.isProgress := by
    cases event <;> simp_all [Event.progress?, Event.isProgress]
  have hdue := hplaced earlier (event :: later) hsplit
  rw [List.head?_cons, Option.filter_some, if_pos hprogress] at hdue
  exact ⟨earlier, event, later, hsplit, hdue.symm, hreport⟩

/-- The reports of a download of so many bytes: each stands where it is due, together they are one
more than the confirmed blocks, and the last one is complete if the download succeeds. -/
structure Download.ReportsExactly (chunk size : Nat) (deeds : List Event)
    (result : Except Fault Unit) : Prop where
  placed : ReportsAsDue (due chunk size) [] deeds
  sequence : progressReports deeds =
    (List.range (confirmed (exchanges deeds) + 1)).map (reported chunk size)
  complete : result = .ok () → (progressReports deeds).getLast? = some (size, size)

/-- The reports of an upload: each stands where it is due and keeps the limit, and there is none if
nothing is to be read. -/
structure Upload.ReportsExactly (limit : Option Nat) (deeds : List Event) : Prop where
  placed : ReportsAsDue (due limit) [] deeds
  within : ∀ done total, (done, total) ∈ progressReports deeds →
    total = limit.getD 0 ∧ ∀ most ∈ limit, done ≤ most
  silent : limit = some 0 → progressReports deeds = []

namespace Session

open Download Upload

variable {session : Session ω} {payload : ByteArray} {chunk bound position : Nat}
  {limit : Option Nat} {received : ByteArray} {before after : Moment ω} {deeds : List Event}

theorem Sending.reportsExactly {result : Except Fault Unit} (positive : 0 < chunk)
    (hsending : session.Sending payload chunk 0 before deeds result after) :
    Download.ReportsExactly chunk payload.size (.downloaded 0 payload.size :: deeds) result := by
  rcases hsending.progressReports_eq positive with ⟨hreports, hall⟩
  have hsequence : progressReports (.downloaded 0 payload.size :: deeds) =
      (List.range (confirmed (exchanges deeds) + 1)).map (reported chunk payload.size) := by
    have hfirst : reported chunk payload.size 0 = (0, payload.size) := by simp [reported]
    have hstart : progressReports (.downloaded 0 payload.size :: deeds) =
        (0, payload.size) :: progressReports deeds := rfl
    rw [hstart, hreports, List.range_succ_eq_map, List.map_cons, List.map_map, hfirst]
    simp [Function.comp_def]
  constructor
  · apply ReportsAsDue.report rfl
    · simp [Download.due, confirmed, beforeEmptyBlock]
    · apply hsending.reportsAsDue positive
      · exact ⟨by simp, by simp, by simp⟩
      · exact due_of_not_confirms rfl []
  · rw [exchanges_cons_downloaded]
    exact hsequence
  · intro hok
    have hcovered := hall hok
    rw [Nat.zero_add] at hcovered
    rw [hsequence, List.range_succ, List.map_append, List.map_singleton, List.getLast?_concat,
      reported, Nat.min_eq_right hcovered]

theorem Reading.unreported {result : Except Fault ByteArray}
    (hreading : session.Reading chunk limit bound position received before deeds result after)
    (hdone : ¬ received.size < reach limit bound) : Unreported deeds := by
  cases hreading with
  | failed hmore | short hmore | full hmore => contradiction
  | stuck _ hcancelling | complete _ _ hcancelling | tooLarge _ _ hcancelling =>
      exact hcancelling.does.unreported

theorem Fetching.reportsExactly {result : Except Fault ByteArray} (positive : 0 < chunk)
    (hchunk : chunk < UInt16.size) (hfits : session.pipe.Fits)
    (hfetching : session.Fetching chunk limit bound before deeds result after) :
    Upload.ReportsExactly limit deeds := by
  constructor
  · exact hfetching.reportsAsDue
  · intro done total hmem
    rcases hfetching.reportsAsDue.due_of_mem hmem with
      ⟨earlier, event, later, hsplit, hdue, hreport⟩
    rw [List.nil_append] at hdue
    rw [Upload.eq_of_due hdue] at hreport
    cases hreport
    exact ⟨rfl, (hfetching.holds positive hchunk hfits hsplit).limited⟩
  · intro hzero
    subst hzero
    cases hfetching with
    | unready hcancelling => exact hcancelling.does.unreported.progressReports_eq
    | ready hcancelling hreading =>
        have hreading := hreading.unreported (Nat.not_lt_zero _)
        rw [progressReports_append, hcancelling.does.unreported.progressReports_eq,
          hreading.progressReports_eq]
        rfl

theorem downloadPayload_reportsExactly (session : Session ω)
    (pace : Pace session.pipe session.deviations) {chunk : UInt16} (positive : 0 < chunk.toNat)
    (payload : ByteArray) (before : Moment ω) :
    ∃ deeds result after,
      (session.downloadPayload pace chunk payload).Performs before deeds result after ∧
      Download.ReportsExactly chunk.toNat payload.size deeds result := by
  rcases session.downloadPayload_performs pace positive payload before with
    ⟨deeds, result, after, hsending, hrun⟩
  exact ⟨_, result, after, hrun, hsending.reportsExactly positive⟩

/-- The device refuses the second of two blocks. -/
example :
    progressReports ((Script.session.downloadPayload (Script.pace _) 4 ⟨#[1, 2, 3, 4, 5, 6]⟩).run
      (.reporting [(0, 5), (3, 10)])).2.deeds = [(0, 6), (4, 6)] := by
  cbv

theorem uploadWithin_reportsExactly (session : Session ω) (hfits : session.pipe.Fits)
    (bound : Nat) (chunk : UInt16) (limit : Option Nat) (before : Moment ω) :
    ∃ deeds result after,
      (session.uploadWithin bound chunk limit).Performs before deeds result after ∧
      Upload.ReportsExactly limit deeds := by
  by_cases positive : 0 < chunk.toNat
  · rcases session.uploadWithin_performs bound positive limit before with
      ⟨deeds, result, after, hfetching, hrun⟩
    exact ⟨deeds, result, after, hrun, hfetching.reportsExactly positive chunk.toNat_lt hfits⟩
  · refine ⟨[], _, _, session.uploadWithin_refused bound positive limit before, ?_⟩
    exact ⟨.nil rfl, by simp [progressReports], fun _ => rfl⟩

end Session

end FirmwareUpgrade
