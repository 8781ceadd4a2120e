import FirmwareUpgrade.Proofs.BlockPlan
import Mathlib.Data.List.Chain

/-!
# Blocks after the first

A block should go to a device only after the device has confirmed the block before.  The polls
after a block end with the state `dfuDownloadIdle` or `dfuError`, and then only the status decides
whether the download goes on.  So the order of a download is kept exactly in those runs in which no
answer combines the state `dfuError` with the status `OK`.
-/

namespace FirmwareUpgrade

variable {ω : Type}

/-! ## The order of the transfers -/

/-- A block follows an answer without error in one of the given states. -/
def FollowsReport (states : List State) (previous next : Exchange) : Prop :=
  next.request = .download → ∃ state ∈ states, previous.report? = some (.ok, state)

/-- No block follows an answer in the state `dfuError`. -/
def StopsAtError (earlier later : Exchange) : Prop :=
  (∃ status, earlier.report? = some (status, .dfuError)) → later.request ≠ .download

/-- Each block after the first comes right after the confirmation of the block before, and none
comes after a failure. -/
structure Orderly (transfers : List Exchange) : Prop where
  confirmed : transfers.IsChain (FollowsReport [.dfuDownloadIdle])
  stopped : transfers.Pairwise StopsAtError

def Exchange.isEmptyBlock : Exchange → Bool
  | .out .download _ data _ => data.size == 0
  | _ => false

def beforeEmptyBlock (transfers : List Exchange) : List Exchange :=
  transfers.takeWhile fun transfer => !transfer.isEmptyBlock

theorem FollowsReport.of_request {states : List State} {previous next : Exchange}
    (hrequest : next.request ≠ .download) : FollowsReport states previous next :=
  fun hdownload => absurd hdownload hrequest

theorem pairwise_cons_of_requests {relation : Exchange → Exchange → Prop} {first : Exchange}
    {rest : List Exchange}
    (hrelation : ∀ previous next, next.request ≠ .download → relation previous next)
    (hrest : ∀ transfer ∈ rest, transfer.request = .getStatus) :
    (first :: rest).Pairwise relation := by
  have hnone {transfer : Exchange} (hmem : transfer ∈ rest) : transfer.request ≠ .download := by
    rw [hrest transfer hmem]
    decide
  refine List.pairwise_cons.mpr ⟨fun next hnext => hrelation _ _ (hnone hnext), ?_⟩
  exact List.pairwise_of_forall_mem_list fun _ _ next hnext => hrelation _ _ (hnone hnext)

theorem Orderly.block {first : Exchange} {polls : List Exchange}
    (hpolls : ∀ poll ∈ polls, poll.request = .getStatus) : Orderly (first :: polls) where
  confirmed := (pairwise_cons_of_requests (fun _ _ => .of_request) hpolls).isChain
  stopped := pairwise_cons_of_requests (fun _ _ hrequest _ => hrequest) hpolls

theorem orderly_append_iff {first rest : List Exchange} {last next : Exchange}
    (hfirst : Orderly first) (hlast : first.getLast? = some last)
    (hnext : rest.head? = some next) (hrequest : next.request = .download) :
    Orderly (first ++ rest) ↔
      last.report? = some (.ok, .dfuDownloadIdle) ∧
      (∀ earlier ∈ first, ∀ later ∈ rest, StopsAtError earlier later) ∧ Orderly rest := by
  constructor
  · rintro ⟨hconfirmed, hstopped⟩
    rw [List.isChain_append] at hconfirmed
    rw [List.pairwise_append] at hstopped
    obtain ⟨-, hconfirmed, hboundary⟩ := hconfirmed
    obtain ⟨-, hstopped, hacross⟩ := hstopped
    have hreport := hboundary last hlast next hnext hrequest
    simp only [List.mem_singleton, exists_eq_left] at hreport
    exact ⟨hreport, hacross, hconfirmed, hstopped⟩
  · rintro ⟨hreport, hacross, hconfirmed, hstopped⟩
    refine ⟨?_, List.pairwise_append.mpr ⟨hfirst.stopped, hstopped, hacross⟩⟩
    refine List.isChain_append.mpr ⟨hfirst.confirmed, hconfirmed, ?_⟩
    intro previous hprevious following hfollowing _
    rw [hlast] at hprevious
    rw [← Option.some.inj hprevious]
    exact ⟨_, List.mem_singleton_self _, hreport⟩

/-- What holds of the transfers of a download from any block on. -/
structure Advancing (transfers : List Exchange) : Prop where
  begins : ∃ next, transfers.head? = some next ∧ next.request = .download
  settled : transfers.IsChain (FollowsReport [.dfuDownloadIdle, .dfuError])
  orderly_iff : Orderly transfers ↔
    ∀ transfer ∈ beforeEmptyBlock transfers, transfer.report? ≠ some (.ok, .dfuError)

theorem Exchange.report?_eq_none {transfer : Exchange} (hrequest : transfer.request = .download) :
    transfer.report? = none := by
  cases transfer with
  | out => rfl
  | receive request value length result =>
      change request = .download at hrequest
      subst hrequest
      rfl

theorem Exchange.isEmptyBlock_eq_false {transfer : Exchange}
    (hrequest : transfer.request = .getStatus) : transfer.isEmptyBlock = false := by
  cases transfer with
  | out request block data result =>
      change request = .getStatus at hrequest
      subst hrequest
      rfl
  | receive => rfl

theorem beforeEmptyBlock_append {first : Exchange} {polls : List Exchange}
    (hdata : first.isEmptyBlock = false) (hpolls : ∀ poll ∈ polls, poll.request = .getStatus)
    (rest : List Exchange) :
    beforeEmptyBlock (first :: polls ++ rest) = first :: polls ++ beforeEmptyBlock rest := by
  apply List.takeWhile_append_of_pos
  intro transfer hmem
  rcases List.mem_cons.mp hmem with rfl | hmem
  · simp [hdata]
  · simp [Exchange.isEmptyBlock_eq_false (hpolls transfer hmem)]

theorem Advancing.last {first : Exchange} {polls : List Exchange}
    (hfirst : first.request = .download) (hpolls : ∀ poll ∈ polls, poll.request = .getStatus)
    (hclear : first.isEmptyBlock ∨ ∀ poll ∈ polls, poll.report? ≠ some (.ok, .dfuError)) :
    Advancing (first :: polls) where
  begins := ⟨first, rfl, hfirst⟩
  settled := (pairwise_cons_of_requests (fun _ _ => .of_request) hpolls).isChain
  orderly_iff := by
    refine iff_of_true (.block hpolls) ?_
    intro transfer hmem
    rcases hclear with hempty | hclear
    · simp [beforeEmptyBlock, hempty] at hmem
    · rcases List.mem_cons.mp ((List.takeWhile_prefix _).mem hmem) with rfl | hpoll
      · simp [Exchange.report?_eq_none hfirst]
      · exact hclear transfer hpoll

/-! ## One block -/

def Exchange.IsQuiet (transfer : Exchange) : Prop :=
  transfer.request = .getStatus ∧ ∀ status, transfer.report? ≠ some (status, .dfuError)

namespace Session

open Download

variable {session : Session ω} {payload data : ByteArray} {block : UInt16}
  {start chunk position : Nat} {before after : Moment ω} {deeds : List Event}

theorem quiet_of_not_settled {bytes : ByteArray} (hsettled : ¬ (session.replyTo bytes).isSettled) :
    (Exchange.receive .getStatus 0 6 (.ok bytes)).IsQuiet := by
  refine ⟨rfl, ?_⟩
  intro status hreport
  simp only [Exchange.report?, session.replyTo_report, Option.some.injEq, Prod.mk.injEq] at hreport
  exact hsettled (.inr hreport.2)

theorem Busy.quiet_of_error {fault : Fault}
    (hbusy : session.Busy start before deeds (.error fault) after) :
    ∀ poll ∈ exchanges deeds, poll.IsQuiet := by
  generalize hresult : Except.error fault = result at hbusy
  induction hbusy with
  | lost => simp [Exchange.IsQuiet, Exchange.request, Exchange.report?]
  | settled => simp at hresult
  | late _ hsettled _ => simpa using quiet_of_not_settled hsettled
  | again _ hsettled _ _ ih => simpa using ⟨quiet_of_not_settled hsettled, ih hresult⟩

theorem Busy.exchanges_of_ok {reply : StatusReply}
    (hbusy : session.Busy start before deeds (.ok reply) after) :
    ∃ polls bytes, exchanges deeds = polls ++ [.receive .getStatus 0 6 (.ok bytes)] ∧
      (∀ poll ∈ polls, poll.IsQuiet) ∧ reply = session.replyTo bytes ∧ reply.isSettled := by
  generalize hresult : Except.ok reply = result at hbusy
  induction hbusy with
  | lost => simp at hresult
  | @settled _ _ bytes _ _ hsettled =>
      cases hresult
      exact ⟨[], bytes, by simp, by simp, rfl, hsettled⟩
  | late => simp at hresult
  | @again _ _ _ bytes _ _ _ _ hsettled _ _ ih =>
      obtain ⟨polls, last, hdeeds, hpolls, hreply⟩ := ih hresult
      refine ⟨.receive .getStatus 0 6 (.ok bytes) :: polls, last, by simp [hdeeds], ?_, hreply⟩
      simpa using ⟨quiet_of_not_settled hsettled, hpolls⟩

theorem Storing.exchanges_of_error {fault : Fault}
    (hstoring : session.Storing block data before deeds (.error fault) after) :
    ∃ taken polls, exchanges deeds = .out .download block data taken :: polls ∧
      ∀ poll ∈ polls, poll.request = .getStatus ∧ poll.report? ≠ some (.ok, .dfuError) := by
  cases hstoring with
  | unsent htold => exact ⟨_, [], by simp; rfl, by simp⟩
  | unsettled htold hbusy =>
      refine ⟨_, _, exchanges_cons_orderDeed .., ?_⟩
      intro poll hmem
      have hquiet := hbusy.quiet_of_error poll hmem
      exact ⟨hquiet.1, hquiet.2 .ok⟩
  | refused htold hbusy hbad =>
      refine ⟨_, _, exchanges_cons_orderDeed .., ?_⟩
      obtain ⟨polls, bytes, hdeeds, hpolls, rfl, -⟩ := hbusy.exchanges_of_ok
      intro poll hmem
      rw [hdeeds, List.mem_append, List.mem_singleton] at hmem
      rcases hmem with hmem | rfl
      · exact ⟨(hpolls poll hmem).1, (hpolls poll hmem).2 .ok⟩
      · refine ⟨rfl, ?_⟩
        intro hreport
        simp only [Exchange.report?, session.replyTo_report, Option.some.injEq,
          Prod.mk.injEq] at hreport
        simp [hreport.1, StatusCode.isOk] at hbad

theorem Storing.exchanges_of_ok
    (hstoring : session.Storing block data before deeds (.ok ()) after) :
    ∃ taken polls bytes state, exchanges deeds =
        .out .download block data taken :: (polls ++ [.receive .getStatus 0 6 (.ok bytes)]) ∧
      (∀ poll ∈ polls, poll.IsQuiet) ∧ reportOf bytes = (.ok, state) ∧
      (state = .dfuDownloadIdle ∨ state = .dfuError) := by
  cases hstoring with
  | stored htold hbusy hok =>
      obtain ⟨polls, bytes, hdeeds, hpolls, rfl, hsettled⟩ := hbusy.exchanges_of_ok
      refine ⟨_, polls, bytes, _, by rw [exchanges_cons_orderDeed, hdeeds], hpolls, ?_, hsettled⟩
      rw [session.replyTo_report, (StatusCode.isOk_iff _).mp hok]

theorem Storing.isEmptyBlock_eq_false {result : Except Fault Unit} (hdata : data ≠ .empty)
    (hstoring : session.Storing block data before deeds result after) :
    ∀ transfer ∈ exchanges deeds, transfer.isEmptyBlock = false := by
  have hblock (taken : Except TransferError Nat) :
      (Exchange.out .download block data taken).isEmptyBlock = false :=
    beq_eq_false_iff_ne.mpr (mt ByteArray.size_eq_zero_iff.mp hdata)
  have hpolls {start : Nat} {before after : Moment ω} {polls : List Event}
      {result : Except Fault StatusReply} (hbusy : session.Busy start before polls result after) :
      ∀ transfer ∈ exchanges polls, transfer.isEmptyBlock = false := fun transfer hmem =>
    Exchange.isEmptyBlock_eq_false (hbusy.requests transfer hmem)
  cases hstoring with
  | unsent htold => simpa using hblock _
  | unsettled htold hbusy => simpa [hblock] using hpolls hbusy
  | refused htold hbusy => simpa [hblock] using hpolls hbusy
  | stored htold hbusy => simpa [hblock] using hpolls hbusy

end Session

theorem report?_ne_failure {first answer transfer : Exchange} {polls : List Exchange}
    (hfirst : first.request = .download) (hpolls : ∀ poll ∈ polls, poll.IsQuiet)
    (hreport : answer.report? = some (.ok, .dfuDownloadIdle))
    (hmem : transfer ∈ first :: (polls ++ [answer])) (status : StatusCode) :
    transfer.report? ≠ some (status, .dfuError) := by
  rw [List.mem_cons, List.mem_append, List.mem_singleton] at hmem
  rcases hmem with rfl | hmem | rfl
  · simp [Exchange.report?_eq_none hfirst]
  · exact (hpolls transfer hmem).2 status
  · simp [hreport]

/-- A stored block before the others.  If its last answer contradicts itself, the next block breaks
the order. -/
theorem Advancing.stored {first answer : Exchange} {polls rest : List Exchange} {state : State}
    (hfirst : first.request = .download) (hdata : first.isEmptyBlock = false)
    (hpolls : ∀ poll ∈ polls, poll.IsQuiet) (hanswer : answer.request = .getStatus)
    (hreport : answer.report? = some (.ok, state))
    (hstate : state = .dfuDownloadIdle ∨ state = .dfuError) (hrest : Advancing rest) :
    Advancing (first :: (polls ++ [answer]) ++ rest) := by
  obtain ⟨next, hnext, hrequest⟩ := hrest.begins
  have hstatus : ∀ poll ∈ polls ++ [answer], poll.request = .getStatus := by
    intro poll hmem
    rw [List.mem_append, List.mem_singleton] at hmem
    rcases hmem with hmem | rfl
    · exact (hpolls poll hmem).1
    · exact hanswer
  have hlast : (first :: (polls ++ [answer])).getLast? = some answer := by
    rw [← List.cons_append, List.getLast?_append_cons]
    rfl
  refine ⟨⟨first, rfl, hfirst⟩, ?_, ?_⟩
  · refine List.isChain_append.mpr ⟨?_, hrest.settled, ?_⟩
    · exact (pairwise_cons_of_requests (fun _ _ => .of_request) hstatus).isChain
    · intro previous hprevious following hfollowing _
      rw [hlast] at hprevious
      rw [← Option.some.inj hprevious]
      exact ⟨state, by simpa using hstate, hreport⟩
  · rw [beforeEmptyBlock_append hdata hstatus,
      orderly_append_iff (.block hstatus) hlast hnext hrequest]
    rcases hstate with rfl | rfl
    · -- A confirmed block reports no failure, so what is left are the transfers after it.
      have hquiet : ∀ transfer ∈ first :: (polls ++ [answer]), ∀ status,
          transfer.report? ≠ some (status, .dfuError) :=
        fun _ hmem => report?_ne_failure hfirst hpolls hreport hmem
      have hstops : ∀ earlier ∈ first :: (polls ++ [answer]), ∀ later ∈ rest,
          StopsAtError earlier later := by
        rintro earlier hmem _ _ ⟨status, herror⟩
        exact absurd herror (hquiet earlier hmem status)
      rw [hrest.orderly_iff, List.forall_mem_append]
      exact ⟨fun h => ⟨fun transfer hmem => hquiet transfer hmem .ok, h.2.2⟩,
        fun h => ⟨hreport, hstops, h.2⟩⟩
    · -- The answer breaks the order with the next block, and it is one of those excluded.
      refine iff_of_false ?_ ?_
      · simp [hreport]
      · intro hclear
        exact hclear answer (by simp) hreport

namespace Session

open Download

theorem Sending.advancing {session : Session ω} {payload : ByteArray} {chunk position : Nat}
    {before after : Moment ω} {deeds : List Event} {result : Except Fault Unit}
    (positive : 0 < chunk)
    (hsending : session.Sending payload chunk position before deeds result after) :
    Advancing (exchanges deeds) := by
  induction hsending with
  | failed hinside hstoring =>
      obtain ⟨taken, polls, hdeeds, hpolls⟩ := hstoring.exchanges_of_error
      rw [hdeeds]
      exact .last rfl (fun poll hmem => (hpolls poll hmem).1)
        (.inr fun poll hmem => (hpolls poll hmem).2)
  | stored hinside hstoring hrest ih =>
      obtain ⟨taken, polls, bytes, state, hdeeds, hpolls, hreport, hstate⟩ :=
        hstoring.exchanges_of_ok
      rw [exchanges_append, exchanges_cons_downloaded, hdeeds]
      refine .stored rfl ?_ hpolls rfl (congrArg some hreport) hstate ih
      have hdata := (planned_data_eq_empty_iff _ positive _).not.mpr (Nat.not_le_of_lt hinside)
      exact beq_eq_false_iff_ne.mpr (mt ByteArray.size_eq_zero_iff.mp hdata)
  | endUnsent houtside htold =>
      rw [exchanges_cons_orderDeed]
      exact .last rfl (by simp) (.inl rfl)
  | ended houtside htold hmanifesting =>
      rw [exchanges_cons_orderDeed]
      exact .last rfl hmanifesting.requests (.inl rfl)

/-- A download keeps its order exactly if no answer before the empty block reports the state
`dfuError` with the status `OK`; in any case the block before was answered without error in one of
the two states that end the polls. -/
theorem downloadPayload_orderly_iff (session : Session ω)
    (pace : Pace session.pipe session.deviations) (chunk : UInt16) (payload : ByteArray)
    (before : Moment ω) :
    ∃ deeds result after,
      (session.downloadPayload pace chunk payload).Performs before deeds result after ∧
      (exchanges deeds).IsChain (FollowsReport [.dfuDownloadIdle, .dfuError]) ∧
      (Orderly (exchanges deeds) ↔
        ∀ transfer ∈ beforeEmptyBlock (exchanges deeds),
          transfer.report? ≠ some (.ok, .dfuError)) := by
  by_cases positive : 0 < chunk.toNat
  · obtain ⟨deeds, result, after, hsending, hrun⟩ :=
      session.downloadPayload_performs pace positive payload before
    have hadvancing := hsending.advancing positive
    exact ⟨_, result, after, hrun, hadvancing.settled, hadvancing.orderly_iff⟩
  · exact ⟨_, _, _, session.downloadPayload_refused pace positive payload before, .nil,
      iff_of_true ⟨.nil, .nil⟩ (by simp [beforeEmptyBlock])⟩

/-- A device that reports the state `dfuError` with the status `OK` after each block is sent the
whole payload. -/
theorem downloadPayload_passes_failure :
    let run := (Script.session.downloadPayload (Script.pace _) 4 ⟨#[1, 2, 3, 4, 5, 6, 7, 8]⟩).run
      (.reporting [(0, 10), (0, 10), (0, 2)])
    run.1 = .ok () ∧ ¬ Orderly (exchanges run.2.deeds) := by
  intro run
  have hsending : Script.session.Sending ⟨#[1, 2, 3, 4, 5, 6, 7, 8]⟩ (4 : UInt16).toNat 0
      (Host.reporting [(0, 10), (0, 10), (0, 2)]).moment _ _ _ :=
    .stored (by decide) (.stored rfl (.settled rfl (by decide)) (by decide))
      (.stored (by decide) (.stored rfl (.settled rfl (by decide)) (by decide))
        (.ended (by decide) rfl (.concluded rfl rfl)))
  have hruns := (hsending.downloadPayload_performs (Script.pace _) (by decide)).runs
  have hrun : exchanges run.2.deeds =
      [.out .download 0 ⟨#[1, 2, 3, 4]⟩ (.ok 4),
        .receive .getStatus 0 6 (.ok ⟨#[0, 0, 0, 0, 10, 0]⟩),
        .out .download 1 ⟨#[5, 6, 7, 8]⟩ (.ok 4),
        .receive .getStatus 0 6 (.ok ⟨#[0, 0, 0, 0, 10, 0]⟩),
        .out .download 2 .empty (.ok 0),
        .receive .getStatus 0 6 (.ok ⟨#[0, 0, 0, 0, 2, 0]⟩)] := by
    rw [hruns.last_deeds]
    rfl
  refine ⟨hruns.result_eq, ?_⟩
  intro horderly
  rw [hrun] at horderly
  have hstopped := (List.pairwise_cons.mp (List.pairwise_cons.mp horderly.stopped).2).1
  exact hstopped (.out .download 1 ⟨#[5, 6, 7, 8]⟩ (.ok 4)) (by simp) ⟨.ok, rfl⟩ rfl

end Session

end FirmwareUpgrade
