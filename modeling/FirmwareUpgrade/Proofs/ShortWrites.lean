import FirmwareUpgrade.Proofs.SessionDeeds
import Mathlib.Algebra.Order.BigOperators.Group.List
import Mathlib.Algebra.Order.Ring.Nat

/-!
# Short writes

The outcome of sending a block is the number of bytes that went out, which may be fewer than the
block has.  A download never looks at this number: what it reports as done are the bytes it handed
over.  So a short write is noticed only if the device itself does not confirm the block.
-/

namespace FirmwareUpgrade

variable {ω : Type}

/-! ## Blocks that went out -/

structure Write where
  size : Nat
  /-- How many bytes are said to have gone out. -/
  sent : Nat
deriving DecidableEq

def Exchange.write? : Exchange → Option Write
  | .out .download _ data (.ok count) => some ⟨data.size, count⟩
  | _ => none

theorem Exchange.write?_eq_none (transfer : Exchange) (hrequest : transfer.request = .getStatus) :
    transfer.write? = none := by
  cases transfer with
  | out request block data taken =>
      change request = .getStatus at hrequest
      subst hrequest
      rfl
  | receive => rfl

/-- The blocks that were accepted in some events. -/
def writes (events : List Event) : List Write :=
  (exchanges events).filterMap Exchange.write?

def handedOver (events : List Event) : Nat :=
  ((writes events).map Write.size).sum

def reportedSent (events : List Event) : Nat :=
  ((writes events).map Write.sent).sum

@[simp]
theorem writes_append (first second : List Event) :
    writes (first ++ second) = writes first ++ writes second := by
  simp [writes]

@[simp]
theorem writes_cons_downloaded (done total : Nat) (events : List Event) :
    writes (.downloaded done total :: events) = writes events := rfl

@[simp]
theorem handedOver_append (first second : List Event) :
    handedOver (first ++ second) = handedOver first + handedOver second := by
  simp [handedOver]

@[simp]
theorem handedOver_cons_downloaded (done total : Nat) (events : List Event) :
    handedOver (.downloaded done total :: events) = handedOver events := rfl

theorem handedOver_le_reportedSent {events : List Event}
    (hwhole : ∀ write ∈ writes events, write.size ≤ write.sent) :
    handedOver events ≤ reportedSent events :=
  List.sum_le_sum hwhole

/-- If no block counts for more than it has, the sums agree only if all the counts do. -/
theorem size_le_sent_of_handedOver_le {events : List Event}
    (hcounts : ∀ write ∈ writes events, write.sent ≤ write.size)
    (hsum : handedOver events ≤ reportedSent events) :
    ∀ write ∈ writes events, write.size ≤ write.sent := by
  intro write hmem
  by_contra hshort
  have hless : reportedSent events < handedOver events :=
    List.sum_lt_sum _ _ hcounts ⟨write, hmem, Nat.lt_of_not_le hshort⟩
  omega

/-! ## Progress -/

def Event.isProgress : Event → Bool
  | .downloaded _ _ | .uploaded _ _ => true
  | _ => false

/-- No progress is reported in the events. -/
def Unreported (events : List Event) : Prop :=
  ∀ event ∈ events, event.isProgress = false

@[simp]
theorem unreported_nil : Unreported [] := by
  simp [Unreported]

@[simp]
theorem unreported_cons {event : Event} {events : List Event} :
    Unreported (event :: events) ↔ event.isProgress = false ∧ Unreported events := by
  simp [Unreported]

/-- Each report of progress gives the bytes handed over before it, counted on from `start`. -/
def Accounts (start total : Nat) (events : List Event) : Prop :=
  ∀ earlier done all later, events = earlier ++ .downloaded done all :: later →
    done = start + handedOver earlier ∧ all = total

theorem Accounts.of_unreported {start total : Nat} {events : List Event}
    (hnone : Unreported events) : Accounts start total events := by
  rintro earlier done all later rfl
  have hreport := hnone (.downloaded done all) (by simp)
  contradiction

theorem Accounts.append {start total : Nat} {first second : List Event}
    (hfirst : Accounts start total first)
    (hsecond : Accounts (start + handedOver first) total second) :
    Accounts start total (first ++ second) := by
  intro earlier done all later hsplit
  rcases split_append hsplit with ⟨rest, hinside⟩ | ⟨rest, rfl, hinside⟩
  · exact hfirst earlier done all rest hinside
  · have hdone := hsecond rest done all later hinside
    rwa [handedOver_append, ← Nat.add_assoc]

theorem Accounts.cons_downloaded {start total : Nat} {events : List Event}
    (hrest : Accounts start total events) :
    Accounts start total (.downloaded start total :: events) := by
  intro earlier done all later hsplit
  cases earlier with
  | nil =>
      obtain ⟨hreport, -⟩ := List.cons.inj hsplit
      cases hreport
      exact ⟨rfl, rfl⟩
  | cons head earlier =>
      obtain ⟨rfl, hinside⟩ := List.cons.inj hsplit
      exact hrest earlier done all later hinside

/-! ## What a download notices -/

/-- No short write goes unnoticed: the download succeeds only if all of each block went out, and
reports no more bytes as done than went out. -/
structure NoticesShortWrites (events : List Event) (result : Except Fault Unit) : Prop where
  complete : result = .ok () → ∀ write ∈ writes events, write.size ≤ write.sent
  covered : ∀ earlier done total later, events = earlier ++ .downloaded done total :: later →
    done ≤ reportedSent earlier

/-- All of each block went out after which progress was reported. -/
def ConfirmsWhole (events : List Event) : Prop :=
  ∀ earlier done total later, events = earlier ++ .downloaded done total :: later →
    ∀ write ∈ writes earlier, write.size ≤ write.sent

theorem ConfirmsWhole.of_append {first second : List Event}
    (hwhole : ConfirmsWhole (first ++ second)) : ConfirmsWhole second := by
  rintro earlier done total later rfl write hmem
  apply hwhole (first ++ earlier) done total later (by simp)
  rw [writes_append]
  exact List.mem_append_right _ hmem

theorem ConfirmsWhole.of_cons {event : Event} {events : List Event}
    (hwhole : ConfirmsWhole (event :: events)) : ConfirmsWhole events := by
  rw [← List.singleton_append] at hwhole
  exact hwhole.of_append

namespace Session

open Download

variable {session : Session ω} {payload data : ByteArray} {block : UInt16}
  {chunk position start : Nat} {before after : Moment ω} {deeds : List Event}

@[simp]
theorem isProgress_orderDeed (request : Request) (value : UInt16) (data : ByteArray)
    (taken : Except TransferError Nat) (delay : Nat) :
    (session.orderDeed request value data taken delay).isProgress = false := rfl

theorem Does.unreported {allowed : Demand → Prop} (hdoes : session.Does allowed False deeds) :
    Unreported deeds := by
  intro event hmem
  cases hdoes event hmem with
  | transfer | sleep => rfl
  | downloaded _ _ hreporting | uploaded _ _ hreporting => exact hreporting.elim

theorem writes_sent_cons (count delay : Nat)
    (hstatus : ∀ transfer ∈ exchanges deeds, transfer.request = .getStatus) :
    writes (session.orderDeed .download block data (.ok count) delay :: deeds) =
      [⟨data.size, count⟩] := by
  have hnone : (exchanges deeds).filterMap Exchange.write? = [] :=
    List.filterMap_eq_nil_iff.mpr fun transfer hmem =>
      transfer.write?_eq_none (hstatus transfer hmem)
  rw [writes, exchanges_cons_orderDeed, List.filterMap_cons]
  simp only [Exchange.write?, hnone]

theorem Storing.writes_of_ok (hstoring : session.Storing block data before deeds (.ok ()) after) :
    ∃ count, writes deeds = [⟨data.size, count⟩] := by
  cases hstoring with
  | stored htold hbusy hok => exact ⟨_, writes_sent_cons _ _ hbusy.requests⟩

/-- What is reported from a position on goes on from the bytes before that position. -/
theorem Sending.accounts {result : Except Fault Unit}
    (hsending : session.Sending payload chunk position before deeds result after) :
    Accounts (min (position * chunk) payload.size) payload.size deeds ∧
      (result = .ok () →
        min (position * chunk) payload.size + handedOver deeds = payload.size) := by
  induction hsending with
  | failed hinside hstoring =>
      exact ⟨.of_unreported hstoring.does.unreported, by simp⟩
  | @stored position _ _ _ deeds more _ hinside hstoring hrest ih =>
      obtain ⟨hmore, htotal⟩ := ih
      obtain ⟨count, hwrites⟩ := hstoring.writes_of_ok
      have hblock : handedOver deeds = (planned payload chunk position).2.size := by
        simp [handedOver, hwrites]
      have hreport := planned_end hinside
      have hreached : min (position * chunk) payload.size + handedOver deeds =
          min ((position + 1) * chunk) payload.size := by
        omega
      constructor
      · apply Accounts.append (.of_unreported hstoring.does.unreported)
        rw [hreached, hreport]
        exact hmore.cons_downloaded
      · intro hok
        have hall := htotal hok
        rw [handedOver_append, handedOver_cons_downloaded]
        omega
  | endUnsent houtside htold =>
      exact ⟨.of_unreported (by simp), by simp⟩
  | @ended position _ _ _ count delay deeds _ houtside htold hmanifesting =>
      constructor
      · exact .of_unreported (by simpa using hmanifesting.does.unreported)
      · intro _
        have hempty : handedOver (session.orderDeed .download (UInt16.ofNat position) .empty
            (.ok count) delay :: deeds) = 0 := by
          simp [handedOver, writes_sent_cons count delay hmanifesting.requests]
        omega

/-- A download that succeeds has reported progress after each of its blocks but the empty one. -/
theorem Sending.complete
    (hsending : session.Sending payload chunk position before deeds (.ok ()) after)
    (hwhole : ConfirmsWhole deeds) : ∀ write ∈ writes deeds, write.size ≤ write.sent := by
  generalize hresult : Except.ok () = result at hsending
  induction hsending with
  | failed => simp at hresult
  | @stored _ _ _ _ deeds more _ hinside hstoring hrest ih =>
      have hfirst := hwhole deeds _ _ more rfl
      have hmore := ih hwhole.of_append.of_cons hresult
      intro write hmem
      rw [writes_append, writes_cons_downloaded, List.mem_append] at hmem
      rcases hmem with hmem | hmem
      · exact hfirst write hmem
      · exact hmore write hmem
  | endUnsent => simp at hresult
  | @ended _ _ _ _ count delay _ _ houtside htold hmanifesting =>
      intro write hmem
      rw [writes_sent_cons count delay hmanifesting.requests, List.mem_singleton] at hmem
      subst hmem
      exact Nat.zero_le _

/-- Progress counts the bytes handed over, whatever count comes back for them.  So no short write
goes unnoticed if each block that the device confirms went out completely, and only then unless some
block counts for more bytes than it has. -/
theorem downloadPayload_notices_short_writes (session : Session ω)
    (pace : Pace session.pipe session.deviations) (chunk : UInt16) (payload : ByteArray)
    (before : Moment ω) :
    ∃ deeds result after,
      (session.downloadPayload pace chunk payload).Performs before deeds result after ∧
      (∀ earlier done total later, deeds = earlier ++ .downloaded done total :: later →
        done = handedOver earlier ∧ total = payload.size) ∧
      (result = .ok () → handedOver deeds = payload.size) ∧
      (ConfirmsWhole deeds → NoticesShortWrites deeds result) ∧
      ((∀ write ∈ writes deeds, write.sent ≤ write.size) →
        NoticesShortWrites deeds result → ConfirmsWhole deeds) := by
  by_cases positive : 0 < chunk.toNat
  · obtain ⟨deeds, result, after, hsending, hrun⟩ :=
      session.downloadPayload_performs pace positive payload before
    obtain ⟨haccounts, htotal⟩ := hsending.accounts
    rw [Nat.zero_mul, Nat.zero_min] at haccounts htotal
    have hprogress := haccounts.cons_downloaded
    simp only [Accounts, Nat.zero_add] at hprogress htotal
    refine ⟨_, result, after, hrun, hprogress, htotal, ?_, ?_⟩
    · intro hwhole
      constructor
      · rintro rfl
        exact hsending.complete hwhole.of_cons
      · intro earlier done total later hsplit
        rw [(hprogress earlier done total later hsplit).1]
        exact handedOver_le_reportedSent (hwhole earlier done total later hsplit)
    · intro hcounts hnotices earlier done total later hsplit
      have hcovered := hnotices.covered earlier done total later hsplit
      rw [(hprogress earlier done total later hsplit).1] at hcovered
      apply size_le_sent_of_handedOver_le _ hcovered
      intro write hmem
      apply hcounts
      rw [hsplit, writes_append]
      exact List.mem_append_left _ hmem
  · refine ⟨_, _, _, session.downloadPayload_refused pace positive payload before, ?_⟩
    have hnone : Accounts 0 payload.size [] := .of_unreported unreported_nil
    simp only [Accounts, Nat.zero_add] at hnone
    refine ⟨hnone, by simp, fun _ => ⟨by simp, by simp⟩, fun _ _ => by simp [ConfirmsWhole]⟩

/-- Two of four bytes go out, and four are reported as done by a download that succeeds. -/
theorem downloadPayload_misses_short_write :
    let run := (Script.session.downloadPayload (Script.pace _) 4 ⟨#[1, 2, 3, 4]⟩).run
      (.initial ⟨[⟨.ok ⟨#[0, 0, 0, 0, 5, 0]⟩, 0, 0⟩, ⟨.ok ⟨#[0, 0, 0, 0, 2, 0]⟩, 0, 0⟩],
        [⟨.ok (some 2), 0, 0⟩], []⟩ .empty)
    run.1 = .ok () ∧ writes run.2.deeds = [⟨4, 2⟩, ⟨0, 0⟩] ∧
      ¬ NoticesShortWrites run.2.deeds run.1 := by
  intro run
  have hsending : Script.session.Sending ⟨#[1, 2, 3, 4]⟩ (4 : UInt16).toNat 0
      ⟨⟨[⟨.ok ⟨#[0, 0, 0, 0, 5, 0]⟩, 0, 0⟩, ⟨.ok ⟨#[0, 0, 0, 0, 2, 0]⟩, 0, 0⟩],
        [⟨.ok (some 2), 0, 0⟩], []⟩, 0⟩ _ _ _ :=
    .stored (by decide) (.stored rfl (.settled rfl (by decide)) (by decide))
      (.ended (by decide) rfl (.concluded rfl rfl))
  have hruns : Action.Runs _ (Host.initial _ .empty) _ _ :=
    (hsending.downloadPayload_performs (Script.pace _) (by decide)).runs
  have hresult : run.1 = .ok () := hruns.result_eq
  have hwrites : writes run.2.deeds = [⟨4, 2⟩, ⟨0, 0⟩] := by
    rw [hruns.last_deeds]
    rfl
  refine ⟨hresult, hwrites, fun hnotices => ?_⟩
  have hcomplete := hnotices.complete hresult ⟨4, 2⟩
  rw [hwrites] at hcomplete
  exact absurd (hcomplete List.mem_cons_self) (by decide)

end Session

end FirmwareUpgrade
