import FirmwareUpgrade.Proofs.Downloading
import FirmwareUpgrade.Proofs.MirroredSessions
import FirmwareUpgrade.Proofs.Uploading

/-!
# Transfers that mirror each other

Downloads and uploads with sessions that mirror each other agree.  The polls of both go on for the
same time, since the clocks agree, so one measure serves for the two loops at once.
-/

namespace FirmwareUpgrade

variable {ω ω' : Type}

namespace Session

open Download Upload

variable {related : ω → ω' → Prop} {session : Session ω} {session' : Session ω'}

/-! ## Polls -/

theorem concludeManifestation_mirrors {reply reply' : StatusReply} (hreply : reply.Agrees reply') :
    Action.Mirrors related Eq (concludeManifestation reply) (concludeManifestation reply') := by
  unfold concludeManifestation
  rw [hreply.state, hreply.fault]
  split
  · exact .after_note _ _ (Action.mirrors_ofExcept (hreply.require rfl))
  · exact .after_note _ _ (Action.mirrors_ofExcept (hreply.require rfl))
  · exact .after_note _ _ (Action.mirrors_fail _)
  · exact .after_note _ _ (Action.mirrors_ofExcept (hreply.require rfl))

theorem eq_waited {before middle : Moment ω} {deeds : List Event} {reply : StatusReply}
    {result : Except Fault Unit} (hrun : reply.wait.Performs before deeds result middle) :
    middle = before.waited reply := by
  obtain ⟨-, -, hmiddle⟩ := (wait_performs reply before).unique hrun
  exact hmiddle

/-- Both look at the same clock, so it is too late for both or for none. -/
theorem inTime_agree {same : α → α' → Prop} {next : Action ω α} {next' : Action ω' α'}
    {start : Nat} {before : Moment ω} {before' : Moment ω'}
    (hbefore : before.Agrees related before')
    (hnext : ∀ {last}, before.Agrees related last → ¬ start + busyLimit ≤ before.clock →
      Action.Agree related same next next' before last) :
    Action.Agree related same
      (do
        let clock ← Action.now
        if start + busyLimit ≤ clock then Action.fail .timeout else next)
      (do
        let clock ← Action.now
        if start + busyLimit ≤ clock then Action.fail .timeout else next') before before' := by
  apply (Action.mirrors_now hbefore).bind
  intro none clock clock' middle middle' hnow hclock hmiddle
  cases hclock
  rcases (Action.performs_now before).unique hnow with ⟨-, hclock, rfl⟩
  cases hclock
  by_cases hlate : start + busyLimit ≤ middle.clock
  · rw [if_pos hlate, if_pos hlate]
    exact Action.mirrors_fail _ hmiddle
  · rw [if_neg hlate, if_neg hlate]
    exact hnext hmiddle hlate

theorem pollBusy_agree (hsession : session.Mirrors related session')
    (pace : Pace session.pipe session.deviations) (pace' : Pace session'.pipe session'.deviations)
    (start : Nat) {before : Moment ω} {before' : Moment ω'}
    (hbefore : before.Agrees related before') :
    Action.Agree related StatusReply.Agrees (⟨session.pollBusy pace start⟩ : Action ω StatusReply)
      (⟨session'.pollBusy pace' start⟩ : Action ω' StatusReply) before before' := by
  rw [session.pollBusy_eq, session'.pollBusy_eq]
  apply (getStatus_mirrors hsession hbefore).bind
  intro deeds reply reply' middle middle' hstatus hreply hmiddle
  have hboth : reply'.isSettled ↔ reply.isSettled := by
    change reply'.state = _ ∨ reply'.state = _ ↔ _
    rw [hreply.state]
  by_cases hsettled : reply.isSettled
  · rw [if_pos hsettled, if_pos (hboth.mpr hsettled)]
    exact Action.mirrors_pure hreply hmiddle
  · rw [if_neg hsettled, if_neg (mt hboth.mp hsettled)]
    apply (wait_mirrors hreply hmiddle).bind
    intro slept _ _ next next' hwait _ hnext
    apply inTime_agree hnext
    intro last' hlast hinTime
    exact pollBusy_agree hsession pace pace' start hlast
termination_by (start + busyLimit - before.clock, pace.instants before.world)
decreasing_by
  obtain rfl := eq_waited hwait
  exact session.busyRound_lowers pace hstatus hsettled hinTime

theorem pollManifestation_agree (hsession : session.Mirrors related session') (start : Nat)
    {before : Moment ω} {before' : Moment ω'} (hbefore : before.Agrees related before') :
    Action.Agree related Eq (⟨session.pollManifestation start⟩ : Action ω Unit)
      (⟨session'.pollManifestation start⟩ : Action ω' Unit) before before' := by
  rw [session.pollManifestation_eq, session'.pollManifestation_eq]
  apply ((getStatus_mirrors hsession).attempt hbefore).bind
  intro deeds heard heard' middle middle' hstatus hheard hmiddle
  cases hheard with
  | error fault =>
      dsimp only
      rw [hsession.descriptor]
      split
      · exact Action.mirrors_fail _ hmiddle
      · exact Action.mirrors_note _ _ hmiddle
  | @ok reply reply' hreply =>
      apply (wait_mirrors hreply hmiddle).bind
      intro slept _ _ waited waited' hwait _ hwaited
      rw [hreply.state]
      split
      · apply (Action.mirrors_record rfl hwaited).bind
        intro paused _ _ next next' hpause _ hnext
        apply inTime_agree hnext
        intro last' hlast hinTime
        exact pollManifestation_agree hsession start hlast
      · exact concludeManifestation_mirrors hreply hwaited
termination_by start + busyLimit - before.clock
decreasing_by
  obtain ⟨-, -, rfl⟩ := (Action.performs_record (.sleep settleTime) rfl waited).unique hpause
  have hlater := hstatus.clock
  have hslept := hwait.clock
  have hpaused : (Event.sleep settleTime).duration = 1000 := rfl
  rw [Moment.pass_clock] at hinTime ⊢
  omega

/-! ## Downloads -/

section Downloads

variable (hsession : session.Mirrors related session')
  (pace : Pace session.pipe session.deviations) (pace' : Pace session'.pipe session'.deviations)

include hsession

theorem awaitBlock_mirrors :
    Action.Mirrors related StatusReply.Agrees (session.awaitBlock pace)
      (session'.awaitBlock pace') :=
  Action.mirrors_of_clock (fun start => ⟨session.pollBusy pace start⟩)
    (fun start => ⟨session'.pollBusy pace' start⟩)
    fun before _ hbefore => pollBusy_agree hsession pace pace' before.clock hbefore

theorem storeBlock_mirrors (block : UInt16) (data : ByteArray) :
    Action.Mirrors related Eq (session.storeBlock pace block data)
      (session'.storeBlock pace' block data) := by
  apply (download_mirrors hsession block data).bind
  intro _ _ _
  apply (awaitBlock_mirrors hsession pace pace').bind
  intro reply reply' hreply
  rw [hreply.isOk, hreply.fault]
  split
  · exact Action.mirrors_pure rfl
  · exact .after_note _ _ (Action.mirrors_fail _)

theorem sendBlocks_mirrors (payload : ByteArray) (chunk : Nat) (positive : 0 < chunk)
    (block : UInt16) (offset : Nat) :
    Action.Mirrors related Eq
      (⟨session.sendBlocks pace payload chunk positive block offset⟩ : Action ω UInt16)
      (⟨session'.sendBlocks pace' payload chunk positive block offset⟩ : Action ω' UInt16) := by
  rw [session.sendBlocks_eq, session'.sendBlocks_eq]
  by_cases hinside : offset < payload.size
  · rw [if_pos hinside, if_pos hinside]
    apply (storeBlock_mirrors hsession pace pace' _ _).bind
    intro _ _ _
    apply (Action.mirrors_record rfl).bind
    intro _ _ _
    exact sendBlocks_mirrors payload chunk positive (block + 1) (offset + chunk)
  · rw [if_neg hinside, if_neg hinside]
    exact Action.mirrors_pure rfl
termination_by payload.size - offset

theorem endDownload_mirrors (block : UInt16) :
    Action.Mirrors related Eq (session.endDownload block) (session'.endDownload block) := by
  apply Action.Mirrors.after_note
  apply (download_mirrors hsession block .empty).bind
  intro _ _ _
  exact Action.mirrors_of_clock (fun start => ⟨session.pollManifestation start⟩)
    (fun start => ⟨session'.pollManifestation start⟩)
    fun before _ hbefore => pollManifestation_agree hsession before.clock hbefore

theorem downloadPayload_mirrors (chunk : UInt16) (payload : ByteArray) :
    Action.Mirrors related Eq (session.downloadPayload pace chunk payload)
      (session'.downloadPayload pace' chunk payload) := by
  unfold downloadPayload
  by_cases positive : 0 < chunk.toNat
  · rw [dif_pos positive, dif_pos positive]
    apply (Action.mirrors_record rfl).bind
    intro _ _ _
    apply (sendBlocks_mirrors hsession pace pace' payload chunk.toNat positive 0 0).bind
    rintro block _ rfl
    exact endDownload_mirrors hsession block
  · rw [dif_neg positive, dif_neg positive]
    exact Action.mirrors_fail _

end Downloads

/-! ## Uploads -/

section Uploads

variable (hsession : session.Mirrors related session')

include hsession

theorem endUpload_mirrors (limit : Option Nat) (bound : Nat) :
    Action.Mirrors related Eq (session.endUpload limit bound) (session'.endUpload limit bound) := by
  apply (cancelTransfer_mirrors hsession).bind
  intro _ _ _
  cases limit with
  | none => exact Action.mirrors_fail _
  | some limit => exact Action.mirrors_pure rfl

theorem readBlocks_mirrors (chunk : Nat) (positive : 0 < chunk) (limit : Option Nat) (bound : Nat)
    (block : UInt16) (received : ByteArray) :
    Action.Mirrors related Eq
      (⟨session.readBlocks chunk positive limit bound block received⟩ : Action ω ByteArray)
      (⟨session'.readBlocks chunk positive limit bound block received⟩ : Action ω' ByteArray) := by
  rw [session.readBlocks_eq, session'.readBlocks_eq]
  by_cases hmore : received.size < reach limit bound
  · rw [if_pos hmore, if_pos hmore]
    apply (upload_mirrors hsession _ _).bind
    rintro data _ rfl
    apply (Action.mirrors_record rfl).bind
    intro _ _ _
    by_cases hshort : data.size < nextLength chunk limit received.size
    · rw [if_pos hshort, if_pos hshort]
      exact Action.mirrors_pure rfl
    · rw [if_neg hshort, if_neg hshort]
      exact readBlocks_mirrors chunk positive limit bound (block + 1) (received ++ data)
  · rw [if_neg hmore, if_neg hmore]
    apply (endUpload_mirrors hsession limit bound).bind
    intro _ _ _
    exact Action.mirrors_pure rfl
termination_by reach limit bound - received.size
decreasing_by
  have hlength := nextLength_pos positive hmore
  rw [ByteArray.size_append]
  omega

theorem uploadWithin_mirrors (bound : Nat) (chunk : UInt16) (limit : Option Nat) :
    Action.Mirrors related Eq (session.uploadWithin bound chunk limit)
      (session'.uploadWithin bound chunk limit) := by
  unfold uploadWithin
  by_cases positive : 0 < chunk.toNat
  · rw [dif_pos positive, dif_pos positive]
    apply (cancelTransfer_mirrors hsession).bind
    intro _ _ _
    apply (readBlocks_mirrors hsession chunk.toNat positive limit bound 0 .empty).bind
    rintro data _ rfl
    exact .after_note _ _ (Action.mirrors_pure rfl)
  · rw [dif_neg positive, dif_neg positive]
    exact Action.mirrors_fail _

end Uploads

end Session

end FirmwareUpgrade
