import FirmwareUpgrade.Proofs.Agreement
import FirmwareUpgrade.Proofs.Settling

/-!
# Sessions that mirror each other

The devices of two sessions may differ in what nothing depends on: in how many bytes of a block they
say they took, and in the string of a status reply.  Everything that is done with one of the
sessions agrees then with the same done with the other.
-/

namespace FirmwareUpgrade

variable {ω ω' : Type}

/-! ## Devices that answer alike -/

/-- The replies differ at most in their strings. -/
structure StatusReply.Agrees (reply reply' : StatusReply) : Prop where
  status : reply'.status = reply.status
  pollTime : reply'.pollTime = reply.pollTime
  state : reply'.state = reply.state

theorem StatusReply.agrees_self (reply : StatusReply) : reply.Agrees reply :=
  ⟨rfl, rfl, rfl⟩

def AnswersAgree (deviations : Deviations) : Request → ByteArray → ByteArray → Prop
  | .getStatus, bytes, bytes' =>
    (StatusReply.ofAnswer deviations bytes).Agrees (.ofAnswer deviations bytes')
  | _, bytes, bytes' => bytes = bytes'

theorem answersAgree_self (deviations : Deviations) (request : Request) (bytes : ByteArray) :
    AnswersAgree deviations request bytes bytes := by
  cases request with
  | getStatus => exact StatusReply.agrees_self _
  | _ => rfl

structure Reaction.Agrees {α α' : Type} (same : α → α' → Prop) (reaction : Reaction α)
    (reaction' : Reaction α') : Prop where
  result : ResultsAgree same reaction.result reaction'.result
  delay : reaction'.delay = reaction.delay

/-- The number of bytes that were taken is no matter. -/
abbrev SomeCount (_ _ : Nat) : Prop :=
  True

/-- In related worlds both devices react alike, and the worlds stay related. -/
structure ControlPipe.Mirrors (related : ω → ω' → Prop) (deviations : Deviations)
    (pipe : ControlPipe ω) (pipe' : ControlPipe ω') : Prop where
  onOut : ∀ request value data ⦃world world'⦄, related world world' →
    (pipe.onOut request value data world).1.Agrees SomeCount
        (pipe'.onOut request value data world').1 ∧
      related (pipe.onOut request value data world).2 (pipe'.onOut request value data world').2
  onIn : ∀ request value length ⦃world world'⦄, related world world' →
    (pipe.onIn request value length world).1.Agrees (AnswersAgree deviations request)
        (pipe'.onIn request value length world').1 ∧
      related (pipe.onIn request value length world).2 (pipe'.onIn request value length world').2

namespace ControlPipe

variable {related : ω → ω' → Prop} {deviations : Deviations} {pipe : ControlPipe ω}
  {pipe' : ControlPipe ω'}

theorem Mirrors.send (hpipe : pipe.Mirrors related deviations pipe') (request : Request)
    (value : UInt16) (data : ByteArray) :
    Action.Mirrors related SomeCount (pipe.send request value data)
      (pipe'.send request value data) := by
  intro before before' hbefore
  obtain ⟨hreaction, hworld⟩ := hpipe.onOut request value data hbefore.world
  refine .intro (send_performs rfl) (send_performs rfl) ?_ (hreaction.result.mapError _)
    ⟨hworld, ?_⟩
  · exact congrArg (fun delay => [Act.demand (.send request value data) delay]) hreaction.delay
  · exact congr (congrArg HAdd.hAdd hbefore.clock) hreaction.delay

theorem Mirrors.receive (hpipe : pipe.Mirrors related deviations pipe') (request : Request)
    (value length : UInt16) :
    Action.Mirrors related (AnswersAgree deviations request) (pipe.receive request value length)
      (pipe'.receive request value length) := by
  intro before before' hbefore
  obtain ⟨hreaction, hworld⟩ := hpipe.onIn request value length hbefore.world
  refine .intro (receive_performs rfl) (receive_performs rfl) ?_ (hreaction.result.mapError _)
    ⟨hworld, ?_⟩
  · exact congrArg (fun delay => [Act.demand (.receive request value length) delay])
      hreaction.delay
  · exact congr (congrArg HAdd.hAdd hbefore.clock) hreaction.delay

end ControlPipe

/-- The sessions are alike in everything that their work depends on. -/
structure Session.Mirrors (related : ω → ω' → Prop) (session : Session ω) (session' : Session ω') :
    Prop where
  pipe : session.pipe.Mirrors related session.deviations session'.pipe
  descriptor : session'.descriptor = session.descriptor
  packetSize : session'.packetSize = session.packetSize
  deviations : session'.deviations = session.deviations

/-! ## Requests -/

section Replies

variable {reply reply' : StatusReply}

theorem StatusReply.Agrees.isOk (hreply : reply.Agrees reply') :
    reply'.status.isOk = reply.status.isOk := by
  rw [hreply.status]

theorem StatusReply.Agrees.fault (hreply : reply.Agrees reply') : reply'.fault = reply.fault := by
  rw [StatusReply.fault, hreply.status, hreply.state, StatusReply.fault]

theorem StatusReply.Agrees.require {α α' : Type} {same : α → α' → Prop} {value : α} {value' : α'}
    (hreply : reply.Agrees reply') (hsame : same value value') :
    ResultsAgree same (reply.require value : Except Fault α) (reply'.require value') := by
  rw [StatusReply.require, StatusReply.require, hreply.isOk, hreply.fault]
  split
  · exact .ok hsame
  · exact .error _

theorem wait_mirrors {related : ω → ω' → Prop} (hreply : reply.Agrees reply') :
    Action.Mirrors related Eq reply.wait reply'.wait := by
  intro before before' hbefore
  refine .intro (wait_performs reply before) (wait_performs reply' before') ?_ (.ok rfl)
    ⟨hbefore.world, ?_⟩
  · rw [StatusReply.sleeps, StatusReply.sleeps, hreply.pollTime]
  · rw [Moment.waited_clock, Moment.waited_clock, hbefore.clock, hreply.pollTime]

end Replies

namespace Session

variable {related : ω → ω' → Prop} {session : Session ω} {session' : Session ω'}
  (hsession : session.Mirrors related session')

include hsession

theorem getStatus_mirrors :
    Action.Mirrors related StatusReply.Agrees session.getStatus session'.getStatus := by
  apply (hsession.pipe.receive _ _ _).bind
  intro bytes bytes' hanswer before before' hbefore
  have hreply : (session.replyTo bytes).Agrees (session'.replyTo bytes') := by
    rw [replyTo, replyTo, hsession.deviations]
    exact hanswer
  exact .intro (session.readStatus_performs bytes before)
    (session'.readStatus_performs bytes' before') rfl (.ok hreply) hbefore

theorem sendPlain_mirrors (request : Request) (value : UInt16) (notice notice' : Notice) :
    Action.Mirrors related Eq
      (do
        Action.note notice
        let _ ← session.pipe.send request value .empty : Action ω Unit)
      (do
        Action.note notice'
        let _ ← session'.pipe.send request value .empty : Action ω' Unit) := by
  apply Action.Mirrors.after_note
  apply (hsession.pipe.send _ _ _).bind
  intro _ _ _
  exact Action.mirrors_pure rfl

theorem clearStatus_mirrors : Action.Mirrors related Eq session.clearStatus session'.clearStatus :=
  sendPlain_mirrors hsession .clearStatus 0 _ _

theorem abort_mirrors : Action.Mirrors related Eq session.abort session'.abort :=
  sendPlain_mirrors hsession .abort 0 _ _

theorem download_mirrors (block : UInt16) (data : ByteArray) :
    Action.Mirrors related SomeCount (session.download block data)
      (session'.download block data) :=
  .after_note _ _ (hsession.pipe.send _ _ _)

theorem upload_mirrors (block length : UInt16) :
    Action.Mirrors related Eq (session.upload block length) (session'.upload block length) := by
  apply (hsession.pipe.receive _ _ _).bind
  intro data data' hdata
  cases hdata
  exact .after_note _ _ (Action.mirrors_pure rfl)

theorem cancelTransfer_mirrors :
    Action.Mirrors related StatusReply.Agrees session.cancelTransfer session'.cancelTransfer := by
  unfold cancelTransfer
  apply (abort_mirrors hsession).attempt.bind
  intro sent sent' hsent
  cases hsent with
  | error fault => exact .after_note _ _ (Action.mirrors_fail _)
  | ok =>
      apply (getStatus_mirrors hsession).attempt.bind
      intro heard heard' hheard
      cases hheard with
      | error fault => exact .after_note _ _ (Action.mirrors_fail _)
      | @ok reply reply' hreply =>
          dsimp only
          rw [hreply.state]
          split
          · exact .after_note _ _ (Action.mirrors_fail _)
          · apply (wait_mirrors hreply).bind
            intro _ _ _
            exact Action.mirrors_pure hreply

/-! ## Readiness -/

theorem clearLeftError_mirrors {reply reply' : StatusReply} (hreply : reply.Agrees reply') :
    Action.Mirrors related StatusReply.Agrees (session.clearLeftError reply)
      (session'.clearLeftError reply') := by
  unfold clearLeftError
  rw [hreply.isOk]
  split
  · exact Action.mirrors_pure hreply
  · apply Action.Mirrors.after_note
    apply (clearStatus_mirrors hsession).bind
    intro _ _ _
    apply (getStatus_mirrors hsession).bind
    intro cleared cleared' hcleared
    apply (wait_mirrors hcleared).bind
    intro _ _ _
    exact Action.mirrors_ofExcept (hcleared.require hcleared)

omit hsession in
theorem tolerate_mirrors {action : Action ω Unit} {action' : Action ω' Unit}
    (hmirrors : Action.Mirrors related Eq action action') (notice : Fault → Notice) :
    Action.Mirrors related Eq (tolerate action notice) (tolerate action' notice) := by
  apply hmirrors.attempt.bind
  intro result result' hresult
  cases hresult with
  | ok => exact Action.mirrors_pure rfl
  | error fault => exact Action.mirrors_note _ _

theorem settle_mirrors (polls : Nat) (last : State) :
    Action.Mirrors related StatusReply.Agrees (session.settle polls last)
      (session'.settle polls last) := by
  induction polls generalizing last with
  | zero => exact Action.mirrors_fail _
  | succ polls ih =>
      apply (getStatus_mirrors hsession).bind
      intro reply reply' hreply
      apply (wait_mirrors hreply).bind
      intro _ _ _
      rw [hreply.state]
      cases reply.state.remedy with
      | ready => exact clearLeftError_mirrors hsession hreply
      | giveUp => exact Action.mirrors_fail _
      | clearStatus =>
          apply (tolerate_mirrors (clearStatus_mirrors hsession) _).bind
          intro _ _ _
          exact ih _
      | abort =>
          apply (tolerate_mirrors (abort_mirrors hsession) _).bind
          intro _ _ _
          exact ih _
      | askAgain => exact .after_note _ _ (ih _)

theorem reachIdle_mirrors :
    Action.Mirrors related StatusReply.Agrees session.reachIdle session'.reachIdle :=
  settle_mirrors hsession readinessPolls (.unknown 0xFF)

end Session

end FirmwareUpgrade
