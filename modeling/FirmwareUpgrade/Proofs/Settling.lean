import FirmwareUpgrade.Proofs.SessionRequests
import FirmwareUpgrade.Readiness

/-!
# The course of a recovery

`Session.Settling` lists everything that bringing a device to its idle state can do, one constructor
for each way a poll can go, and `settle_performs` shows that nothing else happens.  What follows
about recoveries is read off this relation.
-/

namespace FirmwareUpgrade

variable {ω : Type}

def Remedy.request? : Remedy → Option Request
  | .clearStatus => some .clearStatus
  | .abort => some .abort
  | .ready | .askAgain | .giveUp => none

theorem State.remedy_eq_ready_iff (state : State) :
    state.remedy = .ready ↔ state = .dfuIdle := by
  cases state <;> simp [remedy]

theorem State.remedy_eq_giveUp_iff (state : State) :
    state.remedy = .giveUp ↔ state.isRuntime := by
  cases state <;> simp [remedy, isRuntime]

namespace Session

/-- What is done about a reply of a device that is idle already. -/
inductive Clearing (session : Session ω) (reply : StatusReply) :
    Moment ω → List Event → Except Fault StatusReply → Moment ω → Prop
  | unneeded {moment} (hok : reply.status.isOk) :
      Clearing session reply moment [] (.ok reply) moment
  | refused {before after error delay} (hbad : reply.status.isOk = false)
      (htold : session.pipe.told .clearStatus 0 .empty before = (⟨.error error, delay⟩, after)) :
      Clearing session reply before [session.orderDeed .clearStatus 0 .empty (.error error) delay]
        (.error (.transfer error)) after
  | unanswered {before middle after count error delay wait} (hbad : reply.status.isOk = false)
      (htold : session.pipe.told .clearStatus 0 .empty before = (⟨.ok count, delay⟩, middle))
      (hasked : session.pipe.asked .getStatus 0 6 middle = (⟨.error error, wait⟩, after)) :
      Clearing session reply before
        [session.orderDeed .clearStatus 0 .empty (.ok count) delay,
          session.statusDeed (.error error) wait]
        (.error (.transfer error)) after
  | answered {before middle after count bytes delay wait} (hbad : reply.status.isOk = false)
      (htold : session.pipe.told .clearStatus 0 .empty before = (⟨.ok count, delay⟩, middle))
      (hasked : session.pipe.asked .getStatus 0 6 middle = (⟨.ok bytes, wait⟩, after)) :
      Clearing session reply before
        (session.orderDeed .clearStatus 0 .empty (.ok count) delay ::
          session.statusDeed (.ok bytes) wait :: (session.replyTo bytes).sleeps)
        ((session.replyTo bytes).require (session.replyTo bytes))
        (after.waited (session.replyTo bytes))

/-- What a recovery with some polls left does after the state `last` was reported. -/
inductive Settling (session : Session ω) :
    Nat → State → Moment ω → List Event → Except Fault StatusReply → Moment ω → Prop
  | exhausted {last moment} : Settling session 0 last moment [] (.error (.notIdle last)) moment
  | lost {polls last before after error delay}
      (hasked : session.pipe.asked .getStatus 0 6 before = (⟨.error error, delay⟩, after)) :
      Settling session (polls + 1) last before [session.statusDeed (.error error) delay]
        (.error (.transfer error)) after
  | runtime {polls last before after bytes delay}
      (hasked : session.pipe.asked .getStatus 0 6 before = (⟨.ok bytes, delay⟩, after))
      (hremedy : (session.replyTo bytes).state.remedy = .giveUp) :
      Settling session (polls + 1) last before
        (session.statusDeed (.ok bytes) delay :: (session.replyTo bytes).sleeps)
        (.error (.runtimeMode (session.replyTo bytes).state))
        (after.waited (session.replyTo bytes))
  | idle {polls last before middle after bytes delay deeds result}
      (hasked : session.pipe.asked .getStatus 0 6 before = (⟨.ok bytes, delay⟩, middle))
      (hremedy : (session.replyTo bytes).state.remedy = .ready)
      (hclearing : session.Clearing (session.replyTo bytes)
        (middle.waited (session.replyTo bytes)) deeds result after) :
      Settling session (polls + 1) last before
        (session.statusDeed (.ok bytes) delay :: (session.replyTo bytes).sleeps ++ deeds)
        result after
  | ordered {polls last before middle next after bytes delay request taken time deeds result}
      (hasked : session.pipe.asked .getStatus 0 6 before = (⟨.ok bytes, delay⟩, middle))
      (hrequest : (session.replyTo bytes).state.remedy.request? = some request)
      (htold : session.pipe.told request 0 .empty (middle.waited (session.replyTo bytes)) =
        (⟨taken, time⟩, next))
      (hrest : Settling session polls (session.replyTo bytes).state next deeds result after) :
      Settling session (polls + 1) last before
        (session.statusDeed (.ok bytes) delay :: (session.replyTo bytes).sleeps ++
          session.orderDeed request 0 .empty taken time :: deeds)
        result after
  | asked {polls last before middle after bytes delay deeds result}
      (hasked : session.pipe.asked .getStatus 0 6 before = (⟨.ok bytes, delay⟩, middle))
      (hremedy : (session.replyTo bytes).state.remedy = .askAgain)
      (hrest : Settling session polls (session.replyTo bytes).state
        (middle.waited (session.replyTo bytes)) deeds result after) :
      Settling session (polls + 1) last before
        (session.statusDeed (.ok bytes) delay :: (session.replyTo bytes).sleeps ++ deeds)
        result after

variable (session : Session ω)

theorem clearLeftError_performs (reply : StatusReply) (before : Moment ω) :
    ∃ deeds result after, session.Clearing reply before deeds result after ∧
      (session.clearLeftError reply).Performs before deeds result after := by
  unfold clearLeftError
  by_cases hok : reply.status.isOk
  · rw [if_pos hok]
    exact ⟨_, _, _, .unneeded hok, Action.performs_pure reply before⟩
  rw [if_neg hok]
  have hbad : reply.status.isOk = false := by simpa using hok
  rcases htold : session.pipe.told .clearStatus 0 .empty before with ⟨⟨taken, delay⟩, middle⟩
  have hclear := clearStatus_performs htold
  cases taken with
  | error error =>
      exact ⟨_, _, _, .refused hbad htold, .after_note hclear.bind_error⟩
  | ok count =>
      rcases hasked : session.pipe.asked .getStatus 0 6 middle with ⟨⟨answer, wait⟩, after⟩
      have hstatus := getStatus_performs hasked
      cases answer with
      | error error =>
          exact ⟨_, _, _, .unanswered hbad htold hasked,
            .after_note (hclear.bind_single hstatus.bind_error)⟩
      | ok bytes =>
          have hwait := wait_performs (session.replyTo bytes) after
          exact ⟨_, _, _, .answered hbad htold hasked, .after_note
            (hclear.bind_single (hstatus.bind_single
              (hwait.bind_silent (Action.performs_ofExcept _ _))))⟩

theorem tolerate_performs {action : Action ω Unit} {before after : Moment ω}
    {deeds : List Event} {result : Except Fault Unit} (notice : Fault → Notice)
    (haction : action.Performs before deeds result after) :
    (tolerate action notice).Performs before deeds (.ok ()) after := by
  cases result with
  | ok value => exact haction.attempt.bind_silent (Action.performs_pure () after)
  | error fault => exact haction.attempt.bind_silent (Action.performs_note (notice fault) after)

theorem settle_performs (polls : Nat) (last : State) (before : Moment ω) :
    ∃ deeds result after, session.Settling polls last before deeds result after ∧
      (session.settle polls last).Performs before deeds result after := by
  -- Whatever comes of a remedy, the device is asked again with one poll less.
  induction polls generalizing last before with
  | zero => exact ⟨_, _, _, .exhausted, Action.performs_fail _ before⟩
  | succ polls ih =>
      unfold settle
      rcases hasked : session.pipe.asked .getStatus 0 6 before with ⟨⟨answer, delay⟩, middle⟩
      have hstatus := getStatus_performs hasked
      cases answer with
      | error error => exact ⟨_, _, _, .lost hasked, hstatus.bind_error⟩
      | ok bytes =>
          have hwait := wait_performs (session.replyTo bytes) middle
          rcases hremedy : (session.replyTo bytes).state.remedy with _ | _ | _ | _ | _
          case ready =>
            obtain ⟨deeds, result, after, hclearing, hrun⟩ :=
              session.clearLeftError_performs (session.replyTo bytes)
                (middle.waited (session.replyTo bytes))
            refine ⟨_, _, _, .idle hasked hremedy hclearing, hstatus.bind_single (hwait.bind ?_)⟩
            simp only [hremedy]
            exact hrun
          case clearStatus =>
            rcases htold : session.pipe.told .clearStatus 0 .empty
              (middle.waited (session.replyTo bytes)) with ⟨⟨taken, time⟩, next⟩
            obtain ⟨deeds, result, after, hsettling, hrun⟩ :=
              ih (session.replyTo bytes).state next
            refine ⟨_, _, _, .ordered hasked (by rw [hremedy]; rfl) htold hsettling,
              hstatus.bind_single (hwait.bind ?_)⟩
            simp only [hremedy]
            exact (tolerate_performs _ (clearStatus_performs htold)).bind hrun
          case abort =>
            rcases htold : session.pipe.told .abort 0 .empty
              (middle.waited (session.replyTo bytes)) with ⟨⟨taken, time⟩, next⟩
            obtain ⟨deeds, result, after, hsettling, hrun⟩ :=
              ih (session.replyTo bytes).state next
            refine ⟨_, _, _, .ordered hasked (by rw [hremedy]; rfl) htold hsettling,
              hstatus.bind_single (hwait.bind ?_)⟩
            simp only [hremedy]
            exact (tolerate_performs _ (abort_performs htold)).bind hrun
          case askAgain =>
            obtain ⟨deeds, result, after, hsettling, hrun⟩ :=
              ih (session.replyTo bytes).state (middle.waited (session.replyTo bytes))
            refine ⟨_, _, _, .asked hasked hremedy hsettling, hstatus.bind_single (hwait.bind ?_)⟩
            simp only [hremedy]
            exact .after_note hrun
          case giveUp =>
            refine ⟨_, _, _, .runtime hasked hremedy, hstatus.bind_single (hwait.bind_silent ?_)⟩
            simp only [hremedy]
            exact Action.performs_fail _ _

/-- A device that is idle and reports no error is asked once. -/
theorem reachIdle_of_idle {session : Session ω} {before after : Moment ω} {bytes : ByteArray}
    {delay : Nat}
    (hasked : session.pipe.asked .getStatus 0 6 before = (⟨.ok bytes, delay⟩, after))
    (hidle : (session.replyTo bytes).state = .dfuIdle)
    (hok : (session.replyTo bytes).status.isOk) :
    session.reachIdle.Performs before
      (session.statusDeed (.ok bytes) delay :: (session.replyTo bytes).sleeps)
      (.ok (session.replyTo bytes)) (after.waited (session.replyTo bytes)) := by
  have hwait := wait_performs (session.replyTo bytes) after
  unfold reachIdle settle
  refine (getStatus_performs hasked).bind_single (hwait.bind_silent ?_)
  simp only [hidle, State.remedy, clearLeftError, if_pos hok]
  exact Action.performs_pure _ _

end Session

end FirmwareUpgrade
