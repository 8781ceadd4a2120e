import FirmwareUpgrade.Proofs.Settling
import Mathlib.Data.Nat.Find

/-!
# Recoveries told by their answers

A device that answers from a tape gives fixed answers to requests for data and fixed outcomes to
requests that carry data, whatever else happens.  The course of a recovery is a function of the
tape: the first decisive answer ends the polls, the requests before it follow from the states
alone, and only the outcome of the last request of all can show in the result.
-/

namespace FirmwareUpgrade

variable {ω : Type}

/-! ## Tapes -/

/-- The answers to requests for data and the outcomes of the other requests, each in its order. -/
structure Tape where
  answers : Nat → Reaction ByteArray
  outcomes : Nat → Reaction Nat

namespace Tape

def afterAnswer (tape : Tape) : Tape :=
  { tape with answers := fun index => tape.answers (index + 1) }

def afterOutcome (tape : Tape) : Tape :=
  { tape with outcomes := fun index => tape.outcomes (index + 1) }

def pipe (route : Route) : ControlPipe Tape where
  route
  onOut _ _ _ tape := (tape.outcomes 0, tape.afterOutcome)
  onIn _ _ _ tape := (tape.answers 0, tape.afterAnswer)

end Tape

/-- The same session with a device that answers from a tape. -/
def Session.taped (session : Session ω) : Session Tape :=
  { session with pipe := Tape.pipe session.pipe.route }

/-! ## What the host does -/

/-- What the host does in an event, without what comes of it. -/
inductive Move where
  | asked (request : Request) (value length : UInt16)
  | sent (request : Request) (value : UInt16) (data : ByteArray)
  | slept (milliseconds : Nat)

def Event.move? : Event → Option Move
  | .exchange _ (.receive request value length _) _ => some (.asked request value length)
  | .exchange _ (.out request value data _) _ => some (.sent request value data)
  | .sleep milliseconds => some (.slept milliseconds)
  | _ => none

def moves (events : List Event) : List Move :=
  events.filterMap Event.move?

@[simp]
theorem moves_nil : moves [] = [] := rfl

@[simp]
theorem moves_append (first second : List Event) :
    moves (first ++ second) = moves first ++ moves second := by
  simp [moves]

@[simp]
theorem Session.moves_cons_statusDeed (session : Session ω)
    (answer : Except TransferError ByteArray) (delay : Nat) (events : List Event) :
    moves (session.statusDeed answer delay :: events) =
      .asked .getStatus 0 6 :: moves events := rfl

@[simp]
theorem Session.moves_cons_orderDeed (session : Session ω) (request : Request) (value : UInt16)
    (data : ByteArray) (taken : Except TransferError Nat) (delay : Nat) (events : List Event) :
    moves (session.orderDeed request value data taken delay :: events) =
      .sent request value data :: moves events := rfl

/-! ## The course that the answers call for -/

abbrev Heard := Except Fault StatusReply

/-- A request for the status, and the sleep that the reply asks for. -/
def listening (heard : Heard) : List Move :=
  .asked .getStatus 0 6 ::
    match heard with
    | .error _ => []
    | .ok reply => if reply.pollTime = 0 then [] else [.slept reply.pollTime.toNat]

def remedying : Heard → List Move
  | .error _ => []
  | .ok reply =>
    match reply.state with
    | .dfuError => [.sent .clearStatus 0 .empty]
    | .dfuDownloadIdle | .dfuUploadIdle => [.sent .abort 0 .empty]
    | _ => []

/-- An answer after which the status is not asked for again in the loop. -/
def isDecisive : Heard → Bool
  | .error _ => true
  | .ok reply => reply.state.isRuntime || reply.state == .dfuIdle

/-- The answer with this number is the first that is decisive. -/
def Decides (heard : Nat → Heard) (count : Nat) : Prop :=
  isDecisive (heard count) ∧ ∀ index < count, ¬ isDecisive (heard index)

def rounds (heard : Nat → Heard) (count : Nat) : List Move :=
  (List.range count).flatMap fun index => listening (heard index) ++ remedying (heard index)

def remedies (heard : Nat → Heard) (count : Nat) : Nat :=
  ((List.range count).flatMap fun index => remedying (heard index)).length

/-- What follows a decisive answer: what the host still does, and the result.  The outcome is that
of clearing the status. -/
def conclude (heard next : Heard) (outcome : Except TransferError Unit) : List Move × Heard :=
  match heard with
  | .error fault => ([], .error fault)
  | .ok reply =>
    if reply.state.isRuntime then ([], .error (.runtimeMode reply.state))
    else if reply.status.isOk then ([], .ok reply)
    else
      match outcome with
      | .error error => ([.sent .clearStatus 0 .empty], .error (.transfer error))
      | .ok () =>
        (.sent .clearStatus 0 .empty :: listening next,
          match next with
          | .error fault => .error fault
          | .ok cleared =>
            if cleared.status.isOk then .ok cleared
            else .error (.status cleared.status cleared.state))

def stateAfter (heard : Nat → Heard) (last : State) : Nat → State
  | 0 => last
  | count + 1 =>
    match heard count with
    | .ok reply => reply.state
    | .error _ => last

/-- The course of a recovery with some polls, by what is heard and what comes of the requests. -/
structure FollowsAnswers (heard : Nat → Heard) (outcomes : Nat → Except TransferError Unit)
    (polls : Nat) (last : State) (done : List Move) (result : Heard) : Prop where
  decided : ∀ count < polls, Decides heard count →
    let conclusion :=
      conclude (heard count) (heard (count + 1)) (outcomes (remedies heard count))
    done = rounds heard count ++ listening (heard count) ++ conclusion.1 ∧ result = conclusion.2
  undecided : (∀ index < polls, ¬ isDecisive (heard index)) →
    done = rounds heard polls ∧ result = .error (.notIdle (stateAfter heard last polls))

section Answers

variable {heard : Nat → Heard} {outcomes : Nat → Except TransferError Unit} {polls : Nat}
  {last : State} {done : List Move} {result : Heard}

theorem rounds_succ (heard : Nat → Heard) (count : Nat) :
    rounds heard (count + 1) =
      listening (heard 0) ++ remedying (heard 0) ++
        rounds (fun index => heard (index + 1)) count := by
  simp only [rounds, List.range_succ_eq_map, List.flatMap_cons, List.flatMap_map]

theorem remedies_succ (heard : Nat → Heard) (count : Nat) :
    remedies heard (count + 1) =
      remedies (fun index => heard (index + 1)) count + (remedying (heard 0)).length := by
  simp only [remedies, List.range_succ_eq_map, List.flatMap_cons, List.flatMap_map,
    List.length_append]
  exact Nat.add_comm ..

theorem isDecisive_ok_iff (reply : StatusReply) :
    isDecisive (.ok reply) ↔ reply.state.remedy = .giveUp ∨ reply.state.remedy = .ready := by
  rw [State.remedy_eq_giveUp_iff, State.remedy_eq_ready_iff]
  simp [isDecisive]

theorem stateAfter_succ {reply : StatusReply} (hheard : heard 0 = .ok reply)
    (hnone : ∀ index < polls + 1, ¬ isDecisive (heard index)) :
    stateAfter heard last (polls + 1) =
      stateAfter (fun index => heard (index + 1)) reply.state polls := by
  cases polls with
  | zero => simp [stateAfter, hheard]
  | succ polls =>
      have hlast := hnone (polls + 1) (Nat.lt_succ_self _)
      simp only [stateAfter]
      cases hreply : heard (polls + 1) with
      | ok reply => rfl
      | error fault => simp [hreply, isDecisive] at hlast

theorem FollowsAnswers.exhausted :
    FollowsAnswers heard outcomes 0 last [] (.error (.notIdle last)) where
  decided := by simp
  undecided := fun _ => ⟨rfl, rfl⟩

theorem FollowsAnswers.decisive (hdecisive : isDecisive (heard 0)) :
    FollowsAnswers heard outcomes (polls + 1) last
      (listening (heard 0) ++ (conclude (heard 0) (heard 1) (outcomes 0)).1)
      (conclude (heard 0) (heard 1) (outcomes 0)).2 where
  decided := by
    rintro count - ⟨-, hbefore⟩
    cases count with
    | zero => exact ⟨rfl, rfl⟩
    | succ count => exact absurd hdecisive (hbefore 0 (Nat.zero_lt_succ count))
  undecided := fun hnone => absurd hdecisive (hnone 0 (Nat.zero_lt_succ polls))

theorem FollowsAnswers.round {reply : StatusReply} {orders : List Move}
    (hheard : heard 0 = .ok reply) (hopen : ¬ isDecisive (heard 0))
    (horders : remedying (heard 0) = orders)
    (hrest : FollowsAnswers (fun index => heard (index + 1))
      (fun index => outcomes (index + orders.length)) polls reply.state done result) :
    FollowsAnswers heard outcomes (polls + 1) last (listening (heard 0) ++ orders ++ done)
      result where
  decided := by
    rintro count hcount ⟨hdecisive, hbefore⟩
    cases count with
    | zero => exact absurd hdecisive hopen
    | succ count =>
        have hdecides : Decides (fun index => heard (index + 1)) count :=
          ⟨hdecisive, fun index hindex => hbefore (index + 1) (Nat.succ_lt_succ hindex)⟩
        obtain ⟨hdone, hresult⟩ := hrest.decided count (Nat.lt_of_succ_lt_succ hcount) hdecides
        rw [rounds_succ, remedies_succ, horders, hdone]
        exact ⟨by simp only [List.append_assoc], hresult⟩
  undecided := by
    intro hnone
    obtain ⟨hdone, hresult⟩ := hrest.undecided fun index hindex =>
      hnone (index + 1) (Nat.succ_lt_succ hindex)
    rw [rounds_succ, horders, hdone, stateAfter_succ hheard hnone]
    exact ⟨rfl, hresult⟩

/-- Only the outcome of the last request of all can make a difference. -/
theorem FollowsAnswers.unique {outcomes' : Nat → Except TransferError Unit} {done' : List Move}
    {result' : Heard} (hfirst : FollowsAnswers heard outcomes polls last done result)
    (hsecond : FollowsAnswers heard outcomes' polls last done' result')
    (hsame : ∀ count < polls, Decides heard count →
      outcomes' (remedies heard count) = outcomes (remedies heard count)) :
    done' = done ∧ result' = result := by
  by_cases hfound : ∃ count, count < polls ∧ isDecisive (heard count)
  · obtain ⟨hlt, hdecisive⟩ := Nat.find_spec hfound
    have hdecides : Decides heard (Nat.find hfound) := by
      refine ⟨hdecisive, fun index hindex hearlier => ?_⟩
      exact Nat.find_min hfound hindex ⟨Nat.lt_trans hindex hlt, hearlier⟩
    obtain ⟨hdone, hresult⟩ := hfirst.decided _ hlt hdecides
    obtain ⟨hdone', hresult'⟩ := hsecond.decided _ hlt hdecides
    rw [hsame _ hlt hdecides] at hdone' hresult'
    exact ⟨hdone'.trans hdone.symm, hresult'.trans hresult.symm⟩
  · have hnone : ∀ index < polls, ¬ isDecisive (heard index) :=
      fun index hindex hdecisive => hfound ⟨index, hindex, hdecisive⟩
    obtain ⟨hdone, hresult⟩ := hfirst.undecided hnone
    obtain ⟨hdone', hresult'⟩ := hsecond.undecided hnone
    exact ⟨hdone'.trans hdone.symm, hresult'.trans hresult.symm⟩

end Answers

/-! ## Recoveries follow their answers -/

theorem moves_sleeps (reply : StatusReply) :
    moves reply.sleeps =
      if reply.pollTime = 0 then [] else [.slept reply.pollTime.toNat] := by
  unfold StatusReply.sleeps
  split <;> rfl

theorem remedying_ok (reply : StatusReply) :
    remedying (.ok reply) =
      (reply.state.remedy.request?.map fun request => Move.sent request 0 .empty).toList := by
  rcases reply with ⟨_, _, state, _⟩
  cases state <;> rfl

def Tape.outcome (tape : Tape) (index : Nat) : Except TransferError Unit :=
  (tape.outcomes index).result.map fun _ => ()

def Session.heard (session : Session ω) (tape : Tape) (index : Nat) : Heard :=
  session.statusOf (tape.answers index).result

namespace Session

variable {session : Session ω} {before after : Moment Tape} {deeds : List Event} {result : Heard}
  {request : Request}

@[simp]
theorem taped_replyTo (session : Session ω) (bytes : ByteArray) :
    session.taped.replyTo bytes = session.replyTo bytes := rfl

theorem taped_asked {value length : UInt16} {reaction : Reaction ByteArray}
    (hasked : session.taped.pipe.asked request value length before = (reaction, after)) :
    before.world.answers 0 = reaction ∧ after.world = before.world.afterAnswer := by
  cases hasked
  exact ⟨rfl, rfl⟩

theorem taped_told {value : UInt16} {data : ByteArray} {reaction : Reaction Nat}
    (htold : session.taped.pipe.told request value data before = (reaction, after)) :
    before.world.outcomes 0 = reaction ∧ after.world = before.world.afterOutcome := by
  cases htold
  exact ⟨rfl, rfl⟩

theorem heard_of_answer {tape : Tape} {index delay : Nat} {answer : Except TransferError ByteArray}
    (hanswer : tape.answers index = ⟨answer, delay⟩) :
    session.heard tape index = session.statusOf answer := by
  rw [heard, hanswer]

theorem Clearing.conclude_eq {reply : StatusReply} (hstate : reply.state.isRuntime = false)
    (hclearing : session.taped.Clearing reply before deeds result after) :
    conclude (.ok reply) (session.heard before.world 0) (before.world.outcome 0) =
      (moves deeds, result) := by
  cases hclearing with
  | unneeded hok => simp [conclude, hstate, hok]
  | refused hbad htold =>
      obtain ⟨houtcome, -⟩ := taped_told htold
      simp [conclude, hstate, hbad, Tape.outcome, houtcome, Except.map]
  | @unanswered _ _ _ error _ _ hbad htold hasked =>
      obtain ⟨houtcome, hmiddle⟩ := taped_told htold
      obtain ⟨hanswer, -⟩ := taped_asked hasked
      rw [hmiddle] at hanswer
      have hheard : session.heard before.world 0 = .error (.transfer error) :=
        heard_of_answer hanswer
      simp [conclude, hstate, hbad, Tape.outcome, houtcome, Except.map, hheard, listening]
  | @answered _ _ _ bytes _ _ hbad htold hasked =>
      obtain ⟨houtcome, hmiddle⟩ := taped_told htold
      obtain ⟨hanswer, -⟩ := taped_asked hasked
      rw [hmiddle] at hanswer
      have hheard : session.heard before.world 0 = .ok (session.replyTo bytes) :=
        heard_of_answer hanswer
      simp [conclude, hstate, hbad, Tape.outcome, houtcome, Except.map, hheard, listening,
        moves_sleeps, StatusReply.require, StatusReply.fault]
      rfl

theorem moves_listening {tape : Tape} {bytes : ByteArray} {delay : Nat}
    (hheard : session.heard tape 0 = .ok (session.replyTo bytes)) :
    moves (session.taped.statusDeed (.ok bytes) delay :: (session.taped.replyTo bytes).sleeps) =
      listening (session.heard tape 0) := by
  rw [hheard, moves_cons_statusDeed, taped_replyTo, moves_sleeps]
  rfl

theorem Settling.followsAnswers {polls : Nat} {last : State}
    (hsettling : session.taped.Settling polls last before deeds result after) :
    FollowsAnswers (session.heard before.world) before.world.outcome polls last (moves deeds)
      result := by
  induction hsettling with
  | exhausted => exact .exhausted
  | @lost polls last before after error delay hasked =>
      have hheard : session.heard before.world 0 = .error (.transfer error) :=
        heard_of_answer (taped_asked hasked).1
      have hfollows : FollowsAnswers (session.heard before.world) before.world.outcome (polls + 1)
          last _ _ := .decisive (by rw [hheard]; rfl)
      rw [hheard] at hfollows
      exact hfollows
  | @runtime polls last before after bytes delay hasked hremedy =>
      have hheard : session.heard before.world 0 = .ok (session.replyTo bytes) :=
        heard_of_answer (taped_asked hasked).1
      have hruntime := (State.remedy_eq_giveUp_iff _).mp hremedy
      have hfollows : FollowsAnswers (session.heard before.world) before.world.outcome (polls + 1)
          last _ _ := .decisive (by rw [hheard]; exact (isDecisive_ok_iff _).mpr (.inl hremedy))
      rw [moves_listening hheard]
      rw [taped_replyTo] at hruntime
      simpa [hheard, conclude, hruntime] using hfollows
  | @idle polls last before middle after bytes delay deeds result hasked hremedy hclearing =>
      obtain ⟨hanswer, hmiddle⟩ := taped_asked hasked
      have hheard : session.heard before.world 0 = .ok (session.replyTo bytes) :=
        heard_of_answer hanswer
      have hidle : (session.replyTo bytes).state = .dfuIdle :=
        (State.remedy_eq_ready_iff _).mp hremedy
      have hconclude := hclearing.conclude_eq (by rw [taped_replyTo, hidle]; rfl)
      rw [Moment.waited_world, hmiddle] at hconclude
      have hfollows : FollowsAnswers (session.heard before.world) before.world.outcome (polls + 1)
          last _ _ := .decisive (by rw [hheard]; exact (isDecisive_ok_iff _).mpr (.inr hremedy))
      have hconclusion : conclude (session.heard before.world 0) (session.heard before.world 1)
          (before.world.outcome 0) = (moves deeds, result) := by
        rw [hheard]
        exact hconclude
      rw [hconclusion] at hfollows
      rw [moves_append, moves_listening hheard]
      exact hfollows
  | @ordered polls last before middle next after bytes delay request taken time deeds result hasked
      hrequest htold hrest ih =>
      obtain ⟨hanswer, hmiddle⟩ := taped_asked hasked
      obtain ⟨-, hnext⟩ := taped_told htold
      have hheard : session.heard before.world 0 = .ok (session.replyTo bytes) :=
        heard_of_answer hanswer
      have horders : remedying (session.heard before.world 0) = [.sent request 0 .empty] := by
        rw [hheard, remedying_ok]
        exact congrArg _ (congrArg _ hrequest)
      rw [hnext, Moment.waited_world, hmiddle] at ih
      rw [moves_append, moves_listening hheard, moves_cons_orderDeed, List.append_cons]
      refine .round hheard ?_ horders ih
      rw [hheard, isDecisive_ok_iff]
      rintro (hgiveUp | hready)
      · simp [hgiveUp, Remedy.request?] at hrequest
      · simp [hready, Remedy.request?] at hrequest
  | @asked polls last before middle after bytes delay deeds result hasked hremedy hrest ih =>
      obtain ⟨hanswer, hmiddle⟩ := taped_asked hasked
      have hheard : session.heard before.world 0 = .ok (session.replyTo bytes) :=
        heard_of_answer hanswer
      have horders : remedying (session.heard before.world 0) = [] := by
        rw [hheard, remedying_ok, ← taped_replyTo, hremedy]
        rfl
      rw [Moment.waited_world, hmiddle] at ih
      rw [moves_append, moves_listening hheard, ← List.append_nil (listening _)]
      refine .round hheard ?_ horders ih
      rw [hheard, isDecisive_ok_iff]
      rintro (hgiveUp | hready)
      · simp [hgiveUp] at hremedy
      · simp [hready] at hremedy

theorem reachIdle_followsAnswers (session : Session ω) (tape : Tape) (clock : Nat) :
    ∃ deeds result after, session.taped.reachIdle.Performs ⟨tape, clock⟩ deeds result after ∧
      FollowsAnswers (session.heard tape) tape.outcome 16 (.unknown 0xFF) (moves deeds) result := by
  obtain ⟨deeds, result, after, hsettling, hrun⟩ :=
    session.taped.settle_performs readinessPolls (.unknown 0xFF) ⟨tape, clock⟩
  exact ⟨deeds, result, after, hrun, hsettling.followsAnswers⟩

/-- The course of a recovery follows from the answers.  What comes of the requests of its remedies
makes no difference: any tape with the same answers, and the same outcome of the request that clears
the status of an idle device, leads to the same course and the same result. -/
theorem reachIdle_course (session : Session ω) (tape : Tape) (clock : Nat) :
    ∃ deeds result after, session.taped.reachIdle.Performs ⟨tape, clock⟩ deeds result after ∧
      FollowsAnswers (session.heard tape) tape.outcome 16 (.unknown 0xFF) (moves deeds) result ∧
      ∀ (other : Tape) (time : Nat),
        (∀ index, (other.answers index).result = (tape.answers index).result) →
        (∀ count < 16, Decides (session.heard tape) count →
          other.outcome (remedies (session.heard tape) count) =
            tape.outcome (remedies (session.heard tape) count)) →
        ∃ deeds' after', session.taped.reachIdle.Performs ⟨other, time⟩ deeds' result after' ∧
          moves deeds' = moves deeds := by
  obtain ⟨deeds, result, after, hrun, hfollows⟩ := session.reachIdle_followsAnswers tape clock
  refine ⟨deeds, result, after, hrun, hfollows, ?_⟩
  intro other time hanswers houtcome
  obtain ⟨deeds', result', after', hrun', hfollows'⟩ :=
    session.reachIdle_followsAnswers other time
  have hheard : session.heard other = session.heard tape := by
    funext index
    exact congrArg session.statusOf (hanswers index)
  rw [hheard] at hfollows'
  obtain ⟨hmoves, rfl⟩ := hfollows.unique hfollows' houtcome
  exact ⟨deeds', after', hrun', hmoves⟩

end Session

end FirmwareUpgrade
