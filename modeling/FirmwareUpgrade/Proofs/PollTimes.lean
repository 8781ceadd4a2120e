import FirmwareUpgrade.Proofs.Operations

/-!
# Poll times

A device says with each status how long the host should wait before it asks for the next one.  The
gaps between successive polls are listed here with the events in them.  In an upload the host sleeps
long enough in each gap.  In a flash the exception are the gaps between the last poll after a block
and the first poll after the next one, in which it does not sleep at all.
-/

namespace FirmwareUpgrade

variable {ω H : Type}

/-! ## Gaps between polls -/

/-- The answer to a poll, and the events up to the next poll. -/
structure PollGap where
  answer : ByteArray
  between : List Event

def Event.poll? : Event → Option (Except TransferError ByteArray)
  | .exchange _ (.receive .getStatus _ _ answer) _ => some answer
  | _ => none

def Event.sleepTime : Event → Nat
  | .sleep milliseconds => milliseconds
  | _ => 0

def slept : List Event → Nat
  | [] => 0
  | event :: events => event.sleepTime + slept events

namespace PollGap

def extend (gap : PollGap) (event : Event) : PollGap :=
  { gap with between := gap.between ++ [event] }

/-- The host sleeps at least as long as the answer asks for. -/
def Honoured (deviations : Deviations) (gap : PollGap) : Prop :=
  (StatusReply.ofAnswer deviations gap.answer).pollTime.toNat ≤ slept gap.between

/-- The gap that is open after an event; only an answered poll opens one. -/
def afterEvent (pending : Option PollGap) (event : Event) : Option PollGap :=
  match event.poll? with
  | some (.ok answer) => some ⟨answer, []⟩
  | some (.error _) => none
  | none => pending.map fun gap => gap.extend event

def afterEvents (pending : Option PollGap) (events : List Event) : Option PollGap :=
  events.foldl afterEvent pending

end PollGap

/-- The gaps that end in some events, the first of them with the gap that is open before. -/
def gapsFrom (pending : Option PollGap) : List Event → List PollGap
  | [] => []
  | event :: events =>
    (if event.poll?.isSome then pending.toList else [])
      ++ gapsFrom (PollGap.afterEvent pending event) events

def pollGaps (events : List Event) : List PollGap :=
  gapsFrom none events

theorem gapsFrom_append (pending : Option PollGap) (first second : List Event) :
    gapsFrom pending (first ++ second) =
      gapsFrom pending first ++ gapsFrom (PollGap.afterEvents pending first) second := by
  induction first generalizing pending with
  | nil => rfl
  | cons event first ih =>
      simp only [List.cons_append, gapsFrom, ih, List.append_assoc]
      rfl

theorem afterEvents_cons (pending : Option PollGap) (event : Event) (events : List Event) :
    PollGap.afterEvents pending (event :: events) =
      PollGap.afterEvents (PollGap.afterEvent pending event) events := rfl

theorem afterEvents_append (pending : Option PollGap) (first second : List Event) :
    PollGap.afterEvents pending (first ++ second) =
      PollGap.afterEvents (PollGap.afterEvents pending first) second :=
  List.foldl_append ..

theorem gapsFrom_cons_of_none {event : Event} (hnone : event.poll? = none)
    (pending : Option PollGap) (events : List Event) :
    gapsFrom pending (event :: events) =
      gapsFrom (pending.map fun gap => gap.extend event) events := by
  simp [gapsFrom, PollGap.afterEvent, hnone]

/-- A poll ends the gap that is open, and what comes after it does not depend on that gap. -/
theorem gapsFrom_cons_of_some {event : Event} {answer : Except TransferError ByteArray}
    (hpoll : event.poll? = some answer) (pending : Option PollGap) (events : List Event) :
    gapsFrom pending (event :: events) = pending.toList ++ pollGaps (event :: events) := by
  have hafter : PollGap.afterEvent pending event = PollGap.afterEvent none event := by
    unfold PollGap.afterEvent
    rw [hpoll]
    cases answer <;> rfl
  simp [pollGaps, gapsFrom, hpoll, hafter]

theorem poll?_eq_none_of_exchange? {event : Event} (hnone : event.exchange? = none) :
    event.poll? = none := by
  cases event with
  | exchange route transfer delay => simp [Event.exchange?] at hnone
  | _ => rfl

/-! ## Served gaps -/

/-- If a gap is open, the host has slept long enough in it already. -/
def Served (deviations : Deviations) (pending : Option PollGap) : Prop :=
  ∀ gap ∈ pending, gap.Honoured deviations

/-- From a served gap on, each gap that ends is honoured. -/
def Waits (deviations : Deviations) (events : List Event) : Prop :=
  ∀ pending, Served deviations pending → ∀ gap ∈ gapsFrom pending events, gap.Honoured deviations

/-- From a served gap on, each gap that ends is honoured, and the one left open is served. -/
structure Punctual (deviations : Deviations) (events : List Event) : Prop where
  waits : Waits deviations events
  served : ∀ pending, Served deviations pending →
    Served deviations (PollGap.afterEvents pending events)

section Served

variable {deviations : Deviations} {first second : List Event}

theorem served_none (deviations : Deviations) : Served deviations none := by
  simp [Served]

@[simp]
theorem slept_append (first second : List Event) :
    slept (first ++ second) = slept first + slept second := by
  induction first with
  | nil => simp [slept]
  | cons event first ih => rw [List.cons_append, slept, slept, ih, Nat.add_assoc]

theorem PollGap.Honoured.extend {gap : PollGap} (hhonoured : gap.Honoured deviations)
    (event : Event) : (gap.extend event).Honoured deviations := by
  have hslept := slept_append gap.between [event]
  unfold PollGap.Honoured PollGap.extend at *
  simp only [hslept]
  omega

theorem Punctual.append_waits (hfirst : Punctual deviations first)
    (hsecond : Waits deviations second) : Waits deviations (first ++ second) := by
  intro pending hserved gap hgap
  rw [gapsFrom_append, List.mem_append] at hgap
  rcases hgap with hgap | hgap
  · exact hfirst.waits pending hserved gap hgap
  · exact hsecond _ (hfirst.served pending hserved) gap hgap

theorem Punctual.append (hfirst : Punctual deviations first)
    (hsecond : Punctual deviations second) : Punctual deviations (first ++ second) where
  waits := hfirst.append_waits hsecond.waits
  served pending hserved := by
    rw [afterEvents_append]
    exact hsecond.served _ (hfirst.served pending hserved)

theorem punctual_nil (deviations : Deviations) : Punctual deviations [] where
  waits pending hserved gap hgap := by simp [gapsFrom] at hgap
  served pending hserved := hserved

theorem punctual_of_none {event : Event} (hnone : event.poll? = none) :
    Punctual deviations [event] where
  waits pending hserved gap hgap := by
    rw [gapsFrom_cons_of_none hnone] at hgap
    simp [gapsFrom] at hgap
  served pending hserved := by
    intro gap hgap
    simp only [PollGap.afterEvents, List.foldl_cons, List.foldl_nil, PollGap.afterEvent, hnone,
      Option.mem_def, Option.map_eq_some_iff] at hgap
    obtain ⟨earlier, hearlier, rfl⟩ := hgap
    exact (hserved earlier hearlier).extend event

theorem Punctual.cons_of_none {event : Event} (hnone : event.poll? = none)
    (hrest : Punctual deviations second) : Punctual deviations (event :: second) :=
  (punctual_of_none hnone).append hrest

theorem waits_cons_of_none {event : Event} (hnone : event.poll? = none)
    (hrest : Waits deviations second) : Waits deviations (event :: second) :=
  (punctual_of_none hnone).append_waits hrest

theorem pollGaps_eq_nil {events : List Event} (hnone : exchanges events = []) :
    pollGaps events = [] ∧ PollGap.afterEvents none events = none := by
  induction events with
  | nil => exact ⟨rfl, rfl⟩
  | cons event events ih =>
      have hparts := List.filterMap_eq_nil_iff.mp hnone
      have hevent := poll?_eq_none_of_exchange? (hparts event List.mem_cons_self)
      have hevents : exchanges events = [] :=
        List.filterMap_eq_nil_iff.mpr fun other hmem => hparts other (List.mem_cons_of_mem _ hmem)
      obtain ⟨hgaps, hafter⟩ := ih hevents
      constructor
      · rw [pollGaps, gapsFrom_cons_of_none hevent]
        exact hgaps
      · rw [PollGap.afterEvents, List.foldl_cons, PollGap.afterEvent, hevent]
        exact hafter

theorem gapsFrom_eq_nil {events : List Event} (hnone : exchanges events = [])
    (pending : Option PollGap) : gapsFrom pending events = [] := by
  induction events generalizing pending with
  | nil => rfl
  | cons event events ih =>
      have hparts := List.filterMap_eq_nil_iff.mp hnone
      have hevent := poll?_eq_none_of_exchange? (hparts event List.mem_cons_self)
      rw [gapsFrom_cons_of_none hevent]
      exact ih (List.filterMap_eq_nil_iff.mpr fun other hmem =>
        hparts other (List.mem_cons_of_mem _ hmem)) _

end Served

/-! ## The courses of a session -/

namespace Session

variable {session : Session ω} {start : Nat} {before after : Moment ω} {deeds : List Event}

theorem waits_answered (bytes : ByteArray) (delay : Nat) :
    Waits session.deviations [session.statusDeed (.ok bytes) delay] := by
  intro pending hserved gap hgap
  rw [gapsFrom_cons_of_some rfl] at hgap
  exact hserved gap (by simpa [pollGaps, gapsFrom] using hgap)

theorem punctual_unanswered (error : TransferError) (delay : Nat) :
    Punctual session.deviations [session.statusDeed (.error error) delay] where
  waits pending hserved gap hgap := by
    rw [gapsFrom_cons_of_some rfl] at hgap
    exact hserved gap (by simpa [pollGaps, gapsFrom] using hgap)
  served pending hserved := served_none _

/-- An answered poll and the sleep that the answer asks for. -/
theorem punctual_listening (bytes : ByteArray) (delay : Nat) :
    Punctual session.deviations
      (session.statusDeed (.ok bytes) delay :: (session.replyTo bytes).sleeps) := by
  have hpolled (pending : Option PollGap) :
      PollGap.afterEvents pending
        (session.statusDeed (.ok bytes) delay :: (session.replyTo bytes).sleeps) =
      some ⟨bytes, (session.replyTo bytes).sleeps⟩ := by
    unfold StatusReply.sleeps
    split <;> rfl
  have hslept : (session.replyTo bytes).pollTime.toNat ≤
      slept (session.replyTo bytes).sleeps := by
    unfold StatusReply.sleeps
    split
    · next hzero => simp [hzero]
    · simp [slept, Event.sleepTime]
  constructor
  · have hquiet : ∀ pending, gapsFrom pending (session.replyTo bytes).sleeps = [] :=
      gapsFrom_eq_nil (exchanges_sleeps _)
    intro pending hserved gap hgap
    rw [← List.singleton_append, gapsFrom_append, hquiet, List.append_nil] at hgap
    exact waits_answered bytes delay pending hserved gap hgap
  · intro pending hserved gap hgap
    rw [hpolled, Option.mem_some_iff] at hgap
    subst hgap
    exact hslept

theorem Clearing.punctual {reply : StatusReply} {result : Except Fault StatusReply}
    (hclearing : session.Clearing reply before deeds result after) :
    Punctual session.deviations deeds := by
  cases hclearing with
  | unneeded => exact punctual_nil _
  | refused => exact punctual_of_none rfl
  | unanswered => exact (punctual_unanswered _ _).cons_of_none rfl
  | answered => exact (punctual_listening _ _).cons_of_none rfl

theorem Settling.punctual {polls : Nat} {last : State} {result : Except Fault StatusReply}
    (hsettling : session.Settling polls last before deeds result after) :
    Punctual session.deviations deeds := by
  induction hsettling with
  | exhausted => exact punctual_nil _
  | lost => exact punctual_unanswered _ _
  | runtime => exact punctual_listening _ _
  | idle hasked hremedy hclearing => exact (punctual_listening _ _).append hclearing.punctual
  | ordered hasked hrequest htold hrest ih =>
      exact (punctual_listening _ _).append (ih.cons_of_none rfl)
  | asked hasked hremedy hrest ih => exact (punctual_listening _ _).append ih

theorem Cancelling.waits {result : Except Fault StatusReply}
    (hcancelling : session.Cancelling before deeds result after) :
    Waits session.deviations deeds := by
  cases hcancelling with
  | unsent => exact (punctual_of_none rfl).waits
  | unconfirmed => exact waits_cons_of_none rfl (punctual_unanswered _ _).waits
  | ignored => exact waits_cons_of_none rfl (waits_answered _ _)
  | cancelled => exact waits_cons_of_none rfl (punctual_listening _ _).waits

theorem Cancelling.punctual_of_ok {reply : StatusReply}
    (hcancelling : session.Cancelling before deeds (.ok reply) after) :
    Punctual session.deviations deeds := by
  cases hcancelling with
  | cancelled => exact (punctual_listening _ _).cons_of_none rfl

theorem Reading.waits {chunk bound position : Nat} {limit : Option Nat} {received : ByteArray}
    {result : Except Fault ByteArray}
    (hreading : session.Reading chunk limit bound position received before deeds result after) :
    Waits session.deviations deeds := by
  induction hreading with
  | failed => exact (punctual_of_none rfl).waits
  | short => exact waits_cons_of_none rfl (punctual_of_none rfl).waits
  | full hmore hasked hfull hrest ih => exact waits_cons_of_none rfl (waits_cons_of_none rfl ih)
  | stuck hdone hcancelling => exact hcancelling.waits
  | complete hlimit hdone hcancelling => exact hcancelling.waits
  | tooLarge hlimit hdone hcancelling => exact hcancelling.waits

theorem Fetching.waits {chunk bound : Nat} {limit : Option Nat} {result : Except Fault ByteArray}
    (hfetching : session.Fetching chunk limit bound before deeds result after) :
    Waits session.deviations deeds := by
  cases hfetching with
  | unready hcancelling => exact hcancelling.waits
  | ready hcancelling hreading => exact hcancelling.punctual_of_ok.append_waits hreading.waits

theorem Busy.waits {result : Except Fault StatusReply}
    (hbusy : session.Busy start before deeds result after) : Waits session.deviations deeds := by
  induction hbusy with
  | lost => exact (punctual_unanswered _ _).waits
  | settled => exact waits_answered _ _
  | late => exact (punctual_listening _ _).waits
  | again hasked hsettled hinTime hrest ih => exact (punctual_listening _ _).append_waits ih

theorem Manifesting.waits {result : Except Fault Unit}
    (hmanifesting : session.Manifesting start before deeds result after) :
    Waits session.deviations deeds := by
  induction hmanifesting with
  | left => exact (punctual_unanswered _ _).waits
  | lost => exact (punctual_unanswered _ _).waits
  | concluded => exact (punctual_listening _ _).waits
  | late => exact ((punctual_listening _ _).append (punctual_of_none rfl)).waits
  | again hasked hwork hnext hinTime hrest ih =>
      exact (punctual_listening _ _).append_waits (waits_cons_of_none rfl ih)

/-! ## Blocks of a download -/

theorem Busy.starts {result : Except Fault StatusReply}
    (hbusy : session.Busy start before deeds result after) :
    ∃ answer delay rest, deeds = session.statusDeed answer delay :: rest := by
  cases hbusy with
  | lost => exact ⟨_, _, _, rfl⟩
  | settled => exact ⟨_, _, _, rfl⟩
  | late => exact ⟨_, _, _, rfl⟩
  | again => exact ⟨_, _, _, rfl⟩

theorem Manifesting.starts {result : Except Fault Unit}
    (hmanifesting : session.Manifesting start before deeds result after) :
    ∃ answer delay rest, deeds = session.statusDeed answer delay :: rest := by
  cases hmanifesting with
  | left => exact ⟨_, _, _, rfl⟩
  | lost => exact ⟨_, _, _, rfl⟩
  | concluded => exact ⟨_, _, _, rfl⟩
  | late => exact ⟨_, _, _, rfl⟩
  | again => exact ⟨_, _, _, rfl⟩

/-- The last poll after a block leaves a gap without any sleep. -/
theorem Busy.afterEvents_of_ok {reply : StatusReply}
    (hbusy : session.Busy start before deeds (.ok reply) after) (pending : Option PollGap) :
    ∃ bytes, PollGap.afterEvents pending deeds = some ⟨bytes, []⟩ ∧
      reply = session.replyTo bytes ∧ reply.isSettled := by
  generalize hresult : Except.ok reply = result at hbusy
  induction hbusy generalizing pending with
  | lost => simp at hresult
  | @settled _ _ bytes _ hasked hsettled =>
      cases hresult
      exact ⟨bytes, rfl, rfl, hsettled⟩
  | late => simp at hresult
  | again hasked hsettled hinTime hrest ih =>
      rw [afterEvents_append]
      exact ih _ hresult

end Session

/-- What is left open by a block that the device has stored: the answer reports no error in a state
that ends the polls, and only the progress was noted since. -/
def PollGap.EndsBlock (gap : PollGap) : Prop :=
  (∃ state, reportOf gap.answer = (.ok, state) ∧
    (state = .dfuDownloadIdle ∨ state = .dfuError)) ∧
  ∃ done total, gap.between = [.downloaded done total]

/-- The gap between the last poll after a block and the first poll after the next one, which the
device has accepted. -/
def PollGap.IsRushed (gap : PollGap) : Prop :=
  (∃ state, reportOf gap.answer = (.ok, state) ∧
    (state = .dfuDownloadIdle ∨ state = .dfuError)) ∧
  ∃ done total route block data count delay, gap.between =
    [.downloaded done total, .exchange route (.out .download block data (.ok count)) delay]

theorem PollGap.EndsBlock.extend {gap : PollGap} (hends : gap.EndsBlock) (route : Route)
    (block : UInt16) (data : ByteArray) (count delay : Nat) :
    (gap.extend (.exchange route (.out .download block data (.ok count)) delay)).IsRushed := by
  obtain ⟨hreport, done, total, hbetween⟩ := hends
  refine ⟨hreport, done, total, route, block, data, count, delay, ?_⟩
  simp [PollGap.extend, hbetween]

theorem PollGap.IsRushed.slept_eq_zero {gap : PollGap} (hrushed : gap.IsRushed) :
    slept gap.between = 0 := by
  obtain ⟨-, done, total, route, block, data, count, delay, hbetween⟩ := hrushed
  rw [hbetween]
  rfl

/-- Whether poll times are honoured is decided by the rushed gaps alone. -/
theorem honoured_iff {deviations : Deviations} {gaps : List PollGap}
    (hgaps : ∀ gap ∈ gaps, gap.Honoured deviations ∨ gap.IsRushed) :
    (∀ gap ∈ gaps, gap.Honoured deviations) ↔
      ∀ gap ∈ gaps, gap.IsRushed →
        (StatusReply.ofAnswer deviations gap.answer).pollTime = 0 := by
  constructor
  · intro hhonoured gap hmem hrushed
    have hslept := hhonoured gap hmem
    rw [PollGap.Honoured, hrushed.slept_eq_zero, Nat.le_zero] at hslept
    exact UInt32.toNat_inj.mp hslept
  · intro hzero gap hmem
    rcases hgaps gap hmem with hhonoured | hrushed
    · exact hhonoured
    · rw [PollGap.Honoured, hzero gap hmem hrushed]
      exact Nat.zero_le _

namespace Session

variable {session : Session ω} {before after : Moment ω} {deeds : List Event}

/-- A block and its polls close the open gap with the block in it, if the device accepts it. -/
theorem gapsFrom_orderDeed {block : UInt16} {data : ByteArray} {count delay : Nat}
    {polls : List Event}
    (hstarts : ∃ answer time rest, polls = session.statusDeed answer time :: rest)
    (pending : Option PollGap) :
    gapsFrom pending (session.orderDeed .download block data (.ok count) delay :: polls) =
      (pending.map fun gap =>
        gap.extend (session.orderDeed .download block data (.ok count) delay)).toList ++
        pollGaps polls := by
  obtain ⟨answer, time, rest, rfl⟩ := hstarts
  rw [gapsFrom_cons_of_none rfl, gapsFrom_cons_of_some rfl]

theorem gap_of_block {block : UInt16} {data : ByteArray} {count delay : Nat} {polls : List Event}
    (hstarts : ∃ answer time rest, polls = session.statusDeed answer time :: rest)
    (hwaits : Waits session.deviations polls) {pending : Option PollGap}
    (hpending : ∀ gap ∈ pending, gap.Honoured session.deviations ∨ gap.EndsBlock) :
    ∀ gap ∈ gapsFrom pending (session.orderDeed .download block data (.ok count) delay :: polls),
      gap.Honoured session.deviations ∨ gap.IsRushed := by
  intro gap hgap
  rw [gapsFrom_orderDeed hstarts, List.mem_append, Option.mem_toList,
    Option.map_eq_some_iff] at hgap
  rcases hgap with ⟨earlier, hearlier, rfl⟩ | hgap
  · rcases hpending earlier hearlier with hhonoured | hends
    · exact .inl (hhonoured.extend _)
    · exact .inr (hends.extend ..)
  · exact .inl (hwaits none (served_none _) gap hgap)

theorem Storing.gaps {block : UInt16} {data : ByteArray} {result : Except Fault Unit}
    (hstoring : session.Storing block data before deeds result after) {pending : Option PollGap}
    (hpending : ∀ gap ∈ pending, gap.Honoured session.deviations ∨ gap.EndsBlock) :
    ∀ gap ∈ gapsFrom pending deeds, gap.Honoured session.deviations ∨ gap.IsRushed := by
  cases hstoring with
  | unsent =>
      intro gap hgap
      rw [gapsFrom_cons_of_none rfl] at hgap
      simp [gapsFrom] at hgap
  | unsettled htold hbusy => exact gap_of_block hbusy.starts hbusy.waits hpending
  | refused htold hbusy hbad => exact gap_of_block hbusy.starts hbusy.waits hpending
  | stored htold hbusy hok => exact gap_of_block hbusy.starts hbusy.waits hpending

theorem Storing.afterEvents_of_ok {block : UInt16} {data : ByteArray}
    (hstoring : session.Storing block data before deeds (.ok ()) after)
    (pending : Option PollGap) (done total : Nat) :
    ∀ gap ∈ PollGap.afterEvents pending (deeds ++ [.downloaded done total]), gap.EndsBlock := by
  cases hstoring with
  | @stored _ _ count delay polls _ htold hbusy hok =>
      obtain ⟨bytes, hafter, rfl, hsettled⟩ := hbusy.afterEvents_of_ok
        (PollGap.afterEvent pending (session.orderDeed .download block data (.ok count) delay))
      have hlast : PollGap.afterEvents pending
          (session.orderDeed .download block data (.ok count) delay :: polls ++
            [.downloaded done total]) = some ⟨bytes, [.downloaded done total]⟩ := by
        rw [← afterEvents_cons] at hafter
        rw [afterEvents_append, hafter]
        rfl
      intro gap hgap
      rw [hlast, Option.mem_some_iff] at hgap
      subst hgap
      refine ⟨⟨(session.replyTo bytes).state, ?_, hsettled⟩, done, total, rfl⟩
      rw [session.replyTo_report, (StatusCode.isOk_iff _).mp hok]

theorem Sending.gaps {payload : ByteArray} {chunk position : Nat} {result : Except Fault Unit}
    (hsending : session.Sending payload chunk position before deeds result after)
    {pending : Option PollGap}
    (hpending : ∀ gap ∈ pending, gap.Honoured session.deviations ∨ gap.EndsBlock) :
    ∀ gap ∈ gapsFrom pending deeds, gap.Honoured session.deviations ∨ gap.IsRushed := by
  -- The first block may find a gap in which the host has slept; every later one finds the gap that
  -- the block before has left open without any sleep.
  induction hsending generalizing pending with
  | failed hinside hstoring => exact hstoring.gaps hpending
  | stored hinside hstoring hrest ih =>
      have hends := hstoring.afterEvents_of_ok pending
      have hnoted (earlier : Option PollGap) (done total : Nat) :
          gapsFrom earlier [.downloaded done total] = [] := gapsFrom_eq_nil rfl earlier
      intro gap hgap
      rw [List.append_cons, gapsFrom_append, List.mem_append, gapsFrom_append, hnoted,
        List.append_nil] at hgap
      rcases hgap with hgap | hgap
      · exact hstoring.gaps hpending gap hgap
      · exact ih (fun earlier hearlier => .inr (hends _ _ earlier hearlier)) gap hgap
  | endUnsent =>
      intro gap hgap
      rw [gapsFrom_cons_of_none rfl] at hgap
      simp [gapsFrom] at hgap
  | ended houtside htold hmanifesting =>
      exact gap_of_block hmanifesting.starts hmanifesting.waits hpending

end Session

/-! ## The operations -/

theorem pollGaps_encloses {property : PollGap → Prop} {deeds : List Event}
    (hencloses : Encloses (fun inner => ∀ gap ∈ pollGaps inner, property gap) deeds) :
    ∀ gap ∈ pollGaps deeds, property gap := by
  rcases hencloses with hnone | ⟨earlier, inner, later, rfl, hearlier, hlater, hinner⟩
  · rw [(pollGaps_eq_nil hnone).1]
    simp
  · have hgaps : pollGaps (earlier ++ inner ++ later) = pollGaps inner := by
      obtain ⟨hnone, hafter⟩ := pollGaps_eq_nil hearlier
      rw [pollGaps] at hnone
      rw [pollGaps, gapsFrom_append, gapsFrom_append, gapsFrom_eq_nil hlater, hnone, hafter,
        List.append_nil, List.nil_append, pollGaps]
    rw [hgaps]
    exact hinner

namespace Programmer

variable {programmer : Programmer ω H}

theorem Writing.gaps {image : Image} {session : Session ω} {before after : Moment ω}
    {deeds : List Event} {result : Except Fault Unit}
    (hwriting : programmer.Writing image session before deeds result after) :
    ∀ gap ∈ pollGaps deeds, gap.Honoured session.deviations ∨ gap.IsRushed := by
  intro gap hgap
  cases hwriting with
  | unready hsettling => exact .inl (hsettling.punctual.waits none (served_none _) gap hgap)
  | sizeless hsettling hsize =>
      exact .inl (hsettling.punctual.waits none (served_none _) gap hgap)
  | @sent _ _ deeds _ _ _ _ hsettling hready hsize hsending =>
      have hready : Punctual session.deviations (deeds ++ [.downloaded 0 image.payload.size]) :=
        hsettling.punctual.append (punctual_of_none rfl)
      have hserved := hready.served none (served_none _)
      rw [List.append_cons, pollGaps, gapsFrom_append, List.mem_append] at hgap
      rcases hgap with hgap | hgap
      · exact .inl (hready.waits none (served_none _) gap hgap)
      · exact hsending.gaps (fun earlier hearlier => .inl (hserved earlier hearlier)) gap hgap

theorem Retrieving.waits {limit : Option Nat} {session : Session ω} {before after : Moment ω}
    {deeds : List Event} {result : Except Fault ByteArray}
    (hretrieving : programmer.Retrieving limit session before deeds result after) :
    Waits session.deviations deeds := by
  cases hretrieving with
  | unready hsettling => exact hsettling.punctual.waits
  | sizeless hsettling hsize => exact hsettling.punctual.waits
  | fetched hsettling hsize hfetching => exact hsettling.punctual.append_waits hfetching.waits

/-- In an upload every poll time is honoured.  In a flash the host does not sleep between the last
poll after a block and the first poll after the next one, and honours the poll time in every other
gap; so it honours all of them exactly if the answers before the rushed gaps ask for no sleep. -/
theorem poll_times_honoured_iff (programmer : Programmer ω H)
    (hdiscreet : programmer.access.Discreet) :
    (∀ file before, ∃ deeds result after,
      (programmer.flash file).Performs before deeds result after ∧
      (programmer.target? file before = none → pollGaps deeds = []) ∧
      ∀ device, programmer.target? file before = some device →
        (∀ gap ∈ pollGaps deeds, gap.Honoured device.deviations ∨ gap.IsRushed) ∧
        ((∀ gap ∈ pollGaps deeds, gap.Honoured device.deviations) ↔
          ∀ gap ∈ pollGaps deeds, gap.IsRushed →
            (StatusReply.ofAnswer device.deviations gap.answer).pollTime = 0)) ∧
    ∀ limit before, ∃ deeds result after,
      (programmer.upload limit).Performs before deeds result after ∧
      (programmer.origin? before = none → pollGaps deeds = []) ∧
      ∀ device, programmer.origin? before = some device →
        ∀ gap ∈ pollGaps deeds, gap.Honoured device.deviations := by
  constructor
  · intro file before
    obtain ⟨deeds, result, after, hrun, hdeeds⟩ := flash_encloses hdiscreet file before
    refine ⟨deeds, result, after, hrun, ?_⟩
    rcases hdeeds with hnone | ⟨image, target, htarget, hencloses⟩
    · have hgaps := (pollGaps_eq_nil hnone).1
      simp [hgaps]
    · refine ⟨by simp [htarget], ?_⟩
      intro device hdevice
      rw [htarget, Option.some.injEq] at hdevice
      subst hdevice
      have hgaps : ∀ gap ∈ pollGaps deeds, gap.Honoured target.deviations ∨ gap.IsRushed := by
        refine pollGaps_encloses (hencloses.mono ?_)
        rintro inner ⟨pipe, start, outcome, stop, hwriting⟩
        exact hwriting.gaps
      exact ⟨hgaps, honoured_iff hgaps⟩
  · intro limit before
    obtain ⟨deeds, result, after, hrun, hdeeds⟩ := upload_encloses hdiscreet limit before
    refine ⟨deeds, result, after, hrun, ?_⟩
    rcases hdeeds with hnone | ⟨origin, horigin, hencloses⟩
    · have hgaps := (pollGaps_eq_nil hnone).1
      simp [hgaps]
    · refine ⟨by simp [horigin], ?_⟩
      intro device hdevice
      rw [horigin, Option.some.injEq] at hdevice
      subst hdevice
      refine pollGaps_encloses (hencloses.mono ?_)
      rintro inner ⟨pipe, start, outcome, stop, hretrieving⟩
      exact hretrieving.waits none (served_none _)

/-- A bench has such an access. -/
theorem poll_times_honoured_iff_bench :
    let programmer : Programmer Script Nat := ⟨Bench.access ⟨[default], none, none⟩, .standard⟩
    programmer.access.Discreet ∧ ∀ before, ∃ deeds result after,
      (programmer.flash ⟨#[1, 2, 3]⟩).Performs before deeds result after ∧
        ∀ device, programmer.target? ⟨#[1, 2, 3]⟩ before = some device →
          ∀ gap ∈ pollGaps deeds, gap.Honoured device.deviations ∨ gap.IsRushed := by
  have hdiscreet := Bench.access_discreet ⟨[default], none, none⟩
  refine ⟨hdiscreet, fun before => ?_⟩
  obtain ⟨hflash, -⟩ := poll_times_honoured_iff ⟨_, .standard⟩ hdiscreet
  obtain ⟨deeds, result, after, hrun, -, hgaps⟩ := hflash ⟨#[1, 2, 3]⟩ before
  exact ⟨deeds, result, after, hrun, fun device hdevice => (hgaps device hdevice).1⟩

/-- A device that asks for a tenth of a second after the first block is asked again at once. -/
theorem flash_rushes_poll :
    let programmer : Programmer Script Nat :=
      ⟨Bench.access ⟨[default], none, none⟩, ⟨.any, some 4, .ignored⟩⟩
    let run := (programmer.flash ⟨#[1, 2, 3, 4, 5, 6, 7, 8]⟩).run
      (.initial ⟨[⟨.ok ⟨#[0, 0, 0, 0, 2, 0]⟩, 0, 0⟩, ⟨.ok ⟨#[0, 100, 0, 0, 5, 0]⟩, 0, 0⟩,
        ⟨.ok ⟨#[0, 0, 0, 0, 5, 0]⟩, 0, 0⟩, ⟨.ok ⟨#[0, 0, 0, 0, 2, 0]⟩, 0, 0⟩], [], []⟩ .empty)
    run.1 = .ok () ∧
      ∃ gap ∈ pollGaps run.2.deeds, ¬ gap.Honoured (default : Device Nat).deviations := by
  intro programmer run
  let device : Device Nat := default
  let session := device.session (Script.pipe (.direct 0))
  let payload : ByteArray := ⟨#[1, 2, 3, 4, 5, 6, 7, 8]⟩
  let start : Script := ⟨[⟨.ok ⟨#[0, 0, 0, 0, 2, 0]⟩, 0, 0⟩, ⟨.ok ⟨#[0, 100, 0, 0, 5, 0]⟩, 0, 0⟩,
    ⟨.ok ⟨#[0, 0, 0, 0, 5, 0]⟩, 0, 0⟩, ⟨.ok ⟨#[0, 0, 0, 0, 2, 0]⟩, 0, 0⟩], [], []⟩
  have hready : session.reachIdle.Performs ⟨start, 0⟩ _ (.ok _) _ :=
    Session.reachIdle_of_idle rfl rfl rfl
  have hsending : session.Sending payload (4 : UInt16).toNat 0 ⟨⟨start.answers.tail, [], []⟩, 0⟩
      _ _ _ :=
    .stored (by decide) (.stored rfl (.settled rfl (by decide)) (by decide))
      (.stored (by decide) (.stored rfl (.settled rfl (by decide)) (by decide))
        (.ended (by decide) rfl (.concluded rfl rfl)))
  have hwrite : (programmer.write ⟨payload, none⟩ session (Script.pace _)).Performs ⟨start, 0⟩
      _ _ _ :=
    programmer.write_sends _ hready rfl hsending
  have hlist : (programmer.access.list .any).Performs ⟨start, 0⟩ [] (.ok [device]) ⟨start, 0⟩ :=
    Action.performs_pure _ _
  have hconnect : (programmer.access.connect device).Performs ⟨start, 0⟩ [.opened 0]
      (.ok (Script.pacedPipe (.direct 0))) ⟨start, 0⟩ :=
    (Action.performs_record _ rfl _).bind (Action.performs_pure _ _)
  have hflash := flash_performs (transfer_performs (Image.load_ignored payload)
    (Access.choose_performs hlist) rfl (Access.withSession_performs (by decide) hconnect hwrite))
  have hruns : (programmer.flash payload).Runs (.initial start .empty) _ _ := hflash.runs
  have hsecond : (pollGaps run.2.deeds)[1]? = some ⟨⟨#[0, 100, 0, 0, 5, 0]⟩,
      [.downloaded 4 8, .exchange (.direct 0) (.out .download 1 ⟨#[5, 6, 7, 8]⟩ (.ok 4)) 0]⟩ := by
    rw [hruns.last_deeds]
    rfl
  have hpollTime : (StatusReply.ofAnswer device.deviations ⟨#[0, 100, 0, 0, 5, 0]⟩).pollTime =
      100 := rfl
  refine ⟨hruns.result_eq, _, List.mem_of_getElem? hsecond, ?_⟩
  rw [PollGap.Honoured, hpollTime]
  decide

end Programmer

end FirmwareUpgrade
