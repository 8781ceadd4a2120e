import FirmwareUpgrade.ControlPipe

/-!
# Scripted devices

A scripted device answers from two queues that were written beforehand, whatever it is asked.
The queue of answers serves requests for data; when it is empty, such a request stalls.  The
queue of outcomes serves requests that carry data; when it is empty, they succeed.  Requests of
some kinds can be made to fail always, and these take nothing from the queue.
-/

namespace FirmwareUpgrade

/-- An element of a queue: a result that is given once and again so many times more. -/
structure Scripted (α : Type) where
  result : Except TransferError α
  repeats : Nat
  delay : Nat
deriving Inhabited

namespace Scripted

variable {α : Type}

/-- What comes of a use of an element. -/
def reaction (element : Scripted α) : Reaction α where
  result := element.result
  delay := element.delay

/-- The queue after a use of its first element. -/
def consume (element : Scripted α) (rest : List (Scripted α)) : List (Scripted α) :=
  match element.repeats with
  | 0 => rest
  | repeats + 1 => { element with repeats } :: rest

def uses : List (Scripted α) → Nat
  | [] => 0
  | element :: rest => element.repeats + 1 + uses rest

theorem uses_consume_lt (element : Scripted α) (rest : List (Scripted α)) :
    uses (element.consume rest) < uses (element :: rest) := by
  unfold consume
  split
  · next same =>
      simp only [uses]
      omega
  · next repeats same =>
      simp only [uses, same]
      omega

end Scripted

structure Script where
  answers : List (Scripted ByteArray)
  /-- The outcomes of requests that carry data; none stands for all bytes taken. -/
  outcomes : List (Scripted (Option Nat))
  /-- Requests that carry data and fail always, by their number. -/
  refusals : List (Nat × TransferError)
deriving Inhabited

namespace Script

def unused (script : Script) : Nat :=
  Scripted.uses script.answers

/-- What comes of a request for data, cut to what was asked for. -/
def answer (length : UInt16) (script : Script) : Reaction ByteArray × Script :=
  match script.answers with
  | [] => (⟨.error .stall, 0⟩, script)
  | element :: rest =>
    (⟨element.result.map fun bytes =>
        if bytes.size ≤ length.toNat then bytes else bytes.extract 0 length.toNat,
      element.delay⟩,
      { script with answers := element.consume rest })

/-- What comes of a request that carries data. -/
def take (request : Request) (data : ByteArray) (script : Script) : Reaction Nat × Script :=
  match script.refusals.lookup request.code.toNat with
  | some error => (⟨.error error, 0⟩, script)
  | none =>
    match script.outcomes with
    | [] => (⟨.ok data.size, 0⟩, script)
    | element :: rest =>
      (⟨element.result.map fun taken => taken.getD data.size, element.delay⟩,
        { script with outcomes := element.consume rest })

def pipe (route : Route) : ControlPipe Script where
  route
  onOut request _ data script := script.take request data
  onIn _ _ length script := script.answer length

/-- A scripted device gives no more answers than its script holds. -/
def pace (route : Route) {deviations : Deviations} : Pace (pipe route) deviations where
  instants := unused
  instants_lt := by
    intro world after bytes answered busy zero
    simp only [pipe, answer] at answered
    split at answered
    · simp at answered
    · next element rest same =>
        rw [Prod.mk.injEq] at answered
        obtain ⟨_, rfl⟩ := answered
        simp only [unused, same]
        exact element.uses_consume_lt rest

def pacedPipe (route : Route) : PacedPipe Script where
  pipe := pipe route
  pace := pace route

end Script

end FirmwareUpgrade
