import FirmwareUpgrade.Proofs.BlockPlan
import FirmwareUpgrade.Proofs.ShortWrites
import FirmwareUpgrade.Proofs.UploadRequests

/-!
# Uploads are bounded

The loop of an upload counts nothing, so whether it ends seems to be up to the device.  But a block
that is not short has at least one byte, and as many as were asked for.  So each round uses up one
of the blocks that fit into what may still come, and however long a device goes on to answer, it is
asked for no more blocks than these.
-/

namespace FirmwareUpgrade

variable {ω : Type}

/-! ## Counting blocks -/

namespace Download

theorem blockCount_mono {size more : Nat} (hmore : size ≤ more) (chunk : Nat) :
    blockCount size chunk ≤ blockCount more chunk := by
  unfold blockCount
  apply Nat.div_le_div_right
  omega

/-- One more block holds one more `chunk` of bytes, or what is left of them. -/
theorem blockCount_sub_add_one {size chunk : Nat} (positive : 0 < chunk) (hsome : 0 < size) :
    blockCount (size - chunk) chunk + 1 = blockCount size chunk := by
  unfold blockCount
  by_cases hfull : chunk ≤ size
  · have hblock : size + chunk - 1 = size - chunk + chunk - 1 + chunk := by omega
    rw [hblock, Nat.add_div_right _ positive]
  · have hnone : (size - chunk + chunk - 1) / chunk = 0 := Nat.div_eq_of_lt (by omega)
    have hone : (size + chunk - 1) / chunk = 1 := by
      apply Nat.div_eq_of_lt_le
      · omega
      · omega
    omega

theorem blockCount_pos {size chunk : Nat} (positive : 0 < chunk) (hsome : 0 < size) :
    1 ≤ blockCount size chunk := by
  rw [← blockCount_sub_add_one positive hsome]
  exact Nat.le_add_left 1 _

end Download

/-! ## What an upload uses up -/

/-- How many of the transfers make this request. -/
def requestCount (request : Request) (transfers : List Exchange) : Nat :=
  transfers.countP fun transfer => transfer.request == request

/-- The device answers with a block. -/
def Exchange.isBlock (transfer : Exchange) : Bool :=
  transfer.isUpload && !transfer.failed

@[simp]
theorem requestCount_append (request : Request) (first second : List Exchange) :
    requestCount request (first ++ second) =
      requestCount request first + requestCount request second :=
  List.countP_append

@[simp]
theorem progressReports_append (first second : List Event) :
    progressReports (first ++ second) = progressReports first ++ progressReports second := by
  simp [progressReports]

theorem Unreported.progressReports_eq {events : List Event} (hnone : Unreported events) :
    progressReports events = [] := by
  apply List.filterMap_eq_nil_iff.mpr
  intro event hmem
  have hsilent := hnone event hmem
  cases event <;> simp_all [Event.isProgress, Event.progress?]

/-- At most so many blocks are asked for, the device is told to give up at most so many times, and
each block that arrives is reported once. -/
structure Spends (blocks cancels : Nat) (deeds : List Event) : Prop where
  uploads : requestCount .upload (exchanges deeds) ≤ blocks
  aborts : requestCount .abort (exchanges deeds) ≤ cancels
  polls : requestCount .getStatus (exchanges deeds) ≤ cancels
  reported : (progressReports deeds).length = (exchanges deeds).countP Exchange.isBlock

namespace Spends

variable {blocks cancels more further : Nat} {first second : List Event}

theorem append (hfirst : Spends blocks cancels first) (hsecond : Spends more further second) :
    Spends (blocks + more) (cancels + further) (first ++ second) where
  uploads := by
    rw [exchanges_append, requestCount_append]
    exact Nat.add_le_add hfirst.uploads hsecond.uploads
  aborts := by
    rw [exchanges_append, requestCount_append]
    exact Nat.add_le_add hfirst.aborts hsecond.aborts
  polls := by
    rw [exchanges_append, requestCount_append]
    exact Nat.add_le_add hfirst.polls hsecond.polls
  reported := by
    rw [progressReports_append, exchanges_append, List.length_append, List.countP_append,
      hfirst.reported, hsecond.reported]

theorem mono (hspends : Spends blocks cancels first) (hblocks : blocks ≤ more)
    (hcancels : cancels ≤ further) : Spends more further first where
  uploads := Nat.le_trans hspends.uploads hblocks
  aborts := Nat.le_trans hspends.aborts hcancels
  polls := Nat.le_trans hspends.polls hcancels
  reported := hspends.reported

end Spends

namespace Session

open Download Upload

variable {session : Session ω} {chunk bound position : Nat} {limit : Option Nat}
  {received : ByteArray} {before after : Moment ω} {deeds : List Event}

theorem Cancelling.spends {result : Except Fault StatusReply}
    (hcancelling : session.Cancelling before deeds result after) : Spends 0 1 deeds := by
  have hreports := hcancelling.does.unreported.progressReports_eq
  cases hcancelling with
  | unsent | unconfirmed | ignored | cancelled =>
      constructor <;>
        simp [requestCount, Exchange.request, hreports, Exchange.isBlock, Exchange.isUpload]

theorem spends_failure (block length : UInt16) (error : TransferError) (delay : Nat) :
    Spends 1 0 [session.blockDeed block length (.error error) delay] := by
  constructor <;> rfl

theorem spends_block (block length : UInt16) (data : ByteArray) (delay done total : Nat) :
    Spends 1 0 [session.blockDeed block length (.ok data) delay, .uploaded done total] := by
  constructor <;> rfl

/-- What may still come is at most a block away from the next bound, or the next block ends it. -/
theorem min_le_nextLength (chunk : Nat) (limit : Option Nat) (bound received : Nat) :
    min (reach limit bound - received) chunk ≤ nextLength chunk limit received := by
  cases limit with
  | none => exact Nat.min_le_right _ _
  | some most => exact Nat.le_refl _

/-- Every block that is not short leaves room for one block less. -/
theorem blockCount_after_full (positive : 0 < chunk) {data : ByteArray}
    (hmore : received.size < reach limit bound)
    (hfull : ¬ data.size < nextLength chunk limit received.size) :
    1 + blockCount (reach limit bound - (received ++ data).size) chunk ≤
      blockCount (reach limit bound - received.size) chunk := by
  have hleast := min_le_nextLength chunk limit bound received.size
  have hroom : reach limit bound - (received ++ data).size ≤
      reach limit bound - received.size - chunk := by
    rw [ByteArray.size_append]
    omega
  have hfewer := blockCount_mono hroom chunk
  have hone := blockCount_sub_add_one positive (Nat.sub_pos_of_lt hmore)
  omega

theorem Reading.spends {result : Except Fault ByteArray} (positive : 0 < chunk)
    (hreading : session.Reading chunk limit bound position received before deeds result after) :
    Spends (blockCount (reach limit bound - received.size) chunk) 1 deeds := by
  induction hreading with
  | failed hmore hasked =>
      have hone := blockCount_pos positive (Nat.sub_pos_of_lt hmore)
      exact (spends_failure _ _ _ _).mono hone (Nat.zero_le 1)
  | short hmore hasked hshort =>
      have hone := blockCount_pos positive (Nat.sub_pos_of_lt hmore)
      exact (spends_block _ _ _ _ _ _).mono hone (Nat.zero_le 1)
  | full hmore hasked hfull hrest ih =>
      have hfewer := blockCount_after_full positive hmore hfull
      exact ((spends_block _ _ _ _ _ _).append ih).mono hfewer (Nat.le_of_eq (Nat.zero_add 1))
  | stuck hdone hcancelling => exact hcancelling.spends.mono (Nat.zero_le _) (Nat.le_refl 1)
  | complete hlimit hdone hcancelling =>
      exact hcancelling.spends.mono (Nat.zero_le _) (Nat.le_refl 1)
  | tooLarge hlimit hdone hcancelling =>
      exact hcancelling.spends.mono (Nat.zero_le _) (Nat.le_refl 1)

theorem Fetching.spends {result : Except Fault ByteArray} (positive : 0 < chunk)
    (hfetching : session.Fetching chunk limit bound before deeds result after) :
    Spends (blockCount (reach limit bound) chunk) 2 deeds := by
  cases hfetching with
  | unready hcancelling => exact hcancelling.spends.mono (Nat.zero_le _) (Nat.le_succ 1)
  | ready hcancelling hreading =>
      have hspends := hcancelling.spends.append (hreading.spends positive)
      exact hspends.mono (Nat.le_of_eq (Nat.zero_add _)) (Nat.le_refl 2)

/-! ## What an upload holds -/

/-- The most bytes that an upload can have received. -/
def capacity (chunk : Nat) (limit : Option Nat) (bound : Nat) : Nat :=
  limit.getD (bound + (chunk - 1))

theorem size_append_le_capacity {data : ByteArray} (hmore : received.size < reach limit bound)
    (hsize : data.size ≤ nextLength chunk limit received.size) :
    (received ++ data).size ≤ capacity chunk limit bound := by
  rw [ByteArray.size_append]
  cases limit with
  | none =>
      have hbelow : received.size < bound := hmore
      have hblock : data.size ≤ chunk := hsize
      change received.size + data.size ≤ bound + (chunk - 1)
      omega
  | some most =>
      have hbelow : received.size < most := hmore
      have hblock : data.size ≤ min (most - received.size) chunk := hsize
      change received.size + data.size ≤ most
      omega

theorem Cancelling.receivedBytes_eq {result : Except Fault StatusReply}
    (hcancelling : session.Cancelling before deeds result after) :
    receivedBytes (exchanges deeds) = [] := by
  cases hcancelling with
  | unsent | unconfirmed | ignored | cancelled => simp [receivedBytes, Exchange.received]

theorem Reading.received_le {result : Except Fault ByteArray} (hchunk : chunk < UInt16.size)
    (hfits : session.pipe.Fits)
    (hreading : session.Reading chunk limit bound position received before deeds result after)
    (hsize : received.size ≤ capacity chunk limit bound) :
    received.size + (receivedBytes (exchanges deeds)).length ≤ capacity chunk limit bound := by
  induction hreading with
  | failed hmore hasked =>
      rw [exchanges_cons_blockDeed]
      exact hsize
  | short hmore hasked hshort =>
      have hnext := size_append_le_capacity hmore (size_le_nextLength hfits hchunk hasked)
      rw [exchanges_cons_blockDeed, exchanges_cons_uploaded, length_receivedBytes_cons,
        ← Nat.add_assoc, ← ByteArray.size_append]
      exact hnext
  | full hmore hasked hfull hrest ih =>
      have hnext := size_append_le_capacity hmore (size_le_nextLength hfits hchunk hasked)
      rw [exchanges_cons_blockDeed, exchanges_cons_uploaded, length_receivedBytes_cons,
        ← Nat.add_assoc, ← ByteArray.size_append]
      exact ih hnext
  | stuck hdone hcancelling | complete hlimit hdone hcancelling
  | tooLarge hlimit hdone hcancelling =>
      rw [hcancelling.receivedBytes_eq]
      exact hsize

theorem Fetching.received_le {result : Except Fault ByteArray} (hchunk : chunk < UInt16.size)
    (hfits : session.pipe.Fits)
    (hfetching : session.Fetching chunk limit bound before deeds result after) :
    (receivedBytes (exchanges deeds)).length ≤ capacity chunk limit bound := by
  cases hfetching with
  | unready hcancelling =>
      rw [hcancelling.receivedBytes_eq]
      exact Nat.zero_le _
  | ready hcancelling hreading =>
      have hreceived := hreading.received_le hchunk hfits (Nat.zero_le _)
      rw [ByteArray.size_empty, Nat.zero_add] at hreceived
      rw [exchanges_append, receivedBytes_append, hcancelling.receivedBytes_eq, List.nil_append]
      exact hreceived

/-- The bytes that have been received at some point of an upload do not exceed the limit, or the
bound by a whole block. -/
structure Holds (chunk : Nat) (limit : Option Nat) (bound : Nat) (earlier : List Event) : Prop where
  limited : ∀ most ∈ limit, (receivedBytes (exchanges earlier)).length ≤ most
  bounded : limit = none → (receivedBytes (exchanges earlier)).length < bound + chunk

theorem Fetching.holds {result : Except Fault ByteArray} (positive : 0 < chunk)
    (hchunk : chunk < UInt16.size) (hfits : session.pipe.Fits)
    (hfetching : session.Fetching chunk limit bound before deeds result after)
    {earlier later : List Event} (hsplit : deeds = earlier ++ later) :
    Holds chunk limit bound earlier := by
  have htotal := hfetching.received_le hchunk hfits
  rw [hsplit, exchanges_append, receivedBytes_append, List.length_append] at htotal
  constructor
  · intro most hmost
    rw [Option.mem_def.mp hmost] at htotal
    exact Nat.le_of_add_right_le htotal
  · intro hnone
    rw [hnone] at htotal
    change _ ≤ bound + (chunk - 1) at htotal
    omega

/-- Whatever a device answers, as long as it is not longer than what was asked for, an upload ends.
It asks for no more blocks than the limit or the bound is long, holds no more bytes than these
allow, tells the device to give up twice at most, and reports each block once. -/
theorem uploadWithin_stays_bounded (session : Session ω) (hfits : session.pipe.Fits)
    (bound : Nat) (chunk : UInt16) (limit : Option Nat) (before : Moment ω) :
    ∃ deeds result after,
      (session.uploadWithin bound chunk limit).Performs before deeds result after ∧
      Spends (blockCount (limit.getD bound) chunk.toNat) 2 deeds ∧
      (∀ transfer ∈ exchanges deeds, transfer.request ∈ [.upload, .abort, .getStatus]) ∧
      (0 < chunk.toNat → ∀ earlier later, deeds = earlier ++ later →
        Holds chunk.toNat limit bound earlier) ∧
      (∀ data, result = .ok data → data.data.toList = receivedBytes (exchanges deeds)) ∧
      (chunk.toNat = 0 → deeds = [] ∧ result = .error .transferSizeUnknown) := by
  by_cases positive : 0 < chunk.toNat
  · rcases session.uploadWithin_performs bound positive limit before with
      ⟨deeds, result, after, hfetching, hrun⟩
    have hchunk : chunk.toNat < UInt16.size := chunk.toNat_lt
    refine ⟨deeds, result, after, hrun, hfetching.spends positive, ?_, ?_, ?_, ?_⟩
    · intro transfer hmem
      have hdemand := hfetching.does.demands transfer hmem
      cases transfer with
      | out request value data taken =>
          cases hdemand with
          | abort => simp [Exchange.request]
      | receive request value length answer =>
          cases hdemand with
          | getStatus | block => simp [Exchange.request]
    · intro _ earlier later hsplit
      exact hfetching.holds positive hchunk hfits hsplit
    · intro data hdata
      subst hdata
      exact (hfetching.ends hchunk hfits).1
    · intro hzero
      exact absurd hzero (Nat.ne_of_gt positive)
  · have hnothing : Spends 0 0 [] := by constructor <;> simp [requestCount, progressReports]
    refine ⟨[], _, _, session.uploadWithin_refused bound positive limit before, ?_⟩
    refine ⟨hnothing.mono (Nat.zero_le _) (Nat.zero_le 2), by simp, ?_, by simp, ?_⟩
    · intro hpositive
      exact absurd hpositive positive
    · intro _
      exact ⟨rfl, rfl⟩

/-- A device that answers everything in full length, and so that the answer reads as idle. -/
def tireless : Session Unit :=
  (default : Device Nat).session
    { route := .direct 0
      onOut := fun _ _ data _ => (⟨.ok data.size, 0⟩, ())
      onIn := fun _ _ length _ =>
        (⟨.ok ⟨.ofFn fun index : Fin length.toNat => if index.val = 4 then 2 else 0⟩, 0⟩, ()) }

theorem tireless_fits : tireless.pipe.Fits := by
  intro request value length world bytes delay after hanswer
  cases hanswer
  exact Nat.le_of_eq Array.size_ofFn

/-- Of a device that never has enough, less than a block beyond the bound of 16 bytes is read. -/
theorem uploadWithin_stays_bounded_tireless :
    tireless.pipe.Fits ∧ ∃ deeds result after,
      (tireless.uploadWithin 16 4 none).Performs ⟨(), 0⟩ deeds result after ∧
      Spends 4 2 deeds ∧
      ∀ earlier later, deeds = earlier ++ later →
        (receivedBytes (exchanges earlier)).length < 20 := by
  rcases tireless.uploadWithin_stays_bounded tireless_fits 16 4 none ⟨(), 0⟩ with
    ⟨deeds, result, after, hrun, hspends, -, hholds, -⟩
  refine ⟨tireless_fits, deeds, result, after, hrun, hspends, ?_⟩
  intro earlier later hsplit
  exact (hholds (by decide) earlier later hsplit).bounded rfl

end Session

end FirmwareUpgrade
