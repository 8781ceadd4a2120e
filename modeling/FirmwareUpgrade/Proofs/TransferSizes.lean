import FirmwareUpgrade.Proofs.BlockPlan
import FirmwareUpgrade.Proofs.TransferFaults
import FirmwareUpgrade.Proofs.UploadRequests

/-!
# The size of the blocks

A transfer in either direction has one block size, which is settled on when the device is ready: the
requested size or else the one of the device, raised to the size of a packet.  A download fills each
of its blocks but the last, and an upload asks for whole blocks as long as no limit is in sight.  If
neither size is given the transfer ends there.
-/

namespace FirmwareUpgrade

variable {ω H α : Type}

/-! ## Sizes in the courses of a session -/

/-- No block is larger than the size, and each block that is not the last one with data is as large:
bytes are left after it, or more data is sent after it. -/
structure Download.Fills (payload : ByteArray) (size : Nat)
    (blocks : List (UInt16 × ByteArray)) : Prop where
  most : ∀ block ∈ blocks, block.2.size ≤ size
  full : ∀ position block, blocks[position]? = some block →
    (position + 1) * size < payload.size → block.2.size = size
  followed : ∀ position block next, blocks[position]? = some block →
    blocks[position + 1]? = some next → 0 < next.2.size → block.2.size = size

/-- At most the size is asked for, and without a limit always just that. -/
def Upload.Asks (limit : Option Nat) (size : Nat) (transfers : List Exchange) : Prop :=
  ∀ block length answer, .receive .upload block length answer ∈ transfers →
    length.toNat ≤ size ∧ (limit = none → length.toNat = size)

open Download Upload

theorem Download.size_planned (payload : ByteArray) (chunk position : Nat) :
    (planned payload chunk position).2.size = min chunk (payload.size - position * chunk) := by
  rw [planned, ByteArray.size_extract, Nat.succ_mul]
  omega

theorem Download.Fills.of_leading {payload : ByteArray} {chunk : Nat}
    {blocks : List (UInt16 × ByteArray)} (positive : 0 < chunk)
    (hleading : blocks <+: plan payload chunk) : Fills payload chunk blocks := by
  have hplanned {position : Nat} {block : UInt16 × ByteArray}
      (hblock : blocks[position]? = some block) : block = planned payload chunk position := by
    obtain ⟨rest, hrest⟩ := hleading
    obtain ⟨hlength, -⟩ := List.getElem?_eq_some_iff.mp hblock
    have hplan : (plan payload chunk)[position]? = some block := by
      rw [← hrest, List.getElem?_append_left hlength, hblock]
    exact (getElem?_plan positive hplan).1
  constructor
  case most =>
    intro block hmem
    obtain ⟨position, hblock⟩ := List.getElem?_of_mem hmem
    rw [hplanned hblock, size_planned]
    exact Nat.min_le_left _ _
  case full =>
    intro position block hblock hleft
    rw [Nat.succ_mul] at hleft
    rw [hplanned hblock, size_planned]
    omega
  case followed =>
    intro position block next hblock hnext hdata
    rw [hplanned hnext, size_planned, Nat.succ_mul] at hdata
    rw [hplanned hblock, size_planned]
    omega

namespace Upload

variable {limit : Option Nat} {size : Nat} {first rest : List Exchange}

theorem Asks.append (hfirst : Asks limit size first) (hrest : Asks limit size rest) :
    Asks limit size (first ++ rest) := by
  intro block length answer hmem
  exact (List.mem_append.mp hmem).elim (hfirst block length answer) (hrest block length answer)

theorem Asks.of_servesRecovery (hrequests : ∀ transfer ∈ first, transfer.request.ServesRecovery) :
    Asks limit size first := by
  intro block length answer hmem
  have hserves := hrequests _ hmem
  simp [Exchange.request, Request.ServesRecovery] at hserves

theorem asks_next (hsize : size < UInt16.size) (block : UInt16) (received : Nat)
    (answer : Except TransferError ByteArray) :
    Asks limit size
      [.receive .upload block (UInt16.ofNat (nextLength size limit received)) answer] := by
  intro block' length answer' hmem
  cases List.mem_singleton.mp hmem
  rw [Session.toNat_nextLength hsize]
  refine ⟨Session.nextLength_le size limit received, ?_⟩
  rintro rfl
  rfl

end Upload

namespace Session

variable {session : Session ω} {before after : Moment ω} {deeds : List Event} {chunk : Nat}

theorem Cancelling.requests {result : Except Fault StatusReply}
    (hcancelling : session.Cancelling before deeds result after) :
    ∀ transfer ∈ exchanges deeds, transfer.request.ServesRecovery := by
  cases hcancelling <;> simp [Exchange.request, Request.ServesRecovery]

theorem Reading.asks {limit : Option Nat} {bound position : Nat} {received : ByteArray}
    {result : Except Fault ByteArray} (hchunk : chunk < UInt16.size)
    (hreading : session.Reading chunk limit bound position received before deeds result after) :
    Asks limit chunk (exchanges deeds) := by
  induction hreading with
  | failed => exact asks_next hchunk _ _ _
  | short => exact asks_next hchunk _ _ _
  | full hmore hasked hfull hrest ih => exact (asks_next hchunk _ _ _).append ih
  | stuck hdone hcancelling => exact .of_servesRecovery hcancelling.requests
  | complete hlimit hdone hcancelling => exact .of_servesRecovery hcancelling.requests
  | tooLarge hlimit hdone hcancelling => exact .of_servesRecovery hcancelling.requests

theorem Fetching.asks {limit : Option Nat} {bound : Nat} {result : Except Fault ByteArray}
    (hchunk : chunk < UInt16.size)
    (hfetching : session.Fetching chunk limit bound before deeds result after) :
    Asks limit chunk (exchanges deeds) := by
  cases hfetching with
  | unready hcancelling => exact .of_servesRecovery hcancelling.requests
  | ready hcancelling hreading =>
      rw [exchanges_append]
      exact (Asks.of_servesRecovery hcancelling.requests).append (hreading.asks hchunk)

theorem blocks_of_servesRecovery {transfers : List Exchange}
    (hrequests : ∀ transfer ∈ transfers, transfer.request.ServesRecovery) :
    transfers.filterMap Exchange.block? = [] := by
  refine List.filterMap_eq_nil_iff.mpr fun transfer hmem => ?_
  have hserves := hrequests transfer hmem
  cases transfer with
  | out request block data taken =>
      rcases hserves with rfl | rfl | rfl <;> rfl
  | receive => rfl

theorem Sending.fills {payload : ByteArray} {result : Except Fault Unit} (positive : 0 < chunk)
    (hsending : session.Sending payload chunk 0 before deeds result after) :
    Fills payload chunk (sentBlocks deeds) :=
  .of_leading positive (hsending.sentBlocks_prefix positive (Nat.zero_le _)).1

end Session

/-! ## The size that is settled on -/

namespace Programmer

/-- The size of the blocks for a device, if any size is wished for. -/
def blockLimit (programmer : Programmer ω H) (device : Device H) : Nat :=
  max (programmer.wishedFor device) device.packetSize.toNat

/-- Requests of the given kind are made of a ready device only, and they fit the block size for it.
If there is no such size, nothing is asked of the device once it is ready. -/
structure KeepsSize (programmer : Programmer ω H) (criteria : Criteria)
    (verdict : Device H → Except Fault Unit) (kind : Request)
    (fits : Nat → List Exchange → Prop) (before : Moment ω) (transfers : List Exchange)
    (result : Except Fault α) : Prop where
  readied : ∀ transfer ∈ transfers, transfer.request = kind → ∃ device session prepared ready,
    programmer.Prepares criteria verdict before device session prepared ready
  sized : ∀ device session prepared ready,
    programmer.Prepares criteria verdict before device session prepared ready →
    programmer.wishedFor device ≠ 0 →
    0 < programmer.blockLimit device ∧ fits (programmer.blockLimit device) transfers
  sizeless : ∀ device session prepared ready,
    programmer.Prepares criteria verdict before device session prepared ready →
    programmer.wishedFor device = 0 →
    result = .error .transferSizeUnknown ∧ transfers = exchanges prepared

theorem Transferring.keepsSize {programmer : Programmer ω H} {criteria : Criteria}
    {verdict : Device H → Except Fault Unit} {courses : UInt16 → Session.Courses ω α}
    {kind : Request} {fits : Nat → List Exchange → Prop} {before after : Moment ω}
    {deeds : List Event} {result : Except Fault α}
    (htransferring : programmer.Transferring criteria verdict courses before deeds result after)
    (hdiscreet : programmer.access.Discreet) (hkind : ¬ kind.ServesRecovery)
    (hskip : ∀ size first rest, (∀ transfer ∈ first, transfer.request.ServesRecovery) →
      fits size rest → fits size (first ++ rest))
    (hcourses : ∀ chunk session before deeds result after, 0 < chunk.toNat →
      courses chunk session before deeds result after → fits chunk.toNat (exchanges deeds)) :
    programmer.KeepsSize criteria verdict kind fits before (exchanges deeds) result := by
  constructor
  case readied =>
    intro transfer hmem hrequest
    cases htransferring with
    | hindered hhindered =>
        exact absurd (hrequest ▸ hhindered.requests hdiscreet transfer hmem) hkind
    | transferred hprepares hsize hcourse => exact ⟨_, _, _, _, hprepares⟩
  case sized =>
    intro device session prepared ready hprepares hwished
    rcases htransferring.of_prepares hprepares with
      ⟨fault, hsize, -⟩ | ⟨chunk, work, done, hsize, hcourse, rfl⟩
    · exact absurd (sizeFor_eq_error hsize).1 hwished
    · have hchunk : chunk.toNat = programmer.blockLimit device := (sizeFor_eq_ok hsize).2
      have positive := blockSize_pos hsize
      have hfits := hcourses chunk session ready work result done positive hcourse
      rw [exchanges_append, exchanges_append, hdiscreet.exchanges_parting, List.append_nil,
        ← hchunk]
      exact ⟨positive, hskip _ _ _ (hprepares.requests hdiscreet) hfits⟩
  case sizeless =>
    intro device session prepared ready hprepares hwished
    rcases htransferring.of_prepares hprepares with
      ⟨fault, hsize, rfl, rfl⟩ | ⟨chunk, work, done, hsize, -, -⟩
    · rw [exchanges_append, hdiscreet.exchanges_parting, List.append_nil,
        (sizeFor_eq_error hsize).2]
      exact ⟨rfl, rfl⟩
    · exact absurd hwished (sizeFor_eq_ok hsize).1

def UploadsInSize (programmer : Programmer ω H) (limit : Option Nat) (before : Moment ω) : Prop :=
  ∃ deeds result after, (programmer.upload limit).Performs before deeds result after ∧
    programmer.KeepsSize programmer.options.criteria (fun _ => .ok ()) .upload (Upload.Asks limit)
      before (exchanges deeds) result

theorem uploadsInSize {programmer : Programmer ω H} (hdiscreet : programmer.access.Discreet)
    (limit : Option Nat) (before : Moment ω) : programmer.UploadsInSize limit before := by
  obtain ⟨deeds, result, after, huploading, hrun⟩ := upload_takes_course hdiscreet limit before
  refine ⟨deeds, result, after, hrun, ?_⟩
  apply huploading.keepsSize hdiscreet
  · simp [Request.ServesRecovery]
  · exact fun size first rest hfirst hrest => (Asks.of_servesRecovery hfirst).append hrest
  · exact fun chunk session before deeds result after _ hfetching =>
      hfetching.asks chunk.toNat_lt

end Programmer

namespace FlashRun

/-- Blocks are sent only if there is an image, and they keep to the block size of its device. -/
structure FlashesInSize (run : FlashRun ω H) : Prop where
  recorded : run.last.deeds = run.host.deeds ++ run.deeds
  loaded : run.Sends → ∃ image, run.Loads image
  sized : ∀ image, run.Loads image →
    run.programmer.KeepsSize (run.programmer.criteriaFor image) image.checkDevice .download
      (fun size transfers => Fills image.payload size (transfers.filterMap Exchange.block?))
      run.host.moment (exchanges run.deeds) run.result

theorem flashesInSize (run : FlashRun ω H) (hdiscreet : run.programmer.access.Discreet) :
    run.FlashesInSize := by
  constructor
  case recorded => exact run.followsClimb.1
  case loaded =>
    intro ⟨transfer, hmem, hrequest⟩
    rcases run.loads_or_silent with hloads | hnone
    · exact hloads
    · simp [hnone] at hmem
  case sized =>
    intro image hloads
    obtain ⟨deeds, after, htransferring, hdeeds⟩ := hloads.takes_course hdiscreet
    rw [hdeeds]
    apply htransferring.keepsSize hdiscreet
    · simp [Request.ServesRecovery]
    · intro size first rest hfirst hfills
      rwa [List.filterMap_append, Session.blocks_of_servesRecovery hfirst, List.nil_append]
    · intro chunk session before deeds result after positive hdelivering
      cases hdelivering with
      | sent hsending =>
          rw [exchanges_cons_downloaded]
          exact hsending.fills positive

end FlashRun

/-- A flash and an upload settle on one block size and keep to it, over the bus and with every other
way to reach devices that does not speak to them, whatever the devices do. -/
theorem transfers_keep_size :
    (∀ (timeout : Nat) (options : TransferOptions),
      (∀ source host, (FlashRun.onBus timeout options source host).FlashesInSize) ∧
      ∀ limit before,
        Programmer.UploadsInSize ⟨Bus.access timeout, options⟩ limit before) ∧
    ∀ (ω H : Type) (run : FlashRun ω H), run.programmer.access.Discreet →
      run.FlashesInSize ∧ ∀ limit before, run.programmer.UploadsInSize limit before := by
  constructor
  · intro timeout options
    have hdiscreet := Bus.access_discreet timeout
    exact ⟨fun source host => FlashRun.flashesInSize _ hdiscreet,
      Programmer.uploadsInSize hdiscreet⟩
  · intro ω H run hdiscreet
    exact ⟨run.flashesInSize hdiscreet, Programmer.uploadsInSize hdiscreet⟩

/-- Seven bytes in blocks of four, to a device with packets of no size. -/
theorem transfers_keep_size_bench :
    let options := { TransferOptions.standard with transferSize := some 4 }
    let run := FlashRun.onBench ⟨[default], none, none⟩ options
      (.contents ⟨#[1, 2, 3, 4, 5, 6, 7]⟩) (.reporting [(0, 2), (0, 5), (0, 5), (0, 2)])
    run.programmer.access.Discreet ∧ run.FlashesInSize ∧
      run.programmer.UploadsInSize (some 6) (Host.reporting [(0, 2), (0, 2)]).moment := by
  obtain ⟨-, hall⟩ := transfers_keep_size
  intro options run
  have hdiscreet : run.programmer.access.Discreet := Bench.access_discreet _
  obtain ⟨hflashes, huploads⟩ := hall _ _ run hdiscreet
  exact ⟨hdiscreet, hflashes, huploads _ _⟩

end FirmwareUpgrade
