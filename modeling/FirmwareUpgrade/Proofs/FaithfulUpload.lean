import FirmwareUpgrade.Proofs.UploadRequests

/-!
# Uploads are faithful

A device that offers an image answers each request for a block with the next bytes of the image, and
with fewer bytes than asked for only at its end.  An upload from such a device returns the image up
to the limit.  The invariant of its loop is that the bytes received so far are those that the device
has given out, and that these do not reach beyond the end or the limit.
-/

namespace FirmwareUpgrade

variable {ω : Type}

/-- The device gives out an image in blocks, and is idle again when it is told to give up. -/
structure Session.Offers (session : Session ω) (image : ByteArray) where
  /-- How many bytes of the image have been given out. -/
  position : ω → Nat
  upload : ∀ block length world, ∃ delay after,
    session.pipe.onIn .upload block length world =
      (⟨.ok (image.extract (position world) (position world + length.toNat)), delay⟩, after) ∧
    position after = min (position world + length.toNat) image.size
  /-- An abort may start over but does not skip any bytes. -/
  abort : ∀ world, ∃ count delay middle bytes wait after,
    session.pipe.onOut .abort 0 .empty world = (⟨.ok count, delay⟩, middle) ∧
    session.pipe.onIn .getStatus 0 6 middle = (⟨.ok bytes, wait⟩, after) ∧
    (reportOf bytes).2 = .dfuIdle ∧ position after ≤ position world

namespace Session

open Upload

variable {session : Session ω} {image : ByteArray} {chunk bound position : Nat}
  {limit : Option Nat} {received : ByteArray} {before after : Moment ω} {deeds : List Event}

theorem Offers.asked (device : session.Offers image) {block length : UInt16}
    {answer : Except TransferError ByteArray} {delay : Nat}
    (hasked : session.pipe.asked .upload block length before = (⟨answer, delay⟩, after)) :
    answer = .ok (image.extract (device.position before.world)
        (device.position before.world + length.toNat)) ∧
      device.position after.world =
        min (device.position before.world + length.toNat) image.size := by
  obtain ⟨time, world, hanswer, hposition⟩ := device.upload block length before.world
  rw [ControlPipe.asked_eq hanswer] at hasked
  cases hasked
  exact ⟨rfl, hposition⟩

/-- Told to give up, the device does so. -/
theorem Offers.cancels (device : session.Offers image) {result : Except Fault StatusReply}
    (hcancelling : session.Cancelling before deeds result after) :
    (∃ reply, result = .ok reply) ∧
      device.position after.world ≤ device.position before.world := by
  obtain ⟨count, time, middle, bytes, wait, world, htaken, hanswer, hidle, hposition⟩ :=
    device.abort before.world
  -- Every course begins with the same abort, and all but one answer of the device is excluded.
  cases hcancelling with
  | unsent htold =>
      rw [ControlPipe.told_eq htaken] at htold
      cases htold
  | unconfirmed htold hasked =>
      rw [ControlPipe.told_eq htaken] at htold
      cases htold
      rw [ControlPipe.asked_eq hanswer] at hasked
      cases hasked
  | ignored htold hasked hbusy =>
      rw [ControlPipe.told_eq htaken] at htold
      cases htold
      rw [ControlPipe.asked_eq hanswer] at hasked
      cases hasked
      rw [session.replyTo_state] at hbusy
      contradiction
  | cancelled htold hasked =>
      rw [ControlPipe.told_eq htaken] at htold
      cases htold
      rw [ControlPipe.asked_eq hanswer] at hasked
      cases hasked
      exact ⟨⟨_, rfl⟩, hposition⟩

/-! ## What has been received -/

theorem extract_append_next (image : ByteArray) (position length : Nat) :
    image.extract 0 position ++ image.extract position (position + length) =
      image.extract 0 (position + length) := by
  rw [ByteArray.extract_append_extract, Nat.zero_min, Nat.max_eq_right (Nat.le_add_right _ _)]

theorem extract_zero_min (image : ByteArray) (length : Nat) :
    image.extract 0 (min length image.size) = image.extract 0 length := by
  apply ByteArray.ext
  rw [ByteArray.data_extract, ByteArray.data_extract, Array.extract_eq_extract_right,
    ByteArray.size_data]
  omega

/-- The bytes received are the beginning of the image, and the device goes on right after them. -/
structure Offers.Gave (device : session.Offers image) (limit : Option Nat) (received : ByteArray)
    (world : ω) : Prop where
  bytes : received = image.extract 0 received.size
  position : device.position world = received.size
  within : ∀ most ∈ limit, received.size ≤ most

theorem Offers.gave_nothing (device : session.Offers image) {world : ω}
    (hstart : device.position world = 0) : device.Gave limit .empty world where
  bytes := ByteArray.extract_same.symm
  position := hstart
  within := fun most _ => Nat.zero_le most

theorem Offers.Gave.size_le {device : session.Offers image} {world : ω}
    (hgave : device.Gave limit received world) : received.size ≤ image.size := by
  have hsize := congrArg ByteArray.size hgave.bytes
  rw [ByteArray.size_extract] at hsize
  omega

/-- Each block appends the bytes that follow, as many as asked for if there are so many. -/
theorem Offers.Gave.next {device : session.Offers image} {block : UInt16} {data : ByteArray}
    {delay : Nat} (hchunk : chunk < UInt16.size) (hgave : device.Gave limit received before.world)
    (hasked : session.pipe.asked .upload block
      (UInt16.ofNat (nextLength chunk limit received.size)) before = (⟨.ok data, delay⟩, after)) :
    device.Gave limit (received ++ data) after.world ∧
      data.size = min (nextLength chunk limit received.size) (image.size - received.size) := by
  obtain ⟨hanswer, hposition⟩ := device.asked hasked
  rw [toNat_nextLength hchunk, hgave.position] at hanswer hposition
  have hinside := hgave.size_le
  have hdata : data = image.extract received.size
      (received.size + nextLength chunk limit received.size) := Except.ok.inj hanswer
  have hsize : data.size =
      min (nextLength chunk limit received.size) (image.size - received.size) := by
    rw [hdata, ByteArray.size_extract]
    omega
  refine ⟨⟨?_, ?_, ?_⟩, hsize⟩
  · calc
      received ++ data =
          image.extract 0 received.size ++ image.extract received.size
            (received.size + nextLength chunk limit received.size) := by
        rw [← hgave.bytes, hdata]
      _ = image.extract 0 (received.size + nextLength chunk limit received.size) :=
        extract_append_next ..
      _ = image.extract 0 (received ++ data).size := by
        rw [← extract_zero_min, ByteArray.size_append, hsize]
        congr 1
        omega
  · rw [hposition, ByteArray.size_append, hsize]
    omega
  · apply within_block hgave.within
    rw [hsize]
    exact Nat.min_le_left _ _

/-- The bytes that an upload with this limit is to return. -/
def wanted (image : ByteArray) (limit : Option Nat) : ByteArray :=
  image.extract 0 (min (limit.getD image.size) image.size)

theorem wanted_none (image : ByteArray) : wanted image none = image := by
  rw [wanted, Option.getD_none, Nat.min_self, ByteArray.extract_zero_size]

theorem Offers.Gave.eq_wanted {device : session.Offers image} {world : ω}
    (hgave : device.Gave limit received world)
    (hend : limit = some received.size ∨ received.size = image.size) :
    received = wanted image limit := by
  have hinside := hgave.size_le
  have hsize : min (limit.getD image.size) image.size = received.size := by
    rcases hend with rfl | hall
    · exact Nat.min_eq_left hinside
    · cases limit with
      | none => rw [hall, Option.getD_none, Nat.min_self]
      | some most =>
          have hwithin := hgave.within most rfl
          rw [Option.getD_some]
          omega
  rw [wanted, hsize]
  exact hgave.bytes

/-- Without limit all blocks before the last one are of the same size. -/
theorem dvd_size_of_full {data : ByteArray} (hwhole : limit = none → chunk ∣ received.size)
    (hfits : data.size ≤ nextLength chunk limit received.size)
    (hfull : ¬ data.size < nextLength chunk limit received.size) :
    limit = none → chunk ∣ (received ++ data).size := by
  rintro rfl
  have hsize : data.size = chunk := Nat.le_antisymm hfits (Nat.le_of_not_lt hfull)
  rw [ByteArray.size_append, hsize]
  exact Nat.dvd_add (hwhole rfl) (Nat.dvd_refl chunk)

/-! ## Uploads of a whole image -/

theorem Reading.of_offers (device : session.Offers image) (hchunk : chunk < UInt16.size)
    (hbound : limit = none → image.size / chunk * chunk < bound) {result : Except Fault ByteArray}
    (hreading : session.Reading chunk limit bound position received before deeds result after)
    (hgave : device.Gave limit received before.world)
    (hwhole : limit = none → chunk ∣ received.size) :
    result = .ok (wanted image limit) := by
  induction hreading with
  | failed hmore hasked =>
      obtain ⟨hanswer, -⟩ := device.asked hasked
      contradiction
  | @short _ received _ _ data _ hmore hasked hshort =>
      obtain ⟨hnext, hsize⟩ := hgave.next hchunk hasked
      have hinside := hgave.size_le
      have hall : (received ++ data).size = image.size := by
        rw [ByteArray.size_append]
        omega
      rw [hnext.eq_wanted (.inr hall)]
  | full hmore hasked hfull hrest ih =>
      obtain ⟨hnext, hsize⟩ := hgave.next hchunk hasked
      exact ih hnext (dvd_size_of_full hwhole (hsize ▸ Nat.min_le_left _ _) hfull)
  | stuck hdone hcancelling =>
      obtain ⟨⟨reply, hreply⟩, -⟩ := device.cancels hcancelling
      contradiction
  | @complete _ received _ _ _ _ hlimit hdone hcancelling =>
      obtain ⟨most, rfl⟩ := Option.isSome_iff_exists.mp hlimit
      have hwithin := hgave.within most rfl
      have hreached : most ≤ received.size := Nat.le_of_not_lt hdone
      rw [← hgave.eq_wanted (.inl (congrArg some (Nat.le_antisymm hreached hwithin)))]
  | @tooLarge _ received _ _ _ _ hlimit hdone hcancelling =>
      subst hlimit
      have hblocks : received.size / chunk ≤ image.size / chunk :=
        Nat.div_le_div_right hgave.size_le
      have hinside := Nat.mul_le_mul_right chunk hblocks
      rw [Nat.div_mul_cancel (hwhole rfl)] at hinside
      exact absurd (Nat.lt_of_le_of_lt hinside (hbound rfl)) hdone

/-- An upload without limit goes on while all blocks are full and the bound is not reached. -/
theorem Fetching.of_offers_blocks (device : session.Offers image) (hchunk : chunk < UInt16.size)
    (hbound : limit = none → image.size / chunk * chunk < bound)
    (hstart : device.position before.world = 0) {result : Except Fault ByteArray}
    (hfetching : session.Fetching chunk limit bound before deeds result after) :
    result = .ok (wanted image limit) := by
  cases hfetching with
  | unready hcancelling =>
      obtain ⟨⟨reply, hreply⟩, -⟩ := device.cancels hcancelling
      contradiction
  | ready hcancelling hreading =>
      obtain ⟨-, hposition⟩ := device.cancels hcancelling
      rw [hstart] at hposition
      exact hreading.of_offers device hchunk hbound
        (device.gave_nothing (Nat.le_zero.mp hposition)) fun _ => Nat.dvd_zero chunk

theorem Fetching.of_offers (device : session.Offers image) (hchunk : chunk < UInt16.size)
    (hbound : limit = none → image.size < bound) (hstart : device.position before.world = 0)
    {result : Except Fault ByteArray}
    (hfetching : session.Fetching chunk limit bound before deeds result after) :
    result = .ok (wanted image limit) :=
  hfetching.of_offers_blocks device hchunk
    (fun hnone => Nat.lt_of_le_of_lt (Nat.div_mul_le_self _ _) (hbound hnone)) hstart

/-- From a device that gives out an image, an upload with a limit returns as much of the image as
the limit allows, and an upload without limit returns all of an image smaller than the bound. -/
theorem uploadFirmware_reads_image (session : Session ω) {image : ByteArray}
    (device : session.Offers image) {chunk : UInt16} (positive : 0 < chunk.toNat)
    (before : Moment ω) (hstart : device.position before.world = 0) :
    (∀ limit, ∃ deeds after, (session.uploadFirmware chunk (some limit)).Performs before deeds
      (.ok (image.extract 0 (min limit image.size))) after) ∧
    (image.size < 64 * 1024 * 1024 → ∃ deeds after,
      (session.uploadFirmware chunk none).Performs before deeds (.ok image) after) := by
  have hchunk : chunk.toNat < UInt16.size := chunk.toNat_lt
  constructor
  · intro limit
    obtain ⟨deeds, result, after, hfetching, hrun⟩ :=
      session.uploadWithin_performs sizeBound positive (some limit) before
    obtain rfl := hfetching.of_offers device hchunk (by simp) hstart
    exact ⟨deeds, after, hrun⟩
  · intro hsmall
    obtain ⟨deeds, result, after, hfetching, hrun⟩ :=
      session.uploadWithin_performs sizeBound positive none before
    obtain rfl := hfetching.of_offers device hchunk (fun _ => hsmall) hstart
    have hall : wanted image none = image := by
      rw [wanted, Option.getD_none, Nat.min_self, ByteArray.extract_zero_size]
    rw [hall] at hrun
    exact ⟨deeds, after, hrun⟩

/-- A device that is always idle, and starts over when it is told to give up. -/
def offering (image : ByteArray) : Session Nat :=
  (default : Device Nat).session
    { route := .direct 0
      onOut := fun _ _ data _ => (⟨.ok data.size, 0⟩, 0)
      onIn := fun request _ length position =>
        match request with
        | .upload => (⟨.ok (image.extract position (position + length.toNat)), 0⟩,
            min (position + length.toNat) image.size)
        | _ => (⟨.ok ⟨#[0, 0, 0, 0, 2, 0]⟩, 0⟩, position) }

def offering_offers (image : ByteArray) : (offering image).Offers image where
  position := id
  upload := fun _ _ _ => ⟨_, _, rfl, rfl⟩
  abort := fun _ => ⟨_, _, _, _, _, _, rfl, rfl, rfl, Nat.zero_le _⟩

/-- The last block of the image is full, so that the upload without limit ends with an empty
block. -/
theorem uploadFirmware_reads_image_bench :
    let image : ByteArray := ⟨#[1, 2, 3, 4, 5, 6, 7, 8]⟩
    0 < (4 : UInt16).toNat ∧ (offering_offers image).position 0 = 0 ∧
      (∃ deeds after, ((offering image).uploadFirmware 4 (some 6)).Performs ⟨0, 0⟩ deeds
        (.ok ⟨#[1, 2, 3, 4, 5, 6]⟩) after) ∧
      ∃ deeds after, ((offering image).uploadFirmware 4 none).Performs ⟨0, 0⟩ deeds (.ok image)
        after := by
  intro image
  have positive : 0 < (4 : UInt16).toNat := by decide
  have hsmall : image.size < 64 * 1024 * 1024 := by decide
  obtain ⟨hlimited, hall⟩ := (offering image).uploadFirmware_reads_image (offering_offers image)
    positive ⟨0, 0⟩ rfl
  exact ⟨positive, rfl, hlimited 6, hall hsmall⟩

end Session

end FirmwareUpgrade
