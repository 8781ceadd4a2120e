import FirmwareUpgrade.Proofs.FaithfulUpload
import FirmwareUpgrade.Proofs.LostDevices
import Mathlib.Data.Nat.ModEq

/-!
# The bound of an upload without limit

The bound is compared with what has been received before a block is asked for, and the block is
asked for in full length.  A short block ends the upload before the next comparison, so it may go
beyond the bound.  It never does exactly if the bound, or the number after it, is a multiple of the
length of the blocks.
-/

namespace FirmwareUpgrade

variable {ω : Type}

namespace Session

open Upload

/-- No more than the bound is returned, and a device that gives out more is refused. -/
structure KeepsBound (bound : Nat) (transfers : List Exchange)
    (result : Except Fault ByteArray) : Prop where
  small : ∀ data, result = .ok data → data.size ≤ bound
  large : bound < (receivedBytes transfers).length → result = .error (.uploadTooLarge bound)

/-- Whenever the device is told to give up its transfer, it confirms that it is idle. -/
def GivesUp (deeds : List Event) : Prop :=
  ∀ later, ¬ LostBefore later deeds

/-- How an upload without limit ends after so many bytes. -/
inductive EndsAtBound (bound chunk received : Nat) (transfers : List Exchange) :
    Except Fault ByteArray → Prop
  | short {data} (hsize : data.size = received) (hbelow : received / chunk * chunk < bound)
      (hends : EndsShort transfers) : EndsAtBound bound chunk received transfers (.ok data)
  | failed {error} (hbelow : received < bound) :
      EndsAtBound bound chunk received transfers (.error (.transfer error))
  | tooLarge (habove : bound ≤ received) (hends : EndsIdle transfers) :
      EndsAtBound bound chunk received transfers (.error (.uploadTooLarge bound))

/-- The last block is short and goes beyond the bound. -/
def Overshoots (bound : Nat) (transfers : List Exchange) : Prop :=
  EndsShort transfers ∧ bound < (receivedBytes transfers).length

/-- The bound is kept with all devices whose answers fit and that give up when they are told to. -/
def AlwaysKeepsBound (bound : Nat) (chunk : UInt16) : Prop :=
  ∀ (ω : Type) (session : Session ω) (before : Moment ω), session.pipe.Fits →
    ∃ deeds result after,
      (session.uploadWithin bound chunk none).Performs before deeds result after ∧
      (GivesUp deeds → KeepsBound bound (exchanges deeds) result)

/-! ## The end of one upload -/

section Ends

variable {bound chunk received : Nat} {transfers : List Exchange}
  {result : Except Fault ByteArray}

theorem EndsAtBound.after (hends : EndsAtBound bound chunk received transfers result)
    (first : List Exchange) : EndsAtBound bound chunk received (first ++ transfers) result := by
  cases hends with
  | short hsize hbelow hends => exact .short hsize hbelow (hends.append first)
  | failed hbelow => exact .failed hbelow
  | tooLarge habove hends => exact .tooLarge habove (hends.append first)

theorem EndsAtBound.keepsBound_iff
    (hends : EndsAtBound bound chunk (receivedBytes transfers).length transfers result) :
    KeepsBound bound transfers result ↔ ¬ Overshoots bound transfers := by
  cases hends with
  | short hsize hbelow hends =>
      constructor
      · rintro ⟨hsmall, -⟩ ⟨-, hlarge⟩
        have hinside := hsmall _ rfl
        omega
      · intro hnot
        have hinside : ¬ bound < (receivedBytes transfers).length := fun hlarge =>
          hnot ⟨hends, hlarge⟩
        constructor
        · rintro data ⟨⟩
          omega
        · intro hlarge
          contradiction
  | failed hbelow =>
      have hinside := Nat.lt_asymm hbelow
      constructor
      · exact fun _ hover => hinside hover.2
      · exact fun _ => ⟨by simp, fun hlarge => absurd hlarge hinside⟩
  | tooLarge habove hends =>
      constructor
      · exact fun _ hover => hover.1.not_endsIdle hends
      · exact fun _ => ⟨by simp, fun _ => rfl⟩

theorem lt_of_blocks_lt (positive : 0 < chunk) {total : Nat} (hwhole : total % chunk = 0)
    (hblocks : received / chunk * chunk < total) : received < total := by
  rw [← Nat.div_mul_cancel (Nat.dvd_of_mod_eq_zero hwhole)] at hblocks ⊢
  exact (Nat.div_lt_iff_lt_mul positive).mp (Nat.lt_of_mul_lt_mul_right hblocks)

/-- Full blocks that fill the bound, or all of it but one byte, leave no room to go beyond it. -/
theorem EndsAtBound.keepsBound (positive : 0 < chunk)
    (hwhole : bound % chunk = 0 ∨ (bound + 1) % chunk = 0)
    (hends : EndsAtBound bound chunk (receivedBytes transfers).length transfers result) :
    KeepsBound bound transfers result := by
  apply hends.keepsBound_iff.mpr
  rintro ⟨hshort, hlarge⟩
  cases hends with
  | short hsize hbelow hends =>
      rcases hwhole with hwhole | hwhole
      · have hinside := lt_of_blocks_lt positive hwhole hbelow
        omega
      · have hinside := lt_of_blocks_lt positive hwhole (Nat.lt_succ_of_lt hbelow)
        omega
  | failed hbelow => omega
  | tooLarge habove hidle => exact hshort.not_endsIdle hidle

theorem blocks_lt_of_not_dvd (hnone : ¬ (bound % chunk = 0 ∨ (bound + 1) % chunk = 0)) :
    (bound + 1) / chunk * chunk < bound := by
  rw [not_or] at hnone
  have hblocks := Nat.div_add_mod' (bound + 1) chunk
  have hrest : (bound + 1) % chunk ≠ 1 := by
    intro hone
    have hdvd : chunk ∣ bound := ⟨(bound + 1) / chunk, by rw [Nat.mul_comm]; omega⟩
    exact hnone.1 (Nat.mod_eq_zero_of_dvd hdvd)
  omega

end Ends

variable {session : Session ω} {bound chunk position : Nat} {received : ByteArray}
  {before after : Moment ω} {deeds : List Event} {result : Except Fault ByteArray}

theorem Reading.endsAtBound (hchunk : chunk < UInt16.size) (hfits : session.pipe.Fits)
    (hreading : session.Reading chunk none bound position received before deeds result after)
    (hwhole : chunk ∣ received.size) (hkept : ¬ EndsFatally result) :
    EndsAtBound bound chunk (received.size + (receivedBytes (exchanges deeds)).length)
      (exchanges deeds) result := by
  -- All blocks before the last one are full, so that what they fill is compared with the bound.
  induction hreading with
  | failed hmore hasked => exact .failed hmore
  | @short _ received _ _ data _ hmore hasked hshort =>
      rw [exchanges_cons_blockDeed, exchanges_cons_uploaded, length_receivedBytes_cons]
      have hlast : data.size / chunk = 0 := Nat.div_eq_of_lt hshort
      have hblocks : (received.size + data.size) / chunk * chunk = received.size := by
        rw [Nat.add_div_of_dvd_right hwhole, hlast, Nat.add_zero, Nat.div_mul_cancel hwhole]
      apply EndsAtBound.short
      · exact ByteArray.size_append
      · exact hblocks.symm ▸ hmore
      · refine ⟨[], _, _, data, rfl, ?_⟩
        rwa [toNat_nextLength hchunk]
  | @full _ received _ _ _ data _ _ _ hmore hasked hfull hrest ih =>
      rw [exchanges_cons_blockDeed, exchanges_cons_uploaded, length_receivedBytes_cons,
        ← Nat.add_assoc, ← ByteArray.size_append]
      have hnext := dvd_size_of_full (fun _ => hwhole) (size_le_nextLength hfits hchunk hasked)
        hfull rfl
      exact (ih hnext hkept).after [_]
  | stuck hdone hcancelling => exact absurd ⟨_, rfl, hcancelling.failedCancel.2⟩ hkept
  | complete hlimit => simp at hlimit
  | tooLarge hlimit hdone hcancelling =>
      rcases hcancelling.exchanges_of_ok with ⟨count, bytes, hdeeds, hidle⟩
      rw [hdeeds]
      exact .tooLarge (Nat.le_of_not_lt hdone) ⟨[], count, bytes, rfl, hidle⟩

theorem Fetching.endsAtBound (hchunk : chunk < UInt16.size) (hfits : session.pipe.Fits)
    (hfetching : session.Fetching chunk none bound before deeds result after)
    (hkept : ¬ EndsFatally result) :
    EndsAtBound bound chunk (receivedBytes (exchanges deeds)).length (exchanges deeds) result := by
  cases hfetching with
  | unready hcancelling => exact absurd ⟨_, rfl, hcancelling.failedCancel.2⟩ hkept
  | ready hcancelling hreading =>
      rcases hcancelling.exchanges_of_ok with ⟨count, bytes, hdeeds, -⟩
      have hends := hreading.endsAtBound hchunk hfits (Nat.dvd_zero chunk) hkept
      rw [exchanges_append, hdeeds, receivedBytes_append]
      rw [ByteArray.size_empty, Nat.zero_add] at hends
      exact hends.after _

theorem Fetching.givesUp_iff {limit : Option Nat}
    (hfetching : session.Fetching chunk limit bound before deeds result after) :
    GivesUp deeds ↔ ¬ EndsFatally result := by
  have hlost (later : List Event) : LostBefore later deeds ↔ EndsFatally result ∧ later = [] := by
    have hiff : LostBefore later (deeds ++ []) ↔ _ := hfetching.lost_iff (by simp [Abortless])
    rwa [List.append_nil] at hiff
  simp [GivesUp, hlost]

/-! ## All uploads -/

theorem uploadWithin_endsAtBound (session : Session ω) (hfits : session.pipe.Fits) (bound : Nat)
    {chunk : UInt16} (positive : 0 < chunk.toNat) (before : Moment ω) :
    ∃ deeds result after,
      (session.uploadWithin bound chunk none).Performs before deeds result after ∧
      (GivesUp deeds → EndsAtBound bound chunk.toNat (receivedBytes (exchanges deeds)).length
        (exchanges deeds) result) := by
  rcases session.uploadWithin_performs bound positive none before with
    ⟨deeds, result, after, hfetching, hrun⟩
  refine ⟨deeds, result, after, hrun, ?_⟩
  intro hgives
  exact hfetching.endsAtBound chunk.toNat_lt hfits (hfetching.givesUp_iff.mp hgives)

/-- An image is returned if the full blocks it consists of do not reach the bound. -/
theorem Offers.uploadWithin_performs {image : ByteArray} (device : session.Offers image)
    {chunk : UInt16} (positive : 0 < chunk.toNat)
    (hblocks : image.size / chunk.toNat * chunk.toNat < bound)
    (hstart : device.position before.world = 0) :
    ∃ deeds after, (session.uploadWithin bound chunk none).Performs before deeds (.ok image) after ∧
      GivesUp deeds := by
  rcases session.uploadWithin_performs bound positive none before with
    ⟨deeds, result, after, hfetching, hrun⟩
  have hresult := hfetching.of_offers_blocks device chunk.toNat_lt (fun _ => hblocks) hstart
  rw [wanted_none] at hresult
  subst hresult
  exact ⟨deeds, after, hrun, hfetching.givesUp_iff.mpr (not_endsFatally_ok image)⟩

/-- A device that gives out an image in answers that fit, and is idle at any other time. -/
def supplying (image : ByteArray) : Session Nat :=
  (default : Device Nat).session
    { route := .direct 0
      onOut := fun _ _ data _ => (⟨.ok data.size, 0⟩, 0)
      onIn := fun request _ length position =>
        match request with
        | .upload => (⟨.ok (image.extract position (position + length.toNat)), 0⟩,
            min (position + length.toNat) image.size)
        | _ => (⟨.ok (if 6 ≤ length.toNat then ⟨#[0, 0, 0, 0, 2, 0]⟩ else .empty), 0⟩,
            position) }

def supplying_offers (image : ByteArray) : (supplying image).Offers image where
  position := id
  upload := fun _ _ _ => ⟨_, _, rfl, rfl⟩
  abort := fun _ => ⟨_, _, _, _, _, _, rfl, rfl, rfl, Nat.zero_le _⟩

theorem supplying_fits (image : ByteArray) : (supplying image).pipe.Fits := by
  intro request value length position bytes delay after hanswer
  have hstatus : (if 6 ≤ length.toNat then (⟨#[0, 0, 0, 0, 2, 0]⟩ : ByteArray) else .empty).size ≤
      length.toNat := by
    split
    · assumption
    · exact Nat.zero_le _
  cases request with
  | upload =>
      cases hanswer
      rw [ByteArray.size_extract]
      omega
  | _ =>
      cases hanswer
      exact hstatus

theorem not_alwaysKeepsBound {chunk : UInt16} (positive : 0 < chunk.toNat)
    (hnone : ¬ (bound % chunk.toNat = 0 ∨ (bound + 1) % chunk.toNat = 0)) :
    ¬ AlwaysKeepsBound bound chunk := by
  intro halways
  -- An image of one byte too many whose last block is a short one.
  have hsize : (⟨Array.replicate (bound + 1) 0⟩ : ByteArray).size = bound + 1 :=
    Array.size_replicate
  generalize (⟨Array.replicate (bound + 1) 0⟩ : ByteArray) = image at hsize
  have hblocks := blocks_lt_of_not_dvd hnone
  rw [← hsize] at hblocks
  have hexceeds : ∃ deeds after,
      ((supplying image).uploadWithin bound chunk none).Performs ⟨0, 0⟩ deeds (.ok image) after ∧
        GivesUp deeds :=
    (supplying_offers image).uploadWithin_performs positive hblocks rfl
  rcases hexceeds with ⟨deeds, after, hrun, hgives⟩
  rcases halways Nat (supplying image) ⟨0, 0⟩ (supplying_fits image) with
    ⟨deeds', result, after', hrun', hkeeps⟩
  rcases hrun.unique hrun' with ⟨rfl, rfl, rfl⟩
  have hsmall := (hkeeps hgives).small image rfl
  omega

/-- An upload without limit keeps the bound unless it overshoots it with a short last block.  With
blocks of the given length no device makes it do so exactly if the bound is a multiple of the
length, or one less. -/
theorem uploadWithin_keeps_bound_iff (bound : Nat) {chunk : UInt16} (positive : 0 < chunk.toNat) :
    (∀ (ω : Type) (session : Session ω) (before : Moment ω), session.pipe.Fits →
      ∃ deeds result after,
        (session.uploadWithin bound chunk none).Performs before deeds result after ∧
        (GivesUp deeds →
          EndsAtBound bound chunk.toNat (receivedBytes (exchanges deeds)).length
            (exchanges deeds) result ∧
          (KeepsBound bound (exchanges deeds) result ↔ ¬ Overshoots bound (exchanges deeds)))) ∧
    (AlwaysKeepsBound bound chunk ↔
      bound % chunk.toNat = 0 ∨ (bound + 1) % chunk.toNat = 0) := by
  constructor
  · intro ω session before hfits
    rcases session.uploadWithin_endsAtBound hfits bound positive before with
      ⟨deeds, result, after, hrun, hends⟩
    exact ⟨deeds, result, after, hrun, fun hgives =>
      ⟨hends hgives, (hends hgives).keepsBound_iff⟩⟩
  · constructor
    · intro halways
      exact Classical.byContradiction fun hnone => not_alwaysKeepsBound positive hnone halways
    · intro hwhole ω session before hfits
      rcases session.uploadWithin_endsAtBound hfits bound positive before with
        ⟨deeds, result, after, hrun, hends⟩
      exact ⟨deeds, result, after, hrun, fun hgives => (hends hgives).keepsBound positive hwhole⟩

theorem uploadWithin_keeps_bound_iff_four :
    0 < (4 : UInt16).toNat ∧ AlwaysKeepsBound 8 4 ∧ AlwaysKeepsBound 7 4 ∧
      ¬ AlwaysKeepsBound 6 4 := by
  have positive : 0 < (4 : UInt16).toNat := by decide
  have height := (uploadWithin_keeps_bound_iff 8 positive).2
  have hseven := (uploadWithin_keeps_bound_iff 7 positive).2
  have hsix := (uploadWithin_keeps_bound_iff 6 positive).2
  exact ⟨positive, height.mpr (by decide), hseven.mpr (by decide), hsix.not.mpr (by decide)⟩

/-- With the longest blocks, an upload returns one byte more than the bound. -/
theorem uploadFirmware_exceeds_bound :
    let image : ByteArray := ⟨Array.replicate (sizeBound + 1) 0⟩
    (supplying image).pipe.Fits ∧ sizeBound < image.size ∧
      ∃ deeds after, ((supplying image).uploadFirmware 65535 none).Performs ⟨0, 0⟩ deeds
        (.ok image) after ∧ GivesUp deeds := by
  intro image
  have hsize : image.size = sizeBound + 1 := Array.size_replicate
  have hblocks : image.size / (65535 : UInt16).toNat * (65535 : UInt16).toNat < sizeBound := by
    rw [hsize]
    decide
  refine ⟨supplying_fits image, hsize ▸ Nat.lt_succ_self sizeBound, ?_⟩
  exact (supplying_offers image).uploadWithin_performs (by decide) hblocks rfl

end Session

end FirmwareUpgrade
