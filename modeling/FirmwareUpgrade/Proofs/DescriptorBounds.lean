import FirmwareUpgrade.Proofs.FoundInterfaces
import FirmwareUpgrade.Proofs.ImageFormat

/-!
# The bytes of a functional descriptor

A descriptor begins with its own size, and what follows it belongs to something else.  Reading
depends on the bytes behind it in one case only: a descriptor without room for a version takes one
from there.  Descriptors that are taken out of a stream first have nothing behind them.  All fields
are numbers with the low byte first, and nothing is read from beyond the last byte.
-/

namespace FirmwareUpgrade

open LittleEndian

namespace Descriptor

/-! ## What is read -/

/-- The fields of a descriptor as they stand in the bytes. -/
structure StandsIn (descriptor : Descriptor) (bytes : List UInt8) : Prop where
  length : 7 ≤ bytes.length
  size : ∃ size, bytes[0]? = some size ∧ 7 ≤ size.toNat
  type : bytes[1]? = some 0x21
  attributes : bytes[2]? = some descriptor.attributes
  detachTimeout : descriptor.detachTimeout.toNat = value (bytes.extract 3 5)
  transferSize : descriptor.transferSize.toNat = value (bytes.extract 5 7)
  version : descriptor.version.toNat =
    if 9 ≤ bytes.length then value (bytes.extract 7 9) else 0

/-- The version in the bytes behind the form without version. -/
def versionIn : List UInt8 → UInt16
  | version0 :: version1 :: _ => join16 version0 version1
  | _ => 0

variable {bytes rest : List UInt8}
  {size type attributes detach0 detach1 transfer0 transfer1 : UInt8}

theorem decode_of_long (hsize : 7 ≤ size.toNat) :
    decode (size :: 0x21 :: attributes :: detach0 :: detach1 :: transfer0 :: transfer1 :: rest) =
      some ⟨attributes, join16 detach0 detach1, join16 transfer0 transfer1, versionIn rest⟩ :=
  if_pos ⟨rfl, hsize⟩

theorem exists_of_long (hlength : 7 ≤ bytes.length) :
    ∃ size type attributes detach0 detach1 transfer0 transfer1 rest, bytes =
      size :: type :: attributes :: detach0 :: detach1 :: transfer0 :: transfer1 :: rest := by
  match bytes with
  | [] | [_] | [_, _] | [_, _, _] | [_, _, _, _] | [_, _, _, _, _] | [_, _, _, _, _, _] =>
      simp at hlength
  | size :: type :: attributes :: detach0 :: detach1 :: transfer0 :: transfer1 :: rest =>
      exact ⟨_, _, _, _, _, _, _, _, rfl⟩

theorem decode_of_short (hshort : bytes.length < 7) : decode bytes = none := by
  unfold decode
  split
  · simp only [List.length_cons] at hshort
    omega
  · rfl

/-- Either the bytes begin like a functional descriptor, or nothing is read from them. -/
theorem decode_cases (bytes : List UInt8) :
    (∃ size attributes detach0 detach1 transfer0 transfer1 rest, 7 ≤ size.toNat ∧
      bytes = size :: 0x21 :: attributes :: detach0 :: detach1 :: transfer0 :: transfer1 :: rest) ∨
    decode bytes = none := by
  unfold decode
  split
  · next size type attributes detach0 detach1 transfer0 transfer1 rest =>
      split
      · next hform =>
          obtain ⟨rfl, hsize⟩ := hform
          exact .inl ⟨size, _, _, _, _, _, rest, hsize, rfl⟩
      · exact .inr rfl
  · exact .inr rfl

theorem toNat_versionIn (rest : List UInt8) :
    (versionIn rest).toNat = if 2 ≤ rest.length then value (rest.extract 0 2) else 0 := by
  match rest with
  | [] | [_] => rfl
  | version0 :: version1 :: rest =>
      rw [if_pos (by simp), versionIn, toNat_join16_eq_value]
      rfl

theorem standsIn_long (hsize : 7 ≤ size.toNat) :
    StandsIn ⟨attributes, join16 detach0 detach1, join16 transfer0 transfer1, versionIn rest⟩
      (size :: 0x21 :: attributes :: detach0 :: detach1 :: transfer0 :: transfer1 :: rest) where
  length := by simp
  size := ⟨size, rfl, hsize⟩
  type := rfl
  attributes := rfl
  detachTimeout := toNat_join16_eq_value ..
  transferSize := toNat_join16_eq_value ..
  version := by
    rw [toNat_versionIn]
    simp

theorem StandsIn.unique {first second : Descriptor} (hfirst : first.StandsIn bytes)
    (hsecond : second.StandsIn bytes) : first = second := by
  have hattributes := hfirst.attributes.symm.trans hsecond.attributes
  have hdetach := hfirst.detachTimeout.trans hsecond.detachTimeout.symm
  have htransfer := hfirst.transferSize.trans hsecond.transferSize.symm
  have hversion := hfirst.version.trans hsecond.version.symm
  cases first
  cases second
  rw [UInt16.toNat_inj] at hdetach htransfer hversion
  simp_all

theorem decode_eq_some_iff {descriptor : Descriptor} :
    decode bytes = some descriptor ↔ descriptor.StandsIn bytes := by
  constructor
  · intro hdecode
    rcases decode_cases bytes with ⟨size, _, _, _, _, _, _, hsize, rfl⟩ | hnone
    · rw [decode_of_long hsize] at hdecode
      cases hdecode
      exact standsIn_long hsize
    · rw [hnone] at hdecode
      contradiction
  · intro hstands
    obtain ⟨first, hfirst, hsize⟩ := hstands.size
    have htype := hstands.type
    obtain ⟨size, type, _, _, _, _, _, _, rfl⟩ := exists_of_long hstands.length
    cases hfirst
    cases htype
    rw [decode_of_long hsize, hstands.unique (standsIn_long hsize)]

/-! ## What belongs to a descriptor -/

/-- As many of the bytes as the descriptor says that it has. -/
def own : List UInt8 → List UInt8
  | [] => []
  | size :: rest => (size :: rest).take size.toNat

/-- A descriptor without room for a version is followed by bytes that make one. -/
structure Overruns (bytes : List UInt8) : Prop where
  size : ∃ size, bytes[0]? = some size ∧ 7 ≤ size.toNat ∧ size.toNat < 9
  type : bytes[1]? = some 0x21
  length : 9 ≤ bytes.length
  version : value (bytes.extract 7 9) ≠ 0

theorem own_of_long (hsize : 7 ≤ size.toNat) :
    own (size :: type :: attributes :: detach0 :: detach1 :: transfer0 :: transfer1 :: rest) =
      size :: type :: attributes :: detach0 :: detach1 :: transfer0 :: transfer1 ::
        rest.take (size.toNat - 7) := by
  obtain ⟨more, hmore⟩ := Nat.exists_eq_add_of_le' hsize
  rw [own, hmore]
  rfl

theorem exists_own_append (bytes : List UInt8) : ∃ more, bytes = own bytes ++ more := by
  cases bytes with
  | nil => exact ⟨[], rfl⟩
  | cons size rest => exact ⟨_, (List.take_append_drop size.toNat (size :: rest)).symm⟩

theorem versionIn_take (rest : List UInt8) (count : Nat) :
    versionIn (rest.take count) = if 2 ≤ count then versionIn rest else 0 := by
  match count with
  | 0 => rfl
  | 1 => cases rest <;> rfl
  | count + 2 =>
      rw [if_pos (by omega)]
      match rest with
      | [] | [_] | _ :: _ :: _ => rfl

theorem decode_own_of_none (hnone : decode bytes = none) : decode (own bytes) = none := by
  rcases decode_cases (own bytes) with ⟨size, _, _, _, _, _, _, hsize, hown⟩ | hown
  · obtain ⟨more, hbytes⟩ := exists_own_append bytes
    rw [hown] at hbytes
    simp only [List.cons_append] at hbytes
    -- then the bytes begin in the same way
    rw [hbytes, decode_of_long hsize] at hnone
    contradiction
  · exact hown

theorem versionIn_ne_zero_iff :
    versionIn rest ≠ 0 ↔ 2 ≤ rest.length ∧ value (rest.extract 0 2) ≠ 0 := by
  rw [Ne, ← UInt16.toNat_inj, toNat_versionIn]
  split
  · next hlong => simp [hlong]
  · next hshort => simp [hshort]

theorem overruns_long_iff (hsize : 7 ≤ size.toNat) :
    Overruns (size :: 0x21 :: attributes :: detach0 :: detach1 :: transfer0 :: transfer1 :: rest) ↔
      size.toNat < 9 ∧ versionIn rest ≠ 0 := by
  rw [versionIn_ne_zero_iff]
  constructor
  · rintro ⟨⟨first, hfirst, -, hroom⟩, -, hlength, hversion⟩
    cases hfirst
    exact ⟨hroom, by simpa using hlength, by simpa using hversion⟩
  · rintro ⟨hroom, hlength, hversion⟩
    exact ⟨⟨size, rfl, hsize, hroom⟩, rfl, by simpa using hlength, by simpa using hversion⟩

theorem not_overruns_of_none (hnone : decode bytes = none) : ¬ Overruns bytes := by
  rintro ⟨⟨first, hfirst, hsize, -⟩, htype, hlength, -⟩
  obtain ⟨size, type, _, _, _, _, _, _, rfl⟩ := exists_of_long (Nat.le_trans (by decide) hlength)
  cases hfirst
  cases htype
  rw [decode_of_long hsize] at hnone
  contradiction

theorem decode_eq_decode_own_iff :
    decode bytes = decode (own bytes) ↔ ¬ Overruns bytes := by
  rcases decode_cases bytes with
    ⟨size, attributes, detach0, detach1, transfer0, transfer1, rest, hsize, rfl⟩ | hnone
  · -- both descriptors have the same fields except for the version
    rw [own_of_long hsize, decode_of_long hsize, decode_of_long hsize, versionIn_take,
      overruns_long_iff hsize]
    by_cases hroom : 9 ≤ size.toNat
    · rw [if_pos (by omega)]
      exact iff_of_true rfl fun hover => Nat.not_lt.mpr hroom hover.1
    · rw [if_neg (by omega)]
      simp [Nat.lt_of_not_le hroom]
  · rw [hnone, decode_own_of_none hnone]
    exact iff_of_true rfl (not_overruns_of_none hnone)

/-! ## Reading within bounds -/

/-- The version behind the form without version, zero if the bytes end before it. -/
def version? (raw : ByteArray) : Option UInt16 :=
  if 9 ≤ raw.size then Image.word16? raw 7 else some 0

/-- `decode`, where a byte that is missing would leave no result at all. -/
def decodeStrictly (raw : ByteArray) : Option (Option Descriptor) := do
  if raw.size < 7 then
    return none
  if (← raw.data[1]?) ≠ 0x21 then
    return none
  if (← raw.data[0]?).toNat < 7 then
    return none
  return some {
    attributes := ← raw.data[2]?
    detachTimeout := ← Image.word16? raw 3
    transferSize := ← Image.word16? raw 5
    version := ← version? raw }

theorem version?_eq (size type attributes detach0 detach1 transfer0 transfer1 : UInt8)
    (rest : List UInt8) :
    version? ⟨⟨size :: type :: attributes :: detach0 :: detach1 :: transfer0 :: transfer1 ::
      rest⟩⟩ = some (versionIn rest) := by
  match rest with
  | [] | [_] | _ :: _ :: _ => simp [version?, Image.word16?, versionIn, ByteArray.size]

theorem decodeStrictly_eq (raw : ByteArray) :
    decodeStrictly raw = some (decode raw.data.toList) := by
  obtain ⟨⟨bytes⟩⟩ := raw
  by_cases hshort : bytes.length < 7
  · rw [decode_of_short hshort]
    exact if_pos hshort
  obtain ⟨size, type, attributes, detach0, detach1, transfer0, transfer1, rest, rfl⟩ :=
    exists_of_long (Nat.le_of_not_lt hshort)
  refine (if_neg hshort).trans ?_
  by_cases htype : type = 0x21
  · by_cases hsize : size.toNat < 7
    · simp [decode, htype, hsize, typeByte, shortSize]
    · have hlong : 7 ≤ size.toNat := Nat.le_of_not_lt hsize
      rw [htype, decode_of_long hlong]
      simp [hsize, Image.word16?, version?_eq]
  · simp [decode, htype, typeByte]

/-! ## The form with version -/

theorem decode_encode (descriptor : Descriptor) :
    decode descriptor.encode = some descriptor := by
  change decode (9 :: 0x21 :: _ :: _ :: _ :: _ :: _ :: split16 descriptor.version) = _
  rw [decode_of_long (by decide)]
  simp only [split16, versionIn, join16_split16]

theorem exists_encode_iff :
    (bytes.length = 9 ∧ bytes[0]? = some 9 ∧ bytes[1]? = some 0x21) ↔
      ∃ descriptor : Descriptor, descriptor.encode = bytes := by
  constructor
  · rintro ⟨hlength, hsize, htype⟩
    match bytes, hlength with
    | [_, _, attributes, detach0, detach1, transfer0, transfer1, version0, version1], _ =>
        cases hsize
        cases htype
        refine ⟨⟨attributes, join16 detach0 detach1, join16 transfer0 transfer1,
          join16 version0 version1⟩, ?_⟩
        simp only [encode, split16_join16]
        rfl
  · rintro ⟨descriptor, rfl⟩
    exact ⟨rfl, rfl, rfl⟩

end Descriptor

/-! ## Descriptors in a stream -/

section Streams

variable {piece : List UInt8}

theorem splitDescriptors_append (hpiece : IsDescriptor piece) (rest : List UInt8) :
    splitDescriptors (piece ++ rest) = piece :: splitDescriptors rest := by
  have hlength := hpiece.1
  match piece with
  | [] | [_] => simp at hlength
  | size :: type :: piece =>
      have hfits : 2 ≤ size.toNat ∧ size.toNat ≤ (piece ++ rest).length + 2 := by
        rw [hpiece.toNat_size]
        simp
      rw [List.cons_append, List.cons_append, splitDescriptors, dif_pos hfits,
        hpiece.toNat_size, ← List.cons_append, ← List.cons_append, List.take_left, List.drop_left]

theorem AlternateSetting.functional?_of_piece (setting : AlternateSetting)
    (hpiece : IsDescriptor piece) (hfunctional : isFunctional piece) (rest : List UInt8) :
    { setting with extra := piece ++ rest }.functional? = Descriptor.decode piece := by
  have hread : (Descriptor.decode piece).isSome := by
    rwa [Descriptor.isSome_decode hpiece]
  obtain ⟨descriptor, hdecode⟩ := Option.isSome_iff_exists.mp hread
  rw [functional?, splitDescriptors_append hpiece, List.findSome?_cons, hdecode]

namespace Descriptor

theorem own_append (hpiece : IsDescriptor piece) (rest : List UInt8) :
    own (piece ++ rest) = piece := by
  cases piece with
  | nil => exact absurd hpiece.1 (by decide)
  | cons size piece =>
      rw [List.cons_append, own, hpiece.toNat_size, ← List.cons_append, List.take_left]

theorem isFunctional_of_overruns {rest : List UInt8} (hpiece : IsDescriptor piece)
    (hover : Overruns (piece ++ rest)) : isFunctional piece ∧ piece.length < 9 := by
  have hlength := hpiece.1
  obtain ⟨⟨first, hfirst, hsize, hroom⟩, htype, -, -⟩ := hover
  match piece with
  | [] | [_] => simp at hlength
  | size :: type :: piece =>
      cases hfirst
      cases htype
      rw [hpiece.toNat_size] at hsize hroom
      exact ⟨isFunctional_iff.mpr ⟨rfl, hsize⟩, hroom⟩

/-- Two bytes that are not zero make a version behind any form that has no room for one. -/
theorem overruns_append_ones (hpiece : IsDescriptor piece) (hfunctional : isFunctional piece)
    (hroom : piece.length < 9) : Overruns (piece ++ [1, 1]) := by
  obtain ⟨htype, hlong⟩ := isFunctional_iff.mp hfunctional
  have hlength : piece.length = 7 ∨ piece.length = 8 := by omega
  rcases hlength with hseven | height
  · match piece, hseven with
    | [size, type, _, _, _, _, _], _ =>
        have hsize : size.toNat = 7 := hpiece.toNat_size
        exact ⟨⟨size, rfl, by omega⟩, htype, by simp, by simp⟩
  · match piece, height with
    | [size, type, _, _, _, _, _, _], _ =>
        have hsize : size.toNat = 8 := hpiece.toNat_size
        exact ⟨⟨size, rfl, by omega⟩, htype, by simp, by simp⟩

/-- What follows a descriptor matters exactly to the forms that have no room for a version. -/
theorem decode_append_iff (hpiece : IsDescriptor piece) :
    (∀ rest, decode (piece ++ rest) = decode piece) ↔ (isFunctional piece → 9 ≤ piece.length) := by
  have hown : ∀ rest, decode (piece ++ rest) = decode piece ↔ ¬ Overruns (piece ++ rest) := by
    intro rest
    rw [← decode_eq_decode_own_iff, own_append hpiece]
  constructor
  · intro halike hfunctional
    by_contra hroom
    have hover := overruns_append_ones hpiece hfunctional (Nat.lt_of_not_le hroom)
    exact (hown [1, 1]).mp (halike [1, 1]) hover
  · intro hroom rest
    refine (hown rest).mpr fun hover => ?_
    obtain ⟨hfunctional, hshort⟩ := isFunctional_of_overruns hpiece hover
    exact Nat.not_le.mpr hshort (hroom hfunctional)

end Descriptor

end Streams

/-! ## The whole of it -/

namespace Descriptor

/-- A descriptor is read from its own bytes alone, unless it has no room for a version and bytes
behind it make one.  Nothing is read from beyond the last byte, and each field is the number that
stands in its place. -/
theorem decode_keeps_to_own_bytes_iff (bytes : List UInt8) :
    (decode bytes = decode (own bytes) ↔ ¬ Overruns bytes) ∧
    (IsDescriptor bytes →
      ((∀ rest, decode (bytes ++ rest) = decode bytes) ↔
        (isFunctional bytes → 9 ≤ bytes.length)) ∧
      ∀ (setting : AlternateSetting) rest, isFunctional bytes →
        { setting with extra := bytes ++ rest }.functional? = decode bytes) ∧
    (∀ descriptor, decode bytes = some descriptor ↔ descriptor.StandsIn bytes) ∧
    decodeStrictly ⟨bytes.toArray⟩ = some (decode bytes) ∧
    ((bytes.length = 9 ∧ bytes[0]? = some 9 ∧ bytes[1]? = some 0x21) ↔
      ∃ descriptor, descriptor.encode = bytes ∧ decode bytes = some descriptor) := by
  refine ⟨decode_eq_decode_own_iff, ?_, ?_, decodeStrictly_eq _, ?_⟩
  · intro hpiece
    refine ⟨decode_append_iff hpiece, ?_⟩
    intro setting rest hfunctional
    exact setting.functional?_of_piece hpiece hfunctional rest
  · intro descriptor
    exact decode_eq_some_iff
  · rw [exists_encode_iff]
    exact exists_congr fun descriptor =>
      ⟨fun hencode => ⟨hencode, hencode ▸ decode_encode descriptor⟩, And.left⟩

/-- In a stream the form of seven bytes has no version, whatever follows it; read together with
what follows, it may have any. -/
theorem decode_keeps_to_own_bytes_iff_seven :
    let piece : List UInt8 := [7, 0x21, 0x05, 0x10, 0x27, 0x40, 0x00]
    IsDescriptor piece ∧ isFunctional piece ∧
      (¬ ∀ rest, decode (piece ++ rest) = decode piece) ∧
      ∀ rest, (AlternateSetting.plain 0xFE 0x01 (piece ++ rest)).functional? =
        some ⟨5, 10000, 64, 0⟩ := by
  intro piece
  have hpiece : IsDescriptor piece := by
    constructor <;> decide
  have hfunctional : isFunctional piece := by decide
  obtain ⟨-, hstream, -⟩ := decode_keeps_to_own_bytes_iff piece
  obtain ⟨halike, hsetting⟩ := hstream hpiece
  refine ⟨hpiece, hfunctional, ?_, ?_⟩
  · rw [halike]
    exact fun hroom => absurd (hroom hfunctional) (by decide)
  · intro rest
    exact hsetting (AlternateSetting.plain 0xFE 0x01 []) rest hfunctional

/-- A descriptor of seven bytes gets a version that it does not have. -/
theorem decode_reads_past_own_bytes :
    let bytes : List UInt8 := [7, 0x21, 0x05, 0x10, 0x27, 0x40, 0x00, 0xAA, 0xBB]
    decode bytes = some ⟨5, 10000, 64, 0xBBAA⟩ ∧ decode (own bytes) = some ⟨5, 10000, 64, 0⟩ ∧
      decode bytes ≠ decode (own bytes) := by
  decide

end Descriptor

end FirmwareUpgrade
