import FirmwareUpgrade.Image
import FirmwareUpgrade.Proofs.ByteOrder

/-!
# The format of firmware files

`Image.Reads` says what reading a file under a policy comes to, in terms of the bytes of the file
and of `Image.encode`, which writes one.  Reading does exactly this, so a suffix is accepted if and
only if it was written with its file, and every other file has one particular fault or is taken as a
whole.  `Image.loadStrictly` reads a file without ever leaving its bounds and comes to the same.
-/

namespace FirmwareUpgrade

open LittleEndian

/-! ## The bytes of a suffix -/

namespace Suffix

/-- The last sixteen bytes of a file that ends with the suffix. -/
def encode (suffix : Suffix) : List UInt8 :=
  encodeFields suffix.device suffix.product suffix.vendor suffix.version suffix.length
    ++ split32 suffix.checksum

theorem length_encode (suffix : Suffix) : suffix.encode.length = minimumSize := rfl

theorem decode_eq_some_iff {bytes : List UInt8} {suffix : Suffix} :
    decode bytes = some suffix ↔ bytes = suffix.encode := by
  constructor
  · intro hdecode
    unfold decode at hdecode
    split at hdecode
    · split at hdecode
      · next hmark =>
          cases hdecode
          simp only [encode, encodeFields, split16_join16, split32_join32, ← hmark]
          rfl
      · contradiction
    · contradiction
  · rintro rfl
    simp only [encode, encodeFields, split16, split32, split24, signature, List.cons_append,
      List.nil_append, decode, join16_split16, join32_split32, if_true]

section Check

variable {file : ByteArray} {suffix : Suffix}

theorem check_of_outside
    (hlength : suffix.length.toNat < 16 ∨ file.size < suffix.length.toNat) :
    suffix.check file = .error (.invalidSuffixLength suffix.length) :=
  if_pos hlength

theorem check_of_inside (hlength : 16 ≤ suffix.length.toNat ∧ suffix.length.toNat ≤ file.size) :
    suffix.check file =
      if Checksum.register (file.extract 0 (file.size - 4)) = suffix.checksum then .ok ()
      else .error (.badChecksum suffix.checksum
        (Checksum.register (file.extract 0 (file.size - 4)))) := by
  have hinside : ¬ (suffix.length.toNat < minimumSize ∨ file.size < suffix.length.toNat) := by
    rw [minimumSize]
    omega
  exact if_neg hinside

end Check

end Suffix

namespace Image

/-! ## What a file says at its end -/

/-- The last sixteen bytes of a file, or all of them if there are fewer. -/
def trailer (file : ByteArray) : List UInt8 :=
  (file.extract (file.size - Suffix.minimumSize) file.size).data.toList

/-- The three bytes where a file with a suffix has the signature. -/
def mark (file : ByteArray) : List UInt8 :=
  ((trailer file).drop 8).take 3

def IsSigned (file : ByteArray) : Prop :=
  Suffix.minimumSize ≤ file.size ∧ mark file = Suffix.signature

/-- The file carries the signature, this length byte after it and this checksum at its end. -/
structure Signs (file : ByteArray) (length : UInt8) (stored : UInt32) : Prop where
  signed : IsSigned file
  length : (trailer file)[11]? = some length
  stored : (trailer file).drop 12 = split32 stored

theorem length_trailer (file : ByteArray) :
    (trailer file).length = min Suffix.minimumSize file.size := by
  rw [trailer, Array.length_toList, ByteArray.size_data, ByteArray.size_extract]
  omega

theorem find_eq_some_iff {file : ByteArray} {suffix : Suffix} :
    Suffix.find file = some suffix ↔ trailer file = suffix.encode :=
  Suffix.decode_eq_some_iff

theorem signs_of_find {file : ByteArray} {suffix : Suffix}
    (hfind : Suffix.find file = some suffix) : Signs file suffix.length suffix.checksum := by
  have htrailer := find_eq_some_iff.mp hfind
  have hlength := congrArg List.length htrailer
  rw [length_trailer, Suffix.length_encode] at hlength
  constructor
  · constructor
    · omega
    · rw [mark, htrailer]
      rfl
  · rw [htrailer]
    rfl
  · rw [htrailer]
    rfl

theorem find_of_isSigned {file : ByteArray} (hsigned : IsSigned file) :
    ∃ suffix, Suffix.find file = some suffix := by
  obtain ⟨hsize, hmark⟩ := hsigned
  have hlength : (trailer file).length = 16 := by
    rw [length_trailer]
    exact Nat.min_eq_left hsize
  change ∃ suffix, Suffix.decode (trailer file) = some suffix
  unfold mark at hmark
  generalize trailer file = bytes at hmark hlength
  match bytes, hlength, hmark with
  | [_, _, _, _, _, _, _, _, _, _, _, _, _, _, _, _], _, hmark => exact ⟨_, if_pos hmark⟩

theorem find_eq_none_iff {file : ByteArray} : Suffix.find file = none ↔ ¬ IsSigned file := by
  constructor
  · intro hnone hsigned
    obtain ⟨suffix, hfind⟩ := find_of_isSigned hsigned
    rw [hfind] at hnone
    contradiction
  · intro hunsigned
    cases hfind : Suffix.find file with
    | none => rfl
    | some suffix => exact absurd (signs_of_find hfind).signed hunsigned

theorem Signs.find {file : ByteArray} {length : UInt8} {stored : UInt32}
    (hsigns : Signs file length stored) :
    ∃ suffix, Suffix.find file = some suffix ∧ suffix.length = length ∧
      suffix.checksum = stored := by
  obtain ⟨suffix, hfind⟩ := find_of_isSigned hsigns.signed
  have hfound := signs_of_find hfind
  have hlength : some suffix.length = some length := by
    rw [← hfound.length, hsigns.length]
  have hstored : split32 suffix.checksum = split32 stored := by
    rw [← hfound.stored, hsigns.stored]
  exact ⟨suffix, hfind, Option.some.inj hlength, split32_injective hstored⟩

/-! ## What reading a file comes to -/

/-- Everything in front of the checksum. -/
def body (payload extra : ByteArray) (device product vendor version : UInt16) : ByteArray :=
  payload ++ extra ++ ⟨(Suffix.encodeFields device product vendor version
    (UInt8.ofNat (Suffix.minimumSize + extra.size))).toArray⟩

/-- The suffix that is written with a payload. -/
def suffixOf (payload extra : ByteArray) (device product vendor version : UInt16) : Suffix where
  device
  product
  vendor
  version
  length := UInt8.ofNat (Suffix.minimumSize + extra.size)
  checksum := Checksum.register (body payload extra device product vendor version)

structure IsWhole (image : Image) (file : ByteArray) : Prop where
  payload : image.payload = file
  suffix : image.suffix = none
  device : image.device = 0xFFFF
  product : image.product = 0xFFFF
  vendor : image.vendor = 0xFFFF

structure Consists (image : Image) (firmware : ByteArray) (trailing : Suffix) : Prop where
  payload : image.payload = firmware
  suffix : image.suffix = some trailing
  device : image.device = trailing.device
  product : image.product = trailing.product
  vendor : image.vendor = trailing.vendor

theorem isWhole_iff {image : Image} {file : ByteArray} :
    image.IsWhole file ↔ image = ⟨file, none⟩ := by
  constructor
  · intro hwhole
    cases image
    exact congr (congrArg mk hwhole.payload) hwhole.suffix
  · rintro rfl
    exact ⟨rfl, rfl, rfl, rfl, rfl⟩

theorem consists_iff {image : Image} {payload : ByteArray} {suffix : Suffix} :
    image.Consists payload suffix ↔ image = ⟨payload, some suffix⟩ := by
  constructor
  · intro hconsists
    cases image
    exact congr (congrArg mk hconsists.payload) hconsists.suffix
  · rintro rfl
    exact ⟨rfl, rfl, rfl, rfl, rfl⟩

/-- What reading a file under a policy comes to. -/
inductive Reads (policy : SuffixUse) (file : ByteArray) : Except ImageFault Image → Prop
  | ignored {image : Image} (hpolicy : policy = .ignored) (himage : image.IsWhole file) :
      Reads policy file (.ok image)
  | unsigned {image : Image} (hpolicy : policy = .optional) (hunsigned : ¬ IsSigned file)
      (himage : image.IsWhole file) : Reads policy file (.ok image)
  | missing (hpolicy : policy = .required) (hunsigned : ¬ IsSigned file) :
      Reads policy file (.error .missingSuffix)
  | badLength {length stored} (hpolicy : policy ≠ .ignored) (hsigns : Signs file length stored)
      (hlength : length.toNat < 16 ∨ file.size < length.toNat) :
      Reads policy file (.error (.invalidSuffixLength length))
  | badChecksum {length stored} (hpolicy : policy ≠ .ignored) (hsigns : Signs file length stored)
      (hlength : 16 ≤ length.toNat ∧ length.toNat ≤ file.size)
      (hchecksum : Checksum.register (file.extract 0 (file.size - 4)) ≠ stored) :
      Reads policy file
        (.error (.badChecksum stored (Checksum.register (file.extract 0 (file.size - 4)))))
  | written {image : Image} {payload extra device product vendor version}
      (hpolicy : policy ≠ .ignored) (hextra : extra.size ≤ 239)
      (hfile : file = encode payload extra device product vendor version)
      (himage : image.Consists payload (suffixOf payload extra device product vendor version)) :
      Reads policy file (.ok image)

/-! ## Files with a suffix -/

theorem load_eq {policy : SuffixUse} (hpolicy : policy ≠ .ignored) (file : ByteArray) :
    load policy file =
      match Suffix.find file with
      | some suffix =>
        (suffix.check file).map fun _ =>
          ⟨file.extract 0 (file.size - suffix.length.toNat), some suffix⟩
      | none => if policy = .required then .error .missingSuffix else .ok ⟨file, none⟩ := by
  cases policy with
  | ignored => exact (hpolicy rfl).elim
  | required =>
      unfold load
      cases Suffix.find file with
      | none => rfl
      | some suffix =>
          dsimp only
          cases suffix.check file <;> rfl
  | optional =>
      unfold load
      cases Suffix.find file with
      | none => rfl
      | some suffix =>
          dsimp only
          cases suffix.check file <;> rfl

/-- A file is what stands in front of its last sixteen bytes, and these bytes. -/
theorem eq_append_trailer (file : ByteArray) :
    file = file.extract 0 (file.size - Suffix.minimumSize) ++ ⟨(trailer file).toArray⟩ := by
  have hsplit := file.extract_eq_extract_append_extract (file.size - Suffix.minimumSize)
    (Nat.zero_le _) (Nat.sub_le file.size Suffix.minimumSize)
  have htrailer : ByteArray.mk (trailer file).toArray =
      file.extract (file.size - Suffix.minimumSize) file.size := by
    rw [trailer, Array.toArray_toList]
  rw [ByteArray.extract_zero_size] at hsplit
  rw [htrailer]
  exact hsplit

theorem trailer_append (front : ByteArray) (suffix : Suffix) :
    trailer (front ++ ⟨suffix.encode.toArray⟩) = suffix.encode := by
  have hsize : (front ++ ⟨suffix.encode.toArray⟩).size = front.size + 16 := by
    rw [ByteArray.size_append]
    rfl
  have hstart : front.size + 16 - Suffix.minimumSize = front.size := Nat.add_sub_cancel ..
  have hstop : front.size + 16 = front.size + (ByteArray.mk suffix.encode.toArray).size := rfl
  rw [trailer, hsize, ByteArray.extract_append_eq_right hstart hstop]

/-- The part of a file that the checksum covers. -/
theorem extract_covered (front : ByteArray) (suffix : Suffix) :
    (front ++ ⟨suffix.encode.toArray⟩).extract 0 ((front ++ ⟨suffix.encode.toArray⟩).size - 4) =
      front ++ ⟨(Suffix.encodeFields suffix.device suffix.product suffix.vendor suffix.version
        suffix.length).toArray⟩ := by
  have hsplit : front ++ ⟨suffix.encode.toArray⟩ =
      front ++ ⟨(Suffix.encodeFields suffix.device suffix.product suffix.vendor suffix.version
        suffix.length).toArray⟩ ++ ⟨(split32 suffix.checksum).toArray⟩ := by
    apply ByteArray.ext
    apply Array.toList_inj.mp
    simp [Suffix.encode, ByteArray.data_append]
  rw [hsplit, ByteArray.size_append]
  exact ByteArray.extract_append_eq_left (Nat.add_sub_cancel ..)

section Encoding

variable (payload extra : ByteArray) (device product vendor version : UInt16)

theorem encode_eq :
    encode payload extra device product vendor version =
      payload ++ extra ++
        ⟨(suffixOf payload extra device product vendor version).encode.toArray⟩ := by
  apply ByteArray.ext
  apply Array.toList_inj.mp
  simp [encode, Suffix.encode, suffixOf, body, ByteArray.data_append]

theorem size_encode :
    (encode payload extra device product vendor version).size =
      payload.size + extra.size + 16 := by
  rw [encode_eq, ByteArray.size_append, ByteArray.size_append]
  rfl

theorem find_encode :
    Suffix.find (encode payload extra device product vendor version) =
      some (suffixOf payload extra device product vendor version) := by
  rw [find_eq_some_iff, encode_eq, trailer_append]

variable {extra}

theorem toNat_length_suffixOf (hextra : extra.size ≤ 239) :
    (suffixOf payload extra device product vendor version).length.toNat = 16 + extra.size := by
  change (UInt8.ofNat (16 + extra.size)).toNat = 16 + extra.size
  rw [UInt8.toNat_ofNat']
  omega

theorem load_encode {policy : SuffixUse} (hpolicy : policy ≠ .ignored)
    (hextra : extra.size ≤ 239) :
    load policy (encode payload extra device product vendor version) =
      .ok ⟨payload, some (suffixOf payload extra device product vendor version)⟩ := by
  have hsize := size_encode payload extra device product vendor version
  have hlength := toNat_length_suffixOf payload device product vendor version hextra
  have hcheck : (suffixOf payload extra device product vendor version).check
      (encode payload extra device product vendor version) = .ok () := by
    have hcovered := extract_covered (payload ++ extra)
      (suffixOf payload extra device product vendor version)
    rw [← encode_eq] at hcovered
    rw [Suffix.check_of_inside (by omega), hcovered]
    exact if_pos rfl
  have hpayload : (encode payload extra device product vendor version).extract 0
      ((encode payload extra device product vendor version).size - (16 + extra.size)) =
        payload := by
    rw [hsize, encode_eq, ByteArray.append_assoc]
    exact ByteArray.extract_append_eq_left (by omega)
  rw [load_eq hpolicy, find_encode]
  dsimp only
  rw [hcheck, hlength, hpayload]
  rfl

end Encoding

/-- A suffix that is accepted was written with its file. -/
theorem encode_of_check {file : ByteArray} {suffix : Suffix}
    (hfind : Suffix.find file = some suffix) (hshort : 16 ≤ suffix.length.toNat)
    (hlong : suffix.length.toNat ≤ file.size)
    (hchecksum : Checksum.register (file.extract 0 (file.size - 4)) = suffix.checksum) :
    ∃ extra : ByteArray, extra.size ≤ 239 ∧
      file = encode (file.extract 0 (file.size - suffix.length.toNat)) extra suffix.device
        suffix.product suffix.vendor suffix.version ∧
      suffix = suffixOf (file.extract 0 (file.size - suffix.length.toNat)) extra suffix.device
        suffix.product suffix.vendor suffix.version := by
  have hbyte := suffix.length.toNat_lt
  have htrailer := find_eq_some_iff.mp hfind
  have hfile := eq_append_trailer file
  rw [htrailer] at hfile
  have hfront : file.extract 0 (file.size - suffix.length.toNat) ++
      file.extract (file.size - suffix.length.toNat) (file.size - Suffix.minimumSize) =
        file.extract 0 (file.size - Suffix.minimumSize) := by
    have hmax : max (file.size - suffix.length.toNat) (file.size - Suffix.minimumSize) =
        file.size - Suffix.minimumSize := by
      rw [Suffix.minimumSize]
      omega
    rw [ByteArray.extract_append_extract, Nat.zero_min, hmax]
  have hsize : (file.extract (file.size - suffix.length.toNat)
      (file.size - Suffix.minimumSize)).size = suffix.length.toNat - 16 := by
    rw [ByteArray.size_extract, Suffix.minimumSize]
    omega
  have hlength : UInt8.ofNat (Suffix.minimumSize + (suffix.length.toNat - 16)) =
      suffix.length := by
    rw [Suffix.minimumSize, Nat.add_sub_cancel' hshort, UInt8.ofNat_toNat]
  have hcovered := extract_covered (file.extract 0 (file.size - Suffix.minimumSize)) suffix
  rw [← hfile] at hcovered
  have hsuffix : suffix = suffixOf (file.extract 0 (file.size - suffix.length.toNat))
      (file.extract (file.size - suffix.length.toNat) (file.size - Suffix.minimumSize))
      suffix.device suffix.product suffix.vendor suffix.version := by
    rw [suffixOf, body, hfront, hsize, hlength, ← hcovered, hchecksum]
  refine ⟨_, ?_, ?_, hsuffix⟩
  · rw [hsize]
    omega
  · rw [encode_eq, ← hsuffix, hfront]
    exact hfile

/-! ## Reading -/

theorem Reads.load_eq {policy : SuffixUse} {file : ByteArray} {result : Except ImageFault Image}
    (hreads : Reads policy file result) : load policy file = result := by
  cases hreads with
  | ignored hpolicy himage =>
      rw [hpolicy, isWhole_iff.mp himage]
      rfl
  | unsigned hpolicy hunsigned himage =>
      rw [Image.load_eq (by simp [hpolicy]), find_eq_none_iff.mpr hunsigned, hpolicy,
        isWhole_iff.mp himage]
      rfl
  | missing hpolicy hunsigned =>
      rw [Image.load_eq (by simp [hpolicy]), find_eq_none_iff.mpr hunsigned, hpolicy]
      rfl
  | badLength hpolicy hsigns hlength =>
      obtain ⟨suffix, hfind, rfl, rfl⟩ := hsigns.find
      rw [Image.load_eq hpolicy, hfind]
      dsimp only
      rw [Suffix.check_of_outside hlength]
      rfl
  | badChecksum hpolicy hsigns hlength hchecksum =>
      obtain ⟨suffix, hfind, rfl, rfl⟩ := hsigns.find
      rw [Image.load_eq hpolicy, hfind]
      dsimp only
      rw [Suffix.check_of_inside hlength, if_neg hchecksum]
      rfl
  | written hpolicy hextra hfile himage =>
      rw [hfile, load_encode _ _ _ _ _ hpolicy hextra, consists_iff.mp himage]

theorem reads_load (policy : SuffixUse) (file : ByteArray) :
    Reads policy file (load policy file) := by
  by_cases hpolicy : policy = .ignored
  · rw [hpolicy]
    exact .ignored rfl (isWhole_iff.mpr rfl)
  rw [Image.load_eq hpolicy]
  cases hfind : Suffix.find file with
  | none =>
      have hunsigned := find_eq_none_iff.mp hfind
      dsimp only
      split
      · next hrequired => exact .missing hrequired hunsigned
      · next hother =>
          have hoptional : policy = .optional := by
            cases policy <;> simp_all
          exact .unsigned hoptional hunsigned (isWhole_iff.mpr rfl)
  | some suffix =>
      have hsigns := signs_of_find hfind
      dsimp only
      by_cases hlength : suffix.length.toNat < 16 ∨ file.size < suffix.length.toNat
      · rw [Suffix.check_of_outside hlength]
        exact .badLength hpolicy hsigns hlength
      have hinside : 16 ≤ suffix.length.toNat ∧ suffix.length.toNat ≤ file.size := by
        omega
      rw [Suffix.check_of_inside hinside]
      by_cases hchecksum :
          Checksum.register (file.extract 0 (file.size - 4)) = suffix.checksum
      · obtain ⟨extra, hextra, hfile, hsuffix⟩ :=
          encode_of_check hfind hinside.1 hinside.2 hchecksum
        rw [if_pos hchecksum]
        refine .written hpolicy hextra hfile ?_
        rw [← hsuffix]
        exact consists_iff.mpr rfl
      · rw [if_neg hchecksum]
        exact .badChecksum hpolicy hsigns hinside hchecksum

/-! ## Reading within bounds -/

/-- The bytes between two positions, which must be in order and inside. -/
def cut? (bytes : ByteArray) (start stop : Nat) : Option ByteArray :=
  if start ≤ stop ∧ stop ≤ bytes.size then some (bytes.extract start stop) else none

/-- A difference, which must not be negative. -/
def less? (total part : Nat) : Option Nat :=
  if part ≤ total then some (total - part) else none

/-- A file without so many bytes at its end. -/
def front? (file : ByteArray) (part : Nat) : Option ByteArray := do
  cut? file 0 (← less? file.size part)

def word16? (bytes : ByteArray) (offset : Nat) : Option UInt16 := do
  return join16 (← bytes.data[offset]?) (← bytes.data[offset + 1]?)

def word32? (bytes : ByteArray) (offset : Nat) : Option UInt32 := do
  return join32 (← bytes.data[offset]?) (← bytes.data[offset + 1]?) (← bytes.data[offset + 2]?)
    (← bytes.data[offset + 3]?)

/-- `Suffix.decode`, where a byte that is missing would leave no result at all. -/
def decodeStrictly (raw : ByteArray) : Option (Option Suffix) := do
  let mark ← cut? raw 8 11
  if mark.data.toList ≠ Suffix.signature then
    return none
  return some {
    device := ← word16? raw 0
    product := ← word16? raw 2
    vendor := ← word16? raw 4
    version := ← word16? raw 6
    length := ← raw.data[11]?
    checksum := ← word32? raw 12 }

/-- `Suffix.find`, where leaving the bounds of the file would leave no result. -/
def findStrictly (file : ByteArray) : Option (Option Suffix) := do
  if file.size < Suffix.minimumSize then
    return none
  let start ← less? file.size Suffix.minimumSize
  decodeStrictly (← cut? file start file.size)

/-- `Image.load`, where leaving the bounds of the file would leave no result. -/
def loadStrictly (policy : SuffixUse) (file : ByteArray) :
    Option (Except ImageFault Image) := do
  let found ← if policy = .ignored then some none else findStrictly file
  match found with
  | none =>
    if policy = .required then
      return .error .missingSuffix
    return .ok ⟨← front? file 0, none⟩
  | some suffix =>
    if suffix.length.toNat < 16 ∨ file.size < suffix.length.toNat then
      return .error (.invalidSuffixLength suffix.length)
    let computed := Checksum.register (← front? file 4)
    if computed ≠ suffix.checksum then
      return .error (.badChecksum suffix.checksum computed)
    return .ok ⟨← front? file suffix.length.toNat, some suffix⟩

theorem cut?_of_le {bytes : ByteArray} {start stop : Nat} (horder : start ≤ stop)
    (hinside : stop ≤ bytes.size) : cut? bytes start stop = some (bytes.extract start stop) :=
  if_pos ⟨horder, hinside⟩

theorem less?_of_le {total part : Nat} (hpart : part ≤ total) :
    less? total part = some (total - part) :=
  if_pos hpart

theorem front?_of_le {file : ByteArray} {part : Nat} (hpart : part ≤ file.size) :
    front? file part = some (file.extract 0 (file.size - part)) := by
  rw [front?, less?_of_le hpart]
  exact cut?_of_le (Nat.zero_le _) (Nat.sub_le ..)

theorem decodeStrictly_eq {raw : ByteArray} (hsize : raw.size = 16) :
    decodeStrictly raw = some (Suffix.decode raw.data.toList) := by
  rw [decodeStrictly, cut?_of_le (by decide) (by omega)]
  obtain ⟨⟨bytes⟩⟩ := raw
  have hlength : bytes.length = 16 := hsize
  match bytes, hlength with
  | [_, _, _, _, _, _, _, _, b8, b9, b10, _, _, _, _, _], _ =>
      by_cases hsigned : [b8, b9, b10] = Suffix.signature
      · simp [hsigned, Suffix.decode, word16?, word32?]
      · simp [hsigned, Suffix.decode]

theorem findStrictly_eq (file : ByteArray) : findStrictly file = some (Suffix.find file) := by
  unfold findStrictly
  by_cases hshort : file.size < Suffix.minimumSize
  · have hunsigned : ¬ IsSigned file := fun hsigned => Nat.not_lt.mpr hsigned.1 hshort
    rw [if_pos hshort, find_eq_none_iff.mpr hunsigned]
    rfl
  · have hlong : Suffix.minimumSize ≤ file.size := Nat.le_of_not_lt hshort
    have hsize : (file.extract (file.size - Suffix.minimumSize) file.size).size = 16 := by
      rw [ByteArray.size_extract, Suffix.minimumSize] at *
      omega
    rw [if_neg hshort, less?_of_le hlong]
    dsimp only [Option.bind_eq_bind, Option.bind_some]
    rw [cut?_of_le (Nat.sub_le ..) (Nat.le_refl _), Option.bind_some, decodeStrictly_eq hsize]
    rfl

/-- Reading never leaves the bounds of the file. -/
theorem loadStrictly_eq (policy : SuffixUse) (file : ByteArray) :
    loadStrictly policy file = some (load policy file) := by
  have hwhole : front? file 0 = some file := by
    rw [front?_of_le (Nat.zero_le _), Nat.sub_zero, ByteArray.extract_zero_size]
  by_cases hpolicy : policy = .ignored
  · rw [hpolicy]
    change (front? file 0).bind _ = some (load .ignored file)
    rw [hwhole]
    rfl
  rw [Image.load_eq hpolicy, loadStrictly, if_neg hpolicy, findStrictly_eq]
  dsimp only [Option.bind_eq_bind, Option.bind_some]
  cases hfind : Suffix.find file with
  | none =>
      dsimp only
      rw [hwhole]
      split <;> rfl
  | some suffix =>
      have hlong : 16 ≤ file.size := (signs_of_find hfind).signed.1
      have hcovered : front? file 4 = some (file.extract 0 (file.size - 4)) :=
        front?_of_le (by omega)
      dsimp only
      by_cases hlength : suffix.length.toNat < 16 ∨ file.size < suffix.length.toNat
      · rw [Suffix.check_of_outside hlength, if_pos hlength]
        rfl
      have hpayload : front? file suffix.length.toNat =
          some (file.extract 0 (file.size - suffix.length.toNat)) :=
        front?_of_le (by omega)
      rw [Suffix.check_of_inside (by omega), if_neg hlength, hcovered, hpayload]
      dsimp only [Option.bind_some]
      by_cases hchecksum :
          Checksum.register (file.extract 0 (file.size - 4)) = suffix.checksum
      · rw [if_pos hchecksum, if_neg (not_not_intro hchecksum)]
        rfl
      · rw [if_neg hchecksum, if_pos hchecksum]
        rfl

/-- A file is read as the format says and in no other way, and without leaving its bounds. -/
theorem load_agrees_with_format (policy : SuffixUse) (file : ByteArray) :
    (∀ result, load policy file = result ↔ Reads policy file result) ∧
      loadStrictly policy file = some (load policy file) := by
  constructor
  · intro result
    constructor
    · rintro rfl
      exact reads_load policy file
    · intro hreads
      exact hreads.load_eq
  · exact loadStrictly_eq policy file

end Image

end FirmwareUpgrade
