import FirmwareUpgrade.Checksum
import FirmwareUpgrade.Hexadecimal
import FirmwareUpgrade.LittleEndian

/-!
# Firmware images

A firmware file is a raw payload, optionally followed by a suffix that names the device it is
meant for and protects the whole file by a checksum.  A suffix has at least sixteen bytes, which
stand at the very end of the file; a longer one has its additional bytes in front of those.
`load` reads a file under a policy and `encode` writes one.
-/

namespace FirmwareUpgrade

/-- How the end of a firmware file is treated. -/
inductive SuffixUse where
  /-- The file must end with a valid suffix. -/
  | required
  /-- A suffix is used if there is one. -/
  | optional
  /-- The whole file is payload. -/
  | ignored
deriving DecidableEq, Repr, Inhabited

inductive ImageFault where
  | missingSuffix
  | invalidSuffixLength (length : UInt8)
  | badChecksum (stored computed : UInt32)
deriving DecidableEq, Repr, Inhabited

def ImageFault.message : ImageFault → String
  | missingSuffix => "Valid DFU suffix needed"
  | invalidSuffixLength length => s!"Unsupported DFU suffix length {length.toNat}"
  | badChecksum stored computed =>
    "DFU suffix CRC does not match (file 0x" ++ Hexadecimal.padded 8 stored.toNat
      ++ ", computed 0x" ++ Hexadecimal.padded 8 computed.toNat ++ ")"

/-- The identifier that stands for any vendor, product or release. -/
def wildcard : UInt16 := 0xFFFF

structure Suffix where
  device : UInt16
  product : UInt16
  vendor : UInt16
  version : UInt16
  length : UInt8
  checksum : UInt32
deriving DecidableEq, Repr, Inhabited

namespace Suffix

/-- The size of the part that every suffix has. -/
def minimumSize : Nat := 16

/-- The three bytes by which a suffix is recognised. -/
def signature : List UInt8 := [0x55, 0x46, 0x44]

/-- Reads the last sixteen bytes of a file, if they carry the signature. -/
def decode : List UInt8 → Option Suffix
  | [device0, device1, product0, product1, vendor0, vendor1, version0, version1,
      mark0, mark1, mark2, length, sum0, sum1, sum2, sum3] =>
    if [mark0, mark1, mark2] = signature then
      some {
        device := LittleEndian.join16 device0 device1
        product := LittleEndian.join16 product0 product1
        vendor := LittleEndian.join16 vendor0 vendor1
        version := LittleEndian.join16 version0 version1
        length
        checksum := LittleEndian.join32 sum0 sum1 sum2 sum3 }
    else none
  | _ => none

/-- The twelve bytes of a suffix that stand in front of its checksum. -/
def encodeFields (device product vendor version : UInt16) (length : UInt8) : List UInt8 :=
  LittleEndian.split16 device ++ LittleEndian.split16 product
    ++ LittleEndian.split16 vendor ++ LittleEndian.split16 version
    ++ signature ++ [length]

/-- The suffix at the end of a file, if the file is long enough and carries the signature. -/
def find (file : ByteArray) : Option Suffix :=
  decode (file.extract (file.size - minimumSize) file.size).data.toList

/-- Accepts a suffix whose length fits the file and whose checksum is that of the file. -/
def check (file : ByteArray) (suffix : Suffix) : Except ImageFault Unit :=
  if suffix.length.toNat < minimumSize ∨ file.size < suffix.length.toNat then
    .error (.invalidSuffixLength suffix.length)
  else
    let computed := Checksum.register (file.extract 0 (file.size - 4))
    if computed = suffix.checksum then .ok ()
    else .error (.badChecksum suffix.checksum computed)

end Suffix

structure Image where
  payload : ByteArray
  suffix : Option Suffix
deriving Inhabited

namespace Image

/-- Reads a firmware file under a policy. -/
def load (policy : SuffixUse) (file : ByteArray) : Except ImageFault Image :=
  match policy with
  | .ignored => .ok { payload := file, suffix := none }
  | .required | .optional =>
    match Suffix.find file with
    | some suffix =>
      match suffix.check file with
      | .ok () =>
        .ok {
          payload := file.extract 0 (file.size - suffix.length.toNat)
          suffix := some suffix }
      | .error fault => .error fault
    | none =>
      if policy = .required then .error .missingSuffix
      else .ok { payload := file, suffix := none }

/-- The file with the given payload and suffix; `extra` stands at the start of the suffix. -/
def encode (payload extra : ByteArray) (device product vendor version : UInt16) : ByteArray :=
  let fields :=
    Suffix.encodeFields device product vendor version
      (UInt8.ofNat (Suffix.minimumSize + extra.size))
  let body := payload ++ extra ++ ByteArray.mk fields.toArray
  body ++ ByteArray.mk (LittleEndian.split32 (Checksum.register body)).toArray

def vendor (image : Image) : UInt16 :=
  image.suffix.elim wildcard Suffix.vendor

def product (image : Image) : UInt16 :=
  image.suffix.elim wildcard Suffix.product

def device (image : Image) : UInt16 :=
  image.suffix.elim wildcard Suffix.device

end Image

end FirmwareUpgrade
