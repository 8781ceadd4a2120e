import FirmwareUpgrade.LittleEndian

/-!
# Functional descriptors

A DFU interface describes its abilities in a class descriptor of type `0x21`.  The first edition
of the standard has a form of seven bytes; the later form adds the version in two more.
-/

namespace FirmwareUpgrade

structure Descriptor where
  attributes : UInt8
  detachTimeout : UInt16
  transferSize : UInt16
  version : UInt16
deriving DecidableEq, Repr, Inhabited

namespace Descriptor

def typeByte : UInt8 := 0x21

/-- The size of the form without version. -/
def shortSize : Nat := 7

def blank : Descriptor where
  attributes := 0
  detachTimeout := 0
  transferSize := 0
  version := 0

/-- Reads a functional descriptor.  Its first byte is its own size and its second the type; the
version is read if two bytes are left for it. -/
def decode : List UInt8 → Option Descriptor
  | size :: type :: attributes :: detach0 :: detach1 :: transfer0 :: transfer1 :: rest =>
    if type = typeByte ∧ shortSize ≤ size.toNat then
      some {
        attributes
        detachTimeout := LittleEndian.join16 detach0 detach1
        transferSize := LittleEndian.join16 transfer0 transfer1
        version :=
          match rest with
          | version0 :: version1 :: _ => LittleEndian.join16 version0 version1
          | _ => 0 }
    else none
  | _ => none

/-- The form of nine bytes, with version. -/
def encode (descriptor : Descriptor) : List UInt8 :=
  [9, typeByte, descriptor.attributes]
    ++ LittleEndian.split16 descriptor.detachTimeout
    ++ LittleEndian.split16 descriptor.transferSize
    ++ LittleEndian.split16 descriptor.version

/-- The device accepts firmware (`bitCanDnload`). -/
def canDownload (descriptor : Descriptor) : Bool :=
  descriptor.attributes &&& 1 != 0

/-- The device gives its firmware away (`bitCanUpload`). -/
def canUpload (descriptor : Descriptor) : Bool :=
  descriptor.attributes &&& 2 != 0

/-- The device still answers after the manifestation phase (`bitManifestationTolerant`). -/
def manifestationTolerant (descriptor : Descriptor) : Bool :=
  descriptor.attributes &&& 4 != 0

/-- The device leaves the bus by itself when asked to detach (`bitWillDetach`). -/
def willDetach (descriptor : Descriptor) : Bool :=
  descriptor.attributes &&& 8 != 0

end Descriptor

end FirmwareUpgrade
