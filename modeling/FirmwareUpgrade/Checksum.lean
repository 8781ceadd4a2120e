/-!
# Checksum

The cyclic redundancy check with the reflected polynomial `0xEDB88320`, all register bits set at
the start.  Firmware trailers store the register as it is left; the customary checksum inverts
it at the end.  `register_eq_foldl` says that the register is a fold over the bytes.
-/

namespace FirmwareUpgrade.Checksum

def polynomial : UInt32 := 0xEDB88320

/-- Shifts one bit out of the register and subtracts the polynomial if the bit was set. -/
@[inline]
def shift (register : UInt32) : UInt32 :=
  if register &&& 1 = 1 then (register >>> 1) ^^^ polynomial else register >>> 1

/-- Feeds one byte into the register, its least significant bit first. -/
@[inline]
def feed (register : UInt32) (byte : UInt8) : UInt32 :=
  shift (shift (shift (shift (shift (shift (shift (shift (register ^^^ byte.toUInt32))))))))

def start : UInt32 := 0xFFFFFFFF

def feedFrom (bytes : ByteArray) (index : Nat) (register : UInt32) : UInt32 :=
  if bound : index < bytes.size then
    feedFrom bytes (index + 1) (feed register bytes[index])
  else register
termination_by bytes.size - index

/-- The register after all bytes, as a firmware trailer stores it. -/
def register (bytes : ByteArray) : UInt32 :=
  feedFrom bytes 0 start

/-- The customary checksum: the register with all bits inverted. -/
def inverted (bytes : ByteArray) : UInt32 :=
  ~~~ register bytes

theorem feedFrom_eq_foldl (bytes : ByteArray) (index : Nat) (value : UInt32) :
    feedFrom bytes index value = (bytes.data.toList.drop index).foldl feed value := by
  fun_induction feedFrom bytes index value with
  | case1 index value bound ih =>
      have inside : index < bytes.data.toList.length := by
        simpa using bound
      rw [List.drop_eq_getElem_cons inside, List.foldl_cons, ih]
      rfl
  | case2 index value bound =>
      have outside : bytes.data.toList.length ≤ index := by
        simpa using bound
      rw [List.drop_eq_nil_of_le outside, List.foldl_nil]

theorem register_eq_foldl (bytes : ByteArray) :
    register bytes = bytes.data.toList.foldl feed start := by
  rw [register, feedFrom_eq_foldl, List.drop_zero]

end FirmwareUpgrade.Checksum
