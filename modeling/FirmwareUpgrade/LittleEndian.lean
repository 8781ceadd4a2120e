/-!
# Little-endian words

Descriptors, status replies and firmware trailers store every multi-byte number with its least
significant byte first.  Each `join` reads such a number from its bytes and the `split` of the
same width writes it.
-/

namespace FirmwareUpgrade.LittleEndian

/-- The 16-bit word with the given bytes, low byte first. -/
def join16 (low high : UInt8) : UInt16 :=
  low.toUInt16 ||| (high.toUInt16 <<< 8)

/-- The two bytes of a 16-bit word, low byte first. -/
def split16 (word : UInt16) : List UInt8 :=
  [word.toUInt8, (word >>> 8).toUInt8]

/-- The 24-bit number with the given bytes, low byte first. -/
def join24 (low middle high : UInt8) : UInt32 :=
  low.toUInt32 ||| (middle.toUInt32 <<< 8) ||| (high.toUInt32 <<< 16)

/-- The three low bytes of a word, low byte first. -/
def split24 (word : UInt32) : List UInt8 :=
  [word.toUInt8, (word >>> 8).toUInt8, (word >>> 16).toUInt8]

/-- The 32-bit word with the given bytes, low byte first. -/
def join32 (b0 b1 b2 b3 : UInt8) : UInt32 :=
  join24 b0 b1 b2 ||| (b3.toUInt32 <<< 24)

/-- The four bytes of a 32-bit word, low byte first. -/
def split32 (word : UInt32) : List UInt8 :=
  split24 word ++ [(word >>> 24).toUInt8]

end FirmwareUpgrade.LittleEndian
