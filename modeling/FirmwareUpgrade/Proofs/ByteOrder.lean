import FirmwareUpgrade.LittleEndian
import Mathlib.Algebra.Group.Nat.Defs
import Mathlib.Data.Nat.Digits.Defs

/-!
# Little-endian words as numbers

The value of a joined word is the sum of its bytes, each times a power of 256.  Joining and
splitting are therefore inverse to each other, for every width.
-/

namespace FirmwareUpgrade.LittleEndian

/-! ## Values -/

theorem toNat_join16 (low high : UInt8) :
    (join16 low high).toNat = high.toNat * 2 ^ 8 + low.toNat := by
  have hlow := low.toNat_lt
  have hhigh := high.toNat_lt
  have hroom : high.toNat <<< 8 < 2 ^ 16 := by
    rw [Nat.shiftLeft_eq]
    omega
  have hshift : (8 : UInt16).toNat % 16 = 8 := rfl
  simp only [join16, UInt16.toNat_or, UInt16.toNat_shiftLeft, UInt8.toNat_toUInt16, hshift]
  rw [Nat.mod_eq_of_lt hroom, Nat.or_comm, ← Nat.shiftLeft_add_eq_or_of_lt hlow,
    Nat.shiftLeft_eq]

theorem toNat_or_shiftLeft {word shift : UInt32} (byte : UInt8) (hroom : shift.toNat ≤ 24)
    (hword : word.toNat < 2 ^ shift.toNat) :
    (word ||| (byte.toUInt32 <<< shift)).toNat = byte.toNat * 2 ^ shift.toNat + word.toNat := by
  have hbyte := byte.toNat_lt
  have hfits : byte.toNat <<< shift.toNat < 2 ^ 32 := by
    rw [Nat.shiftLeft_eq]
    calc
      byte.toNat * 2 ^ shift.toNat < 2 ^ 8 * 2 ^ shift.toNat :=
        Nat.mul_lt_mul_of_pos_right hbyte (Nat.two_pow_pos _)
      _ = 2 ^ (8 + shift.toNat) := (Nat.pow_add 2 8 _).symm
      _ ≤ 2 ^ 32 := Nat.pow_le_pow_right (by decide) (by omega)
  have hshift : shift.toNat % 32 = shift.toNat := Nat.mod_eq_of_lt (by omega)
  simp only [UInt32.toNat_or, UInt32.toNat_shiftLeft, UInt8.toNat_toUInt32, hshift]
  rw [Nat.mod_eq_of_lt hfits, Nat.or_comm, ← Nat.shiftLeft_add_eq_or_of_lt hword,
    Nat.shiftLeft_eq]

theorem toNat_join24 (low middle high : UInt8) :
    (join24 low middle high).toNat =
      high.toNat * 2 ^ 16 + (middle.toNat * 2 ^ 8 + low.toNat) := by
  have hlow := low.toNat_lt
  have hmiddle := middle.toNat_lt
  have hfirst : (low.toUInt32 ||| (middle.toUInt32 <<< 8)).toNat =
      middle.toNat * 2 ^ 8 + low.toNat :=
    toNat_or_shiftLeft middle (by decide) hlow
  have hbound : (low.toUInt32 ||| (middle.toUInt32 <<< 8)).toNat < 2 ^ (16 : UInt32).toNat := by
    rw [hfirst, show (16 : UInt32).toNat = 16 from rfl]
    omega
  rw [join24, toNat_or_shiftLeft high (by decide) hbound, hfirst]
  rfl

theorem toNat_join32 (b0 b1 b2 b3 : UInt8) :
    (join32 b0 b1 b2 b3).toNat =
      b3.toNat * 2 ^ 24 + (b2.toNat * 2 ^ 16 + (b1.toNat * 2 ^ 8 + b0.toNat)) := by
  have h0 := b0.toNat_lt
  have h1 := b1.toNat_lt
  have h2 := b2.toNat_lt
  have hbound : (join24 b0 b1 b2).toNat < 2 ^ (24 : UInt32).toNat := by
    rw [toNat_join24, show (24 : UInt32).toNat = 24 from rfl]
    omega
  rw [join32, toNat_or_shiftLeft b3 (by decide) hbound, toNat_join24]
  rfl

/-- The number that some bytes make, the least significant of them first. -/
def value (bytes : List UInt8) : Nat :=
  Nat.ofDigits 256 (bytes.map UInt8.toNat)

@[simp]
theorem value_nil : value [] = 0 := rfl

@[simp]
theorem value_cons (byte : UInt8) (bytes : List UInt8) :
    value (byte :: bytes) = byte.toNat + 256 * value bytes := rfl

theorem toNat_join16_eq_value (low high : UInt8) :
    (join16 low high).toNat = value [low, high] := by
  simp only [toNat_join16, value_cons, value_nil]
  omega

theorem toNat_join24_eq_value (low middle high : UInt8) :
    (join24 low middle high).toNat = value [low, middle, high] := by
  simp only [toNat_join24, value_cons, value_nil]
  omega

/-! ## Joining and splitting -/

theorem join16_split16 (word : UInt16) :
    join16 word.toUInt8 (word >>> 8).toUInt8 = word := by
  have hword := word.toNat_lt
  apply UInt16.toNat_inj.mp
  rw [toNat_join16]
  simp only [UInt16.toNat_toUInt8, UInt16.toNat_shiftRight, Nat.shiftRight_eq_div_pow]
  rw [show (8 : UInt16).toNat % 16 = 8 from rfl]
  omega

theorem split16_join16 (low high : UInt8) : split16 (join16 low high) = [low, high] := by
  have hlow := low.toNat_lt
  have hhigh := high.toNat_lt
  have hvalue := toNat_join16 low high
  have hfirst : (join16 low high).toUInt8 = low := by
    apply UInt8.toNat_inj.mp
    rw [UInt16.toNat_toUInt8]
    omega
  have hsecond : (join16 low high >>> 8).toUInt8 = high := by
    apply UInt8.toNat_inj.mp
    rw [UInt16.toNat_toUInt8, UInt16.toNat_shiftRight, Nat.shiftRight_eq_div_pow,
      show (8 : UInt16).toNat % 16 = 8 from rfl]
    omega
  rw [split16, hfirst, hsecond]

theorem toNat_byte (word : UInt32) {shift : UInt32} (hroom : shift.toNat < 32) :
    (word >>> shift).toUInt8.toNat = word.toNat / 2 ^ shift.toNat % 2 ^ 8 := by
  rw [UInt32.toNat_toUInt8, UInt32.toNat_shiftRight, Nat.mod_eq_of_lt hroom,
    Nat.shiftRight_eq_div_pow]

theorem join32_split32 (word : UInt32) :
    join32 word.toUInt8 (word >>> 8).toUInt8 (word >>> 16).toUInt8 (word >>> 24).toUInt8 =
      word := by
  have hword := word.toNat_lt
  have h1 : (word >>> 8).toUInt8.toNat = word.toNat / 2 ^ 8 % 2 ^ 8 := toNat_byte word (by decide)
  have h2 : (word >>> 16).toUInt8.toNat = word.toNat / 2 ^ 16 % 2 ^ 8 :=
    toNat_byte word (by decide)
  have h3 : (word >>> 24).toUInt8.toNat = word.toNat / 2 ^ 24 % 2 ^ 8 :=
    toNat_byte word (by decide)
  apply UInt32.toNat_inj.mp
  rw [toNat_join32, h1, h2, h3, UInt32.toNat_toUInt8]
  omega

theorem split32_join32 (b0 b1 b2 b3 : UInt8) :
    split32 (join32 b0 b1 b2 b3) = [b0, b1, b2, b3] := by
  have h0 := b0.toNat_lt
  have h1 := b1.toNat_lt
  have h2 := b2.toNat_lt
  have h3 := b3.toNat_lt
  have hvalue := toNat_join32 b0 b1 b2 b3
  have hfirst : (join32 b0 b1 b2 b3).toUInt8 = b0 := by
    apply UInt8.toNat_inj.mp
    rw [UInt32.toNat_toUInt8]
    omega
  have hsecond : (join32 b0 b1 b2 b3 >>> 8).toUInt8 = b1 := by
    apply UInt8.toNat_inj.mp
    rw [toNat_byte _ (by decide), show (8 : UInt32).toNat = 8 from rfl]
    omega
  have hthird : (join32 b0 b1 b2 b3 >>> 16).toUInt8 = b2 := by
    apply UInt8.toNat_inj.mp
    rw [toNat_byte _ (by decide), show (16 : UInt32).toNat = 16 from rfl]
    omega
  have hfourth : (join32 b0 b1 b2 b3 >>> 24).toUInt8 = b3 := by
    apply UInt8.toNat_inj.mp
    rw [toNat_byte _ (by decide), show (24 : UInt32).toNat = 24 from rfl]
    omega
  rw [split32, split24, hfirst, hsecond, hthird, hfourth]
  rfl

theorem join32_zero (low middle high : UInt8) :
    join32 low middle high 0 = join24 low middle high := by
  apply UInt32.toNat_inj.mp
  rw [toNat_join32, toNat_join24]
  simp

theorem split24_join24 (low middle high : UInt8) :
    split24 (join24 low middle high) = [low, middle, high] := by
  have hbytes := split32_join32 low middle high 0
  rw [join32_zero, split32] at hbytes
  exact (List.append_inj hbytes (by rfl)).1

theorem join24_split24 {word : UInt32} (hsmall : word.toNat < 2 ^ 24) :
    join24 word.toUInt8 (word >>> 8).toUInt8 (word >>> 16).toUInt8 = word := by
  have htop : (word >>> 24).toUInt8 = 0 := by
    apply UInt8.toNat_inj.mp
    rw [toNat_byte word (by decide), show (24 : UInt32).toNat = 24 from rfl,
      Nat.div_eq_of_lt hsmall]
    rfl
  have hword := join32_split32 word
  rwa [htop, join32_zero] at hword

theorem split32_injective {first second : UInt32} (hsame : split32 first = split32 second) :
    first = second := by
  have hjoin := join32_split32 first
  simp only [split32, split24, List.cons_append, List.nil_append, List.cons.injEq, and_true]
    at hsame
  obtain ⟨h0, h1, h2, h3⟩ := hsame
  rw [h0, h1, h2, h3, join32_split32] at hjoin
  exact hjoin.symm

end FirmwareUpgrade.LittleEndian
