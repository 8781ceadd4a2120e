import FirmwareUpgrade.Proofs.ImageFormat
import Mathlib.Logic.Function.Iterate

/-!
# Damage to firmware files

The checksum register is linear, and no step of it forgets anything.  A register that is fed its own
four bytes is empty afterwards, so a file with a valid suffix leaves nothing in the register,
whatever it contains.  Any two different words in place of each other leave something, wherever they
stand.
-/

namespace FirmwareUpgrade

open LittleEndian

namespace Checksum

/-! ## One bit -/

theorem and_one_eq_one_iff (word : UInt32) : word &&& 1 = 1 ↔ word.toNat % 2 = 1 := by
  rw [← UInt32.toNat_inj, UInt32.toNat_and]
  change word.toNat &&& 1 = 1 ↔ word.toNat % 2 = 1
  rw [Nat.and_one_is_mod]

theorem shift_of_odd {word : UInt32} (hodd : word.toNat % 2 = 1) :
    shift word = (word >>> 1) ^^^ polynomial :=
  if_pos ((and_one_eq_one_iff word).mpr hodd)

theorem shift_of_even {word : UInt32} (heven : word.toNat % 2 = 0) : shift word = word >>> 1 := by
  apply if_neg
  intro hodd
  have := (and_one_eq_one_iff word).mp hodd
  omega

theorem toNat_shiftRight_one (word : UInt32) : (word >>> 1).toNat = word.toNat / 2 := by
  rw [UInt32.toNat_shiftRight, Nat.shiftRight_eq_div_pow]
  rfl

theorem shift_xor (first second : UInt32) :
    shift (first ^^^ second) = shift first ^^^ shift second := by
  have hparity : (first ^^^ second).toNat % 2 = 1 ↔
      ¬ (first.toNat % 2 = 1 ↔ second.toNat % 2 = 1) := by
    rw [UInt32.toNat_xor]
    exact Nat.xor_mod_two_eq_one
  rcases Nat.mod_two_eq_zero_or_one first.toNat with hfirst | hfirst <;>
    rcases Nat.mod_two_eq_zero_or_one second.toNat with hsecond | hsecond
  · rw [shift_of_even (by omega), shift_of_even hfirst, shift_of_even hsecond,
      UInt32.shiftRight_xor]
  · rw [shift_of_odd (by omega), shift_of_even hfirst, shift_of_odd hsecond,
      UInt32.shiftRight_xor, UInt32.xor_assoc]
  · rw [shift_of_odd (by omega), shift_of_odd hfirst, shift_of_even hsecond,
      UInt32.shiftRight_xor, UInt32.xor_assoc, UInt32.xor_assoc, UInt32.xor_comm polynomial]
  · -- Both subtractions of the polynomial cancel.
    rw [shift_of_even (by omega), shift_of_odd hfirst, shift_of_odd hsecond,
      UInt32.shiftRight_xor, UInt32.xor_comm (second >>> 1), UInt32.xor_assoc,
      ← UInt32.xor_assoc polynomial, UInt32.xor_self, UInt32.zero_xor]

/-- The polynomial has the highest bit, which no shifted register has. -/
theorem eq_zero_of_shift {word : UInt32} (hzero : shift word = 0) : word = 0 := by
  have hword := word.toNat_lt
  have hhalf := toNat_shiftRight_one word
  rcases Nat.mod_two_eq_zero_or_one word.toNat with heven | hodd
  · rw [shift_of_even heven] at hzero
    rw [hzero] at hhalf
    apply UInt32.toNat_inj.mp
    change 0 = word.toNat / 2 at hhalf
    change word.toNat = 0
    omega
  · rw [shift_of_odd hodd, UInt32.xor_eq_zero_iff] at hzero
    rw [hzero] at hhalf
    change 0xEDB88320 = word.toNat / 2 at hhalf
    omega

theorem shift_injective : Function.Injective shift := by
  intro first second hsame
  apply UInt32.xor_eq_zero_iff.mp
  apply eq_zero_of_shift
  rw [shift_xor, hsame, UInt32.xor_self]

theorem shift_iterate_xor (count : Nat) (first second : UInt32) :
    shift^[count] (first ^^^ second) = shift^[count] first ^^^ shift^[count] second := by
  induction count generalizing first second with
  | zero => rfl
  | succ count ih =>
      rw [Function.iterate_succ_apply, Function.iterate_succ_apply, Function.iterate_succ_apply,
        shift_xor, ih]

theorem toNat_shift_iterate {word : UInt32} {count value : Nat}
    (hword : word.toNat = 2 ^ count * value) : (shift^[count] word).toNat = value := by
  induction count generalizing word with
  | zero =>
      rw [Nat.pow_zero, Nat.one_mul] at hword
      exact hword
  | succ count ih =>
      have hdouble : word.toNat = 2 * (2 ^ count * value) := by
        rw [hword, Nat.pow_succ]
        ac_rfl
      rw [Function.iterate_succ_apply]
      apply ih
      rw [shift_of_even (by omega), toNat_shiftRight_one, hdouble]
      exact Nat.mul_div_cancel_left _ (by decide)

/-! ## Bytes -/

theorem feed_eq (register : UInt32) (byte : UInt8) :
    feed register byte = shift^[8] (register ^^^ byte.toUInt32) :=
  rfl

/-- What is in the register and what is fed into it move independently of each other. -/
theorem foldl_feed_xor (bytes : List UInt8) (first second : UInt32) :
    bytes.foldl feed (first ^^^ second) =
      shift^[8 * bytes.length] first ^^^ bytes.foldl feed second := by
  induction bytes generalizing first second with
  | nil => rfl
  | cons byte bytes ih =>
      have hfeed : feed (first ^^^ second) byte = shift^[8] first ^^^ feed second byte := by
        rw [feed_eq, UInt32.xor_assoc, shift_iterate_xor, feed_eq]
      rw [List.foldl_cons, List.foldl_cons, hfeed, ih, ← Function.iterate_add_apply,
        List.length_cons, Nat.mul_succ]

theorem foldl_feed_injective (bytes : List UInt8) :
    Function.Injective fun register => bytes.foldl feed register := by
  induction bytes with
  | nil => exact Function.injective_id
  | cons byte bytes ih =>
      intro first second hsame
      have hfeed : feed first byte = feed second byte := ih hsame
      rw [feed_eq, feed_eq] at hfeed
      exact (UInt32.xor_left_inj _).mp (shift_injective.iterate 8 hfeed)

theorem feed_own_byte (word : UInt32) : feed word word.toUInt8 = word >>> 8 := by
  have hclear : (word ^^^ word.toUInt8.toUInt32).toNat = 2 ^ 8 * (word.toNat / 2 ^ 8) := by
    have hvalue : (word ^^^ word.toUInt8.toUInt32).toNat = word.toNat ^^^ word.toNat % 2 ^ 8 := by
      rw [UInt32.toNat_xor, UInt8.toNat_toUInt32, UInt32.toNat_toUInt8]
    have hlow : (word ^^^ word.toUInt8.toUInt32).toNat % 2 ^ 8 = 0 := by
      rw [hvalue, Nat.xor_mod_two_pow, Nat.mod_mod, Nat.xor_self]
    have hhigh : (word ^^^ word.toUInt8.toUInt32).toNat / 2 ^ 8 = word.toNat / 2 ^ 8 := by
      rw [hvalue, Nat.xor_div_two_pow, Nat.div_eq_of_lt (Nat.mod_lt _ (by decide)), Nat.xor_zero]
    omega
  apply UInt32.toNat_inj.mp
  rw [feed_eq, toNat_shift_iterate hclear, UInt32.toNat_shiftRight, Nat.shiftRight_eq_div_pow]
  rfl

theorem foldl_feed_split32 (word : UInt32) : (split32 word).foldl feed word = 0 := by
  have hnext : ∀ amount : UInt32, amount.toNat + 8 < 32 →
      word >>> amount >>> 8 = word >>> (amount + 8) := by
    intro amount hamount
    have hsum : (amount + 8).toNat = amount.toNat + 8 := by
      rw [UInt32.toNat_add]
      exact Nat.mod_eq_of_lt (by change amount.toNat + 8 < 2 ^ 32; omega)
    apply UInt32.toNat_inj.mp
    rw [UInt32.toNat_shiftRight, UInt32.toNat_shiftRight, UInt32.toNat_shiftRight, hsum,
      Nat.mod_eq_of_lt hamount, Nat.mod_eq_of_lt (by omega), ← Nat.shiftRight_add]
    rfl
  have hlast : word >>> 24 >>> 8 = 0 := by
    have hword := word.toNat_lt
    apply UInt32.toNat_inj.mp
    rw [UInt32.toNat_shiftRight, UInt32.toNat_shiftRight, ← Nat.shiftRight_add,
      Nat.shiftRight_eq_div_pow]
    exact Nat.div_eq_of_lt hword
  calc
    (split32 word).foldl feed word =
        feed (feed (feed (feed word word.toUInt8) (word >>> 8).toUInt8) (word >>> 16).toUInt8)
          (word >>> 24).toUInt8 := rfl
    _ = 0 := by
      rw [feed_own_byte, feed_own_byte, hnext 8 (by decide), show (8 : UInt32) + 8 = 16 from rfl,
        feed_own_byte, hnext 16 (by decide), show (16 : UInt32) + 8 = 24 from rfl, feed_own_byte,
        hlast]

theorem foldl_feed_word (register word : UInt32) :
    (split32 word).foldl feed register = shift^[32] (register ^^^ word) := by
  calc
    (split32 word).foldl feed register =
        (split32 word).foldl feed ((register ^^^ word) ^^^ word) := by
      rw [UInt32.xor_assoc, UInt32.xor_self, UInt32.xor_zero]
    _ = shift^[32] (register ^^^ word) ^^^ 0 := by
      rw [foldl_feed_xor, foldl_feed_split32]
      rfl
    _ = shift^[32] (register ^^^ word) := UInt32.xor_zero

/-- Four bytes can be told from what they leave in the register. -/
theorem foldl_feed_four {first second : List UInt8} (register : UInt32)
    (hfirst : first.length = 4) (hsecond : second.length = 4)
    (hsame : first.foldl feed register = second.foldl feed register) : first = second := by
  match first, hfirst, second, hsecond with
  | [a0, a1, a2, a3], _, [b0, b1, b2, b3], _ =>
      rw [← split32_join32 a0, ← split32_join32 b0, foldl_feed_word, foldl_feed_word] at hsame
      have hwords := (UInt32.xor_right_inj _).mp (shift_injective.iterate 32 hsame)
      rw [← split32_join32 a0, ← split32_join32 b0, hwords]

theorem register_append (front back : ByteArray) :
    register (front ++ back) = back.data.toList.foldl feed (register front) := by
  rw [register_eq_foldl, register_eq_foldl, ByteArray.data_append, Array.toList_append,
    List.foldl_append]

end Checksum

namespace Image

open Checksum

/-! ## Files -/

/-- Another file of the same size, which differs within four consecutive bytes only. -/
structure Damages (file damaged : ByteArray) : Prop where
  size : damaged.size = file.size
  different : damaged ≠ file
  window : ∃ start, ∀ index, index < start ∨ start + 4 ≤ index →
    damaged.data[index]? = file.data[index]?

/-- A file with a valid suffix leaves nothing in the register. -/
theorem register_eq_zero_of_load {policy : SuffixUse} {file : ByteArray} {image : Image}
    (hpolicy : policy ≠ .ignored) (hsigned : IsSigned file)
    (hload : load policy file = .ok image) : register file = 0 := by
  have hreads := reads_load policy file
  rw [hload] at hreads
  cases hreads with
  | ignored hignored => exact (hpolicy hignored).elim
  | unsigned _ hunsigned => exact (hunsigned hsigned).elim
  | @written _ payload extra device product vendor version _ _ hfile =>
      have hbody : file = body payload extra device product vendor version ++
          ⟨(split32 (register (body payload extra device product vendor version))).toArray⟩ :=
        hfile
      rw [hbody, register_append, foldl_feed_split32]

theorem isSigned_of_load {file : ByteArray} {image : Image}
    (hload : load .required file = .ok image) : IsSigned file := by
  have hreads := reads_load .required file
  rw [hload] at hreads
  cases hreads with
  | ignored hpolicy => contradiction
  | unsigned hpolicy => contradiction
  | written _ _ hfile =>
      rw [hfile]
      exact (signs_of_find (find_encode ..)).signed

namespace Damages

variable {file damaged : ByteArray}

/-- The window can be taken to lie inside the file. -/
theorem inside (hdamages : Damages file damaged) (hsize : 4 ≤ file.size) :
    ∃ start, start + 4 ≤ file.size ∧ ∀ index, index < start ∨ start + 4 ≤ index →
      damaged.data[index]? = file.data[index]? := by
  obtain ⟨start, hwindow⟩ := hdamages.window
  have hbeyond : ∀ index, file.size ≤ index → damaged.data[index]? = file.data[index]? := by
    intro index hindex
    have hdamaged : damaged.data.size ≤ index := by
      rw [ByteArray.size_data, hdamages.size]
      exact hindex
    rw [Array.getElem?_eq_none hdamaged, Array.getElem?_eq_none hindex]
  by_cases hstart : start + 4 ≤ file.size
  · exact ⟨start, hstart, hwindow⟩
  refine ⟨file.size - 4, by omega, ?_⟩
  intro index hindex
  rcases hindex with hbefore | hafter
  · exact hwindow index (by omega)
  · exact hbeyond index (by omega)

theorem register_ne (hdamages : Damages file damaged) (hsize : 4 ≤ file.size) :
    register damaged ≠ register file := by
  intro hsame
  obtain ⟨start, hstart, hwindow⟩ := hdamages.inside hsize
  have hfile : file.data.toList.length = file.size := rfl
  have hdamaged : damaged.data.toList.length = file.size := hdamages.size
  have hfront : damaged.data.toList.take start = file.data.toList.take start := by
    apply List.ext_getElem?
    intro index
    by_cases hindex : index < start
    · rw [List.getElem?_take_of_lt hindex, List.getElem?_take_of_lt hindex,
        Array.getElem?_toList, Array.getElem?_toList, hwindow index (.inl hindex)]
    · rw [List.getElem?_take_eq_none (by omega), List.getElem?_take_eq_none (by omega)]
  have hback : damaged.data.toList.drop (start + 4) = file.data.toList.drop (start + 4) := by
    apply List.ext_getElem?
    intro index
    rw [List.getElem?_drop, List.getElem?_drop, Array.getElem?_toList, Array.getElem?_toList,
      hwindow _ (.inr (by omega))]
  have hsplit : ∀ bytes : List UInt8, bytes =
      bytes.take start ++ ((bytes.drop start).take 4 ++ bytes.drop (start + 4)) := by
    intro bytes
    rw [← List.drop_drop, List.take_append_drop, List.take_append_drop]
  have hwords : (damaged.data.toList.drop start).take 4 = (file.data.toList.drop start).take 4 := by
    rw [register_eq_foldl, register_eq_foldl, hsplit damaged.data.toList,
      hsplit file.data.toList, hfront, hback, List.foldl_append, List.foldl_append,
      List.foldl_append, List.foldl_append] at hsame
    apply foldl_feed_four _ _ _ (foldl_feed_injective _ hsame)
    · rw [List.length_take, List.length_drop]
      omega
    · rw [List.length_take, List.length_drop]
      omega
  apply hdamages.different
  apply ByteArray.ext
  apply Array.toList_inj.mp
  rw [hsplit damaged.data.toList, hsplit file.data.toList, hfront, hback, hwords]

end Damages

/-- A valid file that is damaged is not accepted, unless its signature is gone and none is
needed. -/
theorem load_detects_damage {file damaged : ByteArray} {image : Image}
    (hload : load .required file = .ok image) (hdamages : Damages file damaged) :
    (∃ fault, load .required damaged = .error fault) ∧
      (mark damaged = mark file → ∃ fault, load .optional damaged = .error fault) := by
  have hsigned := isSigned_of_load hload
  have hempty := register_eq_zero_of_load (by decide) hsigned hload
  have hsize : 16 ≤ file.size := hsigned.1
  have hleft := hdamages.register_ne (by omega)
  rw [hempty] at hleft
  constructor
  · cases hdamaged : load .required damaged with
    | error fault => exact ⟨fault, rfl⟩
    | ok accepted =>
        exact (hleft (register_eq_zero_of_load (by decide) (isSigned_of_load hdamaged)
          hdamaged)).elim
  · intro hmark
    have hstill : IsSigned damaged := by
      constructor
      · rw [hdamages.size]
        exact hsize
      · rw [hmark]
        exact hsigned.2
    cases hdamaged : load .optional damaged with
    | error fault => exact ⟨fault, rfl⟩
    | ok accepted =>
        exact (hleft (register_eq_zero_of_load (by decide) hstill hdamaged)).elim

/-- A payload of four bytes with its suffix. -/
def fourBytes : ByteArray :=
  ⟨#[1, 2, 3, 4, 255, 255, 64, 87, 131, 4, 0, 1, 85, 70, 68, 16, 42, 9, 36, 24]⟩

theorem load_fourBytes {policy : SuffixUse} (hpolicy : policy ≠ .ignored) :
    load policy fourBytes =
      .ok ⟨⟨#[1, 2, 3, 4]⟩, some ⟨0xFFFF, 0x5740, 0x0483, 0x0100, 16, 0x1824092A⟩⟩ := by
  have hfind : Suffix.find fourBytes =
      some ⟨0xFFFF, 0x5740, 0x0483, 0x0100, 16, 0x1824092A⟩ := by
    rw [find_eq_some_iff]
    decide +kernel
  have hchecksum : register (fourBytes.extract 0 (fourBytes.size - 4)) = 0x1824092A := by
    rw [register_eq_foldl]
    decide +kernel
  rw [load_eq hpolicy, hfind]
  dsimp only
  rw [Suffix.check_of_inside (by decide), if_pos hchecksum]
  rfl

/-- The same file with another second byte. -/
def fourBytesDamaged : ByteArray :=
  ⟨#[1, 0, 3, 4, 255, 255, 64, 87, 131, 4, 0, 1, 85, 70, 68, 16, 42, 9, 36, 24]⟩

theorem load_detects_damage_second_byte :
    load .required fourBytes =
        .ok ⟨⟨#[1, 2, 3, 4]⟩, some ⟨0xFFFF, 0x5740, 0x0483, 0x0100, 16, 0x1824092A⟩⟩ ∧
      Damages fourBytes fourBytesDamaged ∧
      (∃ fault, load .required fourBytesDamaged = .error fault) ∧
      ∃ fault, load .optional fourBytesDamaged = .error fault := by
  have hload : load .required fourBytes =
      .ok ⟨⟨#[1, 2, 3, 4]⟩, some ⟨0xFFFF, 0x5740, 0x0483, 0x0100, 16, 0x1824092A⟩⟩ :=
    load_fourBytes (by decide)
  have hdamages : Damages fourBytes fourBytesDamaged := by
    constructor
    · rfl
    · decide
    · refine ⟨0, fun index hindex => ?_⟩
      obtain ⟨later, rfl⟩ : ∃ later, index = later + 4 := ⟨index - 4, by omega⟩
      rw [← Array.getElem?_toList, ← Array.getElem?_toList]
      rfl
  have hdetected := load_detects_damage hload hdamages
  exact ⟨hload, hdamages, hdetected.1, hdetected.2 (by decide +kernel)⟩

end Image

end FirmwareUpgrade
