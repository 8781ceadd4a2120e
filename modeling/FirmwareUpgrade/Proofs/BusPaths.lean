import Mathlib.Data.List.DropRight
import FirmwareUpgrade.Proofs.FoundInterfaces

/-!
# Bus paths

A path names one place on the bus.  A bus may have any name, so its end cannot be told from the
left; but no hyphen stands behind the one that ends it.  The socket numbers cannot run together,
because no dot is a digit.  So two devices that meet the same criteria with a path are at the same
place, and this is how devices of one kind are told apart.
-/

namespace FirmwareUpgrade

/-! ## Socket numbers -/

namespace Location

variable {first second : Location} {sockets : List UInt8}

def digits (socket : UInt8) : List Char :=
  Nat.toDigits 10 socket.toNat

def dotted (sockets : List UInt8) : List Char :=
  ['.'].intercalate (sockets.map digits)

theorem digits_injective : Function.Injective digits := by
  intro socket other hsame
  have hvalue := congrArg (Nat.ofDigitChars 10 · 0) hsame
  simp only [digits, Nat.ofDigitChars_ten_toDigits] at hvalue
  exact UInt8.toNat_inj.mp hvalue

theorem isDigit_of_mem_digits {socket : UInt8} {c : Char} (hmem : c ∈ digits socket) : c.isDigit :=
  Nat.isDigit_of_mem_toDigits (by decide) (by decide) hmem

theorem mem_dotted {c : Char} (hmem : c ∈ dotted sockets) : c = '.' ∨ c.isDigit := by
  induction sockets with
  | nil => contradiction
  | cons socket sockets ih =>
      cases sockets with
      | nil =>
          simp only [dotted, List.map_cons, List.map_nil, List.intercalate_singleton] at hmem
          exact .inr (isDigit_of_mem_digits hmem)
      | cons next sockets =>
          simp only [dotted, List.map_cons, List.intercalate_cons_cons, List.append_assoc,
            List.mem_append, List.mem_singleton] at hmem
          rcases hmem with hdigit | hdot | hmem
          · exact .inr (isDigit_of_mem_digits hdigit)
          · exact .inl hdot
          · exact ih hmem

theorem hyphen_notMem_dotted : '-' ∉ dotted sockets := by
  intro hmem
  rcases mem_dotted hmem with hdot | hdigit
  · contradiction
  · contradiction

/-- The numbers are read back between the dots. -/
theorem splitOn_dotted_cons (socket : UInt8) (sockets : List UInt8) :
    (dotted (socket :: sockets)).splitOn '.' = (socket :: sockets).map digits := by
  refine List.splitOn_intercalate '.' ?_ (by simp)
  intro number hnumber hdot
  rcases List.mem_map.mp hnumber with ⟨socket, -, rfl⟩
  have hdigit := isDigit_of_mem_digits hdot
  contradiction

theorem dotted_cons_ne_nil (socket : UInt8) (sockets : List UInt8) :
    dotted (socket :: sockets) ≠ [] := by
  intro hnil
  -- the empty text has one part, which is empty, but a number has digits
  have hparts := splitOn_dotted_cons socket sockets
  rw [hnil] at hparts
  have hempty : digits socket = [] := by simp_all
  exact Nat.toDigits_ne_nil hempty

theorem dotted_injective : Function.Injective dotted := by
  intro sockets others hsame
  cases sockets with
  | nil =>
      cases others with
      | nil => rfl
      | cons other others => exact absurd hsame.symm (dotted_cons_ne_nil other others)
  | cons socket sockets =>
      cases others with
      | nil => exact absurd hsame (dotted_cons_ne_nil socket sockets)
      | cons other others =>
          have hnumbers : (socket :: sockets).map digits = (other :: others).map digits := by
            rw [← splitOn_dotted_cons, hsame, splitOn_dotted_cons]
          exact List.map_injective_iff.mpr digits_injective hnumbers

/-! ## The hyphen behind the bus -/

theorem toList_path (location : Location) :
    location.path.toList = location.bus.toList ++ '-' :: dotted location.sockets := by
  have hdigits : (String.toList ∘ fun socket : UInt8 => toString socket.toNat) = digits := by
    funext socket
    exact Nat.toList_repr
  rw [path, String.toList_append, String.toList_append, String.toList_intercalate, List.map_map,
    hdigits, List.append_assoc]
  rfl

theorem rtakeWhile_hyphen {front tail : List Char} (htail : '-' ∉ tail) :
    (front ++ '-' :: tail).rtakeWhile (· != '-') = tail := by
  have hkept : ∀ c ∈ tail.reverse, (c != '-') = true := by
    intro c hmem
    rw [bne_iff_ne]
    intro hhyphen
    rw [hhyphen, List.mem_reverse] at hmem
    exact htail hmem
  simp [List.rtakeWhile, List.takeWhile_append_of_pos hkept]

/-- The same sockets of the same bus.  The address is not part of a place: it is given anew
whenever a device is plugged in. -/
structure SamePlace (first second : Location) : Prop where
  bus : first.bus = second.bus
  sockets : first.sockets = second.sockets

theorem path_eq_path_iff : first.path = second.path ↔ first.SamePlace second := by
  constructor
  · intro hpath
    have htext := congrArg String.toList hpath
    rw [toList_path, toList_path] at htext
    have hdotted : dotted first.sockets = dotted second.sockets := by
      have htails := congrArg (List.rtakeWhile (· != '-')) htext
      rwa [rtakeWhile_hyphen hyphen_notMem_dotted, rtakeWhile_hyphen hyphen_notMem_dotted] at htails
    rw [hdotted] at htext
    exact ⟨String.toList_inj.mp (List.append_cancel_right htext), dotted_injective hdotted⟩
  · intro hplace
    rw [path, path, hplace.bus, hplace.sockets]

end Location

/-! ## Devices asked for by path -/

namespace Criteria

variable {H K : Type} {criteria : Criteria} {path : String}

theorem path_eq_of_matches {device : Device H} (hpath : criteria.path = some path)
    (hmatches : criteria.matchesDevice device) : device.path = path := by
  simp only [matchesDevice, Bool.and_eq_true] at hmatches
  rcases hmatches with ⟨⟨⟨⟨⟨⟨-, hadmits⟩, -⟩, -⟩, -⟩, -⟩, -⟩
  simpa [admits, hpath] using hadmits

theorem samePlace_of_matches {first : Device H} {second : Device K} {place other : Location}
    (hpath : criteria.path = some path) (hplace : first.location = some place)
    (hother : second.location = some other) (hfirst : criteria.matchesDevice first)
    (hsecond : criteria.matchesDevice second) : place.SamePlace other := by
  have hfirst := path_eq_of_matches hpath hfirst
  have hsecond := path_eq_of_matches hpath hsecond
  rw [Device.path, hplace, Option.elim_some] at hfirst
  rw [Device.path, hother, Option.elim_some] at hsecond
  exact Location.path_eq_path_iff.mp (hfirst.trans hsecond.symm)

end Criteria

theorem Bus.location_of_found_eq {bus : Bus} {criteria : Criteria} {found : List (Device Nat)}
    (hfound : bus.found criteria = .ok found) {device : Device Nat} (hmem : device ∈ found) :
    ∃ place, device.location = some place := by
  rcases mem_of_found_eq hfound hmem with ⟨attachment, configuration, setting, -, -, hdevice⟩
  rw [hdevice]
  exact ⟨attachment.location, rfl⟩

/-- A path tells places apart, so the criteria with a path are met at one place only, and all that
is found on a bus by such criteria is at one place. -/
theorem paths_tell_places_apart :
    (∀ first second : Location, first.path = second.path ↔ first.SamePlace second) ∧
    (∀ (H K : Type) (criteria : Criteria) (first : Device H) (second : Device K)
      (place other : Location), criteria.path.isSome → first.location = some place →
      second.location = some other → criteria.matchesDevice first →
      criteria.matchesDevice second → place.SamePlace other) ∧
    ∀ (criteria : Criteria) (before after : Moment Bus) (deeds : List Event)
      (found : List (Device Nat)), criteria.path.isSome →
      (Bus.find criteria).Performs before deeds (.ok found) after →
      ∀ first ∈ found, ∀ second ∈ found, ∃ place other, first.location = some place ∧
        second.location = some other ∧ place.SamePlace other := by
  refine ⟨?_, ?_, ?_⟩
  · intro first second
    exact Location.path_eq_path_iff
  · intro H K criteria first second place other hasked hplace hother hfirst hsecond
    rcases Option.isSome_iff_exists.mp hasked with ⟨path, hpath⟩
    exact Criteria.samePlace_of_matches hpath hplace hother hfirst hsecond
  · intro criteria before after deeds found hasked hfind first hfirst second hsecond
    rcases Option.isSome_iff_exists.mp hasked with ⟨path, hpath⟩
    have hfound := ((Bus.find_performs_exactly criteria before).unique hfind).2.1.symm
    rcases Bus.location_of_found_eq hfound hfirst with ⟨place, hplace⟩
    rcases Bus.location_of_found_eq hfound hsecond with ⟨other, hother⟩
    exact ⟨place, other, hplace, hother, Criteria.samePlace_of_matches hpath hplace hother
      (Bus.matches_of_found_eq hfound hfirst) (Bus.matches_of_found_eq hfound hsecond)⟩

/-- A device plugged in again is met by the same path, whose bus may itself look like a path. -/
theorem paths_tell_places_apart_replugged :
    let bus := (default : Bus).withAttachments
      [{ Attachment.plain [⟨1, [.plain 0xFE 0x01 [], .plain 0xFE 0x01 []]⟩] with
        location := ⟨"1-1", 9, [1, 12]⟩ }]
    (⟨"1-1", 4, [1, 12]⟩ : Location).path ≠ (⟨"1-1", 4, [11, 2]⟩ : Location).path ∧
    (⟨"1", 4, [1, 12]⟩ : Location).path ≠ (⟨"1-1", 4, [12]⟩ : Location).path ∧
    Location.SamePlace ⟨"1-1", 4, [1, 12]⟩ ⟨"1-1", 9, [1, 12]⟩ ∧
    ∃ found, bus.found { Criteria.any with path := some "1-1-1.12" } = .ok found ∧
      found.length = 2 ∧ ∀ first ∈ found, ∀ second ∈ found, ∃ place other,
        first.location = some place ∧ second.location = some other ∧ place.SamePlace other := by
  intro bus
  refine ⟨?_, ?_, ?_, ?_⟩
  · intro hpath
    have hplace := (paths_tell_places_apart.1 _ _).mp hpath
    exact absurd hplace.sockets (by decide)
  · intro hpath
    have hplace := (paths_tell_places_apart.1 _ _).mp hpath
    exact absurd hplace.bus (by decide)
  · exact paths_tell_places_apart.2.1 Unit Unit { Criteria.any with path := some "1-1-1.12" }
      { (default : Device Unit) with location := some ⟨"1-1", 4, [1, 12]⟩ }
      { (default : Device Unit) with location := some ⟨"1-1", 9, [1, 12]⟩ } _ _ rfl rfl rfl
      (by decide +kernel) (by decide +kernel)
  · have hfind := Bus.find_performs_exactly { Criteria.any with path := some "1-1-1.12" } ⟨bus, 0⟩
    have hfound : ∃ found, bus.found { Criteria.any with path := some "1-1-1.12" } = .ok found ∧
        found.length = 2 := by
      refine ⟨_, rfl, ?_⟩
      decide +kernel
    rcases hfound with ⟨found, hfound, hlength⟩
    rw [hfound] at hfind
    exact ⟨found, hfound, hlength, paths_tell_places_apart.2.2 _ _ _ _ _ rfl hfind⟩

end FirmwareUpgrade
