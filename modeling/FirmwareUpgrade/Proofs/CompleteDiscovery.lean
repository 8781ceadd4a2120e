import FirmwareUpgrade.Proofs.FoundInterfaces
import Mathlib.Data.List.Basic
import Mathlib.Data.List.Flatten

/-!
# What discovery misses

A device is searched in all its configurations, but it is only opened if it seems to be worth it,
and what it seems to have are the interfaces of its first configuration.  Discovery is compared with
a search that opens every device: the two agree exactly if each device with an interface for
firmware upgrades has one in its first configuration.
-/

namespace FirmwareUpgrade

variable {α β : Type}

/-! ## Everything there is -/

/-- One entry for each candidate, whether or not the device seems to have any. -/
def Attachment.allEntries (attachment : Attachment) (device : Nat) : List (Device Nat) :=
  attachment.candidates.map fun (configuration, setting) =>
    attachment.entry device configuration setting

/-- The first configuration has an alternate setting for firmware upgrades. -/
def Attachment.ShowsUpgrade (attachment : Attachment) : Prop :=
  ∃ first others, attachment.configurations = first :: others ∧
    ∃ setting ∈ first.settings, setting.classCode = 0xFE ∧ setting.subclass = 0x01

namespace Bus

/-- All devices can be opened, and seem to have the interfaces of their first configurations. -/
structure Accessible (bus : Bus) : Prop where
  opens : ∀ attachment ∈ bus.attachments, attachment.opens
  summary : ∀ attachment ∈ bus.attachments,
    attachment.summary = summarize attachment.configurations

/-- All entries of some devices, given with their positions. -/
def entriesOf (items : List (Attachment × Nat)) : List (Device Nat) :=
  items.flatMap fun (attachment, device) => attachment.allEntries device

def allEntries (bus : Bus) : List (Device Nat) :=
  entriesOf bus.attachments.zipIdx

/-- Everything is found if the devices can be listed and each one with something to find shows so.
Otherwise what is found are all entries of the devices that do. -/
structure Discovers (bus : Bus) (result : Except Fault (List (Device Nat))) : Prop where
  complete : result = .ok bus.allEntries ↔ bus.listError = none ∧
    ∀ attachment ∈ bus.attachments, attachment.candidates ≠ [] → attachment.ShowsUpgrade
  ordered : ∀ entries, result = .ok entries → entries.Sublist bus.allEntries
  shown : ∀ entries, result = .ok entries → ∀ entry ∈ bus.allEntries,
    (entry ∈ entries ↔
      ∃ attachment, bus.attachments[entry.handle]? = some attachment ∧ attachment.ShowsUpgrade)

end Bus

/-! ## Parts that are left out -/

/-- Leaving out items changes nothing exactly if nothing comes of them. -/
theorem flatMap_filter_eq_iff {keep : α → Bool} {parts : α → List β} {items : List α} :
    (items.filter keep).flatMap parts = items.flatMap parts ↔
      ∀ item ∈ items, parts item ≠ [] → keep item := by
  induction items with
  | nil => simp
  | cons item items ih =>
      rw [List.flatMap_cons, List.forall_mem_cons, ← ih]
      by_cases hkeep : keep item
      · rw [List.filter_cons_of_pos hkeep, List.flatMap_cons, List.append_cancel_left_eq]
        simp [hkeep]
      · rw [List.filter_cons_of_neg hkeep]
        have hsub := (List.filter_sublist (p := keep) (l := items)).flatMap parts
        constructor
        · intro hsame
          have hlength := congrArg List.length hsame
          rw [List.length_append] at hlength
          have hshorter := hsub.length_le
          have hempty : parts item = [] := List.length_eq_zero_iff.mp (by omega)
          rw [hempty, List.nil_append] at hsame
          exact ⟨fun hsome => absurd hempty hsome, hsame⟩
        · rintro ⟨hnone, hsame⟩
          have hempty : parts item = [] := Classical.byContradiction fun hsome =>
            hkeep (hnone hsome)
          rw [hempty, List.nil_append, hsame]

theorem Criteria.any_matchesDevice (device : Device Nat) :
    Criteria.any.matchesDevice device = true := by
  cases hmode : device.dfuMode <;>
    simp [matchesDevice, any, effective, admits, admitsKnown, hmode]

/-! ## One device -/

namespace Attachment

variable {attachment : Attachment} {device : Nat}

theorem isListed_iff_showsUpgrade
    (hsummary : attachment.summary = summarize attachment.configurations) :
    attachment.isListed ↔ attachment.ShowsUpgrade := by
  rw [isListed, hsummary, List.contains_iff_mem]
  cases hconfigurations : attachment.configurations with
  | nil => simp [summarize, ShowsUpgrade, hconfigurations]
  | cons first others =>
      simp [summarize, ShowsUpgrade, hconfigurations]

theorem allEntries_ne_nil_iff : attachment.allEntries device ≠ [] ↔ attachment.candidates ≠ [] := by
  rw [allEntries, Ne, List.map_eq_nil_iff]

theorem handle_of_mem_allEntries {entry : Device Nat}
    (hmem : entry ∈ attachment.allEntries device) : entry.handle = device := by
  rcases List.mem_map.mp hmem with ⟨candidate, -, rfl⟩
  rfl

theorem entries_eq_allEntries (hopens : attachment.opens) :
    attachment.entries device = attachment.allEntries device :=
  if_pos hopens

end Attachment

/-! ## The whole bus -/

namespace Bus

variable {bus : Bus}

theorem mem_of_mem_zipIdx {attachments : List Attachment} {item : Attachment × Nat}
    (hmem : item ∈ attachments.zipIdx) : item.1 ∈ attachments :=
  List.mem_of_getElem? (List.mem_zipIdx_iff_getElem?.mp hmem)

theorem mem_entriesOf {items : List (Attachment × Nat)} {entry : Device Nat} :
    entry ∈ entriesOf items ↔
      ∃ attachment, (attachment, entry.handle) ∈ items ∧
        entry ∈ attachment.allEntries entry.handle := by
  constructor
  · intro hmem
    rcases List.mem_flatMap.mp hmem with ⟨⟨attachment, device⟩, hitem, hentry⟩
    have hhandle : entry.handle = device := Attachment.handle_of_mem_allEntries hentry
    subst hhandle
    exact ⟨attachment, hitem, hentry⟩
  · rintro ⟨attachment, hitem, hentry⟩
    exact List.mem_flatMap.mpr ⟨(attachment, entry.handle), hitem, hentry⟩

theorem entriesOf_listed_sublist (bus : Bus) : (entriesOf bus.listed).Sublist bus.allEntries :=
  List.filter_sublist.flatMap _

theorem entriesOf_listed_eq_iff : entriesOf bus.listed = bus.allEntries ↔
    ∀ attachment ∈ bus.attachments, attachment.candidates ≠ [] → attachment.isListed := by
  rw [entriesOf, allEntries, entriesOf, listed, listedFrom, flatMap_filter_eq_iff]
  constructor
  · intro hall attachment hmem hsome
    rcases List.getElem?_of_mem hmem with ⟨device, hattachment⟩
    have hitem := List.mk_mem_zipIdx_iff_getElem?.mpr hattachment
    exact hall (attachment, device) hitem (Attachment.allEntries_ne_nil_iff.mpr hsome)
  · intro hall item hitem hsome
    exact hall item.1 (mem_of_mem_zipIdx hitem) (Attachment.allEntries_ne_nil_iff.mp hsome)

theorem mem_entriesOf_listed_iff {entry : Device Nat} (hmem : entry ∈ bus.allEntries) :
    entry ∈ entriesOf bus.listed ↔
      ∃ attachment, bus.attachments[entry.handle]? = some attachment ∧ attachment.isListed := by
  constructor
  · intro hlisted
    rcases mem_entriesOf.mp hlisted with ⟨attachment, hitem, -⟩
    rcases List.mem_filter.mp hitem with ⟨hitem, hlisted⟩
    exact ⟨attachment, List.mk_mem_zipIdx_iff_getElem?.mp hitem, hlisted⟩
  · rintro ⟨attachment, hattachment, hlisted⟩
    rcases mem_entriesOf.mp hmem with ⟨other, hitem, hentry⟩
    have hother := List.mk_mem_zipIdx_iff_getElem?.mp hitem
    have hsame : other = attachment := Option.some.inj (hother.symm.trans hattachment)
    subst hsame
    exact mem_entriesOf.mpr ⟨other, List.mem_filter.mpr ⟨hitem, hlisted⟩, hentry⟩

theorem Accessible.found_any (haccessible : bus.Accessible) (hlists : bus.listError = none) :
    bus.found .any = .ok (entriesOf bus.listed) := by
  have hentries : bus.listed.flatMap (fun (attachment, device) => attachment.entries device) =
      entriesOf bus.listed := by
    rw [entriesOf, List.flatMap_def, List.flatMap_def]
    apply congrArg
    apply List.map_congr_left
    intro item hmem
    have hattachment := mem_of_mem_zipIdx (List.mem_filter.mp hmem).1
    exact Attachment.entries_eq_allEntries (haccessible.opens item.1 hattachment)
  have hkept : (entriesOf bus.listed).filter Criteria.any.matchesDevice = entriesOf bus.listed :=
    List.filter_eq_self.mpr fun entry _ => Criteria.any_matchesDevice entry
  simp only [found, hlists]
  rw [hentries, hkept]

theorem Accessible.discovers (haccessible : bus.Accessible) : bus.Discovers (bus.found .any) := by
  have hshows : ∀ attachment ∈ bus.attachments,
      (attachment.isListed ↔ attachment.ShowsUpgrade) := fun attachment hmem =>
    Attachment.isListed_iff_showsUpgrade (haccessible.summary attachment hmem)
  cases hlists : bus.listError with
  | some error =>
      have hfound : bus.found .any = .error (.usb error) := by simp only [found, hlists]
      rw [hfound]
      exact ⟨by simp [hlists], by simp, by simp⟩
  | none =>
      rw [haccessible.found_any hlists]
      constructor
      · rw [Except.ok.injEq, entriesOf_listed_eq_iff]
        constructor
        · intro hall
          exact ⟨hlists, fun attachment hmem hsome =>
            (hshows attachment hmem).mp (hall attachment hmem hsome)⟩
        · rintro ⟨-, hall⟩ attachment hmem hsome
          exact (hshows attachment hmem).mpr (hall attachment hmem hsome)
      · rintro entries ⟨⟩
        exact bus.entriesOf_listed_sublist
      · rintro entries ⟨⟩ entry hentry
        rw [mem_entriesOf_listed_iff hentry]
        constructor
        · rintro ⟨attachment, hattachment, hlisted⟩
          have hmem := List.mem_of_getElem? hattachment
          exact ⟨attachment, hattachment, (hshows attachment hmem).mp hlisted⟩
        · rintro ⟨attachment, hattachment, hshown⟩
          have hmem := List.mem_of_getElem? hattachment
          exact ⟨attachment, hattachment, (hshows attachment hmem).mpr hshown⟩

theorem accessible_plain (configurations : List Configuration) :
    (plain configurations).Accessible where
  opens attachment hmem := by
    rw [List.mem_singleton.mp hmem]
    rfl
  summary attachment hmem := by
    rw [List.mem_singleton.mp hmem]
    rfl

/-- Without criteria everything is found if each device with an interface for firmware upgrades
shows one in its first configuration.  The devices that do not are the ones left out. -/
theorem find_any_discovers (before : Moment Bus) (haccessible : before.world.Accessible) :
    ∃ deeds result after, (find .any).Performs before deeds result after ∧
      before.world.Discovers result :=
  ⟨_, _, _, find_performs_exactly .any before, haccessible.discovers⟩

theorem find_any_discovers_plain :
    (plain [⟨1, [.plain 0xFE 0x01 []]⟩]).Accessible ∧
      ∃ deeds result after,
        (find .any).Performs ⟨plain [⟨1, [.plain 0xFE 0x01 []]⟩], 0⟩ deeds result after ∧
          (plain [⟨1, [.plain 0xFE 0x01 []]⟩]).Discovers result :=
  ⟨accessible_plain _, find_any_discovers ⟨_, 0⟩ (accessible_plain _)⟩

/-- An interface for firmware upgrades in the second configuration is missed if there is only one of
another class in the first. -/
theorem find_any_misses_second_configuration :
    let bus := plain [⟨1, [.plain 0x03 0x00 []]⟩, ⟨2, [.plain 0xFE 0x01 []]⟩]
    bus.Accessible ∧ bus.listError = none ∧ bus.allEntries.length = 1 ∧
      ((find .any).run (.initial bus .empty)).1 = .ok [] := by
  refine ⟨accessible_plain _, rfl, rfl, ?_⟩
  cbv

end Bus

end FirmwareUpgrade
