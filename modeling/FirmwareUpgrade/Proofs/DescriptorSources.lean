import FirmwareUpgrade.Proofs.FoundInterfaces

/-!
# Where descriptors come from

An entry is described by the alternate setting it is of, or by the first one of its device that is
described at all.  The second may belong to any function of the device, and what follows it under
the type of functional descriptors need not be one.  So an entry has a descriptor of its device's
own unless it is described by a setting of another class that says something else.
-/

namespace FirmwareUpgrade

namespace AlternateSetting

def isDescribed (setting : AlternateSetting) : Bool :=
  (splitDescriptors setting.extra).any isFunctional

def descriptor? (setting : AlternateSetting) : Option Descriptor :=
  firstFunctional (splitDescriptors setting.extra)

end AlternateSetting

namespace Attachment

/-- The alternate settings of all configurations. -/
def settings (attachment : Attachment) : List AlternateSetting :=
  attachment.configurations.flatMap Configuration.settings

/-- The setting that describes another one: that one itself, or the first of the device. -/
def describer? (attachment : Attachment) (setting : AlternateSetting) : Option AlternateSetting :=
  (setting :: attachment.settings).find? AlternateSetting.isDescribed

/-- The blank descriptor, or one that is read after an alternate setting for firmware upgrades. -/
def Owns (attachment : Attachment) (descriptor : Descriptor) : Prop :=
  descriptor = .blank ∨
    ∃ candidate ∈ attachment.candidates, ∃ bytes ∈ splitDescriptors candidate.2.extra,
      bytes[1]? = some 0x21 ∧ Descriptor.decode bytes = some descriptor

/-- The setting is described by one of another class, in terms that the device does not own. -/
def Borrows (attachment : Attachment) (setting : AlternateSetting) : Prop :=
  ∃ source descriptor, attachment.describer? setting = some source ∧
    ¬ (source.classCode = 0xFE ∧ source.subclass = 0x01) ∧
    source.descriptor? = some descriptor ∧ ¬ attachment.Owns descriptor

/-- The setting has the descriptor, which is the device's own unless it is borrowed. -/
structure Describes (attachment : Attachment) (setting : AlternateSetting)
    (descriptor : Descriptor) : Prop where
  source : descriptor =
    ((attachment.describer? setting).bind AlternateSetting.descriptor?).getD .blank
  owned : attachment.Owns descriptor ↔ ¬ attachment.Borrows setting

end Attachment

/-! ## One setting -/

namespace AlternateSetting

variable {setting : AlternateSetting} {descriptor : Descriptor}

theorem exists_of_descriptor?_eq (hread : setting.descriptor? = some descriptor) :
    ∃ bytes ∈ splitDescriptors setting.extra,
      isFunctional bytes ∧ Descriptor.decode bytes = some descriptor := by
  rcases Option.bind_eq_some_iff.mp hread with ⟨bytes, hfound, hdecode⟩
  exact ⟨bytes, List.mem_of_find?_eq_some hfound, List.find?_some hfound, hdecode⟩

theorem isSome_descriptor? (setting : AlternateSetting) :
    setting.descriptor?.isSome = setting.isDescribed := by
  have hpieces : ∀ bytes ∈ splitDescriptors setting.extra,
      (Descriptor.decode bytes).isSome = isFunctional bytes := fun bytes hmem =>
    Descriptor.isSome_decode ((splits_splitDescriptors setting.extra).isDescriptor hmem)
  rw [descriptor?, ← setting.functional?_eq, functional?, List.isSome_findSome?, isDescribed,
    Bool.eq_iff_iff, List.any_eq_true, List.any_eq_true]
  constructor
  · rintro ⟨bytes, hmem, hread⟩
    exact ⟨bytes, hmem, hpieces bytes hmem ▸ hread⟩
  · rintro ⟨bytes, hmem, hfunctional⟩
    exact ⟨bytes, hmem, hpieces bytes hmem ▸ hfunctional⟩

end AlternateSetting

/-! ## One device -/

namespace Attachment

variable {attachment : Attachment} {setting source : AlternateSetting} {configuration : UInt8}

theorem mem_settings (hcandidate : (configuration, setting) ∈ attachment.candidates) :
    setting ∈ attachment.settings := by
  rcases List.mem_flatMap.mp hcandidate with ⟨parent, hparent, hmem⟩
  rcases List.mem_map.mp hmem with ⟨other, hother, hsame⟩
  cases hsame
  exact List.mem_flatMap.mpr ⟨parent, hparent, (List.mem_filter.mp hother).1⟩

theorem exists_candidate (hmem : setting ∈ attachment.settings)
    (hclass : setting.classCode = 0xFE) (hsubclass : setting.subclass = 0x01) :
    ∃ configuration, (configuration, setting) ∈ attachment.candidates := by
  rcases List.mem_flatMap.mp hmem with ⟨parent, hparent, hsetting⟩
  have hkept : setting ∈ parent.settings.filter fun setting =>
      setting.classCode == 0xFE && setting.subclass == 0x01 := by
    simp [hsetting, hclass, hsubclass]
  exact ⟨parent.value, List.mem_flatMap.mpr ⟨parent, hparent, List.mem_map.mpr ⟨_, hkept, rfl⟩⟩⟩

theorem descriptor_eq (attachment : Attachment) (device : Nat) (configuration : UInt8)
    (setting : AlternateSetting) :
    (attachment.entry device configuration setting).descriptor =
      ((attachment.describer? setting).bind AlternateSetting.descriptor?).getD .blank := by
  have hdevice : firstFunctional attachment.descriptors =
      attachment.settings.findSome? AlternateSetting.descriptor? := by
    rw [← attachment.functional?_eq, settings, findSome?_flatMap]
    have hread : AlternateSetting.functional? = AlternateSetting.descriptor? :=
      funext AlternateSetting.functional?_eq
    rw [functional?, hread]
  have hfirst : (setting :: attachment.settings).findSome? AlternateSetting.descriptor? =
      setting.descriptor?.or (attachment.settings.findSome? AlternateSetting.descriptor?) := by
    rw [List.findSome?_cons]
    cases setting.descriptor? with
    | none => rfl
    | some descriptor => rfl
  rw [describer?, ← findSome?_eq_bind fun other _ => other.isSome_descriptor?, hfirst, ← hdevice]
  rfl

theorem owns_of_candidate {descriptor : Descriptor}
    (hcandidate : (configuration, setting) ∈ attachment.candidates)
    (hread : setting.descriptor? = some descriptor) : attachment.Owns descriptor := by
  rcases AlternateSetting.exists_of_descriptor?_eq hread with ⟨bytes, hmem, hfunctional, hdecode⟩
  exact .inr ⟨_, hcandidate, bytes, hmem, (isFunctional_iff.mp hfunctional).1, hdecode⟩

theorem mem_settings_of_describer (hcandidate : (configuration, setting) ∈ attachment.candidates)
    (hsource : attachment.describer? setting = some source) : source ∈ attachment.settings := by
  rcases List.mem_cons.mp (List.mem_of_find?_eq_some hsource) with rfl | hmem
  · exact mem_settings hcandidate
  · exact hmem

theorem describes_entry (device : Nat)
    (hcandidate : (configuration, setting) ∈ attachment.candidates) :
    attachment.Describes setting
      (attachment.entry device configuration setting).descriptor := by
  have hdescriptor := attachment.descriptor_eq device configuration setting
  refine ⟨hdescriptor, ?_⟩
  rw [hdescriptor]
  cases hdescriber : attachment.describer? setting with
  | none =>
      have hnone : ¬ attachment.Borrows setting := by
        rintro ⟨source, descriptor, hsource, -⟩
        rw [hdescriber] at hsource
        contradiction
      exact iff_of_true (.inl rfl) hnone
  | some source =>
      have hsome : source.descriptor?.isSome := by
        rw [source.isSome_descriptor?]
        exact List.find?_some hdescriber
      rcases Option.isSome_iff_exists.mp hsome with ⟨descriptor, hread⟩
      rw [Option.bind_some, hread, Option.getD_some]
      constructor
      · rintro howns ⟨other, borrowed, hother, -, hborrowed, hforeign⟩
        cases hdescriber.symm.trans hother
        cases hread.symm.trans hborrowed
        exact hforeign howns
      · intro hnone
        by_cases hupgrade : source.classCode = 0xFE ∧ source.subclass = 0x01
        · have hmem := mem_settings_of_describer hcandidate hdescriber
          rcases exists_candidate hmem hupgrade.1 hupgrade.2 with ⟨value, hown⟩
          exact owns_of_candidate hown hread
        · exact Classical.byContradiction fun hforeign =>
            hnone ⟨source, descriptor, hdescriber, hupgrade, hread, hforeign⟩

end Attachment

/-! ## The whole bus -/

namespace Bus

/-- Whatever is looked for, each entry has a descriptor of its device's own, unless it is described
by an alternate setting of another class. -/
theorem find_describes (criteria : Criteria) (before : Moment Bus) :
    ∃ deeds result after, (find criteria).Performs before deeds result after ∧
      ∀ entries, result = .ok entries → ∀ entry ∈ entries, ∃ attachment configuration setting,
        before.world.attachments[entry.handle]? = some attachment ∧
        (configuration, setting) ∈ attachment.candidates ∧
        entry = attachment.entry entry.handle configuration setting ∧
        attachment.Describes setting entry.descriptor := by
  refine ⟨_, _, _, find_performs_exactly criteria before, ?_⟩
  intro entries hfound entry hmem
  rcases mem_of_found_eq hfound hmem with
    ⟨attachment, configuration, setting, hattachment, hcandidate, hentry⟩
  have hdescribes := attachment.describes_entry entry.handle hcandidate
  rw [← hentry] at hdescribes
  exact ⟨attachment, configuration, setting, hattachment, hcandidate, hentry, hdescribes⟩

/-- The descriptor of a keyboard, which has the type of functional ones, is taken for one. -/
theorem find_borrows_from_keyboard :
    let keyboard : AlternateSetting := .plain 0x03 0x00 [9, 0x21, 0x11, 1, 0, 1, 0x22, 0x3F, 0]
    let device := Attachment.plain [⟨1, [keyboard, .plain 0xFE 0x01 []]⟩]
    let entry := device.entry 0 1 (.plain 0xFE 0x01 [])
    ((find .any).run (.initial (plain device.configurations) .empty)).1 = .ok [entry] ∧
      entry.descriptor = ⟨0x11, 1, 0x2201, 0x003F⟩ ∧ ¬ device.Owns entry.descriptor := by
  intro keyboard device entry
  have hdescriptor : entry.descriptor = ⟨0x11, 1, 0x2201, 0x003F⟩ := by cbv
  have hruns : (find .any).Runs (.initial (plain device.configurations) .empty) _ (.ok [entry]) :=
    (find_performs_exactly .any _).runs
  refine ⟨hruns.result_eq, hdescriptor, ?_⟩
  rw [hdescriptor]
  have hcandidates : device.candidates = [(1, .plain 0xFE 0x01 [])] := by cbv
  have hpieces : splitDescriptors (AlternateSetting.plain 0xFE 0x01 []).extra = [] := by cbv
  rintro (hblank | ⟨candidate, hmem, bytes, hbytes, -⟩)
  · contradiction
  · rw [hcandidates, List.mem_singleton] at hmem
    rw [hmem, hpieces] at hbytes
    contradiction

end Bus

end FirmwareUpgrade
