import FirmwareUpgrade.Proofs.BusCourse

/-!
# What is found on a bus

Finding devices is described without any reference to how it is done: which interfaces are found,
which calls of the bus are made for that, and what is left of the bus.  `Bus.finds_exactly` shows
that exactly this happens.  The calls and the bus after them do not depend on the criteria, which
only decide what is kept.
-/

namespace FirmwareUpgrade

variable {ω α β : Type}

/-! ## Descriptors in a stream -/

/-- The bytes are one descriptor: at least two of them, and as many as the first one says. -/
def IsDescriptor (bytes : List UInt8) : Prop :=
  2 ≤ bytes.length ∧ bytes.head?.map UInt8.toNat = some bytes.length

theorem IsDescriptor.toNat_size {size : UInt8} {rest : List UInt8}
    (hbytes : IsDescriptor (size :: rest)) : size.toNat = (size :: rest).length :=
  Option.some.inj hbytes.2

/-- The stream is taken apart into descriptors up to a place where none fits. -/
inductive Splits : List UInt8 → List (List UInt8) → Prop
  | done {stream} (hnone : ∀ piece rest, stream = piece ++ rest → ¬ IsDescriptor piece) :
      Splits stream []
  | piece {piece rest pieces} (hpiece : IsDescriptor piece) (hrest : Splits rest pieces) :
      Splits (piece ++ rest) (piece :: pieces)

theorem splits_splitDescriptors (stream : List UInt8) :
    Splits stream (splitDescriptors stream) := by
  induction stream using splitDescriptors.induct with
  | case1 size type rest hfits ih =>
      rw [splitDescriptors, dif_pos hfits]
      have hlength : ((size :: type :: rest).take size.toNat).length = size.toNat := by
        simp only [List.length_take, List.length_cons]
        omega
      have hpiece : IsDescriptor ((size :: type :: rest).take size.toNat) := by
        refine ⟨by rw [hlength]; exact hfits.1, ?_⟩
        rw [hlength, List.head?_take, if_neg (by omega)]
        rfl
      have hsplits := Splits.piece hpiece ih
      rwa [List.take_append_drop] at hsplits
  | case2 size type rest hfits =>
      rw [splitDescriptors, dif_neg hfits]
      refine .done fun piece others hstream hpiece => hfits ?_
      obtain ⟨hshort, hsize⟩ := hpiece
      have htotal := congrArg List.length hstream
      cases piece with
      | nil => simp at hshort
      | cons first piece =>
          obtain ⟨rfl, -⟩ := List.cons.inj hstream
          simp only [List.length_append, List.length_cons, List.head?_cons, Option.map_some,
            Option.some.injEq] at hshort hsize htotal
          omega
  | case3 stream hshort =>
      have hnone : splitDescriptors stream = [] := by
        unfold splitDescriptors
        split
        · next size type rest => exact absurd rfl (hshort size type rest)
        · rfl
      rw [hnone]
      refine .done fun piece others hstream hpiece => ?_
      have hlength := hpiece.1
      match piece with
      | [] | [_] => simp at hlength
      | size :: type :: piece => exact hshort size type (piece ++ others) hstream

theorem Splits.isDescriptor {stream piece : List UInt8} {pieces : List (List UInt8)}
    (hsplits : Splits stream pieces) (hmem : piece ∈ pieces) : IsDescriptor piece := by
  induction hsplits with
  | done => cases hmem
  | piece hpiece hrest ih =>
      rcases List.mem_cons.mp hmem with rfl | hmem
      · exact hpiece
      · exact ih hmem

/-- A functional descriptor: of type `0x21`, and long enough for the form without version. -/
def isFunctional (bytes : List UInt8) : Bool :=
  bytes[1]? == some 0x21 && decide (7 ≤ bytes.length)

theorem isFunctional_iff {bytes : List UInt8} :
    isFunctional bytes ↔ bytes[1]? = some 0x21 ∧ 7 ≤ bytes.length := by
  rw [isFunctional, Bool.and_eq_true, beq_iff_eq, decide_eq_true_eq]

theorem Descriptor.isSome_decode {bytes : List UInt8} (hbytes : IsDescriptor bytes) :
    (decode bytes).isSome = isFunctional bytes := by
  obtain ⟨-, hsize⟩ := hbytes
  match bytes with
  | [] | [_] | [_, _] | [_, _, _] | [_, _, _, _] | [_, _, _, _, _] | [_, _, _, _, _, _] =>
      simp [decode, isFunctional]
  | size :: type :: attributes :: detach0 :: detach1 :: transfer0 :: transfer1 :: rest =>
      have hlong : 7 ≤ size.toNat := by
        simp only [List.head?_cons, Option.map_some, Option.some.injEq] at hsize
        rw [hsize]
        simp
      by_cases htype : type = 0x21
      · simp [decode, isFunctional, htype, typeByte, shortSize, hlong]
      · simp [decode, isFunctional, htype, typeByte]

/-- The first item that can be read, if a test tells which ones can. -/
theorem findSome?_eq_bind {read : α → Option β} {test : α → Bool} {items : List α}
    (htest : ∀ item ∈ items, (read item).isSome = test item) :
    items.findSome? read = (items.find? test).bind read := by
  induction items with
  | nil => rfl
  | cons item items ih =>
      have hitem := htest item List.mem_cons_self
      have hrest := ih fun other hmem => htest other (List.mem_cons_of_mem item hmem)
      rw [List.findSome?_cons, List.find?_cons, ← hitem]
      cases hread : read item with
      | none => exact hrest
      | some value => exact hread.symm

theorem findSome?_decode {pieces : List (List UInt8)}
    (hpieces : ∀ piece ∈ pieces, IsDescriptor piece) :
    pieces.findSome? Descriptor.decode = (pieces.find? isFunctional).bind Descriptor.decode :=
  findSome?_eq_bind fun piece hmem => Descriptor.isSome_decode (hpieces piece hmem)

/-! ## What there is to find -/

def firstFunctional (descriptors : List (List UInt8)) : Option Descriptor :=
  (descriptors.find? isFunctional).bind Descriptor.decode

namespace Attachment

/-- The device is known to have an interface for firmware upgrades before it is opened. -/
def isListed (attachment : Attachment) : Bool :=
  attachment.summary.contains (0xFE, 0x01)

def opens (attachment : Attachment) : Bool :=
  attachment.openings.head?.join.isNone

/-- The device after it has been opened or has refused to be. -/
def probed (attachment : Attachment) : Attachment :=
  { attachment with openings := attachment.openings.tail }

/-- The device after the bus has been searched. -/
def searched (attachment : Attachment) : Attachment :=
  if attachment.isListed then attachment.probed else attachment

/-- The alternate settings for firmware upgrades, each with the value of its configuration. -/
def candidates (attachment : Attachment) : List (UInt8 × AlternateSetting) :=
  attachment.configurations.flatMap fun configuration =>
    (configuration.settings.filter fun setting =>
      setting.classCode == 0xFE && setting.subclass == 0x01).map fun setting =>
        (configuration.value, setting)

/-- All descriptors of the device, whatever setting they follow. -/
def descriptors (attachment : Attachment) : List (List UInt8) :=
  attachment.configurations.flatMap fun configuration =>
    configuration.settings.flatMap fun setting => splitDescriptors setting.extra

/-- The name with an index, none if the languages or the name cannot be read. -/
def nameAt (attachment : Attachment) (index : UInt8) : Option String :=
  if index = 0 then none
  else attachment.languages.bind fun _ => attachment.strings.lookup index

/-- The calls that read the name with an index, in the first language of the device. -/
def nameCalls (attachment : Attachment) (device : Nat) (index : UInt8) : List Event :=
  if index = 0 then []
  else
    .bus (.languages device 5000) ::
      match attachment.languages with
      | none => []
      | some languages => [.bus (.string device index (languages.headD 0x0409) 5000)]

def entry (attachment : Attachment) (device : Nat) (configuration : UInt8)
    (setting : AlternateSetting) : Device Nat where
  handle := device
  vendor := attachment.vendor
  product := attachment.product
  release := attachment.release
  location := some attachment.location
  serial := attachment.serial
  configuration
  interface := setting.interface
  alternate := setting.alternate
  name := attachment.nameAt setting.nameIndex
  dfuMode := setting.protocol == 0x02
  descriptor :=
    ((firstFunctional (splitDescriptors setting.extra)).or
      (firstFunctional attachment.descriptors)).getD .blank
  packetSize := attachment.packetSize

/-- One entry for each candidate, none if the device cannot be opened. -/
def entries (attachment : Attachment) (device : Nat) : List (Device Nat) :=
  if attachment.opens then
    attachment.candidates.map fun (configuration, setting) =>
      attachment.entry device configuration setting
  else []

/-- The calls that find the entries. -/
def probes (attachment : Attachment) (device : Nat) : List Event :=
  .bus (.openDevice device) ::
    if attachment.opens then
      (attachment.candidates.flatMap fun (_, setting) =>
        attachment.nameCalls device setting.nameIndex) ++ [.bus (.closeDevice device)]
    else []

end Attachment

/-- An alternate setting with its class, subclass and descriptors, and zeros for the rest. -/
def AlternateSetting.plain (classCode subclass : UInt8) (extra : List UInt8) : AlternateSetting :=
  { (default : AlternateSetting) with classCode, subclass, extra }

/-- A device that can be opened, of which nothing but its configurations is known. -/
def Attachment.plain (configurations : List Configuration) : Attachment :=
  { (default : Attachment) with configurations, summary := summarize configurations }

namespace Bus

/-- A bus with one such device. -/
def plain (configurations : List Configuration) : Bus :=
  { (default : Bus) with attachments := [.plain configurations] }

def withAttachments (bus : Bus) (attachments : List Attachment) : Bus :=
  { bus with attachments }

/-- The listed ones of some devices, with their positions. -/
def listedFrom (attachments : List Attachment) (position : Nat) : List (Attachment × Nat) :=
  (attachments.zipIdx position).filter fun (attachment, _) => attachment.isListed

def listed (bus : Bus) : List (Attachment × Nat) :=
  listedFrom bus.attachments 0

def found (bus : Bus) (criteria : Criteria) : Except Fault (List (Device Nat)) :=
  match bus.listError with
  | some error => .error (.usb error)
  | none => .ok ((bus.listed.flatMap fun (attachment, device) =>
      attachment.entries device).filter criteria.matchesDevice)

def findCalls (bus : Bus) : List Event :=
  .bus .list ::
    match bus.listError with
    | some _ => []
    | none => bus.listed.flatMap fun (attachment, device) => attachment.probes device

/-- The bus after its devices have been found. -/
def afterFind (bus : Bus) : Bus :=
  match bus.listError with
  | some _ => bus
  | none =>
    bus.withAttachments (bus.attachments.map Attachment.searched)

end Bus

/-! ## One device -/

theorem findSome?_flatMap {read : β → Option ω} {parts : α → List β} {items : List α} :
    (items.flatMap parts).findSome? read =
      items.findSome? fun item => (parts item).findSome? read := by
  induction items with
  | nil => rfl
  | cons item items ih =>
      rw [List.flatMap_cons, List.findSome?_append, List.findSome?_cons, ih]
      cases (parts item).findSome? read with
      | none => rfl
      | some value => rfl

theorem AlternateSetting.functional?_eq (setting : AlternateSetting) :
    setting.functional? = firstFunctional (splitDescriptors setting.extra) :=
  findSome?_decode fun _ hmem => (splits_splitDescriptors setting.extra).isDescriptor hmem

theorem Attachment.functional?_eq (attachment : Attachment) :
    attachment.functional? = firstFunctional attachment.descriptors := by
  have hpieces : ∀ piece ∈ attachment.descriptors, IsDescriptor piece := by
    intro piece hmem
    obtain ⟨configuration, -, hmem⟩ := List.mem_flatMap.mp hmem
    obtain ⟨setting, -, hmem⟩ := List.mem_flatMap.mp hmem
    exact (splits_splitDescriptors setting.extra).isDescriptor hmem
  rw [firstFunctional, ← findSome?_decode hpieces, descriptors, findSome?_flatMap]
  simp only [findSome?_flatMap]
  rfl

theorem Action.performs_mapM {action : α → Action ω β} {calls : α → List Event} {value : α → β}
    {moment : Moment ω} (items : List α)
    (haction : ∀ item, (action item).Performs moment (calls item) (.ok (value item)) moment) :
    (items.mapM action).Performs moment (items.flatMap calls) (.ok (items.map value)) moment := by
  induction items with
  | nil => exact Action.performs_pure [] moment
  | cons item items ih =>
      rw [List.mapM_cons]
      exact (haction item).bind (ih.bind_silent (Action.performs_pure _ moment))

namespace Bus

theorem readName_performs_exactly (device : Nat) (attachment : Attachment) (index : UInt8)
    (moment : Moment Bus) :
    (readName device attachment index).Performs moment (attachment.nameCalls device index)
      (.ok (attachment.nameAt index)) moment := by
  unfold readName Attachment.nameCalls Attachment.nameAt
  by_cases hindex : index = 0
  · simp only [if_pos hindex]
    exact Action.performs_pure none moment
  simp only [if_neg hindex]
  refine (call_performs (.languages device standardTimeout) moment).bind_single ?_
  cases attachment.languages with
  | none => exact Action.performs_pure none moment
  | some languages => exact (call_performs _ moment).bind_single (Action.performs_pure _ moment)

theorem describe_performs_exactly (device : Nat) (attachment : Attachment) (configuration : UInt8)
    (setting : AlternateSetting) (moment : Moment Bus) :
    (describe device attachment configuration setting).Performs moment
      (attachment.nameCalls device setting.nameIndex)
      (.ok (attachment.entry device configuration setting)) moment := by
  unfold describe Attachment.entry
  rw [setting.functional?_eq, attachment.functional?_eq]
  exact (readName_performs_exactly device attachment setting.nameIndex moment).bind_silent
    (Action.performs_pure _ moment)

/-- What is found of a device that may refuse to be opened. -/
theorem examine_performs_exactly {device : Nat} {attachment : Attachment} {before : Moment Bus}
    {attachments : List Attachment}
    (hattachment : before.world.attachments[device]? = some attachment)
    (hattachments : before.world.attachments.set device attachment.probed = attachments) :
    ∃ examined, examined.toOption.getD [] = attachment.entries device ∧
      (examine device attachment).Performs before (attachment.probes device) examined
        ⟨before.world.withAttachments attachments, before.clock⟩ := by
  have hopening : before.world.nextOpening device =
      (attachment.openings.head?.join, before.world.withAttachments attachments) := by
    rw [← hattachments]
    simp only [nextOpening, hattachment, Attachment.probed, withAttachments]
  have hopen := openDevice_performs hopening
  cases hrefused : attachment.openings.head?.join with
  | some error =>
      have hopens : attachment.opens = false := by simp [Attachment.opens, hrefused]
      rw [hrefused] at hopen
      refine ⟨.error (.usb error), by simp [Attachment.entries, hopens, Except.toOption], ?_⟩
      simp only [Attachment.probes, hopens]
      exact hopen.bind_error
  | none =>
      have hopens : attachment.opens = true := by simp [Attachment.opens, hrefused]
      rw [hrefused] at hopen
      refine ⟨.ok (attachment.entries device), rfl, ?_⟩
      simp only [Attachment.probes, Attachment.entries, hopens, if_true]
      have hdescribe := Action.performs_mapM attachment.upgradeSettings fun item =>
        describe_performs_exactly device attachment item.1 item.2
          ⟨before.world.withAttachments attachments, before.clock⟩
      have hclose : ∀ event ∈ [Event.bus (.closeDevice device)], event.isDeed := by
        simp [Event.isDeed]
      exact hopen.bind_single (hdescribe.followedBy hclose)

/-! ## The whole bus -/

theorem listedFrom_cons (attachment : Attachment) (rest : List Attachment) (position : Nat) :
    listedFrom (attachment :: rest) position =
      if attachment.isListed then (attachment, position) :: listedFrom rest (position + 1)
      else listedFrom rest (position + 1) := by
  rw [listedFrom, List.zipIdx_cons, List.filter_cons]
  rfl

/-- The devices from a position on are examined; those before it have been already. -/
theorem survey_performs_exactly (criteria : Criteria) (rest passed : List Attachment)
    {before : Moment Bus} (hattachments : before.world.attachments = passed ++ rest) :
    ((listedFrom rest passed.length).mapM fun (attachment, device) =>
      examineOrSkip criteria device attachment).Performs before
        ((listedFrom rest passed.length).flatMap fun (entry : Attachment × Nat) =>
          entry.1.probes entry.2)
        (.ok ((listedFrom rest passed.length).map fun (entry : Attachment × Nat) =>
          (entry.1.entries entry.2).filter criteria.matchesDevice))
        ⟨before.world.withAttachments (passed ++ rest.map Attachment.searched),
          before.clock⟩ := by
  -- A device keeps its position in the list, so opening it leaves all others as they were.
  induction rest generalizing passed before with
  | nil =>
      rw [List.map_nil, ← hattachments]
      exact Action.performs_pure [] before
  | cons attachment rest ih =>
      have hmore : passed ++ (attachment :: rest).map Attachment.searched =
          (passed ++ [attachment.searched]) ++ rest.map Attachment.searched := by
        simp
      have hlength : passed.length + 1 = (passed ++ [attachment.searched]).length := by simp
      rw [listedFrom_cons, hmore, hlength]
      cases hlisted : attachment.isListed with
      | false =>
          have hsearched : attachment.searched = attachment := by
            simp [Attachment.searched, hlisted]
          exact ih _ (by simp [hattachments, hsearched])
      | true =>
          have hsearched : attachment.searched = attachment.probed := by
            simp [Attachment.searched, hlisted]
          have hattachment : before.world.attachments[passed.length]? = some attachment := by
            simp [hattachments]
          have hset : before.world.attachments.set passed.length attachment.probed =
              (passed ++ [attachment.searched]) ++ rest := by
            simp [hattachments, hsearched, List.set_append_right]
          obtain ⟨examined, hentries, hexamine⟩ := examine_performs_exactly hattachment hset
          have hfirst := examineOrSkip_performs hexamine criteria
          rw [hentries] at hfirst
          rw [if_pos rfl, List.mapM_cons]
          exact hfirst.bind ((ih _ rfl).bind_silent (Action.performs_pure _ _))

theorem seemsUpgradable_eq (attachment : Attachment) :
    attachment.seemsUpgradable = attachment.isListed := by
  rw [Bool.eq_iff_iff, Attachment.seemsUpgradable, Attachment.isListed, List.any_eq_true,
    List.contains_iff_mem]
  constructor
  · rintro ⟨⟨classCode, subclass⟩, hmem, hupgrade⟩
    simp only [isUpgradeClass, Bool.and_eq_true, beq_iff_eq] at hupgrade
    obtain ⟨rfl, rfl⟩ := hupgrade
    exact hmem
  · exact fun hmem => ⟨_, hmem, rfl⟩

theorem find_performs_exactly (criteria : Criteria) (before : Moment Bus) :
    (find criteria).Performs before before.world.findCalls (before.world.found criteria)
      ⟨before.world.afterFind, before.clock⟩ := by
  have hdevices := listDevices_performs before
  unfold find findCalls found afterFind
  simp only [seemsUpgradable_eq]
  cases hlist : before.world.listError with
  | some error =>
      rw [hlist] at hdevices
      exact hdevices.bind_error
  | none =>
      rw [hlist] at hdevices
      have hsurvey := survey_performs_exactly criteria before.world.attachments [] rfl
      have hkept : ((listed before.world).map fun (entry : Attachment × Nat) =>
          (entry.1.entries entry.2).filter criteria.matchesDevice).flatten =
            ((listed before.world).flatMap fun (entry : Attachment × Nat) =>
              entry.1.entries entry.2).filter criteria.matchesDevice := by
        rw [List.filter_flatMap, List.flatMap_def]
      refine hdevices.bind_single (hsurvey.bind_silent (.after_note ?_))
      exact (congrArg Except.ok hkept) ▸ Action.performs_pure _ _

theorem eq_of_found_eq {bus : Bus} {criteria : Criteria} {entries : List (Device Nat)}
    (hfound : bus.found criteria = .ok entries) :
    entries = (bus.listed.flatMap fun (attachment, device) =>
      attachment.entries device).filter criteria.matchesDevice := by
  unfold found at hfound
  cases hlists : bus.listError with
  | some error => simp [hlists] at hfound
  | none =>
      simp only [hlists, Except.ok.injEq] at hfound
      exact hfound.symm

theorem mem_of_found_eq {bus : Bus} {criteria : Criteria} {entries : List (Device Nat)}
    (hfound : bus.found criteria = .ok entries) {entry : Device Nat} (hmem : entry ∈ entries) :
    ∃ attachment configuration setting, bus.attachments[entry.handle]? = some attachment ∧
      (configuration, setting) ∈ attachment.candidates ∧
      entry = attachment.entry entry.handle configuration setting := by
  rw [eq_of_found_eq hfound] at hmem
  have hentry := (List.mem_filter.mp hmem).1
  rcases List.mem_flatMap.mp hentry with ⟨⟨attachment, device⟩, hitem, hentry⟩
  change entry ∈ attachment.entries device at hentry
  have hattachment := List.mk_mem_zipIdx_iff_getElem?.mp (List.mem_filter.mp hitem).1
  by_cases hopens : attachment.opens
  · rw [Attachment.entries, if_pos hopens] at hentry
    rcases List.mem_map.mp hentry with ⟨⟨configuration, setting⟩, hcandidate, rfl⟩
    exact ⟨attachment, configuration, setting, hattachment, hcandidate, rfl⟩
  · simp [Attachment.entries, hopens] at hentry

theorem matches_of_found_eq {bus : Bus} {criteria : Criteria} {entries : List (Device Nat)}
    (hfound : bus.found criteria = .ok entries) {entry : Device Nat} (hmem : entry ∈ entries) :
    criteria.matchesDevice entry := by
  rw [eq_of_found_eq hfound] at hmem
  exact (List.mem_filter.mp hmem).2

/-- Finding devices gives these entries and makes these calls, whatever the criteria are.  The
descriptors of an alternate setting are those in its stream up to a place where none fits, and the
deviations of an entry follow from the numbers of its device. -/
structure FindsExactly (before : Moment Bus) : Prop where
  performs : ∀ criteria : Criteria, (find criteria).Performs before before.world.findCalls
    (before.world.found criteria) ⟨before.world.afterFind, before.clock⟩
  descriptors : ∀ setting : AlternateSetting,
    Splits setting.extra (splitDescriptors setting.extra)
  deviations : ∀ (attachment : Attachment) (device : Nat) (configuration : UInt8)
    (setting : AlternateSetting), (attachment.entry device configuration setting).deviations =
      .lookup attachment.vendor attachment.product attachment.release

theorem finds_exactly (before : Moment Bus) : FindsExactly before where
  performs criteria := find_performs_exactly criteria before
  descriptors setting := splits_splitDescriptors setting.extra
  deviations _ _ _ _ := rfl

end Bus

end FirmwareUpgrade
