import FirmwareUpgrade.Proofs.DamagedFiles
import FirmwareUpgrade.Proofs.FoundInterfaces
import FirmwareUpgrade.Proofs.MeantDevice
import FirmwareUpgrade.Proofs.TransferFaults

/-!
# Adopted identifiers

The identifiers in a firmware file decide twice about a device: they are adopted into the criteria
by which it is chosen, and it is checked against them afterwards.  Adopted identifiers never stand
against what the user asks for, the check looks at the file alone.  So the two agree on every device
as long as the user asks for no identifier, and then the check cannot fail.
-/

namespace FirmwareUpgrade

variable {ω H α : Type}

/-! ## Adoption -/

namespace Criteria

variable {criteria : Criteria} {device : Device H}

/-- No vendor and no product is asked for, in either mode. -/
structure AsksForNoId (criteria : Criteria) : Prop where
  vendor : criteria.vendor = none
  product : criteria.product = none
  dfuVendor : criteria.dfuVendor = none
  dfuProduct : criteria.dfuProduct = none

/-- Whatever identifier is asked for in a mode is still asked for, and all other wishes are the
same. -/
structure KeptBy (criteria narrower : Criteria) : Prop where
  vendor : ∀ dfuMode id, effective dfuMode criteria.vendor criteria.dfuVendor = some id →
    effective dfuMode narrower.vendor narrower.dfuVendor = some id
  product : ∀ dfuMode id, effective dfuMode criteria.product criteria.dfuProduct = some id →
    effective dfuMode narrower.product narrower.dfuProduct = some id
  others : { narrower with vendor := criteria.vendor, product := criteria.product } = criteria

theorem adopt_kept (criteria : Criteria) (vendor product : UInt16) :
    criteria.KeptBy (criteria.adopt vendor product) where
  vendor _ _ hasked := effective_adoptId_of_some hasked vendor
  product _ _ hasked := effective_adoptId_of_some hasked product
  others := rfl

theorem adoptId_adoptId (wish : Option UInt16) (id : UInt16) :
    adoptId (adoptId wish id) id = adoptId wish id := by
  cases wish with
  | some wished => rfl
  | none => by_cases hopen : id = wildcard <;> simp [adoptId, hopen]

theorem adopt_adopt (criteria : Criteria) (vendor product : UInt16) :
    (criteria.adopt vendor product).adopt vendor product = criteria.adopt vendor product := by
  simp only [adopt, adoptId_adoptId]

end Criteria

/-! ## The check -/

theorem Image.checkDevice_eq_ok_iff {image : Image} {device : Device H} :
    image.checkDevice device = .ok () ↔ image.Suits device := by
  rcases image.checkDevice_eq device with ⟨hsuits, hcheck⟩ | ⟨hunsuited, hcheck⟩
  · exact iff_of_true hcheck hsuits
  · exact iff_of_false (by simp [hcheck]) hunsuited

namespace Criteria

variable {criteria : Criteria} {image : Image} {device : Device H}

theorem adopt_matches_of_suits (hmatches : criteria.matchesDevice device)
    (hsuits : image.Suits device) :
    (criteria.adopt image.vendor image.product).matchesDevice device := by
  have hnamed {id value : UInt16} {asked : Prop} (hsame : id ≠ wildcard → id = value) :
      id = wildcard ∨ asked ∨ value = id := by
    by_cases hopen : id = wildcard
    · exact .inl hopen
    · exact .inr (.inr (hsame hopen).symm)
  exact matchesDevice_adopt_iff.mpr ⟨hmatches, hnamed hsuits.1, hnamed hsuits.2⟩

theorem AsksForNoId.effective_eq (hnone : criteria.AsksForNoId) (dfuMode : Bool) :
    effective dfuMode criteria.vendor criteria.dfuVendor = none ∧
      effective dfuMode criteria.product criteria.dfuProduct = none := by
  rw [hnone.vendor, hnone.product, hnone.dfuVendor, hnone.dfuProduct]
  cases dfuMode with
  | false | true => exact ⟨rfl, rfl⟩

theorem AsksForNoId.suits_of_adopt_matches (hnone : criteria.AsksForNoId)
    (hmatches : (criteria.adopt image.vendor image.product).matchesDevice device) :
    image.Suits device := by
  rcases matchesDevice_adopt_iff.mp hmatches with ⟨-, hvendor, hproduct⟩
  rcases hnone.effective_eq device.dfuMode with ⟨hopenVendor, hopenProduct⟩
  rw [hopenVendor] at hvendor
  rw [hopenProduct] at hproduct
  constructor
  · intro hnamed
    simpa [hnamed, eq_comm] using hvendor
  · intro hnamed
    simpa [hnamed, eq_comm] using hproduct

end Criteria

/-! ## Flashes that ask for no identifier -/

def Fault.isMismatch : Fault → Bool
  | idMismatch _ _ _ _ => true
  | _ => false

def EndsMismatched (result : Except Fault α) : Prop :=
  ∃ fault, result = .error fault ∧ fault.isMismatch

/-- Only devices that meet the criteria are listed, and reaching them never ends with a mismatch. -/
structure Access.Selective (access : Access ω H) : Prop where
  list : ∀ criteria before, ∃ deeds listed after,
    (access.list criteria).Performs before deeds listed after ∧ ¬ EndsMismatched listed ∧
      ∀ found, listed = .ok found → ∀ device ∈ found, criteria.matchesDevice device
  connect : ∀ device before, ∃ deeds result after,
    (access.connect device).Performs before deeds result after ∧ ¬ EndsMismatched result

@[simp]
theorem not_endsMismatched_ok (value : α) : ¬ EndsMismatched (.ok value) := by
  simp [EndsMismatched]

@[simp]
theorem endsMismatched_error {fault : Fault} :
    EndsMismatched (.error fault : Except Fault α) ↔ fault.isMismatch := by
  simp [EndsMismatched]

theorem Bus.access_selective (timeout : Nat) : (access timeout).Selective where
  list criteria before := by
    rcases find_performs before with ⟨deeds, listed, after, hfinding, hfind⟩
    refine ⟨deeds, _, after, hfind criteria, ?_, ?_⟩
    · cases hfinding with
      | unlisted => simp [Except.map, Fault.isMismatch]
      | surveyed => exact not_endsMismatched_ok _
    · intro found hfound device hmem
      cases listed with
      | error fault => contradiction
      | ok entries =>
          cases hfound
          exact (List.mem_filter.mp hmem).2
  connect device before := by
    rcases connect_performs timeout device before with ⟨deeds, result, after, hconnecting, hconnect⟩
    refine ⟨deeds, result, after, hconnect, ?_⟩
    cases hconnecting with
    | unopened | unclaimed | unselected => simp [Fault.isMismatch]
    | connected => exact not_endsMismatched_ok _

namespace Access.Selective

variable {access : Access ω H} {before after : Moment ω} {deeds : List Event}

theorem choose (hselective : access.Selective) {criteria : Criteria}
    {chosen : Except Fault (Device H)}
    (hchoose : (access.choose criteria).Performs before deeds chosen after) :
    ¬ EndsMismatched chosen ∧ ∀ device, chosen = .ok device → criteria.matchesDevice device := by
  rcases hselective.list criteria before with ⟨survey, listed, surveyed, hlist, hends, hmatches⟩
  rcases hchoose.unique (choose_performs hlist) with ⟨-, rfl, -⟩
  cases listed with
  | error fault =>
      rw [endsMismatched_error] at hends
      exact ⟨mt endsMismatched_error.mp hends, by simp [Except.bind]⟩
  | ok found =>
      match found with
      | [] => exact ⟨by simp [Except.bind, onlyOf, Fault.isMismatch], by simp [Except.bind, onlyOf]⟩
      | [device] =>
          refine ⟨not_endsMismatched_ok _, ?_⟩
          intro other hother
          cases hother
          exact hmatches _ rfl device List.mem_cons_self
      | first :: second :: rest =>
          exact ⟨by simp [Except.bind, onlyOf, Fault.isMismatch], by simp [Except.bind, onlyOf]⟩

theorem connect_ends (hselective : access.Selective) {device : Device H}
    {result : Except Fault (PacedPipe ω)}
    (hconnect : (access.connect device).Performs before deeds result after) :
    ¬ EndsMismatched result := by
  rcases hselective.connect device before with ⟨opening, connected, opened, hrun, hends⟩
  rcases hrun.unique hconnect with ⟨-, rfl, -⟩
  exact hends

end Access.Selective

/-- What hinders a transfer is no mismatch if every device that could be chosen is accepted. -/
theorem Programmer.Hindered.not_isMismatch {programmer : Programmer ω H} {criteria : Criteria}
    {verdict : Device H → Except Fault Unit} {before after : Moment ω} {deeds : List Event}
    {fault : Fault} (hselective : programmer.access.Selective)
    (haccepts : ∀ device, criteria.matchesDevice device → verdict device = .ok ())
    (hhindered : programmer.Hindered criteria verdict before deeds fault after) :
    fault.isMismatch = false := by
  cases hhindered with
  | unchosen hchoose => simpa using (hselective.choose hchoose).1
  | refused hchoose hverdict =>
      have hmatches := (hselective.choose hchoose).2 _ rfl
      rw [haccepts _ hmatches] at hverdict
      contradiction
  | unopened hchoose hverdict hconnect => simpa using hselective.connect_ends hconnect
  | unready hchoose hverdict hconnect hready =>
      have hdirect := (Session.settling_of_performs hready).endsDirectly _ rfl
      cases fault <;> simp_all [Fault.isDirect, Fault.isMismatch]
  | sizeless hprepares hsize =>
      rcases sizeFor_eq_error hsize with ⟨-, rfl⟩
      rfl

theorem FlashRun.not_endsMismatched (run : FlashRun ω H)
    (hdiscreet : run.programmer.access.Discreet) (hselective : run.programmer.access.Selective)
    (hnone : run.programmer.options.criteria.AsksForNoId) : ¬ EndsMismatched run.result := by
  intro hends
  rcases hends with ⟨fault, hfault, hmismatch⟩
  rcases run.failsEarly_or_delivers hdiscreet with ⟨early, hearly⟩ | hdelivers
  · rw [(hearly.ends hdiscreet).1] at hfault
    cases hfault
    cases hearly with
    | unreadable | invalid => contradiction
    | hindered hloads hhindered =>
        have hother := hhindered.not_isMismatch hselective fun device hmatches =>
          Image.checkDevice_eq_ok_iff.mpr (hnone.suits_of_adopt_matches hmatches)
        rw [hother] at hmismatch
        contradiction
  · rcases hdelivers.marked fault hfault with ⟨cause, rfl, -⟩
    contradiction

/-! ## Adoption and check agree -/

/-- The identifiers of a file are adopted exactly where none is asked for. -/
structure Criteria.AdoptsWell (criteria : Criteria) (H : Type) : Prop where
  matches_iff : ∀ (vendor product : UInt16) (device : Device H),
    (criteria.adopt vendor product).matchesDevice device ↔
      criteria.matchesDevice device ∧
      (vendor = wildcard ∨
        (effective device.dfuMode criteria.vendor criteria.dfuVendor).isSome ∨
        device.vendor = vendor) ∧
      (product = wildcard ∨
        (effective device.dfuMode criteria.product criteria.dfuProduct).isSome ∨
        device.product = product)
  narrows : ∀ (vendor product : UInt16) (device : Device H),
    (criteria.adopt vendor product).matchesDevice device → criteria.matchesDevice device
  settled : ∀ vendor product,
    (criteria.adopt vendor product).adopt vendor product = criteria.adopt vendor product
  kept : ∀ vendor product, criteria.KeptBy (criteria.adopt vendor product)
  /-- A device that the file suits is not hidden. -/
  shown : ∀ (image : Image) (device : Device H), criteria.matchesDevice device →
    image.checkDevice device = .ok () →
    (criteria.adopt image.vendor image.product).matchesDevice device
  /-- Without a wish the check has nothing left to refuse. -/
  checked : criteria.AsksForNoId → ∀ (image : Image) (device : Device H),
    (criteria.adopt image.vendor image.product).matchesDevice device →
    image.checkDevice device = .ok ()

/-- Adoption and check agree, whatever the criteria are.  So a flash that asks for no identifier
never ends with a mismatch, over the bus and with every access that lists no other devices than
those asked for. -/
theorem adoption_agrees_with_check :
    (∀ (H : Type) (criteria : Criteria), criteria.AdoptsWell H) ∧
    (∀ (timeout : Nat) (options : TransferOptions) (source : FirmwareSource) (host : Host Bus),
      options.criteria.AsksForNoId →
      ¬ EndsMismatched (FlashRun.onBus timeout options source host).result) ∧
    ∀ (ω H : Type) (run : FlashRun ω H), run.programmer.access.Discreet →
      run.programmer.access.Selective → run.programmer.options.criteria.AsksForNoId →
      ¬ EndsMismatched run.result := by
  refine ⟨?_, ?_, ?_⟩
  · intro H criteria
    constructor
    case matches_iff => exact fun _ _ _ => Criteria.matchesDevice_adopt_iff
    case narrows => exact fun _ _ _ hmatches => (Criteria.matchesDevice_adopt_iff.mp hmatches).1
    case settled => exact criteria.adopt_adopt
    case kept => exact criteria.adopt_kept
    case shown =>
      intro image device hmatches hcheck
      exact Criteria.adopt_matches_of_suits hmatches (Image.checkDevice_eq_ok_iff.mp hcheck)
    case checked =>
      intro hnone image device hmatches
      exact Image.checkDevice_eq_ok_iff.mpr (hnone.suits_of_adopt_matches hmatches)
  · intro timeout options source host hnone
    exact FlashRun.not_endsMismatched _ (Bus.access_discreet timeout) (Bus.access_selective timeout)
      hnone
  · intro ω H run hdiscreet hselective hnone
    exact run.not_endsMismatched hdiscreet hselective hnone

/-- A setting for firmware upgrades in blocks of 64 bytes. -/
def AlternateSetting.upgrading : AlternateSetting :=
  .plain 0xFE 0x01 [9, 0x21, 7, 0, 0, 64, 0, 0x10, 0x01]

/-- A device with this setting, by its product number. -/
def Attachment.upgrading (product : UInt16) : Attachment :=
  { Attachment.plain [⟨1, [.upgrading]⟩] with vendor := 0x0483, product }

/-- Two products of one vendor, the second one of which is downloaded to in one block. -/
def Bus.twoProducts : Bus :=
  { (default : Bus) with
    attachments := [.upgrading 0x5741, .upgrading 0x5740]
    script := (Host.reporting [(0, 2), (0, 5), (0, 2)]).world }

/-- The device with the numbers of the file is chosen among two, and is accepted. -/
theorem adoption_agrees_with_check_standard :
    let image : Image :=
      ⟨⟨#[1, 2, 3, 4]⟩, some ⟨0xFFFF, 0x5740, 0x0483, 0x0100, 16, 0x1824092A⟩⟩
    let adopted := Criteria.any.adopt image.vendor image.product
    let device := (Attachment.upgrading 0x5740).entry 1 1 .upgrading
    let host : Host Bus := .initial .twoProducts .empty
    let run := FlashRun.onBus 1000 .standard (.contents Image.fourBytes) host
    run.programmer.options.criteria.AsksForNoId ∧
      Image.load .optional Image.fourBytes = .ok image ∧
      (Bus.twoProducts.found .any).map List.length = .ok 2 ∧
      ((run.programmer.access.choose adopted).run host).1 = .ok device ∧
      adopted.matchesDevice device ∧ image.checkDevice device = .ok () ∧
      run.result = .ok () ∧ ¬ EndsMismatched run.result := by
  intro image adopted device host run
  have hnone : TransferOptions.standard.criteria.AsksForNoId := ⟨rfl, rfl, rfl, rfl⟩
  have hload : Image.load .optional Image.fourBytes = .ok image := Image.load_fourBytes (by decide)
  have hmatches : adopted.matchesDevice device := rfl
  have hcheck : image.checkDevice device = .ok () :=
    (adoption_agrees_with_check.1 Nat .any).checked hnone image device hmatches
  have hlist : (run.programmer.access.list adopted).Performs host.moment _ (.ok [device]) _ :=
    Bus.find_performs_exactly adopted host.moment
  have hchoose := Access.choose_performs hlist
  -- The chosen device is idle, and the image is one block.
  let bus := Bus.twoProducts.afterFind
  let session := device.session (Bus.pipe device.handle device.interface 1000)
  have hconnect : (run.programmer.access.connect device).Performs ⟨bus, 0⟩ _ _ _ :=
    Bus.connected_performs rfl rfl rfl
  have hready : session.reachIdle.Performs ⟨bus, 0⟩ _ (.ok _) _ :=
    Session.reachIdle_of_idle rfl rfl rfl
  have hsize : blockSize session.descriptor.transferSize none session.packetSize = .ok 64 := by
    decide +kernel
  have hsending : session.Sending image.payload (64 : UInt16).toNat 0
      ⟨{ bus with script := (Host.reporting [(0, 5), (0, 2)]).world }, 0⟩ _ _ _ :=
    .stored (by decide) (.stored rfl (.settled rfl (by decide)) (by decide))
      (.ended (by decide) rfl (.concluded rfl rfl))
  have hwrite : (run.programmer.write image session (Bus.pace _ _ _)).Performs ⟨bus, 0⟩ _
      (.ok ()) _ :=
    run.programmer.write_sends _ hready hsize hsending
  have hflash : run.action.Performs host.moment _ (.ok ()) _ :=
    Programmer.flash_performs (Programmer.transfer_performs hload hchoose hcheck
      (Access.withSession_performs (by decide) hconnect hwrite))
  refine ⟨hnone, hload, rfl, hchoose.runs.result_eq, hmatches, hcheck, hflash.runs.result_eq, ?_⟩
  exact adoption_agrees_with_check.2.2 _ _ run (Bus.access_discreet 1000)
    (Bus.access_selective 1000) hnone

end FirmwareUpgrade
