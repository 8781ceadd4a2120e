import FirmwareUpgrade.Proofs.Downloading
import Mathlib.Data.List.Basic

/-!
# Downloads follow the plan

The blocks that a download sends are those of its plan, in the order of the plan, up to the point
where the download fails.  The invariant of the block loop is that the blocks still to be sent are
the plan without the blocks before the current position.
-/

namespace FirmwareUpgrade

variable {ω : Type}

/-! ## The plan -/

namespace Download

theorem lt_blockCount_iff (size : Nat) {chunk : Nat} (positive : 0 < chunk) (position : Nat) :
    position < blockCount size chunk ↔ position * chunk < size := by
  unfold blockCount
  rw [Nat.lt_iff_add_one_le, Nat.le_div_iff_mul_le positive, Nat.succ_mul]
  omega

theorem drop_plan_of_lt (payload : ByteArray) {chunk position : Nat}
    (hinside : position < blockCount payload.size chunk) :
    (plan payload chunk).drop position =
      planned payload chunk position :: (plan payload chunk).drop (position + 1) := by
  have hlength : position < (plan payload chunk).length := by
    simp only [plan, List.length_append, List.length_map, List.length_range]
    omega
  rw [List.drop_eq_getElem_cons hlength]
  congr 1
  simp only [plan]
  rw [List.getElem_append_left (by simpa using hinside)]
  simp

theorem drop_plan_blockCount (payload : ByteArray) (chunk : Nat) :
    (plan payload chunk).drop (blockCount payload.size chunk) =
      [(UInt16.ofNat (blockCount payload.size chunk), .empty)] := by
  unfold plan
  apply List.drop_left'
  simp

theorem drop_plan_of_le (payload : ByteArray) {chunk position : Nat} (positive : 0 < chunk)
    (houtside : payload.size ≤ position * chunk)
    (hposition : position ≤ blockCount payload.size chunk) :
    (plan payload chunk).drop position = [(UInt16.ofNat position, .empty)] := by
  have hcount := (lt_blockCount_iff payload.size positive position).not
  have heq : position = blockCount payload.size chunk := by omega
  rw [heq, drop_plan_blockCount]

theorem planned_data (payload : ByteArray) (chunk position : Nat) :
    (planned payload chunk position).2 =
      payload.extract (position * chunk) (min ((position + 1) * chunk) payload.size) := by
  apply ByteArray.ext
  have hsize : payload.data.size = payload.size := rfl
  rw [planned, ByteArray.data_extract, ByteArray.data_extract, Array.extract_eq_extract_right]
  omega

theorem planned_data_toList (payload : ByteArray) (chunk position : Nat) :
    (planned payload chunk position).2.data.toList =
      (payload.data.toList.drop (position * chunk)).take chunk := by
  simp only [planned, ByteArray.data_extract, Array.toList_extract, List.extract_eq_take_drop]
  rw [Nat.succ_mul, Nat.add_sub_cancel_left]

theorem flatMap_planned (payload : ByteArray) (chunk count : Nat) :
    ((List.range count).flatMap fun position => (planned payload chunk position).2.data.toList) =
      payload.data.toList.take (count * chunk) := by
  induction count with
  | zero => simp
  | succ count ih =>
      rw [List.range_succ, List.flatMap_append, ih, Nat.succ_mul, List.take_add]
      simp [planned_data_toList]

theorem flatMap_plan (payload : ByteArray) {chunk : Nat} (positive : 0 < chunk) :
    ((plan payload chunk).flatMap fun block => block.2.data.toList) = payload.data.toList := by
  have hcovered : payload.size ≤ blockCount payload.size chunk * chunk := by
    have hcount := (lt_blockCount_iff payload.size positive (blockCount payload.size chunk)).not
    omega
  rw [plan, List.flatMap_append, List.flatMap_map, flatMap_planned, List.take_of_length_le hcovered]
  simp

theorem planned_data_eq_empty_iff (payload : ByteArray) {chunk : Nat} (positive : 0 < chunk)
    (position : Nat) :
    (planned payload chunk position).2 = .empty ↔ payload.size ≤ position * chunk := by
  rw [planned, ByteArray.extract_eq_empty_iff, Nat.succ_mul]
  omega

/-- The formula for a block also gives the empty one, which is the only one without data. -/
theorem getElem?_plan {payload : ByteArray} {chunk : Nat} (positive : 0 < chunk)
    {position : Nat} {block : UInt16 × ByteArray}
    (hblock : (plan payload chunk)[position]? = some block) :
    block = planned payload chunk position ∧
      (block.2 = .empty ↔ position = blockCount payload.size chunk) := by
  have hcount := lt_blockCount_iff payload.size positive position
  have hempty := planned_data_eq_empty_iff payload positive position
  rcases Nat.lt_trichotomy position (blockCount payload.size chunk) with hlt | heq | hgt
  · have hdrop := drop_plan_of_lt payload hlt
    have hhead : block = planned payload chunk position := by
      rw [← List.head?_drop, hdrop] at hblock
      simpa using hblock.symm
    subst hhead
    refine ⟨rfl, ?_⟩
    rw [hempty]
    omega
  · subst heq
    have hhead : block = (UInt16.ofNat (blockCount payload.size chunk), .empty) := by
      rw [← List.head?_drop, drop_plan_blockCount] at hblock
      simpa using hblock.symm
    subst hhead
    have hdata := hempty.mpr (by omega)
    exact ⟨Prod.ext rfl hdata.symm, by simp⟩
  · have hlength : (plan payload chunk).length ≤ position := by
      simp only [plan, List.length_append, List.length_map, List.length_range, List.length_cons,
        List.length_nil]
      omega
    rw [List.getElem?_eq_none hlength] at hblock
    simp at hblock

end Download

/-! ## The blocks of a run -/

open Download

def Exchange.block? : Exchange → Option (UInt16 × ByteArray)
  | .out .download block data _ => some (block, data)
  | _ => none

/-- The blocks that are sent in some events, whether or not the device took them. -/
def sentBlocks (events : List Event) : List (UInt16 × ByteArray) :=
  (exchanges events).filterMap Exchange.block?

theorem sentBlocks_append (first second : List Event) :
    sentBlocks (first ++ second) = sentBlocks first ++ sentBlocks second := by
  simp [sentBlocks]

theorem sentBlocks_eq_nil {events : List Event}
    (hstatus : ∀ transfer ∈ exchanges events, transfer.request = .getStatus) :
    sentBlocks events = [] := by
  unfold sentBlocks
  rw [List.filterMap_eq_nil_iff]
  intro transfer hmem
  have hrequest := hstatus transfer hmem
  cases transfer with
  | out request block data taken =>
      change request = .getStatus at hrequest
      subst hrequest
      rfl
  | receive => rfl

namespace Session

variable {session : Session ω} {payload data : ByteArray} {block : UInt16} {chunk position : Nat}
  {before after : Moment ω} {deeds : List Event} {result : Except Fault Unit}

theorem sentBlocks_orderDeed_cons (taken : Except TransferError Nat) (delay : Nat)
    (hstatus : ∀ transfer ∈ exchanges deeds, transfer.request = .getStatus) :
    sentBlocks (session.orderDeed .download block data taken delay :: deeds) =
      [(block, data)] := by
  have hrest := sentBlocks_eq_nil hstatus
  unfold sentBlocks at hrest ⊢
  rw [exchanges_cons_orderDeed]
  simp only [List.filterMap_cons, Exchange.block?, hrest]

theorem Storing.sentBlocks_eq (hstoring : session.Storing block data before deeds result after) :
    sentBlocks deeds = [(block, data)] := by
  cases hstoring with
  | unsent htold => exact sentBlocks_orderDeed_cons _ _ (by simp)
  | unsettled htold hbusy => exact sentBlocks_orderDeed_cons _ _ hbusy.requests
  | refused htold hbusy _ => exact sentBlocks_orderDeed_cons _ _ hbusy.requests
  | stored htold hbusy _ => exact sentBlocks_orderDeed_cons _ _ hbusy.requests

/-- What is sent from a position on is the plan from there, up to a failure. -/
theorem Sending.sentBlocks_prefix (positive : 0 < chunk)
    (hsending : session.Sending payload chunk position before deeds result after)
    (hposition : position ≤ blockCount payload.size chunk) :
    sentBlocks deeds <+: (plan payload chunk).drop position ∧
      (result = .ok () → sentBlocks deeds = (plan payload chunk).drop position) := by
  induction hsending with
  | failed hinside hstoring =>
      have hlt := (lt_blockCount_iff _ positive _).mpr hinside
      rw [hstoring.sentBlocks_eq, drop_plan_of_lt payload hlt]
      exact ⟨⟨_, rfl⟩, by simp⟩
  | stored hinside hstoring hrest ih =>
      have hlt := (lt_blockCount_iff _ positive _).mpr hinside
      obtain ⟨hleading, hall⟩ := ih hlt
      rw [sentBlocks_append, hstoring.sentBlocks_eq, drop_plan_of_lt payload hlt]
      refine ⟨(List.prefix_cons_inj _).mpr hleading, ?_⟩
      intro hok
      exact congrArg (_ :: ·) (hall hok)
  | endUnsent houtside htold =>
      rw [drop_plan_of_le payload positive houtside hposition,
        sentBlocks_orderDeed_cons _ _ (by simp)]
      exact ⟨List.prefix_refl _, fun _ => rfl⟩
  | ended houtside htold hmanifesting =>
      rw [drop_plan_of_le payload positive houtside hposition,
        sentBlocks_orderDeed_cons _ _ hmanifesting.requests]
      exact ⟨List.prefix_refl _, fun _ => rfl⟩

theorem downloadPayload_sentBlocks (session : Session ω)
    (pace : Pace session.pipe session.deviations) (chunk : UInt16) (payload : ByteArray)
    (before : Moment ω) :
    ∃ deeds result after,
      (session.downloadPayload pace chunk payload).Performs before deeds result after ∧
      sentBlocks deeds <+: plan payload chunk.toNat ∧
      (sentBlocks deeds ≠ [] → 0 < chunk.toNat) ∧
      (result = .ok () → 0 < chunk.toNat ∧ sentBlocks deeds = plan payload chunk.toNat) := by
  by_cases positive : 0 < chunk.toNat
  · obtain ⟨deeds, result, after, hsending, hrun⟩ :=
      session.downloadPayload_performs pace positive payload before
    obtain ⟨hleading, hall⟩ := hsending.sentBlocks_prefix positive (Nat.zero_le _)
    have hdeeds : sentBlocks (.downloaded 0 payload.size :: deeds) = sentBlocks deeds := by
      simp [sentBlocks]
    rw [← hdeeds] at hleading hall
    exact ⟨_, result, after, hrun, hleading, fun _ => positive, fun hok => ⟨positive, hall hok⟩⟩
  · exact ⟨_, _, _, session.downloadPayload_refused pace positive payload before, List.nil_prefix,
      by simp [sentBlocks], by simp⟩

/-- Whatever the device answers, a download sends the blocks of its plan in their order up to some
point, and all of them if it succeeds.  The empty block stands at the end of the plan only. -/
theorem downloadPayload_follows_plan (session : Session ω)
    (pace : Pace session.pipe session.deviations) (chunk : UInt16) (payload : ByteArray)
    (before : Moment ω) :
    ∃ deeds result after,
      (session.downloadPayload pace chunk payload).Performs before deeds result after ∧
      sentBlocks deeds <+: plan payload chunk.toNat ∧
      (∀ position block data, (sentBlocks deeds)[position]? = some (block, data) →
        block.toNat = position % UInt16.size ∧
        data = payload.extract (position * chunk.toNat)
          (min ((position + 1) * chunk.toNat) payload.size) ∧
        (data = .empty ↔ position = blockCount payload.size chunk.toNat)) ∧
      (result = .ok () → sentBlocks deeds = plan payload chunk.toNat ∧
        (sentBlocks deeds).flatMap (·.2.data.toList) = payload.data.toList) := by
  obtain ⟨deeds, result, after, hrun, hleading, hsent, hall⟩ :=
    session.downloadPayload_sentBlocks pace chunk payload before
  refine ⟨deeds, result, after, hrun, hleading, ?_, ?_⟩
  · intro position block data hblock
    obtain ⟨hlength, -⟩ := List.getElem?_eq_some_iff.mp hblock
    have positive := hsent (List.ne_nil_of_length_pos (Nat.zero_lt_of_lt hlength))
    have hplanned : (plan payload chunk.toNat)[position]? = some (block, data) := by
      obtain ⟨rest, hrest⟩ := hleading
      rw [← hrest, List.getElem?_append_left hlength, hblock]
    obtain ⟨heq, hempty⟩ := getElem?_plan positive hplanned
    obtain ⟨rfl, rfl⟩ := Prod.mk.inj heq
    exact ⟨UInt16.toNat_ofNat', planned_data payload chunk.toNat position, hempty⟩
  · intro hok
    obtain ⟨positive, hsentAll⟩ := hall hok
    rw [hsentAll]
    exact ⟨rfl, flatMap_plan payload positive⟩

example :
    sentBlocks ((Script.session.downloadPayload (Script.pace _) 4 ⟨#[1, 2, 3, 4, 5, 6]⟩).run
      (.reporting [(0, 5), (0, 4), (0, 5), (0, 2)])).2.deeds =
        [(0, ⟨#[1, 2, 3, 4]⟩), (1, ⟨#[5, 6]⟩), (2, .empty)] := by
  cbv

end Session

end FirmwareUpgrade
