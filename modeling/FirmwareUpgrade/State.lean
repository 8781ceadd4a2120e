/-!
# Device states

The state byte of a status reply.  The standard defines eleven states; any other byte is kept as
it is, so that no information about the device is lost: `code_ofCode`.
-/

namespace FirmwareUpgrade

/-- The state a device reports (`bState`). -/
inductive State where
  | appIdle
  | appDetach
  | dfuIdle
  | dfuDownloadSync
  | dfuDownloadBusy
  | dfuDownloadIdle
  | dfuManifestSync
  | dfuManifest
  | dfuManifestWaitReset
  | dfuUploadIdle
  | dfuError
  | unknown (code : UInt8)
deriving DecidableEq, Repr, Inhabited

namespace State

def code : State → UInt8
  | appIdle => 0
  | appDetach => 1
  | dfuIdle => 2
  | dfuDownloadSync => 3
  | dfuDownloadBusy => 4
  | dfuDownloadIdle => 5
  | dfuManifestSync => 6
  | dfuManifest => 7
  | dfuManifestWaitReset => 8
  | dfuUploadIdle => 9
  | dfuError => 10
  | unknown code => code

def ofCode (code : UInt8) : State :=
  match code with
  | 0 => appIdle
  | 1 => appDetach
  | 2 => dfuIdle
  | 3 => dfuDownloadSync
  | 4 => dfuDownloadBusy
  | 5 => dfuDownloadIdle
  | 6 => dfuManifestSync
  | 7 => dfuManifest
  | 8 => dfuManifestWaitReset
  | 9 => dfuUploadIdle
  | 10 => dfuError
  | other => unknown other

@[simp]
theorem code_ofCode (byte : UInt8) : (ofCode byte).code = byte := by
  unfold ofCode
  split <;> rfl

/-- The name the standard gives to a state, if it defines the state. -/
def name? : State → Option String
  | appIdle => some "appIDLE"
  | appDetach => some "appDETACH"
  | dfuIdle => some "dfuIDLE"
  | dfuDownloadSync => some "dfuDNLOAD-SYNC"
  | dfuDownloadBusy => some "dfuDNBUSY"
  | dfuDownloadIdle => some "dfuDNLOAD-IDLE"
  | dfuManifestSync => some "dfuMANIFEST-SYNC"
  | dfuManifest => some "dfuMANIFEST"
  | dfuManifestWaitReset => some "dfuMANIFEST-WAIT-RESET"
  | dfuUploadIdle => some "dfuUPLOAD-IDLE"
  | dfuError => some "dfuERROR"
  | unknown _ => none

def text (state : State) : String :=
  state.name?.getD s!"unknown state {state.code.toNat}"

/-- Whether the device still runs its application and has not entered DFU mode. -/
def isRuntime : State → Bool
  | appIdle | appDetach => true
  | _ => false

end State

end FirmwareUpgrade
