import FirmwareUpgrade.Bench
import FirmwareUpgrade.Job
import FirmwareUpgrade.Main
import FirmwareUpgrade.Proofs.ConfirmedBlocks
import FirmwareUpgrade.Proofs.CompletedDownload
import FirmwareUpgrade.Proofs.PollTimes
import FirmwareUpgrade.Proofs.ReadyDevice
import FirmwareUpgrade.Proofs.RecoveryCourse
import FirmwareUpgrade.Proofs.MeantDevice
import FirmwareUpgrade.Proofs.PatientDownload
import FirmwareUpgrade.Proofs.ShortWrites
import FirmwareUpgrade.Proofs.UploadRequests
import FirmwareUpgrade.Proofs.FaithfulUpload
import FirmwareUpgrade.Proofs.DamagedFiles
import FirmwareUpgrade.Proofs.BoundedPolling
import FirmwareUpgrade.Proofs.Agreement
import FirmwareUpgrade.Proofs.MirroredSessions
import FirmwareUpgrade.Proofs.MirroredTransfers
import FirmwareUpgrade.Proofs.BusRefinement
import FirmwareUpgrade.Proofs.UnusedBytes
import FirmwareUpgrade.Proofs.SessionDeeds
import FirmwareUpgrade.Proofs.FlashReports
import FirmwareUpgrade.Proofs.RequestSets
import FirmwareUpgrade.Proofs.FoundInterfaces
import FirmwareUpgrade.Proofs.TransferSizes
import FirmwareUpgrade.Proofs.SavedUploads
import FirmwareUpgrade.Proofs.ExitCodes
import FirmwareUpgrade.Proofs.ManifestationVerdict
import FirmwareUpgrade.Proofs.CompleteDiscovery
import FirmwareUpgrade.Proofs.DescriptorSources
import FirmwareUpgrade.Proofs.UploadBound
import FirmwareUpgrade.Proofs.UploadTermination
import FirmwareUpgrade.Proofs.ProgressBars
import FirmwareUpgrade.Proofs.AdoptedIdentifiers
import FirmwareUpgrade.Proofs.BusPaths
import FirmwareUpgrade.Proofs.DescriptorBounds
import FirmwareUpgrade.Proofs.StatusBytes
