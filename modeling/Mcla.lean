import Mcla.Diagnostics.ExportPrivacy
import Mcla.Diagnostics.Frames
import Mcla.Diagnostics.ImageProtocol
import Mcla.Diagnostics.PackageReport
import Mcla.Diagnostics.Sanitize
import Mcla.Diagnostics.SnapshotWorker
import Mcla.Diagnostics.WheelJson
import Mcla.Fixture.ContentQueue
import Mcla.Fixture.Sequence
import Mcla.Host.CpuReader
import Mcla.Host.Crc32
import Mcla.Host.HoldCombo
import Mcla.Host.LinePacers
import Mcla.Host.MenuState
import Mcla.Host.OverrideSemantics
import Mcla.Host.PadActivity
import Mcla.Host.PhotoCapture
import Mcla.Host.RawTimer
import Mcla.Host.StartLatch
import Mcla.Host.WarpWatchdog
import Mcla.Host.XmaIntervals
import Mcla.Launcher.Inventories
import Mcla.Launcher.OwnerAdmission
import Mcla.Launcher.PreferenceStore
import Mcla.Launcher.RootForms
import Mcla.Lease.LeaseRuns
import Mcla.Observers.ErrorAtomicity
import Mcla.Observers.FrameContext
import Mcla.Observers.SwapEmission
import Mcla.Observers.TimerAgreement
import Mcla.Observers.VectorStoreReplay
import Mcla.Observers.WorkHistories
import Mcla.Observers.WorkerHandoff
import Mcla.OwnerReady.Handshake
import Mcla.Portable.GpuConfigForms
import Mcla.Portable.SessionManifest
import Mcla.Portable.SnapshotSafety
import Mcla.Refcount.Counting
import Mcla.Refcount.Refinement
import Mcla.Refcount.Termination
import Mcla.Semaphore.Helpers
import Mcla.Semaphore.JournalHistory
import Mcla.Semaphore.RecordedCredits
import Mcla.ShaderStore.Seeding
import Mcla.SourceScout.Windows
