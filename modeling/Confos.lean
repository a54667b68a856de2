import Confos.Library.ByteStrings
import Confos.Library.Fallible
import Confos.Library.Cells
import Confos.Library.HashChains
import Confos.Library.Codes
import Confos.Library.Registers
import Confos.Library.Machines
import Confos.Library.Effects
import Confos.Library.Text
import Confos.Library.Folds
import Confos.Igvm.X86Regs
import Confos.Igvm.Directives
import Confos.Igvm.Ovmf
import Confos.Igvm.Hob
import Confos.Igvm.Builder
import Confos.Igvm.Measure
import Confos.Igvm.Batching
import Confos.Igvm.Build
import Confos.Igvm.Contexts
import Confos.Igvm.ContextsFirst
import Confos.Igvm.SmpChain
import Confos.Igvm.NativePlatform
import Confos.Igvm.PageRanges
import Confos.Igvm.Placement
import Confos.Igvm.HashedMessages
import Confos.Igvm.Binding
import Confos.Igvm.LostHobs
import Confos.Tdx.Ccel
import Confos.Tdx.CcelRecords
import Confos.Tdx.CcelRoundTrip
import Confos.Tdx.Rtmr
import Confos.Tdx.Replay
import Confos.Tdx.Pe
import Confos.Tdx.Verify
import Confos.Tdx.UkiBinding
import Confos.Tdx.Workloads
import Confos.Tdx.Firmware
import Confos.Tdx.Mrtd
import Confos.Tdx.Rtmr0
import Confos.Tdx.Rtmr0Replay
import Confos.Kernel.MeasurementRegisters
import Confos.Kernel.MeasurementInvariant
import Confos.Image.Manifest
import Confos.Image.Files
import Confos.Image.RunCommand
import Confos.Image.BuildCommand
import Confos.Image.IgvmCommand
import Confos.Image.Derivation
import Confos.Image.Undisturbed
import Confos.Image.RepeatedRuns
import Confos.Image.Tags
import Confos.Image.Provenance
import Confos.Image.StagedProfiles
import Confos.Image.StagedSteps
import Confos.Image.StagedSafety
import Confos.Image.StagedRecovery
import Confos.Image.StagedCompletion
import Confos.Image.StagedBuilds
import Confos.Kernel.Version
import Confos.Kernel.Worktree
import Confos.Kernel.Command
import Confos.Kernel.Readings
import Confos.Kernel.Cache
import Confos.Kernel.TrustedAml
import Confos.Kernel.FragmentOptions
import Confos.Kernel.FragmentLines
import Confos.Kernel.FragmentRequests
import Confos.Library.Json
import Confos.Library.PythonText
import Confos.Guest.Attest
import Confos.Guest.AttestCommitment
import Confos.Image.FailedRuns
import Confos.Kernel.Labels
import Confos.Guest.StateOverlays
import Confos.Library.Patterns
import Confos.Apt.LiveMirrors
import Confos.Apt.LiveMirrorLines
import Confos.Guest.OciWorkload
import Confos.Guest.OciWorkloadLines
import Confos.Apt.HostDeps
import Confos.Apt.HostDepsCache
import Confos.Library.Ownership
import Confos.Apt.Staging
import Confos.Apt.ParallelStaging
import Confos.Apt.UndisturbedStaging
import Confos.Library.FileTrees
import Confos.Tdx.CcelPadding
import Confos.Tdx.TableWalk
import Confos.Igvm.OvmfTable
import Confos.Tdx.TableAgreement
import Confos.Igvm.RegionLists
import Confos.Tdx.LoadedSections
import Confos.Tdx.Authenticode
import Confos.Tdx.PePanics
import Confos.Tdx.AuthenticodeCoverage
import Confos.Igvm.PageCover
import Confos.Library.Ranges
import Confos.Tdx.AcceptedMemory
import Confos.Tdx.HandOffMemory
import Confos.Tdx.MeasurePanics
import Confos.Tdx.HandOffPanics
import Confos.Apt.VerifyCache
import Confos.Tdx.Esp
import Confos.Library.NewcArchives
import Confos.Tdx.EfiVariables
import Confos.Tdx.AssembledInitrd
import Confos.Library.PathTexts
import Confos.Tdx.ExtractPlatform
import Confos.Tdx.SavedPlatform
import Confos.Image.OutputDirectory
import Confos.Image.ProfileLinks
import Confos.Image.ProfileIncludes
import Confos.Image.Qemu
import Confos.Image.QemuProperties
import Confos.Apt.VouchedCache
import Confos.Tdx.DisjointAccepts
import Confos.Image.SizeReaders
import Confos.Library.BytePaths
import Confos.Image.Launch
import Confos.Apt.DebVersions
import Confos.Apt.CompareVersions
import Confos.Apt.MirrorGuard
import Confos.Apt.MirrorSelection
import Confos.Apt.MirrorRun
import Confos.Library.Replacement
import Confos.Apt.MirrorSteps
import Confos.Apt.MirrorFiles
import Confos.Apt.MirrorVouched
import Confos.Apt.MirrorOrder
import Confos.Tdx.Measurement
import Confos.Tdx.WorkloadHook
import Confos.Guest.AttestServer
import Confos.Guest.Initrd
import Confos.Guest.BoundLaunch
import Confos.Kernel.GpuModules
import Confos.Image.LaunchLine
import Confos.Image.BuildOverlay
import Confos.Library.LastWrites
import Confos.Image.OverlaySafety
