import Confos.Igvm.Build

/-!
# The build manifest

`manifest.json` records a sealed image: its inputs and outputs by hash, the
launch measurement of every vCPU count, and the TDX registers.  The fields
that no command modelled here reads (the timestamp, the kernel's own record,
the entries of the initrd and the disk images) are left out.
-/

namespace Confos.Image.Manifest

open Confos.Library.ByteStrings
open Confos.Igvm.Directives
open Confos.Igvm.Measure
open Confos.Igvm.Build

def manifestVersion : Nat := 3

structure FileEntry where
  path : String
  sha256 : String
deriving DecidableEq, Repr

structure Measurement where
  snpLaunchDigest : String
  algorithm : String
  pageCount : Nat
  vmsaCount : UInt32
deriving DecidableEq, Repr

structure SnpVariant where
  smp : UInt32
  igvm : FileEntry
  measurement : Measurement
deriving DecidableEq, Repr

structure TdxMeasurement where
  mrtd : String
  rtmr1 : String
  rtmr2 : String
  firmware : Option FileEntry := none
deriving DecidableEq, Repr

/-- `BuildConfig` of the manifest: how the image was built. -/
structure ManifestConfig where
  memory : String
  format : String
  platform : String
deriving DecidableEq, Repr

structure ManifestInputs where
  firmware : Option FileEntry := none
deriving DecidableEq, Repr

structure ManifestOutputs where
  uki : FileEntry
deriving DecidableEq, Repr

structure BuildManifest where
  version : Nat
  build : ManifestConfig
  inputs : ManifestInputs
  outputs : ManifestOutputs
  snpVariants : List SnpVariant := []
  tdx : Option TdxMeasurement := none
deriving DecidableEq, Repr

/-! ## What the commands call -/

/-- The registers `measure_uki_topology_invariant` returns. -/
structure TdxRegisters where
  mrtd : String
  rtmr1 : String
  rtmr2 : String
deriving DecidableEq, Repr

/-- The hashes, the igvm crate, and the TDX pass over firmware, UKI and disk. -/
structure Tools where
  sha256 : Bytes → Block 32
  sha384 : Bytes → Digest
  igvmCrate : IgvmCrate
  measureUki : Bytes → Bytes → Bytes → Except String TdxRegisters

section

variable (tools : Tools)

/-- The hash of a file's contents as the manifest records it. -/
def fileHash (bytes : Bytes) : String :=
  hexHash tools.sha256 bytes

/-- The IGVM image of a firmware, a UKI and a vCPU count. -/
def buildSnp (firmware kernel : Bytes) (smp : UInt32) :
    Except String BuildResult :=
  (build tools.sha384 tools.igvmCrate
      { firmware
        kernel := some kernel
        platform := .snp
        bootMode := .real16
        smp }).mapError fun problem => s!"igvm build failed: {problem}"

end

def igvmName (smp : UInt32) : String :=
  s!"guest-smp{smp}.igvm"

/-- The manifest entry of a built image; `igvmHash` is the hash of its file. -/
def snpVariant (smp : UInt32) (result : BuildResult) (igvmHash : String) :
    SnpVariant :=
  { smp
    igvm := { path := igvmName smp, sha256 := igvmHash }
    measurement :=
      { snpLaunchDigest := hexEncode result.measurement.launchDigest.bytes
        algorithm := "sha384"
        pageCount := result.measurement.pageCount
        vmsaCount := result.measurement.vmsaCount } }

end Confos.Image.Manifest
