import Confos.Igvm.Builder
import Confos.Igvm.Hob
import Confos.Igvm.Measure

/-!
# Building an IGVM image

`build` turns a configuration into a serialized image and its launch digest.
Its stages are definitions of their own, in the order of the source.  What it
prints in verbose mode is left out.
-/

namespace Confos.Igvm.Build

open Confos.Library.ByteStrings
open Confos.Igvm.X86Regs
open Confos.Igvm.Directives
open Confos.Igvm.Ovmf
open Confos.Igvm.Hob
open Confos.Igvm.Builder
open Confos.Igvm.Measure

/-! ## Configurations -/

inductive Platform where
  | snp
  | native
  | snpNative
deriving DecidableEq, Repr

inductive BootMode where
  | real16
  | flat32
deriving DecidableEq, Repr

structure HobInputs where
  kernel : Option Bytes := none
  shim : Option Bytes := none
  pk : Option Bytes := none
  kek : Option Bytes := none
  db : Option Bytes := none
  dbx : Option Bytes := none
deriving DecidableEq, Repr

structure BuildConfig extends HobInputs where
  firmware : Bytes
  vars : Option Bytes := none
  platform : Platform
  bootMode : BootMode
  smp : UInt32
deriving DecidableEq, Repr

structure BuildResult where
  igvmBytes : Bytes
  measurement : MeasureResult
deriving DecidableEq

/-! ## The blobs -/

def HobInputs.hasData (inputs : HobInputs) : Bool :=
  inputs.kernel.isSome || inputs.shim.isSome || inputs.pk.isSome ||
    inputs.kek.isSome || inputs.db.isSome || inputs.dbx.isSome

/-- Where the first blob is placed: 512 MB. -/
def hobListBase : Nat := 0x20000000

def addBlob
    (blob : Option Bytes) (dataType : IgvmDataType) (measured : Bool)
    (list : IgvmDataList) : IgvmDataList :=
  match blob with
  | some blob => list.add blob dataType measured
  | none => list

/-- The list of the supplied blobs, the shim unmeasured. -/
def hobList (inputs : HobInputs) : IgvmDataList :=
  addBlob inputs.kernel .kernel true
    (addBlob inputs.shim .shim false
      (addBlob inputs.dbx .dbx true
        (addBlob inputs.db .db true
          (addBlob inputs.kek .kek true
            (addBlob inputs.pk .pk true { base := hobListBase })))))

/-- Replace the pages of a range by those of a blob. -/
def placeBlob
    (flags : IgvmPageDataFlags) (builder : IgvmBuilder)
    (placed : Nat × Bytes) : IgvmBuilder :=
  (builder.removePageDataInRange placed.1 placed.2.length).addDataPagesFlags
    placed.1 placed.2 flags

/-- The list into its area, then the measured blobs, then the unmeasured ones. -/
def placeHobs (builder : IgvmBuilder) (hobArea : OvmfRegion)
    (list : IgvmDataList) : IgvmBuilder :=
  let withHobs :=
    (builder.removePageDataInRange hobArea.base hobArea.size).addDataPages
      hobArea.base list.hobs
  let withMeasured :=
    (list.blobs true).foldl (placeBlob {}) withHobs
  (list.blobs false).foldl (placeBlob { unmeasured := true }) withMeasured

def findHobArea (ovmfMeta : Option OvmfMeta) : Option OvmfRegion :=
  ovmfMeta.bind fun ovmfMeta =>
    ovmfMeta.regions.find? (·.etype = .igvmHobArea)

def addHobData
    (builder : IgvmBuilder) (ovmfMeta : Option OvmfMeta)
    (inputs : HobInputs) : Except String IgvmBuilder :=
  if !inputs.hasData then
    .ok builder
  else
    match findHobArea ovmfMeta with
    | none =>
        .error "OVMF firmware has no IgvmHobArea region (needed for kernel/shim/cert injection)"
    | some hobArea => .ok (placeHobs builder hobArea (hobList inputs))

/-! ## The stages -/

def Platform.useSnp : Platform → Bool
  | .snp | .snpNative => true
  | .native => false

def Platform.useNative : Platform → Bool
  | .native | .snpNative => true
  | .snp => false

def addNative (config : BuildConfig) (builder : IgvmBuilder) : IgvmBuilder :=
  if config.platform.useNative then
    let builder := builder.addNativePlatform
    match config.bootMode with
    | .flat32 => builder.addNativeContext (flat32ModeRegs none)
    | .real16 => builder
  else
    builder

def bspRegs : BootMode → List X86Register
  | .flat32 => flat32ModeRegs none
  | .real16 => realModeRegsAt 0xFFFFFFF0

/-- One application processor. -/
def addApContext (apRegs : List X86Register) (builder : IgvmBuilder) (vp : Nat) :
    Except String IgvmBuilder :=
  if vp < 2 ^ 16 then
    .ok (builder.addSnpVmsaContext apRegs false (UInt16.ofNat vp))
  else
    .error "vCPU index exceeds u16 range"

def addApContexts
    (config : BuildConfig) (ovmfMeta : Option OvmfMeta)
    (builder : IgvmBuilder) : Except String IgvmBuilder :=
  if config.smp.toNat ≤ 1 then
    .ok builder
  else
    match ovmfMeta.bind (·.sevResetAddr) with
    | none =>
        .error "OVMF firmware does not contain SEV-ES reset address (needed for --smp > 1)"
    | some apResetAddr =>
        (List.range' 1 (config.smp.toNat - 1)).foldlM
          (addApContext (realModeRegsAt apResetAddr)) builder

def addSnp
    (config : BuildConfig) (ovmfMeta : Option OvmfMeta)
    (builder : IgvmBuilder) : Except String IgvmBuilder :=
  if config.platform.useSnp then do
    let builder :=
      builder.addSnpPlatform.addSnpVmsaContext (bspRegs config.bootMode)
        false 0
    let builder ← addApContexts config ovmfMeta builder
    let builder :=
      match ovmfMeta with
      | some ovmfMeta => builder.addOvmfSnpPages ovmfMeta
      | none => builder
    return builder.addSnpPolicy none
  else
    .ok builder

/-- The parameters, the firmware and the variable store. -/
def addFirmware
    (config : BuildConfig) (ovmfMeta : Option OvmfMeta)
    (builder : IgvmBuilder) : IgvmBuilder :=
  let builder :=
    match ovmfMeta with
    | some ovmfMeta => builder.addOvmfIgvmParams ovmfMeta
    | none => builder
  let builder :=
    match config.bootMode with
    | .real16 => builder.addFirmware1m config.firmware
    | .flat32 => builder
  let builder := builder.addFirmware4g config.firmware
  match config.vars with
  | some vars => builder.addUefivars vars config.firmware.length
  | none => builder

/-- The builder as it is finalized. -/
def buildDirectives (config : BuildConfig) : Except String IgvmBuilder := do
  let ovmfMeta := OvmfMeta.new config.firmware
  let builder ← addSnp config ovmfMeta (addNative config {})
  addHobData (addFirmware config ovmfMeta builder) ovmfMeta config.toHobInputs

section

variable (sha384 : Bytes → Digest) (igvmCrate : IgvmCrate)

def build (config : BuildConfig) : Except String BuildResult := do
  let builder ← buildDirectives config
  let igvm ←
    (builder.finalize igvmCrate).mapError fun problem =>
      s!"finalize igvm: {problem}"
  let measurement ← measureSnp sha384 igvmCrate igvm
  let igvmBytes ←
    (igvmCrate.serialize igvm).mapError fun problem =>
      s!"serialize igvm: {problem}"
  return { igvmBytes, measurement }

end

end Confos.Igvm.Build
