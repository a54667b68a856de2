import Confos.Igvm.Directives
import Confos.Igvm.Ovmf
import Mathlib.Data.List.Sort

/-!
# The IGVM builder

The builder collects headers and directives; `finalize` sorts the directives by
the address of their page and hands everything to the igvm crate.  Addresses
are `usize` in the source and natural numbers here: a page address wraps where
it becomes a `u64`, and a subtraction below zero wraps as the release build
does.  Operations add to the end of the directives, except the one that
removes the pages of a range.
-/

namespace Confos.Igvm.Builder

open Confos.Library.ByteStrings
open Confos.Igvm.X86Regs
open Confos.Igvm.Directives
open Confos.Igvm.Ovmf

def nativeCompat : UInt32 := 1
def sevSnpCompat : UInt32 := 2
def psize : Nat := 4096

theorem psize_pos : 0 < psize := by decide

/-- `usize` subtraction, as the release build wraps it. -/
def usizeSub (left right : Nat) : Nat :=
  (2 ^ 64 + left - right) % 2 ^ 64

structure IgvmBuilder where
  platforms : List IgvmPlatformHeader := []
  initializations : List IgvmInitializationHeader := []
  directives : List IgvmDirectiveHeader := []
  compatibilityMaskAll : UInt32 := 0
deriving DecidableEq, Repr

namespace IgvmBuilder

variable (builder : IgvmBuilder)

/-- Add directives at the end. -/
def push (directives : List IgvmDirectiveHeader) : IgvmBuilder :=
  { builder with directives := builder.directives ++ directives }

@[simp]
theorem push_directives (directives : List IgvmDirectiveHeader) :
    (builder.push directives).directives =
      builder.directives ++ directives :=
  rfl

@[simp]
theorem push_compatibilityMaskAll (directives : List IgvmDirectiveHeader) :
    (builder.push directives).compatibilityMaskAll =
      builder.compatibilityMaskAll :=
  rfl

@[simp]
theorem push_platforms (directives : List IgvmDirectiveHeader) :
    (builder.push directives).platforms = builder.platforms :=
  rfl

@[simp]
theorem push_initializations (directives : List IgvmDirectiveHeader) :
    (builder.push directives).initializations = builder.initializations :=
  rfl

/-! ## Platforms and processors -/

def addNativePlatform : IgvmBuilder :=
  { builder with
    compatibilityMaskAll := builder.compatibilityMaskAll ||| nativeCompat
    platforms :=
      builder.platforms ++
        [{ compatibilityMask := nativeCompat, highestVtl := 2,
           platformType := .native, platformVersion := 1,
           sharedGpaBoundary := 0 }] }

def addSnpPlatform : IgvmBuilder :=
  { builder with
    compatibilityMaskAll := builder.compatibilityMaskAll ||| sevSnpCompat
    platforms :=
      builder.platforms ++
        [{ compatibilityMask := sevSnpCompat, highestVtl := 2,
           platformType := .sevSnp, platformVersion := 1,
           sharedGpaBoundary := 0 }] }

def addNativeContext (regs : List X86Register) : IgvmBuilder :=
  builder.push [.x64NativeVpContext nativeCompat 0 (nativeContext regs)]

/-- One processor; the address of a VMSA is the same for every processor. -/
def snpVmsaContext (regs : List X86Register) (debug : Bool) (vpIndex : UInt16) :
    IgvmDirectiveHeader :=
  .snpVpContext 0xFFFFFFFFF000 sevSnpCompat vpIndex
    (vmsaContext regs { snp := true, debugSwap := debug })

def addSnpVmsaContext
    (regs : List X86Register) (debug : Bool) (vpIndex : UInt16) :
    IgvmBuilder :=
  builder.push [snpVmsaContext regs debug vpIndex]

/-- The default policy has the reserved bit and the SMT bit. -/
def addSnpPolicy (snpPolicy : Option UInt64) : IgvmBuilder :=
  { builder with
    initializations :=
      builder.initializations ++
        [{ policy := snpPolicy.getD 0x30000,
           compatibilityMask := sevSnpCompat }] }

/-! ## Pages -/

/-- The directive of one page. -/
def page
    (base index : Nat) (mask : UInt32) (flags : IgvmPageDataFlags)
    (dataType : IgvmPageDataType) (data : Bytes) : IgvmDirectiveHeader :=
  .pageData (UInt64.ofNat (base + index * psize)) mask flags dataType data

def emptyPages
    (base size : Nat) (mask : UInt32) (dataType : IgvmPageDataType) :
    List IgvmDirectiveHeader :=
  (List.range (pageCount psize size)).map fun index =>
    page base index mask {} dataType []

def addEmptyPages
    (base size : Nat) (mask : UInt32) (dataType : IgvmPageDataType) :
    IgvmBuilder :=
  builder.push (emptyPages base size mask dataType)

/-- The page type of a region that becomes pages. -/
def snpPageDataType : OvmfRegionType → Option IgvmPageDataType
  | .sevMemory | .sevSvsmCca | .sevHashes => some .normal
  | .sevSecrets => some .secrets
  | .sevCpuid => some .cpuidData
  | _ => none

/-- Whether an address lies in a parameter area, which gets no pages. -/
def inParamArea (ovmfMeta : OvmfMeta) (gpa : Nat) : Bool :=
  ovmfMeta.regions.any fun region =>
    region.etype = .igvmParamArea && region.base ≤ gpa &&
      gpa < region.base + region.size

def snpRegionPages (ovmfMeta : OvmfMeta) (region : OvmfRegion) :
    List IgvmDirectiveHeader :=
  match snpPageDataType region.etype with
  | none => []
  | some dataType =>
      (List.range (pageCount psize region.size)).flatMap fun index =>
        let gpa := region.base + index * psize
        if inParamArea ovmfMeta gpa then []
        else emptyPages gpa psize sevSnpCompat dataType

def addOvmfSnpPages (ovmfMeta : OvmfMeta) : IgvmBuilder :=
  builder.push (ovmfMeta.regions.flatMap (snpRegionPages ovmfMeta))

/-- The parameter directives of the first parameter area. -/
def igvmParams (ovmfMeta : OvmfMeta) (mask : UInt32) :
    List IgvmDirectiveHeader :=
  match ovmfMeta.regions.find? (·.etype = .igvmParamArea) with
  | none => []
  | some area =>
      [.parameterArea (UInt64.ofNat area.size) 0 []] ++
        ovmfMeta.regions.filterMap (fun region =>
          match region.etype with
          | .igvmParamMemoryMap =>
              some (.memoryMap 0 (UInt32.ofNat region.base))
          | .igvmParamVpCount =>
              some (.vpCount 0 (UInt32.ofNat region.base))
          | _ => none) ++
        [.parameterInsert 0 (UInt64.ofNat area.base) mask]

def addOvmfIgvmParams (ovmfMeta : OvmfMeta) : IgvmBuilder :=
  builder.push (igvmParams ovmfMeta builder.compatibilityMaskAll)

/-- The pages of some data, the last one short. -/
def dataPages
    (base : Nat) (data : Bytes) (mask : UInt32) (flags : IgvmPageDataFlags) :
    List IgvmDirectiveHeader :=
  (List.range (pageCount psize data.length)).map fun index =>
    page base index mask flags .normal (slice data (index * psize) psize)

def addDataPagesFlags
    (base : Nat) (data : Bytes) (flags : IgvmPageDataFlags) : IgvmBuilder :=
  builder.push (dataPages base data builder.compatibilityMaskAll flags)

def addDataPages (base : Nat) (data : Bytes) : IgvmBuilder :=
  builder.addDataPagesFlags base data {}

def addDataPagesUnmeasured (base : Nat) (data : Bytes) : IgvmBuilder :=
  builder.addDataPagesFlags base data { unmeasured := true }

/-- Whether a directive is a page in the range, which is never under a page long. -/
def isPageInRange (base size : Nat) : IgvmDirectiveHeader → Bool
  | .pageData gpa _ _ _ _ =>
      base ≤ gpa.toNat && gpa.toNat < base + max size psize
  | _ => false

def removePageDataInRange (base size : Nat) : IgvmBuilder :=
  { builder with
    directives :=
      builder.directives.filter fun directive =>
        !isPageInRange base size directive }

/-! ## Firmware -/

def fwBase (firmware : Bytes) : Nat :=
  usizeSub (2 ^ 32) firmware.length

def addFirmware4g (firmware : Bytes) : IgvmBuilder :=
  builder.addDataPages (fwBase firmware) firmware

def lowSize (firmware : Bytes) : Nat :=
  min (128 * 1024) firmware.length

def addFirmware1m (firmware : Bytes) : IgvmBuilder :=
  builder.addDataPages (2 ^ 20 - lowSize firmware)
    (firmware.drop (firmware.length - lowSize firmware))

def varsBase (uefivars : Bytes) (fwsize : Nat) : Nat :=
  usizeSub (usizeSub (2 ^ 32) uefivars.length) fwsize

def addUefivars (uefivars : Bytes) (fwsize : Nat) : IgvmBuilder :=
  builder.addDataPages (varsBase uefivars fwsize) uefivars

/-! ## Finalization -/

/-- The sort key: the page address, and zero for every other directive. -/
def sortKey : IgvmDirectiveHeader → Nat
  | .pageData gpa _ _ _ _ => gpa.toNat
  | _ => 0

/-- The stable sort of `sort_pages`. -/
def sortPages (directives : List IgvmDirectiveHeader) :
    List IgvmDirectiveHeader :=
  directives.insertionSort fun left right => sortKey left ≤ sortKey right

def finalize (igvmCrate : IgvmCrate) : Except String IgvmFile :=
  igvmCrate.newFile builder.platforms builder.initializations
    (sortPages builder.directives)

end IgvmBuilder

end Confos.Igvm.Builder
