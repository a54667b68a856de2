import Confos.Igvm.Directives
import Confos.Library.HashChains
import Mathlib.Data.List.Basic

/-!
# The SNP launch digest

`measureSnp` walks the directives of an IGVM file the way QEMU and KVM do:
page data is held back in a batch, a parameter insert is measured at once, and
the VMSA pages come last.  Lines the source prints in verbose mode are left
out.  The state of the walk keeps the source's variables under their names.
-/

namespace Confos.Igvm.Measure

open Confos.Library.ByteStrings
open Confos.Library.HashChains
open Confos.Igvm.Directives

/-! ## Constants and results -/

def snpPageTypeNormal : UInt8 := 0x01
def snpPageTypeVmsa : UInt8 := 0x02
def snpPageTypeUnmeasured : UInt8 := 0x04
def snpPageTypeSecrets : UInt8 := 0x05
def snpPageTypeCpuid : UInt8 := 0x06

def pageSize : Nat := 4096
def vmsaGpa : UInt64 := 0xFFFFFFFFF000

/-- A SHA-384 digest. -/
abbrev Digest := Block 48

structure MeasureResult where
  launchDigest : Digest
  pageCount : Nat
  vmsaCount : UInt32
deriving DecidableEq

/-! ## PAGE_INFO -/

/-- One page as the digest sees it. -/
@[ext]
structure PendingPage where
  gpa : UInt64
  pageType : UInt8
  contents : Digest
deriving DecidableEq

/-- The `0x70` bytes of PAGE_INFO; the fields the source leaves alone are zero. -/
def pageInfo
    (digestCur contents : Digest) (pageType : UInt8) (gpa : UInt64) : Bytes :=
  digestCur.bytes ++
    (contents.bytes ++
      (leBytes 2 0x70 ++
        (pageType :: (List.replicate 5 0 ++ leBytes 8 gpa.toNat))))

section

variable (sha384 : Bytes → Digest)

def updatePageInfo
    (digestCur contents : Digest) (pageType : UInt8) (gpa : UInt64) :
    Digest :=
  sha384 (pageInfo digestCur contents pageType gpa)

/-- The message one page adds to the running digest. -/
def pageMessage (digestCur : Digest) (page : PendingPage) : Bytes :=
  pageInfo digestCur page.contents page.pageType page.gpa

/-- The plain fold of `updatePageInfo` over a page sequence. -/
def foldPages (ld : Digest) (measured : List PendingPage) : Digest :=
  measured.foldl (fun ld page =>
    updatePageInfo sha384 ld page.contents page.pageType page.gpa) ld

@[simp]
theorem foldPages_nil (ld : Digest) : foldPages sha384 ld [] = ld :=
  rfl

theorem foldPages_append
    (ld : Digest) (first second : List PendingPage) :
    foldPages sha384 ld (first ++ second) =
      foldPages sha384 (foldPages sha384 ld first) second := by
  simp [foldPages]

/-! ## Pages of one directive -/

/-- The SNP page type, the contents hash and the has-data flag of page data. -/
def classifyPageData
    (dataType : IgvmPageDataType) (flags : IgvmPageDataFlags)
    (data : Bytes) : UInt8 × Digest × Bool :=
  match dataType with
  | .secrets => (snpPageTypeSecrets, Block.zero 48, false)
  | .cpuidData | .cpuidXf => (snpPageTypeCpuid, Block.zero 48, false)
  | .normal | .other _ =>
      if flags.unmeasured then
        (snpPageTypeUnmeasured, Block.zero 48, false)
      else
        (snpPageTypeNormal, sha384 (padTo pageSize data), !data.isEmpty)

/-- `apply_kvm_vmsa_overrides`: CR4 and RFLAGS as KVM sets them. -/
def applyKvmVmsaOverrides (vmsa : Bytes) : Bytes :=
  (vmsa.set 0x148 0x40).set 0x170 0x02

/-- The page measured for one VMSA. -/
def vmsaPage (vmsaBytes : Bytes) : Bytes :=
  applyKvmVmsaOverrides (padTo pageSize vmsaBytes)

/-- The unmeasured pages of a parameter area inserted at `gpa`. -/
def insertPages (gpa areaSize : UInt64) : List PendingPage :=
  (List.range (pageCount pageSize areaSize.toNat)).map fun page =>
    { gpa := gpa + UInt64.ofNat (page * pageSize)
      pageType := snpPageTypeUnmeasured
      contents := Block.zero 48 }

/-! ## The walk -/

def findSnpCompat (igvm : IgvmFile) : Except String UInt32 :=
  match igvm.platforms.find? fun platform =>
      platform.platformType = .sevSnp with
  | some platform => .ok platform.compatibilityMask
  | none => .error "No SEV_SNP platform found in IGVM file"

/-- The parameter areas by index; a later directive replaces an earlier one. -/
def collectParamAreas
    (directives : List IgvmDirectiveHeader) : List (UInt32 × UInt64) :=
  directives.foldl (fun areas directive =>
    match directive with
    | .parameterArea numberOfBytes parameterAreaIndex _ =>
        (parameterAreaIndex, numberOfBytes) :: areas
    | _ => areas) []

/-- The variables of the loop in `measure_snp`. -/
structure MeasureState where
  ld : Digest := Block.zero 48
  pageCount : Nat := 0
  vmsaPages : List (UInt64 × Bytes) := []
  pendingBatch : List PendingPage := []
  prevPageGpa : Option UInt64 := none
  prevPageType : Option UInt8 := none
  prevPageHasData : Option Bool := none
  lastPageDirectiveIdx : Option Nat := none

def flushBatch (state : MeasureState) : MeasureState :=
  { state with
    ld := foldPages sha384 state.ld state.pendingBatch
    pageCount := state.pageCount + state.pendingBatch.length
    pendingBatch := [] }

/-- Whether a page breaks the current batch. -/
def shouldFlush
    (state : MeasureState) (dirIdx : Nat) (gpa : UInt64)
    (pageType : UInt8) (hasData : Bool) : Bool :=
  match state.prevPageGpa, state.prevPageType, state.prevPageHasData,
      state.lastPageDirectiveIdx with
  | some prevGpa, some prevType, some prevHas, some lastIdx =>
      pageType != prevType || hasData != prevHas ||
        gpa != prevGpa + UInt64.ofNat pageSize || dirIdx != lastIdx + 1
  | _, _, _, _ => false

/-- Queue one compatible page, flushing the batch it breaks. -/
def pushPage
    (state : MeasureState) (dirIdx : Nat) (page : PendingPage)
    (hasData : Bool) : MeasureState :=
  let flushed :=
    if shouldFlush state dirIdx page.gpa page.pageType hasData &&
        !state.pendingBatch.isEmpty then
      flushBatch sha384 state
    else
      state
  { flushed with
    pendingBatch := flushed.pendingBatch ++ [page]
    prevPageGpa := some page.gpa
    prevPageType := some page.pageType
    prevPageHasData := some hasData
    lastPageDirectiveIdx := some dirIdx }

/-- Measure the pages of an insert at once; the batch stays pending. -/
def measureInsert
    (state : MeasureState) (inserted : List PendingPage) : MeasureState :=
  { state with
    ld := foldPages sha384 state.ld inserted
    pageCount := state.pageCount + inserted.length }

variable (igvmCrate : IgvmCrate)

/-- One iteration of the loop in `measure_snp`. -/
def measureDirective
    (snpCompat : UInt32) (paramAreas : List (UInt32 × UInt64))
    (state : MeasureState) (indexed : IgvmDirectiveHeader × Nat) :
    Except String MeasureState :=
  match indexed.1 with
  | .pageData gpa compatibilityMask flags dataType data =>
      if compatibilityMask &&& snpCompat = 0 then
        .ok state
      else
        let (pageType, contents, hasData) :=
          classifyPageData sha384 dataType flags data
        .ok (pushPage sha384 state indexed.2
          { gpa, pageType, contents } hasData)
  | .snpVpContext gpa compatibilityMask _ vmsa =>
      if compatibilityMask &&& snpCompat = 0 then
        .ok state
      else
        .ok { state with
          vmsaPages :=
            state.vmsaPages ++ [(gpa, vmsaPage (igvmCrate.vmsaAsBytes vmsa))] }
  | .parameterInsert parameterAreaIndex gpa compatibilityMask =>
      if compatibilityMask &&& snpCompat = 0 then
        .ok state
      else
        match paramAreas.lookup parameterAreaIndex with
        | some areaSize =>
            .ok (measureInsert sha384 state (insertPages gpa areaSize))
        | none =>
            .error s!"ParameterInsert references unknown area {parameterAreaIndex}"
  | _ => .ok state

/-- The measured form of a collected VMSA page. -/
def vmsaPending (vmsa : UInt64 × Bytes) : PendingPage :=
  { gpa := vmsaGpa
    pageType := snpPageTypeVmsa
    contents := sha384 vmsa.2 }

def measureVmsaPages (state : MeasureState) : MeasureState :=
  { state with
    ld := foldPages sha384 state.ld (state.vmsaPages.map (vmsaPending sha384))
    pageCount := state.pageCount + state.vmsaPages.length }

/-- Compute the SNP launch digest of an IGVM file. -/
def measureSnp (igvm : IgvmFile) : Except String MeasureResult := do
  let snpCompat ← findSnpCompat igvm
  let paramAreas := collectParamAreas igvm.directives
  let walked ← igvm.directives.zipIdx.foldlM
    (measureDirective sha384 igvmCrate snpCompat paramAreas) {}
  let flushed :=
    if walked.pendingBatch.isEmpty then walked else flushBatch sha384 walked
  let measured := measureVmsaPages sha384 flushed
  return {
    launchDigest := measured.ld
    pageCount := measured.pageCount
    vmsaCount := UInt32.ofNat measured.vmsaPages.length }

end

end Confos.Igvm.Measure
