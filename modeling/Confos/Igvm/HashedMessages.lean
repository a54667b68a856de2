import Confos.Igvm.ContextsFirst

/-!
# What a measurement hashes

The walk is run once more with a record of the pages it has measured.  The
launch digest is the hash chain over that record, so two files with one digest
have one record unless the hash collides, and with it the same measured
contents at the same addresses.
-/

namespace Confos.Igvm.HashedMessages

open Confos.Library.ByteStrings
open Confos.Library.Fallible
open Confos.Library.HashChains
open Confos.Igvm.Directives
open Confos.Igvm.Measure
open Confos.Igvm.ContextsFirst

section

variable (sha384 : Bytes → Digest) (igvmCrate : IgvmCrate)
variable (snpCompat : UInt32) (paramAreas : List (UInt32 × UInt64))

/-! ## The record -/

/-- The pages that one iteration adds to the digest. -/
def measuredNow
    (state : MeasureState) (indexed : IgvmDirectiveHeader × Nat) :
    List PendingPage :=
  match indexed.1 with
  | .pageData gpa compatibilityMask flags dataType data =>
      if compatibilityMask &&& snpCompat = 0 then
        []
      else
        let (pageType, _, hasData) :=
          classifyPageData sha384 dataType flags data
        if shouldFlush state indexed.2 gpa pageType hasData then
          state.pendingBatch
        else
          []
  | .parameterInsert parameterAreaIndex gpa compatibilityMask =>
      if compatibilityMask &&& snpCompat = 0 then
        []
      else
        insertPages gpa ((paramAreas.lookup parameterAreaIndex).getD 0)
  | _ => []

/-- One iteration with the pages measured so far. -/
def recordDirective
    (recorded : List PendingPage × MeasureState)
    (indexed : IgvmDirectiveHeader × Nat) :
    Except String (List PendingPage × MeasureState) :=
  (measureDirective sha384 igvmCrate snpCompat paramAreas recorded.2
    indexed).map fun after =>
      (recorded.1 ++ measuredNow sha384 snpCompat paramAreas recorded.2 indexed,
        after)

def recordedWalk (directives : List IgvmDirectiveHeader) :
    Except String (List PendingPage × MeasureState) :=
  directives.zipIdx.foldlM
    (recordDirective sha384 igvmCrate snpCompat paramAreas) ([], {})

/-- All pages in the order in which they are measured. -/
def measuredOrder (directives : List IgvmDirectiveHeader) : List PendingPage :=
  match
    recordedWalk sha384 igvmCrate snpCompat (collectParamAreas directives)
      directives with
  | .ok (measured, walked) =>
      measured ++ walked.pendingBatch ++
        walked.vmsaPages.map (vmsaPending sha384)
  | .error _ => []

/-- The contents that are hashed for a directive. -/
def contentMessage? : IgvmDirectiveHeader → Option Bytes
  | .pageData _ compatibilityMask flags dataType data =>
      if compatibilityMask &&& snpCompat ≠ 0 ∧
          (classifyPageData sha384 dataType flags data).1 =
            snpPageTypeNormal then
        some (padTo pageSize data)
      else
        none
  | .snpVpContext _ compatibilityMask _ vmsa =>
      if compatibilityMask &&& snpCompat = 0 then none
      else some (vmsaPage (igvmCrate.vmsaAsBytes vmsa))
  | _ => none

/-- The PAGE_INFO messages of a measurement. -/
def pageInfoMessages (directives : List IgvmDirectiveHeader) : List Bytes :=
  chainMessages sha384 pageMessage (Block.zero 48)
    (measuredOrder sha384 igvmCrate snpCompat directives)

/-- Everything that is hashed while some directives are measured. -/
def hashedMessages (directives : List IgvmDirectiveHeader) : List Bytes :=
  directives.filterMap (contentMessage? sha384 igvmCrate snpCompat) ++
    pageInfoMessages sha384 igvmCrate snpCompat directives

/-! ## The record of a walk -/

/-- The pages that a directive stands for. -/
def directivePages : IgvmDirectiveHeader → List PendingPage
  | .pageData gpa compatibilityMask flags dataType data =>
      if compatibilityMask &&& snpCompat = 0 then
        []
      else
        [{ gpa
           pageType := (classifyPageData sha384 dataType flags data).1
           contents := (classifyPageData sha384 dataType flags data).2.1 }]
  | .parameterInsert parameterAreaIndex gpa compatibilityMask =>
      if compatibilityMask &&& snpCompat = 0 then
        []
      else
        insertPages gpa ((paramAreas.lookup parameterAreaIndex).getD 0)
  | _ => []

/-- The digest covers the record, and record and batch cover the directives. -/
structure Records
    (directives : List IgvmDirectiveHeader) (measured : List PendingPage)
    (state : MeasureState) : Prop where
  ld : state.ld = foldPages sha384 (Block.zero 48) measured
  pages :
    (measured ++ state.pendingBatch).Perm
      (directives.flatMap (directivePages sha384 snpCompat paramAreas))
  vmsaPages :
    state.vmsaPages =
      directives.filterMap (contextVmsa? igvmCrate snpCompat)

variable {sha384 igvmCrate snpCompat paramAreas}

theorem Records.initial :
    Records sha384 igvmCrate snpCompat paramAreas [] [] {} where
  ld := rfl
  pages := List.Perm.nil
  vmsaPages := rfl

/-- A directive that measures nothing. -/
theorem Records.skip
    {consumed : List IgvmDirectiveHeader} {directive : IgvmDirectiveHeader}
    {measured : List PendingPage} {state : MeasureState}
    (records :
      Records sha384 igvmCrate snpCompat paramAreas consumed measured state)
    (nothing :
      measuredNow sha384 snpCompat paramAreas state
        (directive, consumed.length) = [])
    (noPages : directivePages sha384 snpCompat paramAreas directive = [])
    (noVmsa : contextVmsa? igvmCrate snpCompat directive = none) :
    Records sha384 igvmCrate snpCompat paramAreas (consumed ++ [directive])
      (measured ++
        measuredNow sha384 snpCompat paramAreas state
          (directive, consumed.length))
      state := by
  rw [nothing, List.append_nil]
  constructor
  · exact records.ld
  · rw [List.flatMap_append, List.flatMap_singleton, noPages, List.append_nil]
    exact records.pages
  · rw [List.filterMap_append, List.filterMap_cons, noVmsa,
      List.filterMap_nil, List.append_nil]
    exact records.vmsaPages

/-- A page is queued, behind the batch it breaks if it breaks one. -/
theorem pushPage_ld_batch
    (state : MeasureState) (dirIdx : Nat) (page : PendingPage)
    (hasData : Bool) :
    ∃ flushed,
      flushed =
          (if shouldFlush state dirIdx page.gpa page.pageType hasData then
            state.pendingBatch
          else
            []) ∧
        (pushPage sha384 state dirIdx page hasData).ld =
            foldPages sha384 state.ld flushed ∧
          flushed ++ (pushPage sha384 state dirIdx page hasData).pendingBatch =
              state.pendingBatch ++ [page] ∧
            (pushPage sha384 state dirIdx page hasData).vmsaPages =
              state.vmsaPages := by
  refine ⟨_, rfl, ?_⟩
  rw [pushPage]
  cases shouldFlush state dirIdx page.gpa page.pageType hasData with
  | false => exact ⟨rfl, rfl, rfl⟩
  | true =>
      rcases batch : state.pendingBatch with _ | ⟨first, batch⟩
      · simp [batch]
      · simp [batch, flushBatch]

/-- One iteration keeps the record. -/
theorem Records.step
    {consumed : List IgvmDirectiveHeader} {directive : IgvmDirectiveHeader}
    {measured : List PendingPage} {before after : MeasureState}
    (records :
      Records sha384 igvmCrate snpCompat paramAreas consumed measured before)
    (step :
      measureDirective sha384 igvmCrate snpCompat paramAreas before
        (directive, consumed.length) = .ok after) :
    Records sha384 igvmCrate snpCompat paramAreas (consumed ++ [directive])
      (measured ++
        measuredNow sha384 snpCompat paramAreas before
          (directive, consumed.length))
      after := by
  have ld := records.ld
  have pages := records.pages
  have vmsaPages := records.vmsaPages
  cases directive with
  | pageData gpa compatibilityMask flags dataType data =>
      simp only [measureDirective] at step
      split at step
      · rename_i incompatible
        cases step
        exact
          records.skip (by simp [measuredNow, incompatible])
            (by simp [directivePages, incompatible]) rfl
      · rename_i compatible
        cases step
        rcases pushPage_ld_batch before consumed.length
            { gpa
              pageType := (classifyPageData sha384 dataType flags data).1
              contents := (classifyPageData sha384 dataType flags data).2.1 }
            (classifyPageData sha384 dataType flags data).2.2 with
          ⟨flushed, isFlushed, newLd, newBatch, newVmsas⟩
        have now :
            measuredNow sha384 snpCompat paramAreas before
                (.pageData gpa compatibilityMask flags dataType data,
                  consumed.length) =
              flushed := by
          simp only [measuredNow, if_neg compatible, isFlushed]
        constructor
        · rw [now, foldPages_append, ← ld]
          exact newLd
        · rw [now, List.append_assoc, newBatch, ← List.append_assoc,
            List.flatMap_append, List.flatMap_singleton, directivePages,
            if_neg compatible]
          exact pages.append_right _
        · rw [newVmsas, vmsaPages]
          simp [contextVmsa?, List.filterMap_cons]
  | snpVpContext gpa compatibilityMask vpIndex vmsa =>
      simp only [measureDirective] at step
      split at step
      · rename_i incompatible
        cases step
        exact records.skip rfl rfl (by simp [contextVmsa?, incompatible])
      · rename_i compatible
        cases step
        constructor
        · simpa [measuredNow] using ld
        · simpa [measuredNow, directivePages] using pages
        · simp [contextVmsa?, compatible, vmsaPages]
  | parameterInsert parameterAreaIndex gpa compatibilityMask =>
      simp only [measureDirective] at step
      split at step
      · rename_i incompatible
        cases step
        exact
          records.skip (by simp [measuredNow, incompatible])
            (by simp [directivePages, incompatible]) rfl
      · rename_i compatible
        split at step
        · rename_i areaSize known
          cases step
          constructor
          · simp [measuredNow, compatible, known, measureInsert, ld,
              foldPages_append]
          · have moved :
                (measured ++ insertPages gpa areaSize ++
                    before.pendingBatch).Perm
                  (measured ++ before.pendingBatch ++
                    insertPages gpa areaSize) := by
              rw [List.append_assoc, List.append_assoc]
              exact List.perm_append_comm.append_left _
            simpa [measuredNow, directivePages, compatible, known,
              measureInsert] using
              moved.trans (pages.append_right (insertPages gpa areaSize))
          · simpa [contextVmsa?, List.filterMap_cons, measureInsert] using
                vmsaPages
        · cases step
  | _ =>
      cases step
      exact records.skip rfl rfl rfl

theorem contents_of_normal
    {dataType : IgvmPageDataType} {flags : IgvmPageDataFlags} {data : Bytes}
    (normal :
      (classifyPageData sha384 dataType flags data).1 = snpPageTypeNormal) :
    (classifyPageData sha384 dataType flags data).2.1 =
      sha384 (padTo pageSize data) := by
  rcases flags with ⟨_ | _⟩
  · cases dataType with
    | normal => rfl
    | other value => rfl
    | _ => cases normal
  · cases dataType with
    | _ => cases normal

/-- Some page at the address is measured with these contents. -/
def HasContents
    (sha384 : Bytes → Digest) (snpCompat : UInt32)
    (directives : List IgvmDirectiveHeader) (gpa : UInt64)
    (contents : Bytes) : Prop :=
  ∃ compatibilityMask flags dataType data,
    .pageData gpa compatibilityMask flags dataType data ∈ directives ∧
      compatibilityMask &&& snpCompat ≠ 0 ∧
        (classifyPageData sha384 dataType flags data).1 =
            snpPageTypeNormal ∧
          contents = padTo pageSize data

section

variable {directives : List IgvmDirectiveHeader} {gpa : UInt64}
variable {contents : Bytes}

theorem HasContents.mem_flatMap
    (has : HasContents sha384 snpCompat directives gpa contents) :
    { gpa, pageType := snpPageTypeNormal, contents := sha384 contents } ∈
      directives.flatMap (directivePages sha384 snpCompat paramAreas) := by
  rcases has with
    ⟨compatibilityMask, flags, dataType, data, member, compatible, normal,
      rfl⟩
  apply List.mem_flatMap.2
  refine ⟨_, member, ?_⟩
  rw [directivePages, if_neg compatible, normal, contents_of_normal normal]
  exact List.mem_singleton_self _

end

/-! ## Two files with one digest -/

section

variable {left right : IgvmFile} {leftResult rightResult : MeasureResult}

/-- Two measurements hash without a collision and never reach the start. -/
structure NoCollision
    (sha384 : Bytes → Digest) (igvmCrate : IgvmCrate) (snpCompat : UInt32)
    (left right : List IgvmDirectiveHeader) : Prop where
  injective :
    Set.InjOn sha384
      {message |
        message ∈ hashedMessages sha384 igvmCrate snpCompat left ∨
          message ∈ hashedMessages sha384 igvmCrate snpCompat right}
  leftNoZero :
    ∀ message ∈ pageInfoMessages sha384 igvmCrate snpCompat left,
      sha384 message ≠ Block.zero 48
  rightNoZero :
    ∀ message ∈ pageInfoMessages sha384 igvmCrate snpCompat right,
      sha384 message ≠ Block.zero 48

theorem NoCollision.symm
    {left right : List IgvmDirectiveHeader}
    (noCollision : NoCollision sha384 igvmCrate snpCompat left right) :
    NoCollision sha384 igvmCrate snpCompat right left where
  injective := noCollision.injective.mono fun _ => Or.symm
  leftNoZero := noCollision.rightNoZero
  rightNoZero := noCollision.leftNoZero

end

end

end Confos.Igvm.HashedMessages
