import Confos.Igvm.PageRanges

/-!
# Where the blobs end up

The blobs are laid out one after the other, so a placement clears the pages of
no other blob as long as it clears no more than the blob's own pages.  An empty
blob has no pages and still clears one.  That page is another blob's when an
empty shim stands in front of a kernel, and the hand-off list when an empty
blob stands at its area; every other layout keeps all pages.
-/

namespace Confos.Igvm.Placement

open Confos.Library.ByteStrings
open Confos.Igvm.Directives
open Confos.Igvm.Ovmf
open Confos.Igvm.Hob
open Confos.Igvm.Builder
open Confos.Igvm.Builder.IgvmBuilder
open Confos.Igvm.Build
open Confos.Igvm.PageRanges

/-! ## The layout -/

/-- The addresses of an entry's pages. -/
def pageRange (entry : IgvmDataEntry) : Set Nat :=
  Set.Ico entry.addr entry.pagesEnd

/-- Each entry starts behind the pages of the ones before it. -/
structure Laid (list : IgvmDataList) : Prop where
  starts : ∀ entry ∈ list.data, hobListBase ≤ entry.addr
  base_starts : hobListBase ≤ list.base
  ordered :
    list.data.Pairwise fun earlier later =>
      earlier.pagesEnd ≤ later.addr
  ends :
    ∀ entry ∈ list.data, entry.pagesEnd ≤ list.base
  aligned : ∀ entry ∈ list.data, hobPageSize ∣ entry.addr
  base_aligned : hobPageSize ∣ list.base

theorem Laid.add
    {list : IgvmDataList} (laid : Laid list)
    (blob : Bytes) (dataType : IgvmDataType) (measured : Bool) :
    Laid (list.add blob dataType measured) := by
  constructor
  · intro entry member
    rcases List.mem_append.1 member with earlier | last
    · exact laid.starts entry earlier
    · cases List.mem_singleton.1 last
      exact laid.base_starts
  · exact laid.base_starts.trans (Nat.le_add_right _ _)
  · apply List.pairwise_append.2
    refine ⟨laid.ordered, List.pairwise_singleton _ _, ?_⟩
    intro earlier member later last
    cases List.mem_singleton.1 last
    exact laid.ends earlier member
  · intro entry member
    rcases List.mem_append.1 member with earlier | last
    · exact (laid.ends entry earlier).trans (Nat.le_add_right _ _)
    · cases List.mem_singleton.1 last
      exact le_rfl
  · intro entry member
    rcases List.mem_append.1 member with earlier | last
    · exact laid.aligned entry earlier
    · cases List.mem_singleton.1 last
      exact laid.base_aligned
  · exact
      Nat.dvd_add laid.base_aligned (Nat.dvd_mul_left hobPageSize _)

theorem Laid.addBlob
    {list : IgvmDataList} (laid : Laid list)
    (blob : Option Bytes) (dataType : IgvmDataType) (measured : Bool) :
    Laid (addBlob blob dataType measured list) := by
  cases blob with
  | none => exact laid
  | some blob => exact laid.add blob dataType measured

/-- The list of the certificates, which come first. -/
def certificates (inputs : HobInputs) : IgvmDataList :=
  addBlob inputs.dbx .dbx true
    (addBlob inputs.db .db true
      (addBlob inputs.kek .kek true
        (addBlob inputs.pk .pk true { base := hobListBase })))

theorem laid_certificates (inputs : HobInputs) :
    Laid (certificates inputs) := by
  have start : Laid { base := hobListBase } := by
    constructor
    · intro entry member
      cases member
    · exact le_rfl
    · exact List.Pairwise.nil
    · intro entry member
      cases member
    · intro entry member
      cases member
    · decide
  exact (((start.addBlob _ _ _).addBlob _ _ _).addBlob _ _ _).addBlob _ _ _

theorem laid_hobList (inputs : HobInputs) : Laid (hobList inputs) :=
  ((laid_certificates inputs).addBlob _ _ _).addBlob _ _ _

theorem data_addBlob
    (blob : Option Bytes) (dataType : IgvmDataType) (measured : Bool)
    (list : IgvmDataList) :
    (addBlob blob dataType measured list).data =
      list.data ++
        (blob.map fun blob =>
          { dataType, addr := list.base, blob, measured }).toList := by
  cases blob with
  | none => simp [addBlob]
  | some blob => rfl

def suppliedBlob (dataType : IgvmDataType) (blob : Option Bytes) :
    List (IgvmDataType × Bytes) :=
  (blob.map fun blob => (dataType, blob)).toList

/-- The supplied blobs in the order of the list. -/
def suppliedBlobs (inputs : HobInputs) : List (IgvmDataType × Bytes) :=
  suppliedBlob .pk inputs.pk ++ suppliedBlob .kek inputs.kek ++
    suppliedBlob .db inputs.db ++ suppliedBlob .dbx inputs.dbx ++
      suppliedBlob .shim inputs.shim ++ suppliedBlob .kernel inputs.kernel

theorem supplied_addBlob
    (blob : Option Bytes) (dataType : IgvmDataType) (measured : Bool)
    (list : IgvmDataList) :
    ((addBlob blob dataType measured list).data.map fun entry =>
        (entry.dataType, entry.blob)) =
      (list.data.map fun entry => (entry.dataType, entry.blob)) ++
        suppliedBlob dataType blob := by
  rw [data_addBlob, List.map_append, suppliedBlob]
  cases blob with
  | none => rfl
  | some blob => rfl

theorem supplied_hobList (inputs : HobInputs) :
    ((hobList inputs).data.map fun entry => (entry.dataType, entry.blob)) =
      suppliedBlobs inputs := by
  simp only [hobList, supplied_addBlob, suppliedBlobs]
  rfl

/-- What holds of the entries of a list and of an added one holds of all. -/
theorem forall_mem_addBlob
    {Holds : IgvmDataEntry → Prop}
    {blob : Option Bytes} {dataType : IgvmDataType} {measured : Bool}
    {list : IgvmDataList}
    (added :
      ∀ bytes, blob = some bytes →
        Holds { dataType, addr := list.base, blob := bytes, measured })
    (others : ∀ entry ∈ list.data, Holds entry) :
    ∀ entry ∈ (addBlob blob dataType measured list).data, Holds entry := by
  intro entry member
  rw [data_addBlob] at member
  rcases List.mem_append.1 member with earlier | last
  · exact others entry earlier
  · rcases Option.map_eq_some_iff.1 (Option.mem_toList.1 last) with
      ⟨bytes, supplied, rfl⟩
    exact added bytes supplied

theorem certificates_measured (inputs : HobInputs) :
    ∀ entry ∈ (certificates inputs).data,
      entry.measured = true ∧ entry.dataType ≠ .shim := by
  apply forall_mem_addBlob
  · intro bytes _
    exact ⟨rfl, nofun⟩
  apply forall_mem_addBlob
  · intro bytes _
    exact ⟨rfl, nofun⟩
  apply forall_mem_addBlob
  · intro bytes _
    exact ⟨rfl, nofun⟩
  apply forall_mem_addBlob
  · intro bytes _
    exact ⟨rfl, nofun⟩
  · intro entry member
    cases member

/-- The entry of the shim, behind the certificates. -/
def shimEntry (inputs : HobInputs) (shim : Bytes) : IgvmDataEntry :=
  { dataType := .shim, addr := (certificates inputs).base, blob := shim,
    measured := false }

/-- The entry of the kernel, behind the shim. -/
def kernelEntry (inputs : HobInputs) (kernel : Bytes) : IgvmDataEntry :=
  { dataType := .kernel
    addr :=
      (addBlob inputs.shim .shim false (certificates inputs)).base
    blob := kernel
    measured := true }

/-- An entry is a certificate, the shim or the kernel. -/
theorem mem_hobList_iff {inputs : HobInputs} {entry : IgvmDataEntry} :
    entry ∈ (hobList inputs).data ↔
      entry ∈ (certificates inputs).data ∨
        (∃ shim, inputs.shim = some shim ∧
          entry = shimEntry inputs shim) ∨
        ∃ kernel, inputs.kernel = some kernel ∧
          entry = kernelEntry inputs kernel := by
  have list :
      hobList inputs =
        addBlob inputs.kernel .kernel true
          (addBlob inputs.shim .shim false (certificates inputs)) :=
    rfl
  rw [list, data_addBlob, data_addBlob, List.append_assoc,
    List.mem_append, List.mem_append, Option.mem_toList, Option.mem_toList,
    Option.map_eq_some_iff, Option.map_eq_some_iff]
  constructor
  · rintro (certificate | ⟨shim, supplied, rfl⟩ | ⟨kernel, supplied, rfl⟩)
    · exact Or.inl certificate
    · exact Or.inr (Or.inl ⟨shim, supplied, rfl⟩)
    · exact Or.inr (Or.inr ⟨kernel, supplied, rfl⟩)
  · rintro (certificate | ⟨shim, supplied, rfl⟩ | ⟨kernel, supplied, rfl⟩)
    · exact Or.inl certificate
    · exact Or.inr (Or.inl ⟨shim, supplied, rfl⟩)
    · exact Or.inr (Or.inr ⟨kernel, supplied, rfl⟩)

/-- Every blob but the shim is measured. -/
theorem measured_hobList (inputs : HobInputs) :
    ∀ entry ∈ (hobList inputs).data,
      entry.measured = decide (entry.dataType ≠ .shim) := by
  intro entry member
  rcases mem_hobList_iff.1 member with
    certificate | ⟨shim, -, rfl⟩ | ⟨kernel, -, rfl⟩
  · rcases certificates_measured inputs entry certificate with
      ⟨measured, notShim⟩
    rw [measured, decide_eq_true notShim]
  · rfl
  · rfl

/-- The unmeasured entry is the shim. -/
theorem eq_shimEntry_of_unmeasured
    {inputs : HobInputs} {entry : IgvmDataEntry}
    (member : entry ∈ (hobList inputs).data)
    (unmeasured : entry.measured = false) :
    ∃ shim, inputs.shim = some shim ∧ entry = shimEntry inputs shim := by
  rcases mem_hobList_iff.1 member with
    certificate | isShim | ⟨kernel, -, rfl⟩
  · rw [(certificates_measured inputs entry certificate).1] at unmeasured
    cases unmeasured
  · exact isShim
  · cases unmeasured

theorem pagesEnd_shimEntry
    {inputs : HobInputs} {shim : Bytes}
    (supplied : inputs.shim = some shim) (kernel : Bytes) :
    (shimEntry inputs shim).pagesEnd = (kernelEntry inputs kernel).addr := by
  rw [kernelEntry, supplied]
  rfl

/-- An entry without bytes has no pages. -/
theorem pagesEnd_of_empty
    {entry : IgvmDataEntry} (empty : entry.blob = []) :
    entry.pagesEnd = entry.addr := by
  rw [IgvmDataEntry.pagesEnd, empty]
  rfl

/-! ## What a placement clears -/

/-- A blob with bytes clears its own pages only. -/
theorem cleared_subset_pageRange
    {entry : IgvmDataEntry} (nonempty : entry.blob ≠ []) :
    cleared entry.placement ⊆
      pageRange entry := by
  apply Set.Ico_subset_Ico_right
  apply Nat.add_le_add_left
  apply max_le (le_roundUp (by decide) _)
  have positive : 0 < pageCount hobPageSize entry.blob.length := by
    apply (lt_pageCount_iff (by decide)).2
    rw [Nat.zero_mul]
    exact List.length_pos_iff.2 nonempty
  exact Nat.le_mul_of_pos_left psize positive

theorem data_subset_pageRange (entry : IgvmDataEntry) :
    Set.Ico entry.addr (entry.addr + entry.blob.length) ⊆
      pageRange entry := by
  apply Set.Ico_subset_Ico_right
  exact Nat.add_le_add_left (le_roundUp (by decide) _) _

/-- A later placement spares an earlier blob. -/
theorem spares_earlier
    {earlier later : IgvmDataEntry}
    (order : earlier.pagesEnd ≤ later.addr) :
    Disjoint
      (Set.Ico earlier.addr (earlier.addr + earlier.blob.length))
      (cleared later.placement) := by
  apply Disjoint.mono_left (data_subset_pageRange earlier)
  exact disjoint_Ico_of_le order

/-- A placement of a blob with bytes spares the blobs behind it. -/
theorem spares_later
    {earlier later : IgvmDataEntry}
    (order : earlier.pagesEnd ≤ later.addr)
    (nonempty : earlier.blob ≠ []) :
    Disjoint (Set.Ico later.addr (later.addr + later.blob.length))
      (cleared earlier.placement) := by
  apply Disjoint.mono_right (cleared_subset_pageRange nonempty)
  exact (disjoint_Ico_of_le order).symm

/-! ## The two passes -/

/-- The blobs lie below 4 GB, as the firmware does, and off the list's area. -/
structure BlobsFit (hobArea : OvmfRegion) (inputs : HobInputs) : Prop where
  below : (hobList inputs).base ≤ 2 ^ 32
  apart :
    ∀ entry ∈ (hobList inputs).data,
      Disjoint (pageRange entry)
        (Set.Ico hobArea.base (hobArea.base + hobArea.size))

/-- An area below the first blob meets none. -/
theorem blobsFit_of_below
    {hobArea : OvmfRegion} {inputs : HobInputs}
    (below : (hobList inputs).base ≤ 2 ^ 32)
    (areaBelow : hobArea.base + hobArea.size ≤ hobListBase) :
    BlobsFit hobArea inputs where
  below := below
  apart := by
    intro entry member
    have starts := (laid_hobList inputs).starts entry member
    exact (disjoint_Ico_of_le (areaBelow.trans starts)).symm

/-- An empty shim is placed where a kernel with bytes already is. -/
def EmptyShimBeforeKernel (inputs : HobInputs) : Prop :=
  inputs.shim = some [] ∧
    ∃ kernel, inputs.kernel = some kernel ∧ kernel ≠ []

/-- An empty blob is placed where the hand-off list already is. -/
def EmptyBlobAtHobArea (hobArea : OvmfRegion) (inputs : HobInputs) : Prop :=
  ∃ entry ∈ (hobList inputs).data,
    entry.blob = [] ∧ entry.addr ≤ hobArea.base ∧
      hobArea.base < entry.addr + psize

theorem mem_blobs_iff
    {list : IgvmDataList} {measured : Bool} {placed : Nat × Bytes} :
    placed ∈ list.blobs measured ↔
      ∃ entry ∈ list.data,
        entry.measured = measured ∧ entry.placement = placed := by
  rw [IgvmDataList.blobs, List.mem_map]
  constructor
  · rintro ⟨entry, member, rfl⟩
    rcases List.mem_filter.1 member with ⟨inList, tagged⟩
    exact ⟨entry, inList, by simpa using tagged, rfl⟩
  · rintro ⟨entry, member, tagged, rfl⟩
    exact ⟨entry, List.mem_filter.2 ⟨member, by simpa using tagged⟩, rfl⟩

section

variable {hobArea : OvmfRegion} {inputs : HobInputs}

theorem BlobsFit.fits
    (fit : BlobsFit hobArea inputs) {measured : Bool}
    {placed : Nat × Bytes}
    (member : placed ∈ (hobList inputs).blobs measured) :
    placed.1 + placed.2.length ≤ 2 ^ 64 := by
  rcases mem_blobs_iff.1 member with ⟨entry, inList, -, rfl⟩
  have pages : entry.addr + entry.blob.length ≤ entry.pagesEnd :=
    Nat.add_le_add_left (le_roundUp (by decide) _) _
  have ends := (laid_hobList inputs).ends entry inList
  have below := fit.below
  change entry.addr + entry.blob.length ≤ 2 ^ 64
  omega

/-- No blob has bytes at the address of the list. -/
theorem BlobsFit.off_hobs
    (fit : BlobsFit hobArea inputs) {measured : Bool}
    {placed : Nat × Bytes}
    (member : placed ∈ (hobList inputs).blobs measured) :
    Disjoint (Set.Ico hobArea.base (hobArea.base + 1))
      (Set.Ico placed.1 (placed.1 + placed.2.length)) := by
  rcases mem_blobs_iff.1 member with ⟨entry, inList, -, rfl⟩
  have positive := hobArea.size_pos
  have apart := (fit.apart entry inList).symm
  apply Disjoint.mono _ (data_subset_pageRange entry) apart
  apply Set.Ico_subset_Ico_right
  omega

/-- A placement clears the list only with an empty blob at its area. -/
theorem BlobsFit.spares_hobs
    (fit : BlobsFit hobArea inputs)
    (noneEmpty : ¬ EmptyBlobAtHobArea hobArea inputs) {measured : Bool}
    {placed : Nat × Bytes}
    (member : placed ∈ (hobList inputs).blobs measured) :
    Disjoint (Set.Ico hobArea.base (hobArea.base + 1)) (cleared placed) := by
  rcases mem_blobs_iff.1 member with ⟨entry, inList, -, rfl⟩
  have positive := hobArea.size_pos
  by_cases empty : entry.blob = []
  · apply Set.disjoint_left.2
    intro address inArea inCleared
    have here : address = hobArea.base :=
      Nat.le_antisymm (Nat.lt_succ_iff.1 inArea.2) inArea.1
    subst here
    apply noneEmpty
    refine ⟨entry, inList, empty, inCleared.1, ?_⟩
    have upper := inCleared.2
    change hobArea.base < entry.addr + max entry.blob.length psize at upper
    rwa [empty, List.length_nil, Nat.max_eq_right (Nat.zero_le _)] at upper
  · apply Disjoint.mono _ (cleared_subset_pageRange empty)
      (fit.apart entry inList).symm
    apply Set.Ico_subset_Ico_right
    omega

/-- Each pass spares the blobs it has placed. -/
theorem blobs_spared (inputs : HobInputs) (measured : Bool) :
    ((hobList inputs).blobs measured).Pairwise fun earlier later =>
      Disjoint (Set.Ico earlier.1 (earlier.1 + earlier.2.length))
        (cleared later) := by
  rw [IgvmDataList.blobs, List.pairwise_map]
  apply List.Pairwise.filter
  exact (laid_hobList inputs).ordered.imp fun order => spares_earlier order

/-- The second pass spares the measured blobs, unless an empty shim hits the kernel. -/
theorem unmeasured_spares_measured
    (noEmptyShim : ¬ EmptyShimBeforeKernel inputs)
    {entry : IgvmDataEntry}
    (member : entry ∈ (hobList inputs).data)
    (measured : entry.measured = true)
    {placed : Nat × Bytes}
    (unmeasured : placed ∈ (hobList inputs).blobs false) :
    Disjoint (Set.Ico entry.addr (entry.addr + entry.blob.length))
      (cleared placed) := by
  rcases mem_blobs_iff.1 unmeasured with ⟨later, laterMember, tagged, rfl⟩
  rcases eq_shimEntry_of_unmeasured laterMember tagged with
    ⟨shim, supplied, rfl⟩
  rcases mem_hobList_iff.1 member with
    certificate | ⟨_, -, rfl⟩ | ⟨kernel, kernelSupplied, rfl⟩
  · exact spares_earlier ((laid_certificates inputs).ends entry certificate)
  · cases measured
  · have order := (pagesEnd_shimEntry supplied kernel).le
    by_cases empty : shim = []
    · have kernelEmpty : kernel = [] := by
        by_contra nonempty
        exact
          noEmptyShim
            ⟨by rw [supplied, empty], kernel, kernelSupplied, nonempty⟩
      rw [kernelEmpty]
      simp [kernelEntry]
    · exact spares_later order empty

/-! ## Every page in its place -/

/-- The mask and flags aside, what the directives hold for a list of blobs. -/
structure PlacesBlobs
    (mask : UInt32) (hobArea : OvmfRegion) (inputs : HobInputs)
    (directives : List IgvmDirectiveHeader) : Prop where
  hobs :
    inputs.hasData = true →
      ∃ hobs,
        pagesIn hobArea.base (hobArea.base + 1) directives =
            [page hobArea.base 0 mask {} .normal hobs] ∧
          decodeHobs hobs.length hobs =
            some ((hobList inputs).data.map IgvmDataEntry.hob)
  supplied :
    ((hobList inputs).data.map fun entry => (entry.dataType, entry.blob)) =
      suppliedBlobs inputs
  aligned : ∀ entry ∈ (hobList inputs).data, hobPageSize ∣ entry.addr
  apart :
    (hobList inputs).data.Pairwise fun earlier later =>
      Disjoint (pageRange earlier) (pageRange later)
  pages :
    ∀ entry ∈ (hobList inputs).data,
      pagesIn entry.addr (entry.addr + entry.blob.length) directives =
        dataPages entry.addr entry.blob mask
          { unmeasured := decide (entry.dataType = .shim) }

theorem pageRanges_apart (inputs : HobInputs) :
    (hobList inputs).data.Pairwise fun earlier later =>
      Disjoint (pageRange earlier) (pageRange later) := by
  apply (laid_hobList inputs).ordered.imp
  intro earlier later order
  exact disjoint_Ico_of_le order

theorem length_hobList_le (inputs : HobInputs) :
    (hobList inputs).data.length ≤ 6 := by
  have count := congrArg List.length (supplied_hobList inputs)
  rw [List.length_map] at count
  have one :
      ∀ dataType (blob : Option Bytes),
        (suppliedBlob dataType blob).length ≤ 1 := by
    intro dataType blob
    cases blob <;> simp [suppliedBlob]
  have pk := one .pk inputs.pk
  have kek := one .kek inputs.kek
  have db := one .db inputs.db
  have dbx := one .dbx inputs.dbx
  have shim := one .shim inputs.shim
  have kernel := one .kernel inputs.kernel
  rw [count, suppliedBlobs]
  simp only [List.length_append]
  omega

theorem length_hobs_le (inputs : HobInputs) :
    (hobList inputs).hobs.length ≤ psize := by
  have few := length_hobList_le inputs
  rw [length_hobs, psize]
  omega

theorem pageCount_hobs (inputs : HobInputs) :
    pageCount psize (hobList inputs).hobs.length = 1 := by
  have few := length_hobList_le inputs
  rw [length_hobs, pageCount, psize]
  omega

theorem slice_hobs (inputs : HobInputs) :
    slice (hobList inputs).hobs (0 * psize) psize = (hobList inputs).hobs := by
  rw [slice, Nat.zero_mul, List.drop_zero]
  exact List.take_of_length_le (length_hobs_le inputs)

/-- The list fits one page. -/
theorem dataPages_hobs
    (base : Nat) (inputs : HobInputs) (mask : UInt32)
    (flags : IgvmPageDataFlags) :
    dataPages base (hobList inputs).hobs mask flags =
      [page base 0 mask flags .normal (hobList inputs).hobs] := by
  rw [dataPages, pageCount_hobs]
  simp only [List.range_one, List.map_singleton, slice_hobs]

/-- The list is read back, whatever stands behind it. -/
theorem decodeHobs_hobs_append
    {hobArea : OvmfRegion} (fit : BlobsFit hobArea inputs) (rest : Bytes)
    {turns : Nat} (enough : 6 < turns) :
    decodeHobs turns ((hobList inputs).hobs ++ rest) =
      some ((hobList inputs).data.map IgvmDataEntry.hob) := by
  have fits :
      ∀ entry ∈ (hobList inputs).data.map IgvmDataEntry.hob, entry.Fits := by
    intro hob member
    rcases List.mem_map.1 member with ⟨entry, inList, rfl⟩
    have pages : entry.addr + entry.blob.length ≤ entry.pagesEnd :=
      Nat.add_le_add_left (le_roundUp (by decide) _) _
    have ends := (laid_hobList inputs).ends entry inList
    have below := fit.below
    refine ⟨?_, ?_, entry.dataType.value_lt⟩
    · change entry.addr < 2 ^ 64
      omega
    · change entry.blob.length < 2 ^ 64
      omega
  have few :
      ((hobList inputs).data.map IgvmDataEntry.hob).length < turns := by
    rw [List.length_map]
    exact (length_hobList_le inputs).trans_lt enough
  have decoded := decodeHobs_encode rest fits few
  rwa [List.flatMap_map] at decoded

theorem decodeHobs_hobs
    {hobArea : OvmfRegion} (fit : BlobsFit hobArea inputs) :
    decodeHobs (hobList inputs).hobs.length (hobList inputs).hobs =
      some ((hobList inputs).data.map IgvmDataEntry.hob) := by
  have enough : 6 < (hobList inputs).hobs.length := by
    rw [length_hobs]
    omega
  have decoded := decodeHobs_hobs_append fit [] enough
  rwa [List.append_nil] at decoded

end

section

variable {hobArea : OvmfRegion} {inputs : HobInputs} {builder : IgvmBuilder}

/-- The first page of some data is at the data's address. -/
theorem isPageIn_first
    {base : Nat} {mask : UInt32} {flags : IgvmPageDataFlags}
    {dataType : IgvmPageDataType} {data : Bytes} (below : base < 2 ^ 64) :
    isPageIn base (base + 1) (page base 0 mask flags dataType data) =
      true := by
  have address : (UInt64.ofNat (base + 0 * psize)).toNat = base := by
    rw [Nat.zero_mul, Nat.add_zero]
    exact UInt64.toNat_ofNat_of_lt' below
  rw [page, isPageIn, address]
  simp

theorem first_mem_dataPages
    (base : Nat) (mask : UInt32) (flags : IgvmPageDataFlags)
    {data : Bytes} (nonempty : data ≠ []) :
    page base 0 mask flags .normal (slice data (0 * psize) psize) ∈
      dataPages base data mask flags := by
  apply List.mem_map.2
  refine ⟨0, List.mem_range.2 ?_, rfl⟩
  apply (lt_pageCount_iff psize_pos).2
  rw [Nat.zero_mul]
  exact List.length_pos_iff.2 nonempty

/-- Right after it is written the list is the one page at its address. -/
theorem pagesIn_hobs :
    pagesIn hobArea.base (hobArea.base + 1)
        ((builder.removePageDataInRange hobArea.base
          hobArea.size).addDataPages hobArea.base
            (hobList inputs).hobs).directives =
      [page hobArea.base 0 builder.compatibilityMaskAll {} .normal
        (hobList inputs).hobs] := by
  have inside :
      isPageIn hobArea.base (hobArea.base + 1)
        (page hobArea.base 0 builder.compatibilityMaskAll {} .normal
          (hobList inputs).hobs) = true :=
    isPageIn_first (lt_trans hobArea.base_lt (by decide))
  change
    pagesIn _ _
        ((builder.directives.filter fun directive =>
            !isPageInRange hobArea.base hobArea.size directive) ++
          dataPages hobArea.base (hobList inputs).hobs
            builder.compatibilityMaskAll {}) =
      _
  rw [pagesIn_append, dataPages_hobs,
    pagesIn_remove_of_subset le_rfl
      (Nat.add_le_add_left
        (le_max_of_le_right (by decide)) _),
    List.nil_append, pagesIn, List.filter_cons_of_pos inside,
    List.filter_nil]

/-- Without an empty blob at its area the list keeps its page. -/
theorem pagesIn_hobs_of_spared
    (fit : BlobsFit hobArea inputs)
    (noneEmpty : ¬ EmptyBlobAtHobArea hobArea inputs) :
    pagesIn hobArea.base (hobArea.base + 1)
        (placeHobs builder hobArea (hobList inputs)).directives =
      [page hobArea.base 0 builder.compatibilityMaskAll {} .normal
        (hobList inputs).hobs] := by
  rw [placeHobs,
    pagesIn_foldl_of_disjoint (fun _ member => fit.fits member)
      (fun _ member => fit.spares_hobs noneEmpty member),
    pagesIn_foldl_of_disjoint (fun _ member => fit.fits member)
      (fun _ member => fit.spares_hobs noneEmpty member),
    pagesIn_hobs]

/-- Off the two defects every page of every blob is in its place. -/
theorem placesBlobs_of_spared
    (fit : BlobsFit hobArea inputs)
    (noEmptyShim : ¬ EmptyShimBeforeKernel inputs)
    (noneEmpty : ¬ EmptyBlobAtHobArea hobArea inputs) :
    PlacesBlobs builder.compatibilityMaskAll hobArea inputs
      (placeHobs builder hobArea (hobList inputs)).directives where
  hobs := by
    intro _
    exact
      ⟨(hobList inputs).hobs, pagesIn_hobs_of_spared fit noneEmpty,
        decodeHobs_hobs fit⟩
  supplied := supplied_hobList inputs
  aligned := (laid_hobList inputs).aligned
  apart := pageRanges_apart inputs
  pages := by
    intro entry member
    have tagged := measured_hobList inputs entry member
    cases measured : entry.measured with
    | true =>
        have inPass :
            entry.placement ∈ (hobList inputs).blobs true :=
          mem_blobs_iff.2 ⟨entry, member, measured, rfl⟩
        have notShim : entry.dataType ≠ .shim := by
          rw [measured] at tagged
          exact of_decide_eq_true tagged.symm
        rw [decide_eq_false notShim, placeHobs,
          pagesIn_foldl_of_disjoint (fun _ other => fit.fits other)
            (fun _ other =>
              unmeasured_spares_measured noEmptyShim member measured other)]
        exact
          pagesIn_foldl_of_mem inPass (fun _ other => fit.fits other)
            (blobs_spared inputs true)
    | false =>
        have inPass :
            entry.placement ∈ (hobList inputs).blobs false :=
          mem_blobs_iff.2 ⟨entry, member, measured, rfl⟩
        have isShim : entry.dataType = .shim := by
          rw [measured] at tagged
          simpa using tagged
        rw [decide_eq_true isShim]
        apply
          (pagesIn_foldl_of_mem inPass (fun _ other => fit.fits other)
            (blobs_spared inputs false)).trans
        rw [foldl_placeBlob_compatibilityMaskAll]
        rfl

/-! ## What the defects lose -/

theorem hasData_of_mem
    {entry : IgvmDataEntry} (member : entry ∈ (hobList inputs).data) :
    inputs.hasData = true := by
  by_contra noData
  simp only [HobInputs.hasData, Bool.or_eq_true, not_or,
    Bool.not_eq_true, Option.isSome_eq_false_iff,
    Option.isNone_iff_eq_none] at noData
  rcases noData with ⟨⟨⟨⟨⟨kernel, shim⟩, pk⟩, kek⟩, db⟩, dbx⟩
  rw [hobList, kernel, shim, pk, kek, db, dbx] at member
  cases member

/-- A pass over a blob without bytes leaves nothing at its address. -/
theorem pagesIn_pass_eq_nil
    (fit : BlobsFit hobArea inputs) {measured : Bool}
    {flags : IgvmPageDataFlags} {entry : IgvmDataEntry} {address : Nat}
    (member : entry ∈ (hobList inputs).data)
    (tagged : entry.measured = measured) (empty : entry.blob = [])
    (lower : entry.addr ≤ address) (upper : address < entry.addr + psize)
    (apart :
      ∀ placed ∈ (hobList inputs).blobs measured,
        Disjoint (Set.Ico address (address + 1))
          (Set.Ico placed.1 (placed.1 + placed.2.length))) :
    pagesIn address (address + 1)
        (((hobList inputs).blobs measured).foldl (placeBlob flags)
          builder).directives =
      [] := by
  apply pagesIn_foldl_eq_nil (fun _ member => fit.fits member) apart
  right
  refine ⟨entry.placement, mem_blobs_iff.2 ⟨entry, member, tagged, rfl⟩,
    lower, ?_⟩
  change address + 1 ≤ entry.addr + max entry.blob.length psize
  rw [empty, List.length_nil, Nat.max_eq_right (Nat.zero_le _)]
  exact upper

/-- An empty shim takes the first page of the kernel. -/
theorem not_placesBlobs_of_emptyShim
    {mask : UInt32}
    (fit : BlobsFit hobArea inputs)
    (emptyShim : EmptyShimBeforeKernel inputs) :
    ¬ PlacesBlobs mask hobArea inputs
      (placeHobs builder hobArea (hobList inputs)).directives := by
  intro places
  rcases emptyShim with ⟨shimEmpty, kernel, supplied, nonempty⟩
  have kernelMember : kernelEntry inputs kernel ∈ (hobList inputs).data :=
    mem_hobList_iff.2 (Or.inr (Or.inr ⟨kernel, supplied, rfl⟩))
  have shimMember : shimEntry inputs [] ∈ (hobList inputs).data :=
    mem_hobList_iff.2 (Or.inr (Or.inl ⟨[], shimEmpty, rfl⟩))
  have sameAddr :
      (shimEntry inputs []).addr = (kernelEntry inputs kernel).addr :=
    (pagesEnd_of_empty rfl).symm.trans (pagesEnd_shimEntry shimEmpty kernel)
  have lost :
      pagesIn (kernelEntry inputs kernel).addr
          ((kernelEntry inputs kernel).addr + 1)
          (placeHobs builder hobArea (hobList inputs)).directives =
        [] := by
    apply pagesIn_pass_eq_nil fit shimMember rfl rfl sameAddr.le
    · exact lt_of_le_of_lt sameAddr.ge (Nat.lt_add_of_pos_right psize_pos)
    · intro placed member
      rcases mem_blobs_iff.1 member with ⟨entry, inList, tagged, rfl⟩
      rcases eq_shimEntry_of_unmeasured inList tagged with
        ⟨shim, shimSupplied, rfl⟩
      rw [shimEmpty] at shimSupplied
      cases shimSupplied
      simp [shimEntry, IgvmDataEntry.placement]
  have below :
      (kernelEntry inputs kernel).addr < 2 ^ 64 := by
    have ends := (laid_hobList inputs).ends _ kernelMember
    have start : (kernelEntry inputs kernel).addr ≤
        (kernelEntry inputs kernel).pagesEnd :=
      Nat.le_add_right _ _
    exact lt_of_le_of_lt (start.trans (ends.trans fit.below)) (by decide)
  have first :=
    first_mem_dataPages (kernelEntry inputs kernel).addr mask
      { unmeasured := decide ((kernelEntry inputs kernel).dataType = .shim) }
      nonempty
  have kept := places.pages _ kernelMember
  change _ = dataPages _ kernel _ _ at kept
  rw [← kept] at first
  exact
    List.filter_eq_nil_iff.1 lost _ (List.mem_filter.1 first).1
      (isPageIn_first below)

/-- An empty blob at its area takes the page of the list. -/
theorem pagesIn_hobs_of_emptyBlob
    (fit : BlobsFit hobArea inputs)
    (emptyBlob : EmptyBlobAtHobArea hobArea inputs) :
    pagesIn hobArea.base (hobArea.base + 1)
        (placeHobs builder hobArea (hobList inputs)).directives =
      [] := by
  rcases emptyBlob with ⟨entry, member, empty, lower, upper⟩
  cases measured : entry.measured with
  | false =>
      exact
        pagesIn_pass_eq_nil fit member measured empty lower upper
          fun _ other => fit.off_hobs other
  | true =>
      apply
        pagesIn_foldl_eq_nil (fun _ other => fit.fits other)
          fun _ other => fit.off_hobs other
      left
      exact
        pagesIn_pass_eq_nil fit member measured empty lower upper
          fun _ other => fit.off_hobs other

theorem not_placesBlobs_of_emptyBlob
    {mask : UInt32}
    (fit : BlobsFit hobArea inputs)
    (emptyBlob : EmptyBlobAtHobArea hobArea inputs) :
    ¬ PlacesBlobs mask hobArea inputs
      (placeHobs builder hobArea (hobList inputs)).directives := by
  intro places
  have lost := @pagesIn_hobs_of_emptyBlob _ _ builder fit emptyBlob
  rcases emptyBlob with ⟨entry, member, -⟩
  rcases places.hobs (hasData_of_mem member) with ⟨hobs, kept, -⟩
  rw [lost] at kept
  cases kept

/--
The blobs are all in their place after `addHobData` exactly when no empty blob
clears a page of the kernel or the page of the list.
-/
theorem addHobData_places_iff
    {ovmfMeta : Option OvmfMeta}
    (found : findHobArea ovmfMeta = some hobArea)
    (fit : BlobsFit hobArea inputs) :
    ∃ after,
      addHobData builder ovmfMeta inputs = .ok after ∧
        (PlacesBlobs builder.compatibilityMaskAll hobArea inputs
            after.directives ↔
          ¬ EmptyShimBeforeKernel inputs ∧
            ¬ EmptyBlobAtHobArea hobArea inputs) := by
  rcases Bool.eq_false_or_eq_true inputs.hasData with data | noData
  · refine ⟨placeHobs builder hobArea (hobList inputs), ?_, ?_⟩
    · rw [addHobData, data, found]
      rfl
    · constructor
      · intro places
        constructor
        · intro emptyShim
          exact not_placesBlobs_of_emptyShim fit emptyShim places
        · intro emptyBlob
          exact not_placesBlobs_of_emptyBlob fit emptyBlob places
      · rintro ⟨noEmptyShim, noneEmpty⟩
        exact placesBlobs_of_spared fit noEmptyShim noneEmpty
  · have noEntry : ∀ entry ∈ (hobList inputs).data, False := by
      intro entry member
      rw [hasData_of_mem member] at noData
      cases noData
    refine ⟨builder, ?_, ?_⟩
    · rw [addHobData, noData]
      rfl
    · constructor
      · intro _
        constructor
        · rintro ⟨supplied, -⟩
          exact
            noEntry (shimEntry inputs [])
              (mem_hobList_iff.2 (Or.inr (Or.inl ⟨[], supplied, rfl⟩)))
        · rintro ⟨entry, member, -⟩
          exact noEntry entry member
      · intro _
        constructor
        · intro data
          rw [data] at noData
          cases noData
        · exact supplied_hobList inputs
        · exact (laid_hobList inputs).aligned
        · exact pageRanges_apart inputs
        · intro entry member
          exact (noEntry entry member).elim

end

/-! ## Two layouts -/

/-- A list area below the first blob, where the firmware has it. -/
def lowHobArea : OvmfRegion :=
  { base := 0x810000, size := 0x1000, etype := .igvmHobArea,
    base_lt := by decide, size_lt := by decide, size_pos := by decide }

/-- Two certificates, a shim and a kernel of a page and a byte. -/
theorem addHobData_places_fourBlobs :
    ∃ after,
      addHobData {} (some { regions := [lowHobArea] })
          { pk := some [1], db := some [2], shim := some [3],
            kernel := some (List.replicate 4097 4) } =
        .ok after ∧
      (PlacesBlobs 0 lowHobArea
          { pk := some [1], db := some [2], shim := some [3],
            kernel := some (List.replicate 4097 4) }
          after.directives ↔
        ¬ EmptyShimBeforeKernel
            { pk := some [1], db := some [2], shim := some [3],
              kernel := some (List.replicate 4097 4) } ∧
          ¬ EmptyBlobAtHobArea lowHobArea
            { pk := some [1], db := some [2], shim := some [3],
              kernel := some (List.replicate 4097 4) }) := by
  apply addHobData_places_iff rfl
  apply blobsFit_of_below
  · simp only [hobList, addBlob, IgvmDataList.add, List.length_replicate]
    decide
  · decide

/-- An empty shim before a kernel of one byte. -/
theorem not_addHobData_places_emptyShim :
    ∃ after,
      findHobArea (some { regions := [lowHobArea] }) = some lowHobArea ∧
        BlobsFit lowHobArea { shim := some [], kernel := some [1] } ∧
        addHobData {} (some { regions := [lowHobArea] })
            { shim := some [], kernel := some [1] } =
          .ok after ∧
        ¬ PlacesBlobs 0 lowHobArea { shim := some [], kernel := some [1] }
          after.directives := by
  have fit :
      BlobsFit lowHobArea { shim := some [], kernel := some [1] } :=
    blobsFit_of_below (by decide) (by decide)
  refine ⟨_, rfl, fit, rfl, ?_⟩
  exact
    not_placesBlobs_of_emptyShim fit
      ⟨rfl, [1], rfl, List.cons_ne_nil _ _⟩

end Confos.Igvm.Placement
