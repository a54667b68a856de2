import Confos.Library.Checks
import Confos.Tdx.HandOffMemory
import Confos.Tdx.Mrtd

/-!
# Arithmetic of the measurement

The measurement adds the numbers of a section for every page and chunk, and
the length of the hand-off block to its address.  Here its additions,
subtractions, products and slices are steps that can panic, and the parser's
checks say which of them do not.
-/

namespace Confos.Tdx.MeasurePanics

open Confos.Library.ByteStrings
open Confos.Library.Checks
open Confos.Library.Fallible
open Confos.Library.Ranges
open Confos.Tdx.Firmware
open Confos.Tdx.Mrtd
open Confos.Tdx.Rtmr0
open Confos.Tdx.AcceptedMemory
open Confos.Tdx.HandOffMemory

/-! ## Pages and chunks -/

section

variable {fw : Bytes} (entry : CheckedSection fw)

def checkedPageAdd (page : Nat) : Checked Operation := do
  let offset ← mul64 page pageSize
  let gpa ← add64 entry.memoryAddress.toNat offset
  return .pageAdd gpa

/-- Where a chunk stands in guest memory. -/
def checkedChunkGpa (page index : Nat) : Checked Nat := do
  let offset ← mul64 page pageSize
  let pageGpa ← add64 entry.memoryAddress.toNat offset
  let step ← mul64 index mrExtendGranularity
  add64 pageGpa step

/-- The bytes of a chunk. -/
def checkedChunk (page index : Nat) : Checked Bytes := do
  let offset ← mul64 page pageSize
  let dataOffset ← add64 entry.dataOffset.toNat offset
  let step ← mul64 index mrExtendGranularity
  let chunkOffset ← add64 dataOffset step
  let chunkEnd ← add64 chunkOffset mrExtendGranularity
  cut fw chunkOffset chunkEnd

def checkedExtendChunk (page index : Nat) : Checked Operation := do
  let gpa ← checkedChunkGpa entry page index
  let chunk ← checkedChunk entry page index
  return .mrExtend gpa chunk

def checkedAdds (page : Nat) : Checked (List Operation) :=
  if entry.attributes &&& attributePageAug = 0 then do
    let added ← checkedPageAdd entry page
    return [added]
  else
    .ok []

def checkedExtends (page : Nat) : Checked (List Operation) :=
  if entry.IsExtended then
    (List.range (pageSize / mrExtendGranularity)).mapM
      (checkedExtendChunk entry page)
  else
    .ok []

def checkedPageOperations (page : Nat) : Checked (List Operation) := do
  let added ← checkedAdds entry page
  let extended ← checkedExtends entry page
  return added ++ extended

def checkedSectionOperations : Checked (List Operation) := do
  let pages ←
    (List.range (numPages entry)).mapM (checkedPageOperations entry)
  return pages.flatten

end

def checkedOperations (tdvf : Tdvf) : Checked (List Operation) := do
  let sections ← tdvf.sections.mapM checkedSectionOperations
  return sections.flatten

def checkedMrtd (sha384 : Bytes → Block 48) (tdvf : Tdvf) :
    Checked (Block 48) := do
  let measured ← checkedOperations tdvf
  return sha384 (measured.flatMap Operation.encode)

/-! ## Which sections are measured -/

/-- The addresses of a page are computed unless it is neither added nor extended. -/
def IsMeasured (entry : TdvfSection) : Prop :=
  entry.attributes &&& attributePageAug = 0 ∨ entry.IsExtended

instance (entry : TdvfSection) : Decidable (IsMeasured entry) :=
  inferInstanceAs (Decidable (_ ∨ _))

/-- A section that is measured ends inside the addresses of 64 bits. -/
def SectionFits (entry : TdvfSection) : Prop :=
  IsMeasured entry → (memoryRange entry).2 ≤ 2 ^ 64

instance (entry : TdvfSection) : Decidable (SectionFits entry) :=
  inferInstanceAs (Decidable (_ → _))

section

variable {fw : Bytes} {entry : CheckedSection fw} {page index : Nat}

theorem page_bounds (below : page < numPages entry) :
    page * pageSize + pageSize ≤ entry.memoryDataSize.toNat ∧
      page * pageSize < 2 ^ 64 := by
  have pages : (page + 1) * pageSize ≤ entry.memoryDataSize.toNat :=
    (Nat.mul_le_mul_right _ below).trans (Nat.div_mul_le_self _ _)
  have small : entry.memoryDataSize.toNat < 2 ^ 64 :=
    entry.memoryDataSize.toNat_lt
  rw [Nat.add_one_mul] at pages
  have positive : 0 < pageSize := by decide
  omega

theorem completes_checkedPageAdd (below : page < numPages entry) :
    Completes (checkedPageAdd entry page)
      (entry.memoryAddress.toNat + page * pageSize < 2 ^ 64)
      (.pageAdd (entry.memoryAddress.toNat + page * pageSize)) := by
  refine .bind_ok (mul64_eq_ok (page_bounds below).2) ?_
  exact (completes_add64 _ _).bind id fun fits => .ok fits _

/-- The first address of a page that fits leaves room for the page. -/
theorem chunk_fits
    (inPage : index < pageSize / mrExtendGranularity)
    (fits : entry.memoryAddress.toNat + page * pageSize < 2 ^ 64) :
    entry.memoryAddress.toNat + page * pageSize +
        index * mrExtendGranularity <
      2 ^ 64 := by
  rcases entry.address_aligned with ⟨count, aligned⟩
  have inside : index < 16 := inPage
  rw [aligned] at fits ⊢
  simp only [pageSize, mrExtendGranularity] at fits ⊢
  omega

theorem completes_checkedChunkGpa
    (below : page < numPages entry)
    (inPage : index < pageSize / mrExtendGranularity) :
    Completes (checkedChunkGpa entry page index)
      (entry.memoryAddress.toNat + page * pageSize < 2 ^ 64)
      (entry.memoryAddress.toNat + page * pageSize +
        index * mrExtendGranularity) := by
  have inside : index < 16 := inPage
  have step : index * mrExtendGranularity < 2 ^ 64 := by
    rw [mrExtendGranularity]
    omega
  refine .bind_ok (mul64_eq_ok (page_bounds below).2) ?_
  refine (completes_add64 _ _).bind id fun fits => ?_
  refine .bind_ok (mul64_eq_ok step) ?_
  rw [add64_eq_ok (chunk_fits inPage fits)]
  exact .ok fits _

/-- The bytes of a chunk are in the image. -/
theorem checkedChunk_eq_ok
    (image : fw.length < 2 ^ 64) (extended : entry.IsExtended)
    (below : page < numPages entry)
    (inPage : index < pageSize / mrExtendGranularity) :
    checkedChunk entry page index =
      .ok
        (slice fw
          (entry.dataOffset.toNat + page * pageSize +
            index * mrExtendGranularity)
          mrExtendGranularity) := by
  have fits := entry.extend_fits extended
  have bounds := page_bounds below
  have inside : index < 16 := inPage
  have step : index * mrExtendGranularity < 2 ^ 64 := by
    rw [mrExtendGranularity]
    omega
  have short :
      index * mrExtendGranularity + mrExtendGranularity ≤ pageSize := by
    rw [mrExtendGranularity, pageSize]
    omega
  have first :
      add64 entry.dataOffset.toNat (page * pageSize) = .ok _ :=
    add64_eq_ok (by omega)
  have second :
      add64 (entry.dataOffset.toNat + page * pageSize)
          (index * mrExtendGranularity) =
        .ok _ :=
    add64_eq_ok (by omega)
  have third :
      add64
          (entry.dataOffset.toNat + page * pageSize +
            index * mrExtendGranularity)
          mrExtendGranularity =
        .ok _ :=
    add64_eq_ok (by omega)
  have raw :
      cut fw
          (entry.dataOffset.toNat + page * pageSize +
            index * mrExtendGranularity)
          (entry.dataOffset.toNat + page * pageSize +
              index * mrExtendGranularity +
            mrExtendGranularity) =
        .ok _ :=
    cut_eq_ok (Nat.le_add_right _ _) (by omega)
  rw [Nat.add_sub_cancel_left] at raw
  simp only [checkedChunk, mul64_eq_ok bounds.2, mul64_eq_ok step, bind,
    Except.bind, first, second, third, raw]

theorem completes_checkedExtendChunk
    (image : fw.length < 2 ^ 64) (extended : entry.IsExtended)
    (below : page < numPages entry)
    (inPage : index < pageSize / mrExtendGranularity) :
    Completes (checkedExtendChunk entry page index)
      (entry.memoryAddress.toNat + page * pageSize < 2 ^ 64)
      (extendChunk entry page index) := by
  refine (completes_checkedChunkGpa below inPage).bind id fun fits => ?_
  refine .bind_ok (checkedChunk_eq_ok image extended below inPage) ?_
  exact .ok fits _

theorem completes_checkedAdds (below : page < numPages entry) :
    Completes (checkedAdds entry page)
      (entry.attributes &&& attributePageAug = 0 →
        entry.memoryAddress.toNat + page * pageSize < 2 ^ 64)
      (if entry.attributes &&& attributePageAug = 0 then
        [.pageAdd (entry.memoryAddress.toNat + page * pageSize)]
      else []) := by
  rw [checkedAdds]
  split
  · next added =>
      refine (completes_checkedPageAdd below).bind (fun fits => fits added) ?_
      intro fits
      exact .ok (fun _ => fits) _
  · next notAdded => exact .ok (fun added => absurd added notAdded) _

theorem completes_checkedExtends
    (image : fw.length < 2 ^ 64) (below : page < numPages entry) :
    Completes (checkedExtends entry page)
      (entry.IsExtended →
        entry.memoryAddress.toNat + page * pageSize < 2 ^ 64)
      (if entry.IsExtended then
        (List.range (pageSize / mrExtendGranularity)).map
          (extendChunk entry page)
      else []) := by
  rw [checkedExtends]
  split
  · next extended =>
      have chunks :
          Completes
            ((List.range (pageSize / mrExtendGranularity)).mapM
              (checkedExtendChunk entry page))
            (∀ index ∈ List.range (pageSize / mrExtendGranularity),
              entry.memoryAddress.toNat + page * pageSize < 2 ^ 64)
            ((List.range (pageSize / mrExtendGranularity)).map
              (extendChunk entry page)) :=
        .mapM fun index member =>
          completes_checkedExtendChunk image extended below
            (List.mem_range.1 member)
      refine chunks.congr ?_
      constructor
      · intro fits index _
        exact fits extended
      · intro fits _
        exact fits 0 (List.mem_range.2 (by decide))
  · next notExtended =>
      exact .ok (fun extended => absurd extended notExtended) _

theorem completes_checkedPageOperations
    (image : fw.length < 2 ^ 64) (below : page < numPages entry) :
    Completes (checkedPageOperations entry page)
      (IsMeasured entry.toTdvfSection →
        entry.memoryAddress.toNat + page * pageSize < 2 ^ 64)
      (pageOperations entry page) := by
  refine (completes_checkedAdds below).bind ?_ fun added => ?_
  · intro fits isAdded
    exact fits (Or.inl isAdded)
  refine (completes_checkedExtends image below).bind ?_ fun extended => ?_
  · intro fits isExtended
    exact fits (Or.inr isExtended)
  refine .ok ?_ _
  rintro (isAdded | isExtended)
  · exact added isAdded
  · exact extended isExtended

/-- The first addresses of all pages fit exactly if the section's end does. -/
theorem forall_page_fits_iff :
    (∀ page ∈ List.range (numPages entry),
        IsMeasured entry.toTdvfSection →
          entry.memoryAddress.toNat + page * pageSize < 2 ^ 64) ↔
      SectionFits entry.toTdvfSection := by
  rcases entry.address_aligned with ⟨first, address⟩
  rcases entry.size_aligned with ⟨count, size⟩
  have pages : numPages entry = count := by
    rw [numPages, size, Nat.mul_div_cancel_left _ (by decide)]
  have ends :
      (memoryRange entry.toTdvfSection).2 =
        entry.memoryAddress.toNat + count * pageSize := by
    rw [memoryRange, size, Nat.mul_comm]
  have addressSmall : entry.memoryAddress.toNat < 2 ^ 64 :=
    entry.memoryAddress.toNat_lt
  rw [SectionFits, ends, pages]
  constructor
  · intro fits measured
    rcases Nat.eq_zero_or_pos count with rfl | positive
    · omega
    · have last :=
        fits (count - 1) (List.mem_range.2 (Nat.sub_one_lt positive.ne'))
          measured
      rw [address] at last ⊢
      simp only [pageSize] at last ⊢
      omega
  · intro fits page member measured
    have below := List.mem_range.1 member
    have ended := fits measured
    rw [address] at ended ⊢
    simp only [pageSize] at ended ⊢
    omega

/-- The operations of a section that fits have addresses of 64 bits. -/
theorem gpa_lt_of_mem_sectionOperations
    (fits : SectionFits entry.toTdvfSection) {operation : Operation}
    (member : operation ∈ sectionOperations entry) :
    operation.gpa < 2 ^ 64 := by
  rcases List.mem_flatMap.1 member with ⟨page, inSection, inPage⟩
  have pageFits := forall_page_fits_iff.2 fits page inSection
  rcases List.mem_append.1 inPage with added | extended
  · split at added
    · next isAdded =>
        cases List.mem_singleton.1 added
        exact pageFits (Or.inl isAdded)
    · cases added
  · split at extended
    · next isExtended =>
        rcases List.mem_map.1 extended with ⟨index, inRange, rfl⟩
        exact
          chunk_fits (List.mem_range.1 inRange) (pageFits (Or.inr isExtended))
    · cases extended

theorem completes_checkedSectionOperations (image : fw.length < 2 ^ 64) :
    Completes (checkedSectionOperations entry)
      (SectionFits entry.toTdvfSection) (sectionOperations entry) := by
  have pages :
      Completes
        ((List.range (numPages entry)).mapM (checkedPageOperations entry))
        (∀ page ∈ List.range (numPages entry),
          IsMeasured entry.toTdvfSection →
            entry.memoryAddress.toNat + page * pageSize < 2 ^ 64)
        ((List.range (numPages entry)).map (pageOperations entry)) :=
    .mapM fun page member =>
      completes_checkedPageOperations image (List.mem_range.1 member)
  refine (pages.congr forall_page_fits_iff.symm).bind id fun fits => ?_
  rw [sectionOperations, List.flatMap_def]
  exact .ok fits _

end

section

variable {tdvf : Tdvf}

/-- The measurement of the image goes through exactly if its sections fit. -/
theorem completes_checkedMrtd
    (sha384 : Bytes → Block 48) (image : tdvf.fw.length < 2 ^ 64) :
    Completes (checkedMrtd sha384 tdvf)
      (∀ entry ∈ entriesOf tdvf, SectionFits entry) (mrtd sha384 tdvf) := by
  have sections :
      Completes (tdvf.sections.mapM checkedSectionOperations)
        (∀ entry ∈ tdvf.sections, SectionFits entry.toTdvfSection)
        (tdvf.sections.map sectionOperations) :=
    .mapM fun entry _ => completes_checkedSectionOperations image
  have all :
      Completes (checkedOperations tdvf)
        (∀ entry ∈ entriesOf tdvf, SectionFits entry) (operations tdvf) := by
    rw [entriesOf, List.forall_mem_map, operations, List.flatMap_def]
    exact sections.bind id fun fits => .ok fits _
  exact all.bind id fun fits => .ok fits _

end

end Confos.Tdx.MeasurePanics
