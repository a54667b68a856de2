import Confos.Tdx.PeFields
import Mathlib.Algebra.Group.Action.Defs
import Mathlib.Algebra.Order.BigOperators.Group.List
import Mathlib.Data.List.Sort

/-!
# The Authenticode hash

UEFI measures a PE image by a hash over its headers without the checksum and
the certificate directory entry, over its sections in file order, and over what
follows them without the certificate table.  The additions and slices of the
source are steps that can panic; what the checks in front of them leave is
stated as the parts of the message.
-/

namespace Confos.Tdx.Authenticode

open Confos.Library.ByteStrings
open Confos.Library.Checks
open Confos.Library.Fallible
open Confos.Tdx.Pe
open Confos.Tdx.PeFields

/-! ## The computation -/

/-- Where the parts of the headers end that are hashed. -/
structure HeaderLayout where
  coffOffset : Nat
  optHdrSize : Nat
  optHdrOffset : Nat
  checksumOffset : Nat
  checksumEnd : Nat
  certDirOffset : Nat
  certDirEnd : Nat
  sizeOfHeaders : Nat
deriving DecidableEq, Repr

/-- The offsets are checked before anything is hashed. -/
def checkLayout (data : Bytes) (layout : HeaderLayout) :
    Checked HeaderLayout :=
  if data.length < layout.certDirEnd then
    refuse s!"PE cert directory entry (offset 0x{lowerHex 0 layout.certDirEnd}) extends beyond file ({data.length} bytes)"
  else if data.length < layout.sizeOfHeaders then
    refuse s!"PE SizeOfHeaders ({layout.sizeOfHeaders}) exceeds file size ({data.length})"
  else if layout.sizeOfHeaders < layout.certDirEnd then
    refuse s!"PE SizeOfHeaders ({layout.sizeOfHeaders}) is smaller than cert directory end (0x{lowerHex 0 layout.certDirEnd})"
  else
    .ok layout

/-- The offsets behind the PE signature. -/
def optionalHeader (data : Bytes) (peSigOffset : Nat) :
    Checked HeaderLayout := do
  let coffOffset ← add64 peSigOffset 4
  let optHdrSize ← ofResult (readLe 2 data (← add64 coffOffset 16))
  let optHdrOffset ← add64 coffOffset 20
  let magic ← ofResult (readLe 2 data optHdrOffset)
  let checksumOffset ← add64 optHdrOffset 64
  let checksumEnd ← add64 checksumOffset 4
  let dataDirOffset ← add64 optHdrOffset (if magic = 0x20b then 112 else 96)
  let certDirOffset ← add64 dataDirOffset (4 * 8)
  let certDirEnd ← add64 certDirOffset 8
  let sizeOfHeaders ← ofResult (readLe 4 data (← add64 optHdrOffset 60))
  checkLayout data
    { coffOffset, optHdrSize, optHdrOffset, checksumOffset, checksumEnd,
      certDirOffset, certDirEnd, sizeOfHeaders }

def headerLayout (data : Bytes) : Checked HeaderLayout := do
  let peSigOffset ← ofResult (readLe 4 data 0x3C)
  let peSig ← ofResult (readLe 4 data peSigOffset)
  if peSig ≠ 0x00004550 then
    refuse s!"Invalid PE signature: 0x{lowerHex 8 peSig}"
  else
    optionalHeader data peSigOffset

/-- The raw data of one section: its offset and its size. -/
def sectionRange (data : Bytes) (sectionTableOffset index : Nat) :
    Checked (Nat × Nat) := do
  let secOffset ← add64 sectionTableOffset (index * 40)
  let ptrRawData ← ofResult (readLe 4 data (← add64 secOffset 20))
  let sizeRawData ← ofResult (readLe 4 data (← add64 secOffset 16))
  return (ptrRawData, sizeRawData)

/-- The sections that have raw data, in table order. -/
def sectionRanges (data : Bytes) (layout : HeaderLayout) :
    Checked (List (Nat × Nat)) := do
  let numSections ←
    ofResult (readLe 2 data (← add64 layout.coffOffset 2))
  let sectionTableOffset ← add64 layout.optHdrOffset layout.optHdrSize
  let ranges ←
    (List.range numSections).mapM (sectionRange data sectionTableOffset)
  return ranges.filter fun range => 0 < range.2

/-- The stable sort by file offset. -/
def sortRanges (ranges : List (Nat × Nat)) : List (Nat × Nat) :=
  ranges.insertionSort fun left right => left.1 ≤ right.1

/-- Hash the raw data of one section, and count its bytes. -/
def hashSection (data : Bytes) (state : Bytes × Nat) (range : Nat × Nat) :
    Checked (Bytes × Nat) :=
  let stop := range.1 + range.2
  if 2 ^ 64 ≤ stop then
    refuse "section offset+size overflow"
  else if data.length < stop then
    refuse s!"PE section at offset 0x{lowerHex 0 range.1} extends beyond file (need 0x{lowerHex 0 stop}, have 0x{lowerHex 0 data.length})"
  else do
    let raw ← cut data range.1 stop
    let sum ← add64 state.2 range.2
    return (state.1 ++ raw, sum)

/-- What stands between the bytes hashed so far and the certificate table. -/
def beforeTable (data : Bytes) (sumOfBytesHashed ctAddr : Nat) :
    Checked Bytes :=
  if sumOfBytesHashed < ctAddr then cut data sumOfBytesHashed ctAddr
  else .ok []

def behindTable (data : Bytes) (ctEnd : Nat) : Checked Bytes :=
  if ctEnd < data.length then cut data ctEnd data.length else .ok []

/-- What is hashed behind the sections, around the certificate table. -/
def trailingData
    (data : Bytes) (sumOfBytesHashed certTableAddr certTableSize : Nat) :
    Checked Bytes :=
  if sumOfBytesHashed < data.length then
    if 0 < certTableAddr ∧ 0 < certTableSize then
      if 2 ^ 64 ≤ certTableAddr + certTableSize then
        refuse "cert table addr + size overflow"
      else do
        let before ← beforeTable data sumOfBytesHashed certTableAddr
        let behind ← behindTable data (certTableAddr + certTableSize)
        return before ++ behind
    else
      cut data sumOfBytesHashed data.length
  else
    .ok []

/-- Zeros up to a multiple of eight. -/
def pad8 (length : Nat) : Bytes :=
  if length % 8 = 0 then [] else List.replicate (8 - length % 8) 0

/-- The headers around the checksum and the directory entry. -/
def hashHeaders (data : Bytes) (layout : HeaderLayout) : Checked Bytes := do
  let front ← cut data 0 layout.checksumOffset
  let middle ← cut data layout.checksumEnd layout.certDirOffset
  let back ← cut data layout.certDirEnd layout.sizeOfHeaders
  return front ++ middle ++ back

/-- What is hashed of the headers and the sections, and how many bytes it counts. -/
def hashParts (data : Bytes) : Checked (HeaderLayout × (Bytes × Nat)) := do
  let layout ← headerLayout data
  let headers ← hashHeaders data layout
  let ranges ← sectionRanges data layout
  let hashed ←
    (sortRanges ranges).foldlM (hashSection data)
      (headers, layout.sizeOfHeaders)
  return (layout, hashed)

/-- The certificate table is looked up behind the sections. -/
def hashTrailing
    (data : Bytes) (layout : HeaderLayout) (sumOfBytesHashed : Nat) :
    Checked Bytes := do
  let certTableAddr ← ofResult (readLe 4 data layout.certDirOffset)
  let certTableSize ←
    ofResult (readLe 4 data (← add64 layout.certDirOffset 4))
  trailingData data sumOfBytesHashed certTableAddr certTableSize

/-- The bytes that are hashed, in the order of the source. -/
def authenticodeMessage (data : Bytes) : Checked Bytes := do
  let (layout, hashed) ← hashParts data
  let trailing ← hashTrailing data layout hashed.2
  return hashed.1 ++ trailing ++ pad8 data.length

def authenticodeSha384 (sha384 : Bytes → Block 48) (data : Bytes) :
    Checked (Block 48) := do
  return sha384 (← authenticodeMessage data)

/-! ## Fields -/

section

variable (data : Bytes)

def dataDirOffset : Nat :=
  optHdrOffset data + if numberAt data (optHdrOffset data) 2 = 0x20b then 112 else 96

def checksumOffset : Nat :=
  optHdrOffset data + 64

/-- Where the directory entry of the certificate table stands. -/
def certDirOffset : Nat :=
  dataDirOffset data + 32

def sizeOfHeaders : Nat :=
  numberAt data (optHdrOffset data + 60) 4

def certTableAddr : Nat :=
  numberAt data (certDirOffset data) 4

def certTableSize : Nat :=
  numberAt data (certDirOffset data + 4) 4

def rawRange (index : Nat) : Nat × Nat :=
  (numberAt data (headerOffset data index + 20) 4,
    numberAt data (headerOffset data index + 16) 4)

/-- The sections that have raw data, as the table states them. -/
def rawRanges : List (Nat × Nat) :=
  ((List.range (numberOfSections data)).map (rawRange data)).filter
    fun range => 0 < range.2

def layoutOf : HeaderLayout where
  coffOffset := coffOffset data
  optHdrSize := optHdrSize data
  optHdrOffset := optHdrOffset data
  checksumOffset := checksumOffset data
  checksumEnd := checksumOffset data + 4
  certDirOffset := certDirOffset data
  certDirEnd := certDirOffset data + 8
  sizeOfHeaders := sizeOfHeaders data

/-- The headers are in the file, and their size covers the directory entry. -/
structure HeadersFit : Prop where
  signature : numberAt data (peOffset data) 4 = 0x00004550
  directory : certDirOffset data + 8 ≤ data.length
  headers : sizeOfHeaders data ≤ data.length
  covers : certDirOffset data + 8 ≤ sizeOfHeaders data

/-- The fields that are read of the section headers are in the file. -/
def TableFits : Prop :=
  ∀ index < numberOfSections data, headerOffset data index + 24 ≤ data.length

instance : Decidable (TableFits data) :=
  Nat.decidableBallLT _ _

/-- The raw data of every section is in the file. -/
def SectionsFit : Prop :=
  ∀ range ∈ rawRanges data, range.1 + range.2 ≤ data.length

instance : Decidable (SectionsFit data) :=
  List.decidableBAll _ _

/-- The headers and sections, by the sizes they state. -/
def sumOfBytesHashed : Nat :=
  sizeOfHeaders data + ((rawRanges data).map (·.2)).sum

theorem dataDirOffset_bounds :
    optHdrOffset data + 96 ≤ dataDirOffset data ∧
      dataDirOffset data ≤ optHdrOffset data + 112 := by
  rw [dataDirOffset]
  split
  · omega
  · omega

theorem certDirOffset_lt : certDirOffset data < 2 ^ 33 := by
  have pe := peOffset_lt data
  have bounds := dataDirOffset_bounds data
  simp only [certDirOffset, optHdrOffset, coffOffset] at bounds ⊢
  omega

end

/-! ## What is checked -/

section

variable {data : Bytes}

theorem decides_checkLayout (layout : HeaderLayout) :
    Decides (checkLayout data layout)
      (layout.certDirEnd ≤ data.length ∧
        layout.sizeOfHeaders ≤ data.length ∧
          layout.certDirEnd ≤ layout.sizeOfHeaders)
      layout := by
  refine .ite_refuse (fun fit => not_lt.2 fit.1) fun directory => ?_
  refine .ite_refuse (fun fit => not_lt.2 fit.2.1) fun headers => ?_
  refine .ite_refuse (fun fit => not_lt.2 fit.2.2) fun covers => ?_
  exact .ok ⟨not_lt.1 directory, not_lt.1 headers, not_lt.1 covers⟩ layout

theorem decides_optionalHeader :
    Decides (optionalHeader data (peOffset data))
      (certDirOffset data + 8 ≤ data.length ∧
        sizeOfHeaders data ≤ data.length ∧
          certDirOffset data + 8 ≤ sizeOfHeaders data)
      (layoutOf data) := by
  have pe := peOffset_lt data
  have bounds := dataDirOffset_bounds data
  have coff : coffOffset data = peOffset data + 4 := rfl
  have opt : optHdrOffset data = coffOffset data + 20 := rfl
  have directory : certDirOffset data = dataDirOffset data + 32 := rfl
  have directories :
      add64 (optHdrOffset data)
          (if numberAt data (optHdrOffset data) 2 = 0x20b then 112 else 96) =
        .ok (dataDirOffset data) := by
    apply add64_eq_ok
    change dataDirOffset data < 2 ^ 64
    omega
  refine .bind_ok (add64_eq_ok (by omega)) ?_
  refine .bind_ok (add64_eq_ok (by omega)) ?_
  refine .bind decides_readLe (fun fit => by omega) fun _ => ?_
  refine .bind_ok (add64_eq_ok (by omega)) ?_
  refine .bind decides_readLe (fun fit => by omega) fun _ => ?_
  refine .bind_ok (add64_eq_ok (by omega)) ?_
  refine .bind_ok (add64_eq_ok (by omega)) ?_
  refine .bind_ok directories ?_
  refine .bind_ok (add64_eq_ok (by omega)) ?_
  refine .bind_ok (add64_eq_ok (by omega)) ?_
  refine .bind_ok (add64_eq_ok (by omega)) ?_
  refine .bind decides_readLe (fun fit => by omega) fun _ => ?_
  exact decides_checkLayout (layoutOf data)

/-- The headers are refused or laid out as their fields state; nothing panics. -/
theorem decides_headerLayout :
    Decides (headerLayout data) (HeadersFit data) (layoutOf data) := by
  have bounds := dataDirOffset_bounds data
  have coff : coffOffset data = peOffset data + 4 := rfl
  have opt : optHdrOffset data = coffOffset data + 20 := rfl
  have directory : certDirOffset data = dataDirOffset data + 32 := rfl
  have offset : peOffset data = numberAt data 0x3C 4 := rfl
  refine .bind decides_readLe (fun fit => ?_) fun _ => ?_
  · have inside := fit.directory
    omega
  refine .bind decides_readLe (fun fit => ?_) fun _ => ?_
  · have inside := fit.directory
    omega
  refine .ite_refuse (fun fit => not_not.2 fit.signature) fun signature => ?_
  refine Decides.congr decides_optionalHeader ?_
  constructor
  · intro fit
    exact ⟨fit.directory, fit.headers, fit.covers⟩
  · rintro ⟨inside, headers, covers⟩
    exact ⟨not_not.1 signature, inside, headers, covers⟩

theorem decides_sectionRange {index : Nat} (known : index < 2 ^ 16) :
    Decides (sectionRange data (sectionTable data) index)
      (headerOffset data index + 24 ≤ data.length) (rawRange data index) := by
  have small := headerOffset_lt data known.le
  have offset : headerOffset data index = sectionTable data + index * 40 := rfl
  refine .bind_ok (add64_eq_ok (by omega)) ?_
  refine .bind_ok (add64_eq_ok (by omega)) ?_
  refine .bind decides_readLe (fun fit => by omega) fun inside => ?_
  refine .bind_ok (add64_eq_ok (by omega)) ?_
  refine .bind decides_readLe (fun fit => by omega) fun _ => ?_
  exact .ok (by omega) _

theorem decides_sectionRanges (fit : HeadersFit data) :
    Decides (sectionRanges data (layoutOf data)) (TableFits data)
      (rawRanges data) := by
  have pe := peOffset_lt data
  have size := optHdrSize_lt data
  have number := numberOfSections_lt data
  have bounds := dataDirOffset_bounds data
  have inside := fit.directory
  have coff : coffOffset data = peOffset data + 4 := rfl
  have opt : optHdrOffset data = coffOffset data + 20 := rfl
  have directory : certDirOffset data = dataDirOffset data + 32 := rfl
  have numberField : add64 (coffOffset data) 2 = .ok (coffOffset data + 2) :=
    add64_eq_ok (by omega)
  have table :
      add64 (optHdrOffset data) (optHdrSize data) = .ok (sectionTable data) :=
    add64_eq_ok (by omega)
  have numberInside : coffOffset data + 2 + 2 ≤ data.length := by omega
  refine .bind_ok numberField ?_
  refine .bind decides_readLe (fun _ => numberInside) fun _ => ?_
  refine .bind_ok table ?_
  refine .bind (.mapM fun index member => decides_sectionRange ?_) ?_ ?_
  · exact (List.mem_range.1 member).trans number
  · intro all index member
    exact all index (List.mem_range.1 member)
  · intro all
    refine .ok ?_ _
    intro index below
    exact all index (List.mem_range.2 below)

theorem decides_hashSection
    {state : Bytes × Nat} {range : Nat × Nat}
    (small : range.1 + range.2 < 2 ^ 64) (fits : state.2 + range.2 < 2 ^ 64) :
    Decides (hashSection data state range) (range.1 + range.2 ≤ data.length)
      (state.1 ++ slice data range.1 range.2, state.2 + range.2) := by
  refine .ite_refuse (fun _ => not_le.2 small) fun _ => ?_
  refine .ite_refuse (fun inside => not_lt.2 inside) fun inside => ?_
  have raw :
      cut data range.1 (range.1 + range.2) =
        .ok (slice data range.1 range.2) := by
    rw [cut_eq_ok (Nat.le_add_right _ _) (not_lt.1 inside),
      Nat.add_sub_cancel_left]
  refine .bind_ok raw ?_
  refine .bind_ok (add64_eq_ok fits) ?_
  exact .ok (not_lt.1 inside) _

/-- The loop hashes the sections one behind the other and adds up their sizes. -/
theorem decides_hashSections
    {ranges : List (Nat × Nat)} {state : Bytes × Nat}
    (small : ∀ range ∈ ranges, range.1 + range.2 < 2 ^ 64)
    (fits : state.2 + (ranges.map (·.2)).sum < 2 ^ 64) :
    Decides (ranges.foldlM (hashSection data) state)
      (∀ range ∈ ranges, range.1 + range.2 ≤ data.length)
      (state.1 ++ ranges.flatMap (fun range => slice data range.1 range.2),
        state.2 + (ranges.map (·.2)).sum) := by
  induction ranges generalizing state with
  | nil =>
      rw [List.foldlM_nil, List.flatMap_nil, List.map_nil, List.sum_nil,
        List.append_nil, Nat.add_zero]
      exact .ok (fun _ member => absurd member List.not_mem_nil) state
  | cons range ranges induction =>
      rcases List.forall_mem_cons.1 small with ⟨first, others⟩
      rw [List.map_cons, List.sum_cons] at fits
      rw [List.foldlM_cons, List.flatMap_cons, List.map_cons, List.sum_cons,
        ← List.append_assoc, ← Nat.add_assoc]
      refine .bind (decides_hashSection first (by omega)) ?_ ?_
      · intro all
        exact all range List.mem_cons_self
      · intro inside
        have rest :
            (state.2 + range.2) + (ranges.map (·.2)).sum < 2 ^ 64 := by
          omega
        refine Decides.congr (induction others rest) ?_
        rw [List.forall_mem_cons, and_iff_right inside]

theorem sortRanges_perm (ranges : List (Nat × Nat)) :
    (sortRanges ranges).Perm ranges :=
  List.perm_insertionSort _ _

theorem rawRange_lt {range : Nat × Nat} (member : range ∈ rawRanges data) :
    range.1 < 2 ^ 32 ∧ range.2 < 2 ^ 32 := by
  rcases List.mem_map.1 (List.mem_filter.1 member).1 with ⟨index, -, rfl⟩
  exact ⟨numberAt_lt data _ 4, numberAt_lt data _ 4⟩

/-- As many sections as there can be do not overflow the count of their bytes. -/
theorem sumOfBytesHashed_lt : sumOfBytesHashed data < 2 ^ 64 := by
  have headers : sizeOfHeaders data < 2 ^ 32 := numberAt_lt data _ 4
  have number := numberOfSections_lt data
  have count : (rawRanges data).length ≤ numberOfSections data := by
    have filtered :=
      List.length_filter_le (fun range : Nat × Nat => decide (0 < range.2))
        ((List.range (numberOfSections data)).map (rawRange data))
    rwa [List.length_map, List.length_range] at filtered
  have sizes :
      ((rawRanges data).map (·.2)).sum ≤
        ((rawRanges data).map (·.2)).length • 2 ^ 32 := by
    apply List.sum_le_card_nsmul
    intro size member
    rcases List.mem_map.1 member with ⟨range, inTable, rfl⟩
    exact (rawRange_lt inTable).2.le
  rw [List.length_map, smul_eq_mul] at sizes
  have bound : (rawRanges data).length * 2 ^ 32 ≤ 2 ^ 16 * 2 ^ 32 :=
    Nat.mul_le_mul_right _ (count.trans number.le)
  rw [sumOfBytesHashed]
  omega

end

/-! ## What is hashed -/

section

variable (data : Bytes)

def headersPart : Bytes :=
  slice data 0 (checksumOffset data) ++
      slice data (checksumOffset data + 4)
        (certDirOffset data - (checksumOffset data + 4)) ++
    slice data (certDirOffset data + 8)
      (sizeOfHeaders data - (certDirOffset data + 8))

/-- The raw data of the sections in file order. -/
def sectionsPart : Bytes :=
  (sortRanges (rawRanges data)).flatMap fun range =>
    slice data range.1 range.2

/-- The headers and all sections are in the file. -/
structure PartsFit : Prop where
  headers : HeadersFit data
  table : TableFits data
  sections : SectionsFit data

end

section

variable {data : Bytes}

theorem hashHeaders_eq (fit : HeadersFit data) :
    hashHeaders data (layoutOf data) = .ok (headersPart data) := by
  have inside := fit.directory
  have headers := fit.headers
  have covers := fit.covers
  have bounds := dataDirOffset_bounds data
  have checksum : checksumOffset data = optHdrOffset data + 64 := rfl
  have directory : certDirOffset data = dataDirOffset data + 32 := rfl
  have front :
      cut data 0 (checksumOffset data) =
        .ok (slice data 0 (checksumOffset data)) :=
    cut_eq_ok (Nat.zero_le _) (by omega)
  have middle :
      cut data (checksumOffset data + 4) (certDirOffset data) = .ok _ :=
    cut_eq_ok (by omega) (by omega)
  have back :
      cut data (certDirOffset data + 8) (sizeOfHeaders data) = .ok _ :=
    cut_eq_ok covers headers
  simp only [hashHeaders, layoutOf, front, middle, back]
  rfl

theorem decides_hashParts :
    Decides (hashParts data) (PartsFit data)
      (layoutOf data,
        (headersPart data ++ sectionsPart data, sumOfBytesHashed data)) := by
  have sorted := sortRanges_perm (rawRanges data)
  have sum :
      sizeOfHeaders data + ((sortRanges (rawRanges data)).map (·.2)).sum =
        sumOfBytesHashed data := by
    rw [sumOfBytesHashed, (sorted.map _).sum_eq]
  have small :
      ∀ range ∈ sortRanges (rawRanges data), range.1 + range.2 < 2 ^ 64 := by
    intro range member
    have bounds := rawRange_lt (sorted.mem_iff.1 member)
    omega
  have fits := @sumOfBytesHashed_lt data
  refine .bind decides_headerLayout (fun fit => fit.headers) fun headers => ?_
  refine .bind_ok (hashHeaders_eq headers) ?_
  refine
    .bind (decides_sectionRanges headers) (fun fit => fit.table) fun table => ?_
  refine .bind (decides_hashSections small (sum ▸ fits)) ?_ ?_
  · intro fit range member
    exact fit.sections range (sorted.mem_iff.1 member)
  · intro inside
    rw [← sum]
    refine .ok ⟨headers, table, ?_⟩ _
    intro range member
    exact inside range (sorted.mem_iff.2 member)

/-- The certificate directory entry is in the file where the headers fit. -/
theorem hashTrailing_eq (fit : HeadersFit data) (sum : Nat) :
    hashTrailing data (layoutOf data) sum =
      trailingData data sum (certTableAddr data) (certTableSize data) := by
  have inside := fit.directory
  have small := certDirOffset_lt data
  have addr :
      ofResult (readLe 4 data (certDirOffset data)) =
        .ok (certTableAddr data) :=
    decides_readLe.eq_ok (by omega)
  have next :
      add64 (certDirOffset data) 4 = .ok (certDirOffset data + 4) :=
    add64_eq_ok (by omega)
  have size :
      ofResult (readLe 4 data (certDirOffset data + 4)) =
        .ok (certTableSize data) :=
    decides_readLe.eq_ok (by omega)
  simp only [hashTrailing, layoutOf, addr, next]
  change
    (ofResult (readLe 4 data (certDirOffset data + 4)) >>= fun size =>
      trailingData data sum (certTableAddr data) size) = _
  rw [size]
  rfl

theorem behindTable_eq (ctEnd : Nat) :
    behindTable data ctEnd = .ok (data.drop ctEnd) := by
  rw [behindTable]
  split
  · next inside =>
      rw [cut_eq_ok inside.le le_rfl, slice]
      congr 1
      apply List.take_of_length_le
      rw [List.length_drop]
  · next outside => rw [List.drop_of_length_le (not_lt.1 outside)]

/-- The bytes hashed, where the headers and sections are in the file. -/
theorem authenticodeMessage_eq_ok_iff {message : Bytes} :
    authenticodeMessage data = .ok message ↔
      PartsFit data ∧
        ∃ trailing,
          trailingData data (sumOfBytesHashed data) (certTableAddr data)
              (certTableSize data) =
            .ok trailing ∧
          message =
            headersPart data ++ sectionsPart data ++ trailing ++
              pad8 data.length := by
  rw [authenticodeMessage, decides_hashParts.bind_eq_ok_iff]
  apply and_congr_right
  intro fit
  dsimp only
  rw [hashTrailing_eq fit.headers, bind_eq_ok]
  apply exists_congr
  intro trailing
  apply and_congr_right
  intro _
  constructor
  · intro returned
    cases returned
    rfl
  · rintro rfl
    rfl

end

end Confos.Tdx.Authenticode
