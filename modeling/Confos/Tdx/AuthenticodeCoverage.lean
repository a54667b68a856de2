import Confos.Library.Patches
import Confos.Tdx.Authenticode

/-!
# What the Authenticode hash covers

In a file whose sections lie back to back behind the headers, and whose
certificate table is its end, the hashed bytes are the whole file with three
holes: the checksum, the certificate directory entry and the table itself.
-/

namespace Confos.Tdx.AuthenticodeCoverage

open Confos.Library.ByteStrings
open Confos.Library.Checks
open Confos.Library.Patches
open Confos.Tdx.PeFields
open Confos.Tdx.Authenticode

/-! ## Sections back to back -/

/-- Ranges that follow each other from `start` to `stop` without a gap. -/
def Abuts : Nat → List (Nat × Nat) → Nat → Prop
  | start, [], stop => start = stop
  | start, range :: ranges, stop =>
      range.1 = start ∧ Abuts (start + range.2) ranges stop

/-- In some order the ranges follow each other from `start` to `stop`. -/
def Tiles (ranges : List (Nat × Nat)) (start stop : Nat) : Prop :=
  ∃ ordered, ordered.Perm ranges ∧ Abuts start ordered stop

section

variable {data : Bytes} {ranges ordered : List (Nat × Nat)} {start stop : Nat}

theorem Abuts.sum (abuts : Abuts start ordered stop) :
    start + (ordered.map (·.2)).sum = stop := by
  induction ordered generalizing start with
  | nil => exact abuts
  | cons range ordered induction =>
      have rest := induction abuts.2
      rw [List.map_cons, List.sum_cons]
      omega

theorem Abuts.start_le
    (abuts : Abuts start ordered stop) :
    ∀ range ∈ ordered, start ≤ range.1 := by
  induction ordered generalizing start with
  | nil =>
      intro range impossible
      cases impossible
  | cons first ordered induction =>
      intro range member
      rcases List.mem_cons.1 member with rfl | later
      · exact abuts.1.ge
      · exact (Nat.le_add_right _ _).trans (induction abuts.2 range later)

/-- Ranges with bytes start each behind the one before. -/
theorem Abuts.pairwise
    (abuts : Abuts start ordered stop)
    (positive : ∀ range ∈ ordered, 0 < range.2) :
    ordered.Pairwise fun left right => left.1 < right.1 := by
  induction ordered generalizing start with
  | nil => exact List.Pairwise.nil
  | cons first ordered induction =>
      rcases List.forall_mem_cons.1 positive with ⟨nonempty, others⟩
      refine List.Pairwise.cons ?_ (induction abuts.2 others)
      intro range member
      have behind := Abuts.start_le abuts.2 range member
      have here := abuts.1
      omega

theorem Abuts.stop_le
    {last : Nat} (abuts : Abuts start ordered stop) (first : start ≤ last)
    (inside : ∀ range ∈ ordered, range.1 + range.2 ≤ last) :
    stop ≤ last := by
  induction ordered generalizing start with
  | nil =>
      have same : start = stop := abuts
      exact same ▸ first
  | cons range ordered induction =>
      rcases List.forall_mem_cons.1 inside with ⟨ends, others⟩
      rw [abuts.1] at ends
      exact induction abuts.2 ends others

/-- The raw data of such ranges is one stretch of the file. -/
theorem Abuts.flatMap_slice (abuts : Abuts start ordered stop) :
    ordered.flatMap (fun range => slice data range.1 range.2) =
      slice data start (stop - start) := by
  induction ordered generalizing start with
  | nil =>
      have same : start = stop := abuts
      rw [same, Nat.sub_self]
      rfl
  | cons first ordered induction =>
      have total := Abuts.sum abuts
      rw [List.map_cons, List.sum_cons] at total
      have here := abuts.1
      have size : stop - start = first.2 + (stop - (start + first.2)) := by
        omega
      rw [List.flatMap_cons, induction abuts.2, here, size, slice_add]

/-- The sort finds the order in which the ranges follow each other. -/
theorem sortRanges_eq_of_abuts
    (arranged : ordered.Perm ranges) (abuts : Abuts start ordered stop)
    (positive : ∀ range ∈ ranges, 0 < range.2) :
    sortRanges ranges = ordered := by
  have strictly :=
    abuts.pairwise fun range member =>
      positive range (arranged.mem_iff.1 member)
  have perm : (sortRanges ranges).Perm ordered :=
    (sortRanges_perm ranges).trans arranged.symm
  have sorted :
      (sortRanges ranges).Pairwise fun left right => left.1 ≤ right.1 :=
    List.pairwise_insertionSort _ _
  have starts : (ordered.map (·.1)).Nodup :=
    List.pairwise_map.2 (strictly.imp fun before => before.ne)
  refine
    perm.eq_of_pairwise ?_ sorted
      (strictly.imp fun before => before.le)
  intro left right leftMember rightMember leftFirst rightFirst
  exact
    List.inj_on_of_nodup_map starts (perm.mem_iff.1 leftMember) rightMember
      (Nat.le_antisymm leftFirst rightFirst)

theorem rawRanges_positive : ∀ range ∈ rawRanges data, 0 < range.2 := by
  intro range member
  exact of_decide_eq_true (List.mem_filter.1 member).2

end

/-! ## Tiled files -/

section

variable (data : Bytes)

/-- A file without a certificate table. -/
def Unsigned : Prop :=
  certTableAddr data = 0 ∧ certTableSize data = 0

instance : Decidable (Unsigned data) :=
  inferInstanceAs (Decidable (_ ∧ _))

/-- No certificate table, or one that is the end of the file. -/
def TableAtEnd (stop : Nat) : Prop :=
  Unsigned data ∨
    (stop ≤ certTableAddr data ∧
      certTableAddr data + certTableSize data = data.length)

/--
An accepted file whose optional header has the certificate directory entry,
whose sections lie back to back behind the headers, and whose certificate
table, if it has one, is its end.
-/
structure TiledPe (stop : Nat) : Prop where
  accepted : ∃ message, authenticodeMessage data = .ok message
  entry_inside :
    certDirOffset data + 8 ≤ optHdrOffset data + optHdrSize data
  tiles : Tiles (rawRanges data) (sizeOfHeaders data) stop
  table : TableAtEnd data stop

/-- Where the certificate table starts, or the file ends. -/
def contentEnd : Nat :=
  if Unsigned data then data.length else certTableAddr data

/-- Zeros that bring a length to a multiple of eight. -/
def zerosToMultiple (length : Nat) : Bytes :=
  List.replicate ((8 - length % 8) % 8) 0

/-- The file in order without its three holes, and the zeros behind it. -/
def coveredBytes : Bytes :=
  slice data 0 (checksumOffset data) ++
        slice data (checksumOffset data + 4)
          (certDirOffset data - (checksumOffset data + 4)) ++
      slice data (certDirOffset data + 8)
        (contentEnd data - (certDirOffset data + 8)) ++
    zerosToMultiple data.length

end

section

variable {data : Bytes} {stop : Nat}

theorem dvd_add_zerosToMultiple (length : Nat) :
    8 ∣ length + (zerosToMultiple length).length := by
  rw [zerosToMultiple, List.length_replicate]
  omega

theorem pad8_eq (length : Nat) : pad8 length = zerosToMultiple length := by
  rw [pad8, zerosToMultiple]
  split
  · next multiple =>
      rw [multiple]
      rfl
  · next other =>
      congr 1
      omega

/-- What is hashed of the sections of a tiled file. -/
theorem sectionsPart_of_tiles
    (tiles : Tiles (rawRanges data) (sizeOfHeaders data) stop) :
    sectionsPart data =
        slice data (sizeOfHeaders data) (stop - sizeOfHeaders data) ∧
      sumOfBytesHashed data = stop := by
  rcases tiles with ⟨ordered, arranged, abuts⟩
  constructor
  · rw [sectionsPart,
      sortRanges_eq_of_abuts arranged abuts rawRanges_positive,
      abuts.flatMap_slice]
  · rw [sumOfBytesHashed, ← (arranged.map _).sum_eq, abuts.sum]

theorem stop_bounds
    (parts : PartsFit data)
    (tiles : Tiles (rawRanges data) (sizeOfHeaders data) stop) :
    sizeOfHeaders data ≤ stop ∧ stop ≤ data.length := by
  rcases tiles with ⟨ordered, arranged, abuts⟩
  have total := abuts.sum
  refine ⟨by omega, abuts.stop_le parts.headers.headers ?_⟩
  intro range member
  exact parts.sections range (arranged.mem_iff.1 member)

theorem contentEnd_bounds
    (inside : stop ≤ data.length) (table : TableAtEnd data stop) :
    stop ≤ contentEnd data ∧ contentEnd data ≤ data.length := by
  rw [contentEnd]
  split
  · exact ⟨inside, le_rfl⟩
  · next signed =>
      rcases table with unsigned | ⟨starts, ends⟩
      · exact absurd unsigned signed
      · omega

/-- Behind the sections all is hashed up to the certificate table. -/
theorem trailingData_of_tableAtEnd
    (positive : 0 < stop) (inside : stop ≤ data.length)
    (table : TableAtEnd data stop) :
    trailingData data stop (certTableAddr data) (certTableSize data) =
      .ok (slice data stop (contentEnd data - stop)) := by
  have bounds := contentEnd_bounds inside table
  rw [trailingData]
  by_cases trailing : stop < data.length
  · rw [if_pos trailing]
    by_cases present : 0 < certTableAddr data ∧ 0 < certTableSize data
    · have signed : ¬ Unsigned data := by
        rintro ⟨noAddr, -⟩
        omega
      rcases table with unsigned | ⟨starts, ends⟩
      · exact absurd unsigned signed
      · have addr : certTableAddr data < 2 ^ 32 := numberAt_lt data _ 4
        have size : certTableSize data < 2 ^ 32 := numberAt_lt data _ 4
        have before :
            beforeTable data stop (certTableAddr data) =
              .ok (slice data stop (certTableAddr data - stop)) := by
          rw [beforeTable]
          split
          · exact cut_eq_ok starts (by omega)
          · next same =>
              rw [Nat.sub_eq_zero_of_le (not_lt.1 same)]
              rfl
        rw [if_pos present, if_neg (by omega), before, behindTable_eq, ends,
          List.drop_length, contentEnd, if_neg signed]
        exact congrArg Except.ok (List.append_nil _)
    · have ended : contentEnd data = data.length := by
        rw [contentEnd]
        split
        · rfl
        · rcases table with unsigned | ⟨starts, ends⟩
          · contradiction
          · omega
      rw [if_neg present, ended, cut_eq_ok inside le_rfl]
  · have here : contentEnd data - stop = 0 := by omega
    rw [if_neg trailing, here]
    rfl

/-- The hashed bytes of a file whose parts fit and lie back to back. -/
theorem authenticodeMessage_of_parts
    (parts : PartsFit data)
    (tiles : Tiles (rawRanges data) (sizeOfHeaders data) stop)
    (table : TableAtEnd data stop) :
    authenticodeMessage data = .ok (coveredBytes data) := by
  rcases stop_bounds parts tiles with ⟨behindHeaders, inside⟩
  rcases contentEnd_bounds inside table with ⟨behindSections, contentInside⟩
  rcases sectionsPart_of_tiles tiles with ⟨sections, sum⟩
  have covers := parts.headers.covers
  have positive : 0 < stop := by omega
  have trailing := trailingData_of_tableAtEnd positive inside table
  apply authenticodeMessage_eq_ok_iff.2
  refine ⟨parts, slice data stop (contentEnd data - stop), ?_, ?_⟩
  · rw [sum]
    exact trailing
  rw [coveredBytes, headersPart, sections, pad8_eq,
    ← slice_append_slice covers (behindHeaders.trans behindSections),
    ← slice_append_slice behindHeaders behindSections]
  simp only [List.append_assoc]

theorem TiledPe.parts (pe : TiledPe data stop) : PartsFit data := by
  rcases pe.accepted with ⟨message, accepted⟩
  exact (authenticodeMessage_eq_ok_iff.1 accepted).1

theorem TiledPe.message_eq (pe : TiledPe data stop) :
    authenticodeMessage data = .ok (coveredBytes data) :=
  authenticodeMessage_of_parts pe.parts pe.tiles pe.table

end

/-! ## Files with the same fields -/

/-- A range of the file beside the checksum and the directory entry. -/
def BesideFields (data : Bytes) (start stop : Nat) : Prop :=
  stop ≤ checksumOffset data ∨
    (checksumOffset data + 4 ≤ start ∧ stop ≤ certDirOffset data) ∨
      certDirOffset data + 8 ≤ start

/-- A file that keeps another one's bytes beside the two fields. -/
structure Keeps (data other : Bytes) : Prop where
  longer : data.length ≤ other.length
  same :
    ∀ start size, start + size ≤ data.length →
      BesideFields data start (start + size) →
        slice other start size = slice data start size

/-- What is read of a file with the directory entry in its optional header. -/
structure HasFields (data : Bytes) : Prop where
  parts : PartsFit data
  entry_inside :
    certDirOffset data + 8 ≤ optHdrOffset data + optHdrSize data

theorem TiledPe.hasFields
    {data : Bytes} {stop : Nat} (pe : TiledPe data stop) : HasFields data :=
  ⟨pe.parts, pe.entry_inside⟩

section

variable {data other : Bytes}

theorem fields_order (data : Bytes) :
    checksumOffset data = peOffset data + 88 ∧
      checksumOffset data + 4 ≤ certDirOffset data := by
  have bounds := dataDirOffset_bounds data
  have coff : coffOffset data = peOffset data + 4 := rfl
  have opt : optHdrOffset data = coffOffset data + 20 := rfl
  have checksum : checksumOffset data = optHdrOffset data + 64 := rfl
  have directory : certDirOffset data = dataDirOffset data + 32 := rfl
  omega

theorem Keeps.numberAt_eq
    (keeps : Keeps data other) {offset size : Nat}
    (inside : offset + size ≤ data.length)
    (beside : BesideFields data offset (offset + size)) :
    numberAt other offset size = numberAt data offset size :=
  congrArg ofLeBytes (keeps.same offset size inside beside)

/-- The fields of the headers in front of the checksum. -/
structure SameHeaders (data other : Bytes) : Prop where
  pe : peOffset other = peOffset data
  number : numberOfSections other = numberOfSections data
  size : optHdrSize other = optHdrSize data
  directories : dataDirOffset other = dataDirOffset data
  headers : sizeOfHeaders other = sizeOfHeaders data

theorem Keeps.sameHeaders
    (keeps : Keeps data other) (fit : HeadersFit data) :
    SameHeaders data other := by
  have order := fields_order data
  have inside := fit.directory
  have read :
      ∀ offset size, offset + size ≤ checksumOffset data →
        numberAt other offset size = numberAt data offset size := by
    intro offset size before
    exact keeps.numberAt_eq (by omega) (Or.inl before)
  have pe : peOffset other = peOffset data := read 0x3C 4 (by omega)
  have coff : coffOffset other = coffOffset data := by
    rw [coffOffset, coffOffset, pe]
  have opt : optHdrOffset other = optHdrOffset data := by
    rw [optHdrOffset, optHdrOffset, coff]
  have coffAt : coffOffset data = peOffset data + 4 := rfl
  have optAt : optHdrOffset data = coffOffset data + 20 := rfl
  constructor
  · exact pe
  · rw [numberOfSections, numberOfSections, coff, read _ _ (by omega)]
  · rw [optHdrSize, optHdrSize, coff, read _ _ (by omega)]
  · rw [dataDirOffset, dataDirOffset, opt, read _ _ (by omega)]
  · rw [sizeOfHeaders, sizeOfHeaders, opt, read _ _ (by omega)]

namespace SameHeaders

variable (same : SameHeaders data other)

include same

theorem coff : coffOffset other = coffOffset data := by
  rw [coffOffset, coffOffset, same.pe]

theorem opt : optHdrOffset other = optHdrOffset data := by
  rw [optHdrOffset, optHdrOffset, same.coff]

theorem checksum : checksumOffset other = checksumOffset data := by
  rw [checksumOffset, checksumOffset, same.opt]

theorem certDir : certDirOffset other = certDirOffset data := by
  rw [certDirOffset, certDirOffset, same.directories]

theorem header (index : Nat) :
    headerOffset other index = headerOffset data index := by
  rw [headerOffset, headerOffset, sectionTable, sectionTable, same.opt,
    same.size]

end SameHeaders

theorem Keeps.rawRanges_eq
    (keeps : Keeps data other) (fields : HasFields data) :
    rawRanges other = rawRanges data := by
  have same := keeps.sameHeaders fields.parts.headers
  have entry := fields.entry_inside
  rw [rawRanges, rawRanges, same.number]
  congr 1
  apply List.map_congr_left
  intro index member
  have fits := fields.parts.table index (List.mem_range.1 member)
  have behind : certDirOffset data + 8 ≤ headerOffset data index :=
    entry.trans (Nat.le_add_right _ _)
  rw [rawRange, rawRange, same.header,
    keeps.numberAt_eq (by omega) (Or.inr (Or.inr (by omega))),
    keeps.numberAt_eq (by omega) (Or.inr (Or.inr (by omega)))]

/-- A file that keeps the fields of an accepted one has its parts. -/
theorem Keeps.parts
    (keeps : Keeps data other) (fields : HasFields data) : PartsFit other := by
  have same := keeps.sameHeaders fields.parts.headers
  have fit := fields.parts.headers
  have longer := keeps.longer
  have order := fields_order data
  have inside := fit.directory
  refine ⟨⟨?_, ?_, ?_, ?_⟩, ?_, ?_⟩
  · rw [same.pe, keeps.numberAt_eq (by omega) (Or.inl (by omega))]
    exact fit.signature
  · rw [same.certDir]
    omega
  · rw [same.headers]
    exact fit.headers.trans longer
  · rw [same.certDir, same.headers]
    exact fit.covers
  · intro index below
    rw [same.number] at below
    rw [same.header]
    exact (fields.parts.table index below).trans longer
  · intro range member
    rw [keeps.rawRanges_eq fields] at member
    exact (fields.parts.sections range member).trans longer

/-- The hashed bytes of a file that keeps the fields of an accepted one. -/
theorem Keeps.message_eq
    {stop : Nat} (keeps : Keeps data other) (pe : TiledPe data stop)
    (table : TableAtEnd other stop) :
    authenticodeMessage other = .ok (coveredBytes other) := by
  have fields := pe.hasFields
  have same := keeps.sameHeaders fields.parts.headers
  have tiles : Tiles (rawRanges other) (sizeOfHeaders other) stop := by
    rw [keeps.rawRanges_eq fields, same.headers]
    exact pe.tiles
  exact authenticodeMessage_of_parts (keeps.parts fields) tiles table

end

/-! ## Rewriting the checksum -/

section

variable {data checksum : Bytes} {stop : Nat}

theorem keeps_patch_checksum
    (fit : HeadersFit data) (size : checksum.length = 4) :
    Keeps data (patch data (checksumOffset data) checksum) := by
  have order := fields_order data
  have inside := fit.directory
  constructor
  · rw [length_patch (by omega)]
  · rintro start size fits (before | ⟨behind, -⟩ | behind)
    · exact slice_patch_before (by omega) before
    · exact slice_patch_behind (by omega) (by omega)
    · exact slice_patch_behind (by omega) (by omega)

/-- What stands behind the checksum stays, the directory entry with it. -/
theorem slice_patch_checksum
    (fit : HeadersFit data) (size : checksum.length = 4) {start : Nat}
    (behind : checksumOffset data + 4 ≤ start) (count : Nat) :
    slice (patch data (checksumOffset data) checksum) start count =
      slice data start count := by
  have order := fields_order data
  have inside := fit.directory
  exact slice_patch_behind (by omega) (by omega)

theorem certTable_patch_checksum
    (fit : HeadersFit data) (size : checksum.length = 4) :
    certTableAddr (patch data (checksumOffset data) checksum) =
        certTableAddr data ∧
      certTableSize (patch data (checksumOffset data) checksum) =
        certTableSize data := by
  have same := (keeps_patch_checksum fit size).sameHeaders fit
  have order := fields_order data
  constructor
  · rw [certTableAddr, same.certDir, numberAt,
      slice_patch_checksum fit size (by omega)]
    rfl
  · rw [certTableSize, same.certDir, numberAt,
      slice_patch_checksum fit size (by omega)]
    rfl

/-- The checksum is no part of what is hashed. -/
theorem authenticodeMessage_patch_checksum
    (pe : TiledPe data stop) (size : checksum.length = 4) :
    authenticodeMessage (patch data (checksumOffset data) checksum) =
      authenticodeMessage data := by
  have fit := pe.hasFields.parts.headers
  have keeps := keeps_patch_checksum fit size
  have same := keeps.sameHeaders fit
  have order := fields_order data
  have inside := fit.directory
  have length :
      (patch data (checksumOffset data) checksum).length = data.length :=
    length_patch (by omega)
  rcases certTable_patch_checksum fit size with ⟨addr, tableSize⟩
  have unsigned :
      Unsigned (patch data (checksumOffset data) checksum) ↔
        Unsigned data := by
    rw [Unsigned, Unsigned, addr, tableSize]
  have table :
      TableAtEnd (patch data (checksumOffset data) checksum) stop := by
    rw [TableAtEnd, unsigned, addr, tableSize, length]
    exact pe.table
  have content :
      contentEnd (patch data (checksumOffset data) checksum) =
        contentEnd data := by
    rw [contentEnd, contentEnd, addr, length]
    exact if_congr unsigned rfl rfl
  have front :
      slice (patch data (checksumOffset data) checksum) 0
          (checksumOffset data) =
        slice data 0 (checksumOffset data) :=
    slice_patch_before (by omega) (by omega)
  rw [pe.message_eq, keeps.message_eq pe table, coveredBytes, coveredBytes,
    content, same.checksum, same.certDir, length, front,
    slice_patch_checksum fit size le_rfl,
    slice_patch_checksum fit size (by omega)]

end

/-! ## Attaching a certificate table -/

section

variable (data table : Bytes)

def paddedFile : Bytes :=
  data ++ zerosToMultiple data.length

/-- The directory entry of a certificate table behind the padded file. -/
def directoryEntry : Bytes :=
  leBytes 4 (paddedFile data).length ++ leBytes 4 table.length

/-- The padded file with its directory entry set and the table behind it. -/
def attachTable : Bytes :=
  patch (paddedFile data) (certDirOffset data) (directoryEntry data table) ++
    table

@[simp]
theorem length_directoryEntry : (directoryEntry data table).length = 8 := by
  rw [directoryEntry, List.length_append, length_leBytes, length_leBytes]

theorem dvd_length_paddedFile : 8 ∣ (paddedFile data).length := by
  rw [paddedFile, List.length_append]
  exact dvd_add_zerosToMultiple _

theorem length_le_paddedFile : data.length ≤ (paddedFile data).length := by
  rw [paddedFile, List.length_append]
  exact Nat.le_add_right _ _

theorem zerosToMultiple_eq_nil {length : Nat} (multiple : 8 ∣ length) :
    zerosToMultiple length = [] := by
  rcases multiple with ⟨count, rfl⟩
  rw [zerosToMultiple, Nat.mul_mod_right]
  rfl

/-- Behind any of its offsets the padded file is the file and the zeros. -/
theorem slice_paddedFile {start : Nat} (inside : start ≤ data.length) :
    slice (paddedFile data) start ((paddedFile data).length - start) =
      slice data start (data.length - start) ++ zerosToMultiple data.length := by
  have total :
      (paddedFile data).length =
        data.length + (zerosToMultiple data.length).length :=
    List.length_append
  have size :
      (paddedFile data).length - start =
        (data.length - start) + (zerosToMultiple data.length).length := by
    omega
  have reads :
      ReadsAt (paddedFile data) data.length
        (zerosToMultiple data.length ++ []) := by
    rw [List.append_nil]
    exact ReadsAt.of_append _ _
  rw [size, slice_add, Nat.add_sub_cancel' inside, reads.slice_eq rfl,
    paddedFile, slice_append_left (by omega)]

end

section

variable {data table : Bytes} {stop : Nat}

/-- The two fields of an entry that stands in the file. -/
theorem slice_fields
    {first second : Bytes} {offset left right : Nat}
    (leftSize : first.length = left) (rightSize : second.length = right)
    (entry : slice data offset (left + right) = first ++ second) :
    slice data offset left = first ∧
      slice data (offset + left) right = second := by
  have lengths := congrArg List.length entry
  rw [slice_add] at entry
  rw [length_slice, List.length_append] at lengths
  refine List.append_inj entry ?_
  rw [length_slice]
  omega

/-- Where the table stands, and what the file is beside its two fields. -/
structure Attached (data table : Bytes) : Prop where
  length :
    (attachTable data table).length =
      (paddedFile data).length + table.length
  before :
    ∀ start size, start + size ≤ certDirOffset data →
      slice (attachTable data table) start size =
        slice (paddedFile data) start size
  behind :
    ∀ start size, certDirOffset data + 8 ≤ start →
      start + size ≤ (paddedFile data).length →
        slice (attachTable data table) start size =
          slice (paddedFile data) start size
  addr :
    numberAt (attachTable data table) (certDirOffset data) 4 =
      (paddedFile data).length
  size :
    numberAt (attachTable data table) (certDirOffset data + 4) 4 =
      table.length

theorem attached
    (fit : HeadersFit data)
    (addrFits : (paddedFile data).length < 2 ^ 32)
    (sizeFits : table.length < 2 ^ 32) : Attached data table := by
  have inside := fit.directory
  have longer := length_le_paddedFile data
  have entrySize := length_directoryEntry data table
  have patched :
      (patch (paddedFile data) (certDirOffset data)
        (directoryEntry data table)).length = (paddedFile data).length :=
    length_patch (by omega)
  have inPatch :
      ∀ start size, start + size ≤ (paddedFile data).length →
        slice (attachTable data table) start size =
          slice
            (patch (paddedFile data) (certDirOffset data)
              (directoryEntry data table))
            start size := by
    intro start size fits
    exact slice_append_left (by omega) _
  have entry :
      slice (attachTable data table) (certDirOffset data) (4 + 4) =
        directoryEntry data table := by
    have whole :=
      @slice_patch_self (paddedFile data) (certDirOffset data)
        (directoryEntry data table) (by omega)
    rwa [entrySize, ← inPatch _ _ (by omega)] at whole
  rcases slice_fields (length_leBytes 4 _) (length_leBytes 4 _) entry with
    ⟨addrBytes, sizeBytes⟩
  refine ⟨?_, ?_, ?_, ?_, ?_⟩
  · rw [attachTable, List.length_append, patched]
  · intro start size fits
    rw [inPatch _ _ (by omega), slice_patch_before (by omega) fits]
  · intro start size after fits
    rw [inPatch _ _ fits, slice_patch_behind (by omega) (by omega)]
  · rw [numberAt, addrBytes, ofLeBytes_leBytes_of_lt addrFits]
  · rw [numberAt, sizeBytes, ofLeBytes_leBytes_of_lt sizeFits]

theorem Attached.keeps
    (attached : Attached data table) (fit : HeadersFit data) :
    Keeps data (attachTable data table) := by
  have order := fields_order data
  have inside := fit.directory
  have longer := length_le_paddedFile data
  have unpadded :
      ∀ start size, start + size ≤ data.length →
        slice (paddedFile data) start size = slice data start size := by
    intro start size fits
    exact slice_append_left fits _
  constructor
  · rw [attached.length]
    omega
  · rintro start size fits (before | ⟨-, between⟩ | behind)
    · rw [attached.before _ _ (by omega), unpadded _ _ fits]
    · rw [attached.before _ _ between, unpadded _ _ fits]
    · rw [attached.behind _ _ behind (by omega), unpadded _ _ fits]

/-- An attached certificate table is no part of what is hashed. -/
theorem authenticodeMessage_attachTable
    (pe : TiledPe data stop) (unsigned : Unsigned data)
    (nonempty : table ≠ []) (multiple : 8 ∣ table.length)
    (addrFits : (paddedFile data).length < 2 ^ 32)
    (sizeFits : table.length < 2 ^ 32) :
    authenticodeMessage (attachTable data table) =
      authenticodeMessage data := by
  have fit := pe.hasFields.parts.headers
  have attached := @attached data table fit addrFits sizeFits
  have keeps := attached.keeps fit
  have same := keeps.sameHeaders fit
  have order := fields_order data
  have inside := fit.directory
  have longer := length_le_paddedFile data
  have addr : certTableAddr (attachTable data table) = (paddedFile data).length := by
    rw [certTableAddr, same.certDir, attached.addr]
  have size : certTableSize (attachTable data table) = table.length := by
    rw [certTableSize, same.certDir, attached.size]
  have present : ¬ Unsigned (attachTable data table) := by
    rw [Unsigned, size]
    rintro ⟨-, empty⟩
    exact nonempty (List.length_eq_zero_iff.1 empty)
  have content :
      contentEnd (attachTable data table) = (paddedFile data).length := by
    rw [contentEnd, if_neg present, addr]
  have tableEnds : TableAtEnd (attachTable data table) stop := by
    refine Or.inr ?_
    rw [addr, size, attached.length]
    exact ⟨(stop_bounds pe.parts pe.tiles).2.trans longer, rfl⟩
  have unpaddedEnd : contentEnd data = data.length := by
    rw [contentEnd, if_pos unsigned]
  have noZeros : zerosToMultiple (attachTable data table).length = [] := by
    apply zerosToMultiple_eq_nil
    rw [attached.length]
    exact Nat.dvd_add (dvd_length_paddedFile data) multiple
  rw [pe.message_eq, keeps.message_eq pe tableEnds, coveredBytes,
    coveredBytes, content, noZeros, same.checksum, same.certDir, unpaddedEnd, keeps.same _ _ (by omega) (Or.inl (by omega)),
    keeps.same _ _ (by omega) (Or.inr (Or.inl (by omega))),
    attached.behind _ _ le_rfl (by omega), slice_paddedFile data inside]
  simp only [List.append_assoc, List.append_nil]

end

/-! ## Files that hash alike -/

/-- An index outside the checksum and the directory entry. -/
def OutsideFields (data : Bytes) (index : Nat) : Prop :=
  index < checksumOffset data ∨
    (checksumOffset data + 4 ≤ index ∧ index < certDirOffset data) ∨
      certDirOffset data + 8 ≤ index

section

variable {data other : Bytes} {stop otherStop : Nat}

/-- What is hashed starts with the file up to its checksum. -/
theorem slice_coveredBytes
    {start size : Nat} (inside : checksumOffset data ≤ data.length)
    (before : start + size ≤ checksumOffset data) :
    slice (coveredBytes data) start size = slice data start size := by
  have front : (slice data 0 (checksumOffset data)).length = checksumOffset data :=
    length_slice_of_le (by omega)
  have kept :
      slice (slice data 0 (checksumOffset data)) start size =
        slice data start size :=
    slice_take before
  rw [coveredBytes, List.append_assoc, List.append_assoc, slice_append_left,
    kept]
  rw [front]
  exact before

/-- The message tells where the two fields are. -/
theorem offsets_eq_of_coveredBytes_eq
    (fit : HeadersFit data) (otherFit : HeadersFit other)
    (equal : coveredBytes other = coveredBytes data) :
    checksumOffset other = checksumOffset data ∧
      certDirOffset other = certDirOffset data := by
  have order := fields_order data
  have inside := fit.directory
  have otherOrder := fields_order other
  have otherInside := otherFit.directory
  have read :
      ∀ offset size, offset + size ≤ checksumOffset data →
        offset + size ≤ checksumOffset other →
          numberAt other offset size = numberAt data offset size := by
    intro offset size before otherBefore
    rw [numberAt, numberAt, ← slice_coveredBytes (by omega) otherBefore, equal,
      slice_coveredBytes (by omega) before]
  have pe : peOffset other = peOffset data :=
    read 0x3C 4 (by omega) (by omega)
  have coff : coffOffset other = coffOffset data := by
    rw [coffOffset, coffOffset, pe]
  have opt : optHdrOffset other = optHdrOffset data := by
    rw [optHdrOffset, optHdrOffset, coff]
  have checksum : checksumOffset other = checksumOffset data := by
    rw [checksumOffset, checksumOffset, opt]
  have beforeChecksum : optHdrOffset data + 2 ≤ checksumOffset data :=
    Nat.add_le_add_left (by decide) _
  have directories : dataDirOffset other = dataDirOffset data := by
    rw [dataDirOffset, dataDirOffset, opt,
      read _ _ beforeChecksum (beforeChecksum.trans checksum.ge)]
  refine ⟨checksum, ?_⟩
  rw [certDirOffset, certDirOffset, directories]

/-- Files of one length that hash alike differ in the two fields only. -/
theorem getElem?_eq_of_coveredBytes_eq
    (fit : HeadersFit data) (otherFit : HeadersFit other)
    (unsigned : Unsigned data) (otherUnsigned : Unsigned other)
    (length : other.length = data.length)
    (equal : coveredBytes other = coveredBytes data) :
    ∀ index, OutsideFields data index ∨ OutsideFields other index →
      other[index]? = data[index]? := by
  have order := fields_order data
  have inside := fit.directory
  rcases offsets_eq_of_coveredBytes_eq fit otherFit equal with
    ⟨checksum, certDir⟩
  have ends : contentEnd data = data.length := by
    rw [contentEnd, if_pos unsigned]
  have otherEnds : contentEnd other = data.length := by
    rw [contentEnd, if_pos otherUnsigned, length]
  rw [coveredBytes, coveredBytes, checksum, certDir, ends, otherEnds,
    length] at equal
  have sizes :
      ∀ start size, (slice other start size).length =
        (slice data start size).length := by
    intro start size
    rw [length_slice, length_slice, length]
  have holes := List.append_cancel_right equal
  rcases List.append_inj' holes (sizes _ _) with ⟨front, back⟩
  rcases List.append_inj front (sizes _ _) with ⟨first, middle⟩
  have outside :
      ∀ index, OutsideFields data index → other[index]? = data[index]? := by
    rintro index (before | ⟨above, below⟩ | behind)
    · exact getElem?_eq_of_slice_eq first (Nat.zero_le _) (by omega)
    · exact getElem?_eq_of_slice_eq middle above (by omega)
    · rcases Nat.lt_or_ge index data.length with known | beyond
      · exact getElem?_eq_of_slice_eq back behind (by omega)
      · rw [List.getElem?_eq_none beyond,
          List.getElem?_eq_none (length.le.trans beyond)]
  rintro index (here | there)
  · exact outside index here
  · apply outside
    rwa [OutsideFields, checksum, certDir] at there

/-- Unsigned files of one length hash alike only if they differ in the two fields. -/
theorem authenticodeMessage_ne
    (pe : TiledPe data stop) (otherPe : TiledPe other otherStop)
    (unsigned : Unsigned data) (otherUnsigned : Unsigned other)
    (length : other.length = data.length)
    (differ :
      ∃ index, (OutsideFields data index ∨ OutsideFields other index) ∧
        other[index]? ≠ data[index]?) :
    authenticodeMessage other ≠ authenticodeMessage data := by
  intro equal
  rw [pe.message_eq, otherPe.message_eq] at equal
  rcases differ with ⟨index, outside, different⟩
  apply different
  exact
    getElem?_eq_of_coveredBytes_eq pe.parts.headers otherPe.parts.headers
      unsigned otherUnsigned length (Except.ok.inj equal) index outside

/--
What is hashed of a tiled file is the file without its checksum, its directory
entry and its certificate table.  So a new checksum keeps the hash, a
certificate table attached to the padded file keeps it, and unsigned files of
one length that differ outside the two fields hash different messages.
-/
theorem authenticode_coverage
    (sha384 : Bytes → Block 48) (pe : TiledPe data stop) :
    (authenticodeMessage data = .ok (coveredBytes data) ∧
      authenticodeSha384 sha384 data = .ok (sha384 (coveredBytes data))) ∧
    (∀ checksum : Bytes, checksum.length = 4 →
      authenticodeSha384 sha384 (patch data (checksumOffset data) checksum) =
        authenticodeSha384 sha384 data) ∧
    (Unsigned data →
      (∀ table : Bytes, table ≠ [] → 8 ∣ table.length →
        (paddedFile data).length < 2 ^ 32 → table.length < 2 ^ 32 →
          authenticodeSha384 sha384 (attachTable data table) =
            authenticodeSha384 sha384 data) ∧
      ∀ (other : Bytes) (otherStop : Nat),
        TiledPe other otherStop → Unsigned other →
          other.length = data.length →
            (∃ index, (OutsideFields data index ∨ OutsideFields other index) ∧
              other[index]? ≠ data[index]?) →
              authenticodeMessage other ≠ authenticodeMessage data) := by
  refine ⟨⟨pe.message_eq, ?_⟩, ?_, ?_⟩
  · rw [authenticodeSha384, pe.message_eq]
    rfl
  · intro checksum size
    rw [authenticodeSha384, authenticodeSha384,
      authenticodeMessage_patch_checksum pe size]
  · intro unsigned
    constructor
    · intro table nonempty multiple addrFits sizeFits
      rw [authenticodeSha384, authenticodeSha384,
        authenticodeMessage_attachTable pe unsigned nonempty multiple addrFits
          sizeFits]
    · intro other otherStop otherPe otherUnsigned length differ
      exact
        authenticodeMessage_ne pe otherPe unsigned otherUnsigned length differ

end

/-! ## A file with two sections -/

/-- A file whose second section stands first, and one byte behind both. -/
def twoSectionPe (last : UInt8) : Bytes :=
  List.replicate 0x3C 0 ++ leBytes 4 0x40 ++ [0x50, 0x45, 0, 0] ++
    (leBytes 2 0 ++ leBytes 2 2 ++ List.replicate 12 0 ++ leBytes 2 152 ++
      leBytes 2 0) ++
    (leBytes 2 0x20b ++ List.replicate 58 0 ++ leBytes 4 320 ++
      List.replicate 88 0) ++
    (List.replicate 16 0 ++ leBytes 4 1 ++ leBytes 4 322 ++
      List.replicate 16 0) ++
    (List.replicate 16 0 ++ leBytes 4 2 ++ leBytes 4 320 ++
      List.replicate 16 0) ++
    [0x41, 0x42, 0x43] ++ [last]

theorem tiledPe_of_ordered
    {data : Bytes} {ordered : List (Nat × Nat)} {stop : Nat}
    (parts : PartsFit data)
    (inside : certDirOffset data + 8 ≤ optHdrOffset data + optHdrSize data)
    (arranged : ordered.Perm (rawRanges data))
    (abuts : Abuts (sizeOfHeaders data) ordered stop)
    (table : TableAtEnd data stop) : TiledPe data stop where
  accepted := ⟨_, authenticodeMessage_of_parts parts ⟨_, arranged, abuts⟩ table⟩
  entry_inside := inside
  tiles := ⟨ordered, arranged, abuts⟩
  table := table

theorem tiledPe_twoSectionPe :
    ∀ last ∈ [0x44, 0x45], TiledPe (twoSectionPe last) 323 := by
  have signature : ∀ last ∈ [0x44, 0x45],
      numberAt (twoSectionPe last) (peOffset (twoSectionPe last)) 4 =
        0x00004550 := by
    decide +kernel
  have headers : ∀ last ∈ [0x44, 0x45],
      sizeOfHeaders (twoSectionPe last) = 320 := by
    decide +kernel
  have directory : ∀ last ∈ [0x44, 0x45],
      certDirOffset (twoSectionPe last) + 8 = 240 ∧
        optHdrOffset (twoSectionPe last) + optHdrSize (twoSectionPe last) =
          240 := by
    decide +kernel
  have table : ∀ last ∈ [0x44, 0x45], TableFits (twoSectionPe last) := by
    decide +kernel
  have ranges : ∀ last ∈ [0x44, 0x45],
      rawRanges (twoSectionPe last) = [(322, 1), (320, 2)] := by
    decide +kernel
  have unsigned : ∀ last ∈ [0x44, 0x45], Unsigned (twoSectionPe last) := by
    decide +kernel
  have lengths : ∀ last ∈ [0x44, 0x45], (twoSectionPe last).length = 324 := by
    decide +kernel
  intro last member
  have length := lengths last member
  rcases directory last member with ⟨entryEnd, optionalEnd⟩
  have fit : HeadersFit (twoSectionPe last) := by
    refine ⟨signature last member, ?_, ?_, ?_⟩
    · rw [entryEnd, length]
      decide
    · rw [headers last member, length]
      decide
    · rw [entryEnd, headers last member]
      decide
  have sections : SectionsFit (twoSectionPe last) := by
    rw [SectionsFit, ranges last member, length]
    decide
  refine
    @tiledPe_of_ordered _ [(320, 2), (322, 1)] _
      ⟨fit, table last member, sections⟩ ?_ ?_ ?_ (Or.inl (unsigned last member))
  · rw [entryEnd, optionalEnd]
  · rw [ranges last member]
    exact List.Perm.swap _ _ _
  · rw [headers last member]
    exact ⟨rfl, rfl, rfl⟩

/-- A new checksum, an attached table and another last byte. -/
theorem authenticode_coverage_twoSectionPe :
    authenticodeMessage (twoSectionPe 0x44) =
        .ok (coveredBytes (twoSectionPe 0x44)) ∧
      authenticodeSha384 (fun _ => Block.zero 48)
          (patch (twoSectionPe 0x44) (checksumOffset (twoSectionPe 0x44))
            [1, 2, 3, 4]) =
        authenticodeSha384 (fun _ => Block.zero 48) (twoSectionPe 0x44) ∧
      authenticodeSha384 (fun _ => Block.zero 48)
          (attachTable (twoSectionPe 0x44) (List.replicate 8 0x30)) =
        authenticodeSha384 (fun _ => Block.zero 48) (twoSectionPe 0x44) ∧
      authenticodeMessage (twoSectionPe 0x45) ≠
        authenticodeMessage (twoSectionPe 0x44) := by
  have pe := tiledPe_twoSectionPe 0x44 (by decide)
  have otherPe := tiledPe_twoSectionPe 0x45 (by decide)
  rcases authenticode_coverage (fun _ => Block.zero 48) pe with
    ⟨⟨message, -⟩, rewritten, unsigned⟩
  rcases unsigned (by decide +kernel) with ⟨attach, tell⟩
  refine ⟨message, rewritten _ rfl, ?_, ?_⟩
  · exact
      attach _ (by decide) (by decide) (by decide +kernel) (by decide)
  · have lengths :
        (twoSectionPe 0x45).length = (twoSectionPe 0x44).length := by
      decide +kernel
    refine
      tell _ 323 otherPe (by decide +kernel) lengths ⟨323, Or.inl ?_, ?_⟩
    · refine Or.inr (Or.inr ?_)
      decide +kernel
    · decide +kernel

end Confos.Tdx.AuthenticodeCoverage
