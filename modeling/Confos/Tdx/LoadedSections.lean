import Confos.Library.Fallible
import Confos.Library.Patches
import Confos.Tdx.PeFields

/-!
# Sections as they are loaded

A loader gives a section the size the header states for memory, copies what the
file holds of it and fills the rest with zeros.  `parseSections` takes the
bytes of the file at that size, whatever stands behind the section's own, and
stops without an error where the table of headers leaves the file.
-/

namespace Confos.Tdx.LoadedSections

open Confos.Library.ByteStrings
open Confos.Library.Fallible
open Confos.Library.Patches
open Confos.Tdx.Pe
open Confos.Tdx.PeFields

/-! ## Headers -/

/-- What a section header says. -/
structure SectionHeader where
  name : String
  virtualSize : Nat
  sizeOfRawData : Nat
  pointerToRawData : Nat
deriving DecidableEq, Repr

def headerAt (data : Bytes) (offset : Nat) : SectionHeader where
  name := sectionName (slice data offset 8)
  virtualSize := numberAt data (offset + 8) 4
  sizeOfRawData := numberAt data (offset + 16) 4
  pointerToRawData := numberAt data (offset + 20) 4

/-- The headers of the section table, whether or not they are in the file. -/
def sectionHeaders (data : Bytes) : List SectionHeader :=
  (List.range (numberOfSections data)).map fun index =>
    headerAt data (headerOffset data index)

/-- Every header of the table is in the file. -/
def TableInside (data : Bytes) : Prop :=
  ∀ index < numberOfSections data,
    headerOffset data index + 40 ≤ data.length

instance (data : Bytes) : Decidable (TableInside data) :=
  Nat.decidableBallLT _ _

/-! ## Loading -/

/-- What the file holds of a section: no more than its size in memory. -/
def rawSize (header : SectionHeader) : Nat :=
  min header.virtualSize header.sizeOfRawData

/-- A section in memory. -/
def loadSection (data : Bytes) (header : SectionHeader) : String × Bytes :=
  (header.name,
    padTo header.virtualSize
      (slice data header.pointerToRawData (rawSize header)))

/-- The file holds zeros where the section in memory is longer than its raw data. -/
def ZerosBehind (data : Bytes) (header : SectionHeader) : Prop :=
  slice data (header.pointerToRawData + rawSize header)
      (header.virtualSize - rawSize header) =
    List.replicate (header.virtualSize - rawSize header) 0

instance (data : Bytes) (header : SectionHeader) :
    Decidable (ZerosBehind data header) :=
  inferInstanceAs (Decidable (_ = _))

/-! ## What the parser reads -/

/-- The bytes of the file at a section's size in memory. -/
def fileSection (data : Bytes) (header : SectionHeader) : String × Bytes :=
  (header.name, slice data header.pointerToRawData header.virtualSize)

/-- All that the parser takes for a section is in the file. -/
def SectionInside (data : Bytes) (header : SectionHeader) : Prop :=
  header.pointerToRawData + header.virtualSize ≤ data.length

section

variable {data : Bytes}

/-- A turn at a header in the file takes its section or refuses the file. -/
theorem parseSectionTable_succ
    {remaining offset : Nat} {sections : List (String × Bytes)}
    (inside : offset + 40 ≤ data.length) :
    parseSectionTable data (remaining + 1) offset sections =
      if data.length <
          (headerAt data offset).pointerToRawData +
            (headerAt data offset).virtualSize then
        .error s!"PE section '{(headerAt data offset).name}' (offset 0x{lowerHex 0 (headerAt data offset).pointerToRawData}, virtual_size 0x{lowerHex 0 (headerAt data offset).virtualSize}) extends beyond file (0x{lowerHex 0 data.length})"
      else
        parseSectionTable data remaining (offset + 40)
          (sections ++ [fileSection data (headerAt data offset)]) := by
  have vsize :
      readLe 4 data (offset + 8) =
        .ok (headerAt data offset).virtualSize :=
    readLe_eq_ok.2 ⟨by omega, rfl⟩
  have start :
      readLe 4 data (offset + 20) =
        .ok (headerAt data offset).pointerToRawData :=
    readLe_eq_ok.2 ⟨by omega, rfl⟩
  rw [parseSectionTable, if_neg (not_lt.2 inside), vsize, start]
  rfl

/--
The parser takes the sections of the headers in the file, up to the first
header that is not.
-/
theorem exists_count_of_parseSectionTable
    {remaining offset : Nat} {sections result : List (String × Bytes)}
    (parsed :
      parseSectionTable data remaining offset sections = .ok result) :
    ∃ count ≤ remaining,
      (∀ index < count,
        offset + index * 40 + 40 ≤ data.length ∧
          SectionInside data (headerAt data (offset + index * 40))) ∧
        (count < remaining → data.length < offset + count * 40 + 40) ∧
          result =
            sections ++
              (List.range count).map fun index =>
                fileSection data (headerAt data (offset + index * 40)) := by
  induction remaining generalizing offset sections with
  | zero =>
      cases parsed
      refine ⟨0, le_rfl, ?_, ?_, (List.append_nil _).symm⟩
      · intro index impossible
        exact absurd impossible (Nat.not_lt_zero _)
      · intro impossible
        exact absurd impossible (lt_irrefl _)
  | succ remaining induction =>
      by_cases inside : offset + 40 ≤ data.length
      · rw [parseSectionTable_succ inside] at parsed
        split at parsed
        · cases parsed
        · next fits =>
            rcases induction parsed with
              ⟨count, fewer, headers, stopped, rfl⟩
            have shift :
                ∀ index, offset + 40 + index * 40 =
                  offset + (index + 1) * 40 := by
              intro index
              omega
            simp only [shift] at headers ⊢
            refine ⟨count + 1, Nat.succ_le_succ fewer, ?_, ?_, ?_⟩
            · intro index below
              cases index with
              | zero =>
                  rw [Nat.zero_mul, Nat.add_zero]
                  exact ⟨inside, not_lt.1 fits⟩
              | succ index => exact headers index (Nat.lt_of_succ_lt_succ below)
            · intro more
              rw [← shift count]
              exact stopped (Nat.lt_of_succ_lt_succ more)
            · rw [List.range_succ_eq_map, List.map_cons, List.map_map,
                List.append_assoc, Nat.zero_mul, Nat.add_zero]
              rfl
      · rw [parseSectionTable, if_pos (not_le.1 inside)] at parsed
        cases parsed
        refine ⟨0, Nat.zero_le _, ?_, ?_, (List.append_nil _).symm⟩
        · intro index impossible
          exact absurd impossible (Nat.not_lt_zero _)
        · intro _
          omega

/-- What is read of an accepted file, in the order of the source. -/
theorem exists_count_of_parseSections
    {sections : List (String × Bytes)}
    (parsed : parseSections data = .ok sections) :
    ∃ count ≤ numberOfSections data,
      (∀ index < count,
        headerOffset data index + 40 ≤ data.length ∧
          SectionInside data (headerAt data (headerOffset data index))) ∧
        (count < numberOfSections data →
          data.length < headerOffset data count + 40) ∧
          sections =
            (List.range count).map fun index =>
              fileSection data (headerAt data (headerOffset data index)) := by
  rcases bind_eq_ok.1 parsed with ⟨peOffset, readOffset, signed⟩
  rcases readLe_eq_ok.1 (mapError_eq_ok.1 readOffset) with ⟨-, rfl⟩
  split at signed
  · cases signed
  · rcases bind_eq_ok.1 signed with ⟨numSections, readNumber, behind⟩
    rcases bind_eq_ok.1 behind with ⟨optHdrSize, readSize, table⟩
    rcases readLe_eq_ok.1 readNumber with ⟨-, rfl⟩
    rcases readLe_eq_ok.1 readSize with ⟨-, rfl⟩
    exact exists_count_of_parseSectionTable table

/-- The bytes of the file are the section in memory where zeros stand behind. -/
theorem fileSection_eq_loadSection_iff
    {header : SectionHeader} (inside : SectionInside data header) :
    fileSection data header = loadSection data header ↔
      ZerosBehind data header := by
  have covered : rawSize header ≤ header.virtualSize := Nat.min_le_left _ _
  have inFile :
      header.pointerToRawData + header.virtualSize ≤ data.length :=
    inside
  have whole :
      slice data header.pointerToRawData header.virtualSize =
        slice data header.pointerToRawData (rawSize header) ++
          slice data (header.pointerToRawData + rawSize header)
            (header.virtualSize - rawSize header) := by
    rw [← slice_add, Nat.add_sub_cancel' covered]
  have length :
      (slice data header.pointerToRawData (rawSize header)).length =
        rawSize header :=
    length_slice_of_le (by omega)
  have padded :
      padTo header.virtualSize
          (slice data header.pointerToRawData (rawSize header)) =
        slice data header.pointerToRawData (rawSize header) ++
          List.replicate (header.virtualSize - rawSize header) 0 := by
    rw [padTo_of_length_le (length.trans_le covered), length]
  rw [fileSection, loadSection, whole, padded, Prod.mk.injEq, ZerosBehind]
  constructor
  · rintro ⟨-, same⟩
    exact List.append_cancel_left same
  · intro zeros
    rw [zeros]
    exact ⟨rfl, rfl⟩

end

/--
Where the parser accepts a file, it returns every section as it is loaded
exactly if the whole table of headers is in the file and no section is longer
in memory than its raw data with something else than zeros behind them.
-/
theorem parseSections_eq_loaded_iff
    {data : Bytes} {sections : List (String × Bytes)}
    (parsed : parseSections data = .ok sections) :
    sections = (sectionHeaders data).map (loadSection data) ↔
      TableInside data ∧
        ∀ header ∈ sectionHeaders data, ZerosBehind data header := by
  rcases exists_count_of_parseSections parsed with
    ⟨count, fewer, inside, stopped, rfl⟩
  have pointwise :
      count = numberOfSections data →
        ((List.range count).map
              (fun index =>
                fileSection data (headerAt data (headerOffset data index))) =
            (sectionHeaders data).map (loadSection data) ↔
          ∀ header ∈ sectionHeaders data, ZerosBehind data header) := by
    rintro rfl
    rw [sectionHeaders, List.map_map, List.map_inj_left, List.forall_mem_map]
    apply forall₂_congr
    intro index member
    exact
      fileSection_eq_loadSection_iff
        (inside index (List.mem_range.1 member)).2
  constructor
  · intro loaded
    have lengths := congrArg List.length loaded
    simp only [sectionHeaders, List.length_map, List.length_range] at lengths
    refine ⟨?_, (pointwise lengths).1 loaded⟩
    intro index below
    exact (inside index (lengths ▸ below)).1
  · rintro ⟨tableInside, zeros⟩
    have complete : count = numberOfSections data := by
      apply Nat.le_antisymm fewer
      by_contra cut
      exact
        absurd (tableInside count (not_le.1 cut))
          (not_le.2 (stopped (not_le.1 cut)))
    exact (pointwise complete).2 zeros

/-! ## Two files -/

/-- A file with room for one section header, which states another number. -/
def smallPe (sectionCount : Nat) (virtualSize : Nat) (behind : Bytes) : Bytes :=
  List.replicate 0x3C 0 ++ leBytes 4 0x40 ++ [0x50, 0x45, 0, 0] ++
    (leBytes 2 0 ++ leBytes 2 sectionCount ++ List.replicate 16 0) ++
    (padTo 8 (utf8Bytes ".cmdline") ++ leBytes 4 virtualSize ++
      leBytes 4 0 ++ leBytes 4 1 ++ leBytes 4 128 ++ List.replicate 16 0) ++
    behind

/-- A section of two bytes of which the file holds one, and zeros behind it. -/
theorem parseSections_eq_loaded_smallPe :
    ∃ sections,
      parseSections (smallPe 1 2 [0x41, 0]) = .ok sections ∧
        sections =
          (sectionHeaders (smallPe 1 2 [0x41, 0])).map
            (loadSection (smallPe 1 2 [0x41, 0])) := by
  have parsed :
      parseSections (smallPe 1 2 [0x41, 0]) =
        .ok [(".cmdline", [0x41, 0])] := by
    decide +kernel
  refine ⟨_, parsed, (parseSections_eq_loaded_iff parsed).2 ?_⟩
  decide +kernel

/-- A byte behind the raw data is measured, and a missing header is no error. -/
theorem not_parseSections_eq_loaded :
    (parseSections (smallPe 1 2 [0x41, 0x42]) =
        .ok [(".cmdline", [0x41, 0x42])] ∧
      (sectionHeaders (smallPe 1 2 [0x41, 0x42])).map
          (loadSection (smallPe 1 2 [0x41, 0x42])) =
        [(".cmdline", [0x41, 0])]) ∧
      parseSections (smallPe 2 1 [0x41]) = .ok [(".cmdline", [0x41])] ∧
        numberOfSections (smallPe 2 1 [0x41]) = 2 := by
  decide +kernel

end Confos.Tdx.LoadedSections
