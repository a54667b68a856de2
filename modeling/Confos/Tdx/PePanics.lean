import Confos.Tdx.Authenticode
import Confos.Tdx.LoadedSections

/-!
# Panics of the PE measurement

The two functions that measure a PE image check what they add and slice, except
for one slice: the data between the last section and the certificate table is
taken up to an address that may be behind the end of the file.
-/

namespace Confos.Tdx.PePanics

open Confos.Library.ByteStrings
open Confos.Library.Checks
open Confos.Library.Fallible
open Confos.Tdx.Pe
open Confos.Tdx.PeFields
open Confos.Tdx.Authenticode
open Confos.Tdx.LoadedSections

/-! ## The hash -/

section

variable {data : Bytes}

theorem panics_beforeTable_iff
    {sum addr : Nat} (trailing : sum < data.length) :
    Panics (beforeTable data sum addr) ↔ data.length < addr := by
  rw [beforeTable]
  split
  · next ahead =>
      rw [panics_cut_iff]
      omega
  · next behind =>
      constructor
      · intro panics
        cases panics
      · intro beyond
        omega

/-- The data behind the sections panics only for a table behind the file. -/
theorem panics_trailingData_iff
    {sum addr size : Nat} (addr_lt : addr < 2 ^ 32) (size_lt : size < 2 ^ 32) :
    Panics (trailingData data sum addr size) ↔
      sum < data.length ∧ 0 < size ∧ data.length < addr := by
  rw [trailingData]
  by_cases trailing : sum < data.length
  · rw [if_pos trailing, and_iff_right trailing]
    by_cases present : 0 < addr ∧ 0 < size
    · rw [if_pos present, if_neg (by omega), and_iff_right present.2,
        panics_bind_iff, panics_beforeTable_iff trailing]
      constructor
      · rintro (beyond | ⟨before, -, panics⟩)
        · exact beyond
        · rw [behindTable_eq] at panics
          cases panics
      · exact Or.inl
    · rw [if_neg present, panics_cut_iff]
      omega
  · rw [if_neg trailing]
    constructor
    · intro panics
      cases panics
    · rintro ⟨inside, -⟩
      exact absurd inside trailing

variable (data) in
/-- A certificate table behind the end of a file with data behind its sections. -/
structure TableBeyondFile : Prop where
  parts : PartsFit data
  trailing : sumOfBytesHashed data < data.length
  size_pos : 0 < certTableSize data
  beyond : data.length < certTableAddr data

theorem panics_authenticodeMessage_iff :
    Panics (authenticodeMessage data) ↔ TableBeyondFile data := by
  rw [authenticodeMessage, decides_hashParts.panics_bind_iff]
  constructor
  · rintro ⟨fit, panics⟩
    dsimp only at panics
    rw [hashTrailing_eq fit.headers, panics_bind_iff] at panics
    rcases panics with panics | ⟨trailing, -, panics⟩
    · rcases
        (panics_trailingData_iff (numberAt_lt data _ 4)
          (numberAt_lt data _ 4)).1 panics with
        ⟨trailing, size_pos, beyond⟩
      exact ⟨fit, trailing, size_pos, beyond⟩
    · cases panics
  · intro beyondFile
    refine ⟨beyondFile.parts, ?_⟩
    dsimp only
    rw [hashTrailing_eq beyondFile.parts.headers, panics_bind_iff]
    left
    exact
      (panics_trailingData_iff (numberAt_lt data _ 4)
        (numberAt_lt data _ 4)).2
        ⟨beyondFile.trailing, beyondFile.size_pos, beyondFile.beyond⟩

end

/-! ## The sections -/

/-- The bytes of a section, behind the checks of their end. -/
def takeSection (data : Bytes) (name : String) (start vsize : Nat) :
    Checked (String × Bytes) :=
  if 2 ^ 64 ≤ start + vsize then
    refuse "section offset + virtual_size overflow"
  else if data.length < start + vsize then
    refuse s!"PE section '{name}' (offset 0x{lowerHex 0 start}, virtual_size 0x{lowerHex 0 vsize}) extends beyond file (0x{lowerHex 0 data.length})"
  else do
    let bytes ← cut data start (start + vsize)
    return (name, bytes)

def readSection (data : Bytes) (off : Nat) : Checked (String × Bytes) := do
  let nameBytes ← cut data off (← add64 off 8)
  let virtualSize ← ofResult (readLe 4 data (← add64 off 8))
  let rawOffset ← ofResult (readLe 4 data (← add64 off 20))
  takeSection data (sectionName nameBytes) rawOffset virtualSize

/-- The loop over the section table. -/
def sectionLoop (data : Bytes) (sectionTable : Nat) :
    Nat → Nat → List (String × Bytes) → Checked (List (String × Bytes))
  | 0, _, sections => .ok sections
  | remaining + 1, index, sections => do
      let off ← add64 sectionTable (index * 40)
      let stop ← add64 off 40
      if data.length < stop then
        .ok sections
      else do
        let next ← readSection data off
        sectionLoop data sectionTable remaining (index + 1)
          (sections ++ [next])

/-- What follows the PE signature. -/
def signedSections (data : Bytes) (peOffset : Nat) :
    Checked (List (String × Bytes)) := do
  let coffOffset ← add64 peOffset 4
  let numSections ← ofResult (readLe 2 data (← add64 coffOffset 2))
  let optHdrSize ← ofResult (readLe 2 data (← add64 coffOffset 16))
  let sectionTable ← add64 (← add64 coffOffset 20) optHdrSize
  sectionLoop data sectionTable numSections 0 []

/-- `parse_sections`, its additions and slices as steps. -/
def checkedParseSections (data : Bytes) :
    Checked (List (String × Bytes)) := do
  let peOffset ← ofResult (withContext "Reading PE offset" (readLe 4 data 0x3C))
  if data.length < (← add64 peOffset 4) then
    refuse "Invalid PE signature"
  else do
    let signature ← cut data peOffset (← add64 peOffset 4)
    if signature ≠ [0x50, 0x45, 0, 0] then
      refuse "Invalid PE signature"
    else
      signedSections data peOffset

section

variable {data : Bytes}

theorem takeSection_eq
    {name : String} {start vsize : Nat} (small : start + vsize < 2 ^ 64) :
    takeSection data name start vsize =
      ofResult
        (if data.length < start + vsize then
          .error s!"PE section '{name}' (offset 0x{lowerHex 0 start}, virtual_size 0x{lowerHex 0 vsize}) extends beyond file (0x{lowerHex 0 data.length})"
        else
          .ok (name, slice data start vsize)) := by
  rw [takeSection, if_neg (not_le.2 small)]
  split
  · rfl
  · next inside =>
      rw [cut_eq_ok (Nat.le_add_right _ _) (not_lt.1 inside),
        Nat.add_sub_cancel_left]
      rfl

theorem readSection_eq
    {off : Nat} (inside : off + 40 ≤ data.length) (small : off < 2 ^ 34) :
    readSection data off =
      takeSection data (headerAt data off).name
        (headerAt data off).pointerToRawData
        (headerAt data off).virtualSize := by
  have nameEnd : add64 off 8 = .ok (off + 8) := add64_eq_ok (by omega)
  have pointerField : add64 off 20 = .ok (off + 20) := add64_eq_ok (by omega)
  have name : cut data off (off + 8) = .ok (slice data off 8) := by
    rw [cut_eq_ok (Nat.le_add_right _ _) (by omega), Nat.add_sub_cancel_left]
  have virtualSize :
      ofResult (readLe 4 data (off + 8)) =
        .ok (headerAt data off).virtualSize :=
    decides_readLe.eq_ok (by omega)
  have pointer :
      ofResult (readLe 4 data (off + 20)) =
        .ok (headerAt data off).pointerToRawData :=
    decides_readLe.eq_ok (by omega)
  calc readSection data off
      = (add64 off 8 >>= fun stop => cut data off stop >>= fun nameBytes =>
          add64 off 8 >>= fun field => ofResult (readLe 4 data field) >>=
            fun virtualSize => add64 off 20 >>= fun field =>
              ofResult (readLe 4 data field) >>= fun rawOffset =>
                takeSection data (sectionName nameBytes) rawOffset
                  virtualSize) := rfl
    _ = _ := by
        rw [nameEnd, pointerField]
        change (cut data off (off + 8) >>= _) = _
        rw [name]
        change (ofResult (readLe 4 data (off + 8)) >>= _) = _
        rw [virtualSize]
        change (ofResult (readLe 4 data (off + 20)) >>= _) = _
        rw [pointer]
        rfl

/-- The loop over the table refuses what the unchecked one refuses, and no more. -/
theorem sectionLoop_eq
    {table remaining index : Nat} {sections : List (String × Bytes)}
    (low : table < 2 ^ 33) (known : index + remaining ≤ 2 ^ 16) :
    sectionLoop data table remaining index sections =
      ofResult
        (parseSectionTable data remaining (table + index * 40) sections) := by
  induction remaining generalizing index sections with
  | zero => rfl
  | succ remaining induction =>
      have off : add64 table (index * 40) = .ok (table + index * 40) :=
        add64_eq_ok (by omega)
      have stop :
          add64 (table + index * 40) 40 = .ok (table + index * 40 + 40) :=
        add64_eq_ok (by omega)
      rw [sectionLoop, off]
      change (add64 (table + index * 40) 40 >>= _) = _
      rw [stop]
      change (if data.length < table + index * 40 + 40 then _ else _) = _
      by_cases inside : table + index * 40 + 40 ≤ data.length
      · have small :
            (headerAt data (table + index * 40)).pointerToRawData +
                (headerAt data (table + index * 40)).virtualSize <
              2 ^ 64 := by
          have pointer :
              (headerAt data (table + index * 40)).pointerToRawData < 2 ^ 32 :=
            numberAt_lt data _ 4
          have virtualSize :
              (headerAt data (table + index * 40)).virtualSize < 2 ^ 32 :=
            numberAt_lt data _ 4
          omega
        have next : table + index * 40 + 40 = table + (index + 1) * 40 := by
          omega
        rw [if_neg (not_lt.2 inside), parseSectionTable_succ inside,
          readSection_eq inside (by omega), takeSection_eq small]
        split
        · rfl
        · rw [next, ← induction (by omega)]
          rfl
      · rw [if_pos (not_le.1 inside), parseSectionTable,
          if_pos (not_le.1 inside)]
        rfl

theorem signedSections_eq {peOffset : Nat} (small : peOffset < 2 ^ 32) :
    signedSections data peOffset =
      ofResult
        (do
          let numSections ← readLe 2 data (peOffset + 4 + 2)
          let optHdrSize ← readLe 2 data (peOffset + 4 + 16)
          parseSectionTable data numSections (peOffset + 4 + 20 + optHdrSize)
            []) := by
  have coff : add64 peOffset 4 = .ok (peOffset + 4) := add64_eq_ok (by omega)
  have number : add64 (peOffset + 4) 2 = .ok (peOffset + 4 + 2) :=
    add64_eq_ok (by omega)
  have size : add64 (peOffset + 4) 16 = .ok (peOffset + 4 + 16) :=
    add64_eq_ok (by omega)
  have behind : add64 (peOffset + 4) 20 = .ok (peOffset + 4 + 20) :=
    add64_eq_ok (by omega)
  rw [signedSections, coff, ofResult_bind]
  change (add64 (peOffset + 4) 2 >>= _) = _
  rw [number]
  change (ofResult (readLe 2 data (peOffset + 4 + 2)) >>= _) = _
  cases readNumber : readLe 2 data (peOffset + 4 + 2) with
  | error problem => rfl
  | ok numSections =>
      rcases readLe_eq_ok.1 readNumber with ⟨-, rfl⟩
      have few := numberAt_lt data (peOffset + 4 + 2) 2
      change (add64 (peOffset + 4) 16 >>= _) = ofResult (_ >>= _)
      rw [size, ofResult_bind]
      change (ofResult (readLe 2 data (peOffset + 4 + 16)) >>= _) = _
      cases readSize : readLe 2 data (peOffset + 4 + 16) with
      | error problem => rfl
      | ok optHdrSize =>
          rcases readLe_eq_ok.1 readSize with ⟨-, rfl⟩
          have short := numberAt_lt data (peOffset + 4 + 16) 2
          have table :
              add64 (peOffset + 4 + 20)
                  (numberAt data (peOffset + 4 + 16) 2) =
                .ok (peOffset + 4 + 20 +
                  numberAt data (peOffset + 4 + 16) 2) :=
            add64_eq_ok (by omega)
          change (add64 (peOffset + 4) 20 >>= _) = _
          rw [behind]
          change (add64 (peOffset + 4 + 20) _ >>= _) = _
          rw [table]
          change sectionLoop data _ _ 0 [] = _
          rw [sectionLoop_eq (by omega) (by omega), Nat.zero_mul,
            Nat.add_zero]
          rfl

/-- No addition or slice of `parse_sections` panics, on any file. -/
theorem checkedParseSections_eq (data : Bytes) :
    checkedParseSections data = ofResult (parseSections data) := by
  rw [checkedParseSections, parseSections, ofResult_bind]
  cases read : withContext "Reading PE offset" (readLe 4 data 0x3C) with
  | error problem => rfl
  | ok peOffset =>
      rcases readLe_eq_ok.1 (mapError_eq_ok.1 read) with ⟨-, rfl⟩
      have small : numberAt data 0x3C 4 < 2 ^ 32 := numberAt_lt data _ 4
      generalize numberAt data 0x3C 4 = peOffset at small
      have stop : add64 peOffset 4 = .ok (peOffset + 4) :=
        add64_eq_ok (by omega)
      change (add64 peOffset 4 >>= _) = ofResult (if _ then _ else _)
      rw [stop]
      change
        (if data.length < peOffset + 4 then _ else
          cut data peOffset (peOffset + 4) >>= _) = _
      by_cases short : data.length < peOffset + 4
      · rw [if_pos short, if_pos (Or.inl short)]
        rfl
      · have signature :
            cut data peOffset (peOffset + 4) = .ok (slice data peOffset 4) := by
          rw [cut_eq_ok (Nat.le_add_right _ _) (not_lt.1 short),
            Nat.add_sub_cancel_left]
        rw [if_neg short, signature]
        change (if slice data peOffset 4 ≠ _ then _ else _) = _
        by_cases unsigned : slice data peOffset 4 ≠ [0x50, 0x45, 0, 0]
        · rw [if_pos unsigned, if_pos (Or.inr unsigned)]
          rfl
        · rw [if_neg unsigned, if_neg (not_or.2 ⟨short, unsigned⟩),
            signedSections_eq small]

end

/--
Both functions return or refuse, on every file but those with data behind the
sections and a certificate table that starts behind the end.
-/
theorem pe_not_panics_iff (sha384 : Bytes → Block 48) (data : Bytes) :
    (¬ Panics (authenticodeSha384 sha384 data) ∧
        ¬ Panics (checkedParseSections data)) ↔
      ¬ TableBeyondFile data := by
  have hashed :
      Panics (authenticodeSha384 sha384 data) ↔
        Panics (authenticodeMessage data) := by
    rw [authenticodeSha384, panics_bind_iff]
    constructor
    · rintro (panics | ⟨message, -, panics⟩)
      · exact panics
      · cases panics
    · exact Or.inl
  have listed : ¬ Panics (checkedParseSections data) := by
    rw [checkedParseSections_eq]
    exact not_panics_ofResult _
  rw [and_iff_left listed, hashed, panics_authenticodeMessage_iff]

/-! ## A file -/

/-- Headers of 240 bytes with a certificate directory entry, and what follows. -/
def headersOnlyPe (certAddr certSize : Nat) (behind : Bytes) : Bytes :=
  List.replicate 0x3C 0 ++ leBytes 4 0x40 ++ [0x50, 0x45, 0, 0] ++
    List.replicate 20 0 ++
    (leBytes 2 0x20b ++ List.replicate 58 0 ++ leBytes 4 240 ++
      List.replicate 80 0 ++ leBytes 4 certAddr ++ leBytes 4 certSize) ++
    behind

/-- A byte behind the headers, and a certificate table at 1000 of 241 bytes. -/
theorem panics_authenticodeSha384_beyond :
    Panics
      (authenticodeSha384 (fun _ => Block.zero 48)
        (headersOnlyPe 1000 1 [0])) := by
  have headers : HeadersFit (headersOnlyPe 1000 1 [0]) := by
    constructor <;> decide +kernel
  have beyond : TableBeyondFile (headersOnlyPe 1000 1 [0]) := by
    refine ⟨⟨headers, ?_, ?_⟩, ?_, ?_, ?_⟩ <;> decide +kernel
  rw [authenticodeSha384, panics_bind_iff]
  exact Or.inl (panics_authenticodeMessage_iff.2 beyond)

end Confos.Tdx.PePanics
