import Confos.Library.Checks
import Confos.Tdx.Gpt

/-!
# Files of the EFI system partition

The boot loader is read out of a disk image: the first partition of the right
type is opened as a FAT volume, and a path is followed in it.  The offsets are
computed without checks, so the reader panics on some partition tables.
-/

namespace Confos.Tdx.Esp

open Confos.Library.ByteStrings
open Confos.Library.Checks
open Confos.Tdx.Gpt
open Confos.Tdx.PeFields

def fallbackBootloaderPath : String := "EFI/BOOT/BOOTX64.EFI"

/-- The type of an EFI system partition as it stands on disk. -/
def espGuid : Bytes :=
  [0x28, 0x73, 0x2a, 0xc1, 0x1f, 0xf8, 0xd2, 0x11, 0xba, 0x4b, 0x00, 0xa0,
    0xc9, 0x3e, 0xc9, 0x3b]

/-- What the reader takes from the FAT library. -/
structure FatLibrary (Directory : Type) where
  rootDir : Bytes → Except String Directory
  openDir : Directory → String → Except String Directory
  readFile : Directory → String → Except String Bytes

/-! ## The reader -/

/-- The first and the last block of the first system partition, looked for in
so many turns from an index. -/
def findEsp (disk : Bytes) (entriesOffset entrySize : Nat) :
    Nat → Nat → Checked (Option (Nat × Nat))
  | 0, _ => .ok none
  | turns + 1, index => do
      let off ← add64 entriesOffset (← mul64 index entrySize)
      let stop ← add64 off entrySize
      if disk.length < stop then
        return none
      else
        let entry ← cut disk off stop
        if slice entry 0 16 ≠ espGuid then
          findEsp disk entriesOffset entrySize turns (index + 1)
        else
          return some (numberAt entry 32 8, numberAt entry 40 8)

/-- The bytes between two blocks, both included. -/
def espSlice (disk : Bytes) (firstLba lastLba : Nat) : Checked Bytes := do
  let start ← mul64 firstLba 512
  let stop ← mul64 (← add64 lastLba 1) 512
  if disk.length < stop then
    refuse
      s!"GPT claims ESP runs to byte {stop} but disk image is only {disk.length} bytes"
  else
    cut disk start stop

section

variable {Directory : Type} (fat : FatLibrary Directory)

def readFatFile (volume : Bytes) (path : String) : Except String Bytes := do
  let root ← fat.rootDir volume
  let components := (path.splitOn "/").filter (· ≠ "")
  match components.getLast? with
  | none => .error "empty path"
  | some fileName =>
      let directory ← components.dropLast.foldlM fat.openDir root
      fat.readFile directory fileName

def readEspFile (disk : Bytes) (path : String) : Checked Bytes :=
  if disk.length < 1024 then
    refuse "disk image too small for a GPT header"
  else if slice (gptHeader disk) 0 8 ≠ utf8Bytes "EFI PART" then
    refuse
      "disk image does not start with a GPT (no `EFI PART` signature at LBA 1)"
  else if entrySize disk < 128 then
    refuse
      s!"GPT partition entry size {entrySize disk} below the 128-byte minimum"
  else do
    let entriesOff ← mul64 (partitionEntryLba disk) 512
    match ← findEsp disk entriesOff (entrySize disk) (numEntries disk) 0 with
    | none => refuse "no ESP partition found in the disk image's GPT"
    | some (firstLba, lastLba) => do
        let volume ← espSlice disk firstLba lastLba
        ofResult (readFatFile fat volume path)

end

/-! ## Tables that are read without a panic -/

section

variable (disk : Bytes)

def IsEsp (index : Nat) : Prop :=
  HasEntry disk index ∧ slice (entryAt disk index) 0 16 = espGuid

/-- The partition that the reader takes. -/
structure IsFirstEsp (index : Nat) : Prop where
  listed : index < numEntries disk
  isEsp : IsEsp disk index
  first : ∀ earlier < index, ¬ IsEsp disk earlier

def firstLba (index : Nat) : Nat :=
  numberAt (entryAt disk index) 32 8

def lastLba (index : Nat) : Nat :=
  numberAt (entryAt disk index) 40 8

/-- The blocks of a partition are in reach of an address, and if the image
holds its last one, they are in order. -/
structure BlocksFit (first last : Nat) : Prop where
  start : first * 512 < 2 ^ 64
  stop : (last + 1) * 512 < 2 ^ 64
  ordered : (last + 1) * 512 ≤ disk.length → first ≤ last + 1

/-- The offsets that the reader computes in an image with a header fit. -/
structure OffsetsFit : Prop where
  entries : entriesOffset disk < 2 ^ 64
  first : 0 < numEntries disk → entryOffset disk 0 + entrySize disk < 2 ^ 64
  esp :
    ∀ index, IsFirstEsp disk index →
      BlocksFit disk (firstLba disk index) (lastLba disk index)

end

section

variable {disk : Bytes}

/-- An entry that is followed by another one is far below the last address. -/
theorem stop_succ_lt
    {index : Nat} (has : HasEntry disk index)
    (small : disk.length < 2 ^ 63) :
    entryOffset disk (index + 1) + entrySize disk < 2 ^ 64 := by
  have size : entrySize disk < 2 ^ 32 := numberAt_lt (gptHeader disk) 84 4
  have inside : entryOffset disk (index + 1) ≤ disk.length := by
    rw [entryOffset_succ]
    exact has
  omega

/-- One turn of the loop, where the end of the entry is an address. -/
theorem findEsp_succ
    {turns index : Nat}
    (fits : entryOffset disk index + entrySize disk < 2 ^ 64) :
    findEsp disk (entriesOffset disk) (entrySize disk) (turns + 1) index =
      if HasEntry disk index then
        if slice (entryAt disk index) 0 16 ≠ espGuid then
          findEsp disk (entriesOffset disk) (entrySize disk) turns (index + 1)
        else
          .ok (some (firstLba disk index, lastLba disk index))
      else
        .ok none := by
  have offset : entriesOffset disk + index * entrySize disk < 2 ^ 64 :=
    lt_of_le_of_lt (Nat.le_add_right _ _) fits
  have product : index * entrySize disk < 2 ^ 64 :=
    lt_of_le_of_lt (Nat.le_add_left _ _) offset
  rw [findEsp, mul64_eq_ok product]
  change
    (add64 (entriesOffset disk) (index * entrySize disk) >>= fun off =>
      add64 off (entrySize disk) >>= fun stop => _) = _
  rw [add64_eq_ok offset]
  change (add64 (entryOffset disk index) (entrySize disk) >>= fun stop => _) = _
  rw [add64_eq_ok fits]
  change
    (if disk.length < entryOffset disk index + entrySize disk then _ else
      cut disk (entryOffset disk index) _ >>= fun entry => _) = _
  by_cases has : HasEntry disk index
  · rw [if_pos has, if_neg (not_lt.2 has),
      cut_eq_ok (Nat.le_add_right _ _) has, Nat.add_sub_cancel_left]
    rfl
  · rw [if_neg has, if_pos (not_le.1 has)]
    rfl

/-- Where no entry is a system partition so far, the loop finds the first one. -/
theorem findEsp_cases
    (small : disk.length < 2 ^ 63) {turns index : Nat}
    (all : index + turns = numEntries disk)
    (fits : 0 < turns → entryOffset disk index + entrySize disk < 2 ^ 64)
    (before : ∀ earlier < index, ¬ IsEsp disk earlier) :
    (∃ found, IsFirstEsp disk found ∧
        findEsp disk (entriesOffset disk) (entrySize disk) turns index =
          .ok (some (firstLba disk found, lastLba disk found))) ∨
      (∀ found, ¬ IsFirstEsp disk found) ∧
        findEsp disk (entriesOffset disk) (entrySize disk) turns index =
          .ok none := by
  induction turns generalizing index with
  | zero =>
      refine Or.inr ⟨fun found isFirst => ?_, rfl⟩
      have listed := isFirst.listed
      rw [← all, Nat.add_zero] at listed
      exact before found listed isFirst.isEsp
  | succ turns induction =>
      rw [findEsp_succ (fits (Nat.succ_pos turns))]
      by_cases has : HasEntry disk index
      · rw [if_pos has]
        by_cases guid : slice (entryAt disk index) 0 16 = espGuid
        · rw [if_neg (not_not.2 guid)]
          refine Or.inl ⟨index, ?_, rfl⟩
          exact
            { listed := by omega
              isEsp := ⟨has, guid⟩
              first := before }
        · rw [if_pos guid]
          refine induction (by omega) (fun _ => stop_succ_lt has small) ?_
          intro earlier earlierLt
          rcases Nat.lt_succ_iff_lt_or_eq.1 earlierLt with lower | rfl
          · exact before earlier lower
          · exact fun isEsp => guid isEsp.2
      · rw [if_neg has]
        refine Or.inr ⟨fun found isFirst => ?_, rfl⟩
        rcases lt_or_ge found index with lower | upper
        · exact before found lower isFirst.isEsp
        · exact has (isFirst.isEsp.1.of_le upper)

theorem IsFirstEsp.eq
    {index other : Nat} (isFirst : IsFirstEsp disk index)
    (otherFirst : IsFirstEsp disk other) : index = other := by
  rcases lt_trichotomy index other with lower | same | upper
  · exact absurd isFirst.isEsp (otherFirst.first index lower)
  · exact same
  · exact absurd otherFirst.isEsp (isFirst.first other upper)

theorem panics_mul64_bind
    {β : Type} {left right : Nat} {next : Nat → Checked β}
    (overflows : 2 ^ 64 ≤ left * right) :
    Panics (mul64 left right >>= next) := by
  rw [mul64, if_neg (not_lt.2 overflows)]
  rfl

/-- The bytes of a partition are read without a panic if its blocks fit. -/
theorem not_panics_espSlice_iff {first last : Nat} :
    ¬ Panics (espSlice disk first last) ↔ BlocksFit disk first last := by
  rw [espSlice]
  rcases lt_or_ge (first * 512) (2 ^ 64) with start | overflows
  · rw [mul64_eq_ok start]
    change
      ¬ Panics
        (add64 last 1 >>= fun past => mul64 past 512 >>= fun stop => _) ↔ _
    rcases lt_or_ge ((last + 1) * 512) (2 ^ 64) with stop | overflows
    · rw [add64_eq_ok (by omega)]
      change ¬ Panics (mul64 (last + 1) 512 >>= fun stop => _) ↔ _
      rw [mul64_eq_ok stop]
      change
        ¬ Panics
          (if disk.length < (last + 1) * 512 then _ else
            cut disk (first * 512) ((last + 1) * 512)) ↔ _
      split
      · next short =>
          refine iff_of_true (not_panics_refuse _) ?_
          exact
            { start
              stop
              ordered := fun inside => absurd short (not_lt.2 inside) }
      · next inside =>
          rw [panics_cut_iff, or_iff_left inside, not_lt]
          constructor
          · intro ordered
            exact
              { start
                stop
                ordered := fun _ => by omega }
          · intro fits
            have ordered := fits.ordered (not_lt.1 inside)
            omega
    · refine iff_of_false ?_ fun fits => absurd fits.stop (not_lt.2 overflows)
      rw [not_not]
      rcases lt_or_ge (last + 1) (2 ^ 64) with past | pastEnd
      · rw [add64_eq_ok past]
        exact panics_mul64_bind overflows
      · rw [panics_bind_iff]
        exact Or.inl (panics_add64_iff.2 pastEnd)
  · refine iff_of_false ?_ fun fits => absurd fits.start (not_lt.2 overflows)
    rw [not_not]
    exact panics_mul64_bind overflows

/-- What is left behind the checks of the header. -/
theorem readEspFile_eq
    {Directory : Type} (header : PassesHeader disk)
    (fat : FatLibrary Directory) (path : String) :
    readEspFile fat disk path =
      mul64 (partitionEntryLba disk) 512 >>= fun entriesOff =>
        findEsp disk entriesOff (entrySize disk) (numEntries disk) 0 >>=
          fun found =>
            match found with
            | none => refuse "no ESP partition found in the disk image's GPT"
            | some (first, last) =>
                espSlice disk first last >>= fun volume =>
                  ofResult (readFatFile fat volume path) := by
  rw [readEspFile, if_neg (not_lt.2 header.long),
    if_neg (not_not.2 header.signature), if_neg (not_lt.2 header.large)]

theorem readEspFile_eq_ok
    {Directory : Type} (header : PassesHeader disk)
    {fat : FatLibrary Directory} {path : String} {entriesOff first last : Nat}
    {volume file : Bytes}
    (offset : mul64 (partitionEntryLba disk) 512 = .ok entriesOff)
    (found :
      findEsp disk entriesOff (entrySize disk) (numEntries disk) 0 =
        .ok (some (first, last)))
    (cutOut : espSlice disk first last = .ok volume)
    (read : readFatFile fat volume path = .ok file) :
    readEspFile fat disk path = .ok file := by
  rw [readEspFile_eq header, offset]
  change (findEsp disk entriesOff _ _ 0 >>= _) = _
  rw [found]
  change (espSlice disk first last >>= _) = _
  rw [cutOut]
  change ofResult (readFatFile fat volume path) = _
  rw [read]
  rfl

theorem not_panics_readEspFile_of_not_passesHeader
    {Directory : Type} (noHeader : ¬ PassesHeader disk)
    (fat : FatLibrary Directory) (path : String) :
    ¬ Panics (readEspFile fat disk path) := by
  rw [readEspFile]
  split
  · exact not_panics_refuse _
  · next long =>
      split
      · exact not_panics_refuse _
      · next signature =>
          split
          · exact not_panics_refuse _
          · next large =>
              exact
                absurd
                  { long := not_lt.1 long
                    signature := not_not.1 signature
                    large := not_lt.1 large }
                  noHeader

/-- The loop over the entries panics at its first turn or not at all. -/
theorem panics_findEsp
    (listed : 0 < numEntries disk) (near : entriesOffset disk < 2 ^ 64)
    (overflows : 2 ^ 64 ≤ entryOffset disk 0 + entrySize disk) :
    Panics
      (findEsp disk (entriesOffset disk) (entrySize disk) (numEntries disk)
        0) := by
  obtain ⟨turns, more⟩ := Nat.exists_eq_succ_of_ne_zero listed.ne'
  have product : mul64 0 (entrySize disk) = .ok 0 := by
    rw [mul64, Nat.zero_mul, if_pos (by decide)]
  have start : add64 (entriesOffset disk) 0 = .ok (entriesOffset disk) := by
    rw [add64, Nat.add_zero, if_pos near]
  rw [more, Nat.succ_eq_add_one, findEsp, product]
  change
    Panics
      (add64 (entriesOffset disk) 0 >>= fun off =>
        add64 off (entrySize disk) >>= fun stop => _)
  rw [start, panics_bind_iff]
  refine Or.inr ⟨_, rfl, ?_⟩
  rw [panics_bind_iff]
  refine Or.inl (panics_add64_iff.2 ?_)
  rw [entryOffset_zero] at overflows
  exact overflows

end

/-- The reader panics exactly on the images in which an offset does not fit. -/
theorem not_panics_readEspFile_iff
    {disk : Bytes} (small : disk.length < 2 ^ 63)
    {Directory : Type} (fat : FatLibrary Directory) (path : String) :
    ¬ Panics (readEspFile fat disk path) ↔
      (PassesHeader disk → OffsetsFit disk) := by
  by_cases header : PassesHeader disk
  · rw [readEspFile_eq header, forall_prop_of_true header]
    rcases lt_or_ge (entriesOffset disk) (2 ^ 64) with near | far
    · rw [mul64_eq_ok near]
      change
        ¬ Panics
          (findEsp disk (entriesOffset disk) (entrySize disk)
              (numEntries disk) 0 >>= fun found => _) ↔ _
      by_cases first :
          0 < numEntries disk →
            entryOffset disk 0 + entrySize disk < 2 ^ 64
      · rcases
            findEsp_cases small (Nat.zero_add (numEntries disk)) first
              (fun _ impossible => absurd impossible (Nat.not_lt_zero _)) with
          ⟨index, isFirst, found⟩ | ⟨noEsp, found⟩
        · rw [found]
          change
            ¬ Panics
              (espSlice disk (firstLba disk index) (lastLba disk index) >>=
                fun volume => ofResult (readFatFile fat volume path)) ↔ _
          rw [panics_bind_iff, or_iff_left, not_panics_espSlice_iff]
          · constructor
            · intro fits
              refine { entries := near, first, esp := fun other otherFirst => ?_ }
              rw [otherFirst.eq isFirst]
              exact fits
            · intro fits
              exact fits.esp index isFirst
          · rintro ⟨volume, -, panics⟩
            exact not_panics_ofResult _ panics
        · rw [found]
          refine iff_of_true (not_panics_refuse _) ?_
          exact
            { entries := near
              first
              esp := fun index isFirst => absurd isFirst (noEsp index) }
      · refine iff_of_false ?_ fun fits => first fits.first
        rcases Classical.not_imp.1 first with ⟨listed, overflows⟩
        rw [not_not, panics_bind_iff]
        exact Or.inl (panics_findEsp listed near (not_lt.1 overflows))
    · refine iff_of_false ?_ fun fits => absurd fits.entries (not_lt.2 far)
      rw [not_not]
      exact panics_mul64_bind far
  · exact
      iff_of_true (not_panics_readEspFile_of_not_passesHeader header fat path)
        fun passes => absurd passes header

/-- The entry of a system partition. -/
def espEntry (firstLba lastLba : Nat) : Bytes :=
  espGuid ++ List.replicate 16 1 ++ leBytes 8 firstLba ++ leBytes 8 lastLba ++
    List.replicate 80 0

/-- A FAT library that finds one file everywhere. -/
def sampleLibrary : FatLibrary Unit where
  rootDir _ := .ok ()
  openDir _ _ := .ok ()
  readFile _ _ := .ok [0x4D, 0x5A]

theorem not_panics_readEspFile_sampleDisk :
    ¬ Panics
      (readEspFile sampleLibrary (sampleDisk 1 [espEntry 1 1])
        fallbackBootloaderPath) := by
  refine
    (not_panics_readEspFile_iff (by decide +kernel) sampleLibrary
      fallbackBootloaderPath).2 fun _ => ?_
  refine
    { entries := by decide +kernel
      first := by decide +kernel
      esp := fun index isFirst => ?_ }
  have listed := isFirst.listed
  rw [show numEntries (sampleDisk 1 [espEntry 1 1]) = 1 by decide +kernel]
    at listed
  rw [Nat.lt_one_iff.1 listed]
  exact
    { start := by decide +kernel
      stop := by decide +kernel
      ordered := by decide +kernel }

/-- A partition whose first block is behind its last one stops the reader, in
an image that the event is measured from. -/
theorem panics_readEspFile_sampleDisk :
    let disk := sampleDisk 1 [espEntry 3 1]
    (gptEvent disk).isOk = true ∧
      Panics (readEspFile sampleLibrary disk fallbackBootloaderPath) := by
  constructor
  · decide +kernel
  · change readEspFile sampleLibrary _ _ = panicked
    decide +kernel

end Confos.Tdx.Esp
