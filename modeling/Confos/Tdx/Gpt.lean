import Confos.Tdx.PeFields

/-!
# The partition table event

The firmware measures the header and the used entries of the partition table
into RTMR[1], and the prediction reads them from the disk image.  The loop over
the entries ends where the image does, so the event covers the whole table
exactly if the image holds it.
-/

namespace Confos.Tdx.Gpt

open Confos.Library.ByteStrings
open Confos.Tdx.PeFields

/-! ## Fields of the table -/

section

variable (disk : Bytes)

/-- The header, which stands at LBA 1. -/
def gptHeader : Bytes :=
  slice disk 512 92

def partitionEntryLba : Nat :=
  numberAt (gptHeader disk) 72 8

def numEntries : Nat :=
  numberAt (gptHeader disk) 80 4

def entrySize : Nat :=
  numberAt (gptHeader disk) 84 4

def entriesOffset : Nat :=
  partitionEntryLba disk * 512

def entryOffset (index : Nat) : Nat :=
  entriesOffset disk + index * entrySize disk

def entryAt (index : Nat) : Bytes :=
  slice disk (entryOffset disk index) (entrySize disk)

/-- The image reaches behind the entry. -/
def HasEntry (index : Nat) : Prop :=
  entryOffset disk index + entrySize disk ≤ disk.length

instance (index : Nat) : Decidable (HasEntry disk index) :=
  inferInstanceAs (Decidable (_ ≤ _))

end

def isUsed (entry : Bytes) : Bool :=
  !(slice entry 0 16).all (· == 0)

/-! ## The event -/

/-- The loop over the entries, in so many turns from an index. -/
def collectEntries (disk : Bytes) (entriesOffset entrySize : Nat) :
    Nat → Nat → List Bytes → Except String (List Bytes)
  | 0, _, validEntries => .ok validEntries
  | turns + 1, index, validEntries =>
      let off := entriesOffset + index * entrySize
      if 2 ^ 64 ≤ index * entrySize ∨ 2 ^ 64 ≤ off then
        .error "GPT entry offset overflow"
      else if 2 ^ 64 ≤ off + entrySize ∨ disk.length < off + entrySize then
        .ok validEntries
      else
        let entry := slice disk off entrySize
        collectEntries disk entriesOffset entrySize turns (index + 1)
          (if isUsed entry then validEntries ++ [entry] else validEntries)

/-- The message of the event. -/
def gptEvent (disk : Bytes) : Except String Bytes :=
  if disk.length < 1024 then
    .error "Disk image too small for GPT"
  else if slice (gptHeader disk) 0 8 ≠ utf8Bytes "EFI PART" then
    .error "Invalid GPT signature"
  else if entrySize disk < 128 then
    .error s!"GPT partition entry size {entrySize disk} is below minimum 128"
  else if 2 ^ 64 ≤ entriesOffset disk then
    .error "GPT partition_entry_lba * 512 overflow"
  else do
    let validEntries ←
      collectEntries disk (entriesOffset disk) (entrySize disk)
        (numEntries disk) 0 []
    return gptHeader disk ++ leBytes 8 validEntries.length ++
      validEntries.flatten

def computeGptEventHash (sha384 : Bytes → Block 48) (disk : Bytes) :
    Except String Bytes := do
  return (sha384 (← gptEvent disk)).bytes

/-! ## The whole table -/

section

variable (disk : Bytes)

/-- A header that is read. -/
structure PassesHeader : Prop where
  long : 1024 ≤ disk.length
  signature : slice (gptHeader disk) 0 8 = utf8Bytes "EFI PART"
  large : 128 ≤ entrySize disk

/-- A header that is read, with entries in reach of an address. -/
structure HasHeader : Prop extends PassesHeader disk where
  near : entriesOffset disk < 2 ^ 64

/-- The image holds every entry that the header declares. -/
def HoldsTable : Prop :=
  ∀ index < numEntries disk, HasEntry disk index

instance : Decidable (HoldsTable disk) :=
  inferInstanceAs (Decidable (∀ index < numEntries disk, HasEntry disk index))

/-- The used entries among all that the header declares. -/
def usedEntries : List Bytes :=
  ((List.range (numEntries disk)).map (entryAt disk)).filter isUsed

/-- The event as the firmware measures it. -/
def wholeTable : Bytes :=
  gptHeader disk ++ leBytes 8 (usedEntries disk).length ++
    (usedEntries disk).flatten

/-- What is measured is the whole table, and the image holds it. -/
def CoversTable : Prop :=
  ∀ event,
    gptEvent disk = .ok event → HoldsTable disk ∧ event = wholeTable disk

end

section

variable {disk : Bytes}

theorem entryOffset_succ (disk : Bytes) (index : Nat) :
    entryOffset disk (index + 1) =
      entryOffset disk index + entrySize disk := by
  rw [entryOffset, entryOffset, Nat.succ_mul, Nat.add_assoc]

theorem entryOffset_mono (disk : Bytes) {index later : Nat}
    (ordered : index ≤ later) :
    entryOffset disk index ≤ entryOffset disk later :=
  Nat.add_le_add_left (Nat.mul_le_mul_right _ ordered) _

/-- The image holds the entries in front of one that it holds. -/
theorem HasEntry.of_le
    {index later : Nat} (has : HasEntry disk later)
    (ordered : index ≤ later) : HasEntry disk index :=
  (Nat.add_le_add_right (entryOffset_mono disk ordered) _).trans has

/-- One turn of the loop, where the entry is in reach of an address. -/
theorem collectEntries_succ
    {turns index : Nat} {validEntries : List Bytes}
    (small : disk.length < 2 ^ 64) (reached : entryOffset disk index < 2 ^ 64) :
    collectEntries disk (entriesOffset disk) (entrySize disk) (turns + 1) index
        validEntries =
      if HasEntry disk index then
        collectEntries disk (entriesOffset disk) (entrySize disk) turns
          (index + 1)
          (if isUsed (entryAt disk index) then
            validEntries ++ [entryAt disk index]
          else
            validEntries)
      else
        .ok validEntries := by
  have product : index * entrySize disk < 2 ^ 64 :=
    lt_of_le_of_lt (Nat.le_add_left _ _) reached
  rw [collectEntries]
  change
    (if 2 ^ 64 ≤ index * entrySize disk ∨ 2 ^ 64 ≤ entryOffset disk index then
        _
      else if
        2 ^ 64 ≤ entryOffset disk index + entrySize disk ∨
          disk.length < entryOffset disk index + entrySize disk then
        _
      else
        _) = _
  rw [if_neg (not_or.2 ⟨not_le.2 product, not_le.2 reached⟩)]
  by_cases has : HasEntry disk index
  · have inside := lt_of_le_of_lt has small
    rw [if_pos has, if_neg (not_or.2 ⟨not_le.2 inside, not_lt.2 has⟩)]
    rfl
  · rw [if_neg has, if_pos (Or.inr (not_le.1 has))]

/-- The loop never fails: where an entry is out of reach, the image has ended. -/
theorem exists_collectEntries_eq_ok
    (small : disk.length < 2 ^ 64) {turns index : Nat}
    (reached : entryOffset disk index < 2 ^ 64) (validEntries : List Bytes) :
    ∃ entries,
      collectEntries disk (entriesOffset disk) (entrySize disk) turns index
          validEntries = .ok entries := by
  induction turns generalizing index validEntries with
  | zero => exact ⟨validEntries, rfl⟩
  | succ turns induction =>
      rw [collectEntries_succ small reached]
      split
      · next has =>
          refine induction ?_ _
          rw [entryOffset_succ]
          exact lt_of_le_of_lt has small
      · exact ⟨validEntries, rfl⟩

/-- Where the image holds all the entries, the loop goes over all of them. -/
theorem collectEntries_eq_ok
    (small : disk.length < 2 ^ 64) {turns index : Nat}
    (reached : entryOffset disk index < 2 ^ 64) (validEntries : List Bytes)
    (holds : ∀ other < index + turns, HasEntry disk other) :
    collectEntries disk (entriesOffset disk) (entrySize disk) turns index
        validEntries =
      .ok
        (validEntries ++
          ((List.range' index turns).map (entryAt disk)).filter isUsed) := by
  induction turns generalizing index validEntries with
  | zero => simp [collectEntries]
  | succ turns induction =>
      have has : HasEntry disk index := holds index (by omega)
      have next : entryOffset disk (index + 1) < 2 ^ 64 := by
        rw [entryOffset_succ]
        exact lt_of_le_of_lt has small
      rw [collectEntries_succ small reached, if_pos has,
        induction next _ fun other before => holds other (by omega),
        List.range'_succ, List.map_cons, List.filter_cons]
      split
      · rw [List.append_assoc, List.singleton_append]
      · rfl

/-- Behind the checks of the header the event is made of what the loop finds. -/
theorem HasHeader.gptEvent_eq (header : HasHeader disk) :
    gptEvent disk =
      (collectEntries disk (entriesOffset disk) (entrySize disk)
          (numEntries disk) 0 []).map fun validEntries =>
        gptHeader disk ++ leBytes 8 validEntries.length ++
          validEntries.flatten := by
  rw [gptEvent, if_neg (not_lt.2 header.long),
    if_neg (not_not.2 header.signature), if_neg (not_lt.2 header.large),
    if_neg (not_le.2 header.near)]
  cases
    collectEntries disk (entriesOffset disk) (entrySize disk)
      (numEntries disk) 0 [] with
  | error problem => rfl
  | ok validEntries => rfl

theorem hasHeader_of_gptEvent
    {event : Bytes} (measured : gptEvent disk = .ok event) :
    HasHeader disk := by
  rw [gptEvent] at measured
  split at measured
  · cases measured
  · next long =>
      split at measured
      · cases measured
      · next signature =>
          split at measured
          · cases measured
          · next large =>
              split at measured
              · cases measured
              · next near =>
                  exact
                    { long := not_lt.1 long
                      signature := not_not.1 signature
                      large := not_lt.1 large
                      near := not_le.1 near }

theorem entryOffset_zero (disk : Bytes) :
    entryOffset disk 0 = entriesOffset disk := by
  rw [entryOffset, Nat.zero_mul, Nat.add_zero]

theorem HasHeader.entryOffset_zero_lt (header : HasHeader disk) :
    entryOffset disk 0 < 2 ^ 64 := by
  rw [entryOffset_zero]
  exact header.near

/-- An image that holds the table is measured by all of it. -/
theorem HasHeader.gptEvent_eq_wholeTable
    (header : HasHeader disk) (small : disk.length < 2 ^ 64)
    (holds : HoldsTable disk) : gptEvent disk = .ok (wholeTable disk) := by
  have all : ∀ index < 0 + numEntries disk, HasEntry disk index := by
    rw [Nat.zero_add]
    exact holds
  rw [header.gptEvent_eq,
    collectEntries_eq_ok small header.entryOffset_zero_lt [] all,
    List.nil_append, ← List.range_eq_range']
  rfl

end

/-! ## Coverage -/

/-- An image of a partition table: a header at LBA 1, entries from LBA 2 on. -/
def sampleDisk (numEntries : Nat) (entries : List Bytes) : Bytes :=
  List.replicate 512 0 ++ utf8Bytes "EFI PART" ++ List.replicate 64 0 ++
    leBytes 8 2 ++ leBytes 4 numEntries ++ leBytes 4 128 ++
      List.replicate 424 0 ++ entries.flatten

/--
The event covers the whole table exactly if the image holds every entry that a
header it is measured by declares.
-/
theorem coversTable_iff
    {disk : Bytes} (small : disk.length < 2 ^ 64) :
    CoversTable disk ↔ (HasHeader disk → HoldsTable disk) := by
  constructor
  · intro covers header
    obtain ⟨entries, collected⟩ :
        ∃ entries,
          collectEntries disk (entriesOffset disk) (entrySize disk)
              (numEntries disk) 0 [] = .ok entries :=
      exists_collectEntries_eq_ok small header.entryOffset_zero_lt []
    have measured := header.gptEvent_eq
    rw [collected] at measured
    exact (covers _ measured).1
  · intro whole event measured
    have header := hasHeader_of_gptEvent measured
    have holds := whole header
    rw [header.gptEvent_eq_wholeTable small holds] at measured
    cases measured
    exact ⟨holds, rfl⟩

theorem coversTable_sampleDisk :
    CoversTable (sampleDisk 1 [List.replicate 128 1]) :=
  (coversTable_iff (by decide +kernel)).2 fun _ => by decide +kernel

/-- Where the second of two entries is cut off, the first is measured alone. -/
theorem not_coversTable_sampleDisk :
    let disk := sampleDisk 2 [List.replicate 128 1]
    gptEvent disk =
        .ok (gptHeader disk ++ leBytes 8 1 ++ List.replicate 128 1) ∧
      ¬ CoversTable disk := by
  have measured :
      gptEvent (sampleDisk 2 [List.replicate 128 1]) =
        .ok
          (gptHeader (sampleDisk 2 [List.replicate 128 1]) ++ leBytes 8 1 ++
            List.replicate 128 1) := by
    decide +kernel
  refine ⟨measured, fun covers => ?_⟩
  exact absurd (covers _ measured).1 (by decide +kernel)

end Confos.Tdx.Gpt
