import Confos.Tdx.MeasurePanics

/-!
# Arithmetic of the hand-off block

Of the arithmetic behind the hand-off block one addition can leave its word:
the address behind the end of the list.  The block is placed at the last TD_HOB
section, which the parser lets stand at the end of the addresses.
-/

namespace Confos.Tdx.HandOffPanics

open Confos.Library.ByteStrings
open Confos.Library.Checks
open Confos.Library.Fallible
open Confos.Library.Ranges
open Confos.Tdx.Firmware
open Confos.Tdx.Mrtd
open Confos.Tdx.Rtmr0
open Confos.Tdx.AcceptedMemory
open Confos.Tdx.HandOffMemory
open Confos.Tdx.MeasurePanics

/-! ## The computation -/

def checkedRangeHob (range : MemoryRange) : Checked Bytes := do
  let length ← sub64 range.stop range.start
  return resourceHob (if range.accepted then 0x00 else 0x07) range.start length

def checkedLastHobs (memorySize : Nat) (last : MemoryRange) : Checked Bytes :=
  if 0xB0000000 ≤ memorySize then
    if 0x80000000 ≤ last.start then
      refuse s!"TD HOB: last memory range starts at 0x{lowerHex 0 last.start}, expected below 0x80000000"
    else if last.stop < 0x80000000 then
      refuse s!"TD HOB: last memory range ends at 0x{lowerHex 0 last.stop}, expected above 0x80000000"
    else do
      let low ← sub64 0x80000000 last.start
      let high ← sub64 last.stop 0x80000000
      return resourceHob 0x07 last.start low ++
        resourceHob 0x07 0x100000000 high
  else do
    let length ← sub64 last.stop last.start
    return resourceHob 0x07 last.start length

/-- The address behind the block's end is written into its first entry. -/
def checkedEndOfHobList (base : Nat) (tdHob : Bytes) : Checked Bytes := do
  let blockEnd ← add64 base tdHob.length
  let endOfHobList ← add64 blockEnd 8
  return tdHob.take 48 ++ leBytes 8 endOfHobList ++ tdHob.drop 56

/-- The descriptors of the ranges, and the block around them. -/
def checkedBlock (memorySize base : Nat) (ranges : List MemoryRange) :
    Checked Bytes :=
  match ranges.getLast? with
  | none => refuse "MemoryAcceptor has no ranges"
  | some last => do
      let front ← ranges.dropLast.mapM checkedRangeHob
      let tail ← checkedLastHobs memorySize last
      checkedEndOfHobList base (phitHob ++ front.flatten ++ tail)

def checkedTdHobMessage (tdvf : Tdvf) (memorySize : UInt64) :
    Checked Bytes := do
  let acceptor ← ofResult (MemoryAcceptor.new 0 memorySize.toNat)
  let accepted ←
    ofResult
      ((tdvf.sections.map CheckedSection.toTdvfSection).foldlM acceptSection
        (acceptor, 0x809000))
  checkedBlock memorySize.toNat accepted.2 accepted.1.ranges

def checkedMeasureTdHob
    (sha384 : Bytes → Block 48) (tdvf : Tdvf) (memorySize : UInt64) :
    Checked (Block 48) := do
  return sha384 (← checkedTdHobMessage tdvf memorySize)

/-- The variable store; its end is added as the source adds it, with a check. -/
def checkedCfvMessage (tdvf : Tdvf) : Checked Bytes :=
  match tdvf.sections.find? (·.secType = tdvfSectionTdCfv) with
  | none => refuse "CFV section not found in firmware"
  | some entry =>
      let stop := entry.dataOffset.toNat + entry.rawDataSize.toNat
      if 2 ^ 64 ≤ stop then
        refuse "CFV offset + size overflow"
      else if tdvf.fw.length < stop then
        refuse "CFV section extends beyond firmware"
      else
        cut tdvf.fw entry.dataOffset.toNat stop

def checkedMeasureCfv (sha384 : Bytes → Block 48) (tdvf : Tdvf) :
    Checked (Block 48) := do
  return sha384 (← checkedCfvMessage tdvf)

/-! ## The variable store -/

theorem checkedCfvMessage_eq (tdvf : Tdvf) :
    checkedCfvMessage tdvf = ofResult (cfvMessage tdvf) := by
  unfold checkedCfvMessage cfvMessage
  cases tdvf.sections.find? (·.secType = tdvfSectionTdCfv) with
  | none => rfl
  | some entry =>
      have offset : entry.dataOffset.toNat < 2 ^ 32 :=
        entry.dataOffset.toNat_lt
      have size : entry.rawDataSize.toNat < 2 ^ 32 :=
        entry.rawDataSize.toNat_lt
      have small :
          ¬ 2 ^ 64 ≤ entry.dataOffset.toNat + entry.rawDataSize.toNat := by
        omega
      dsimp only
      rw [if_neg small]
      by_cases beyond :
        tdvf.fw.length < entry.dataOffset.toNat + entry.rawDataSize.toNat
      · rw [if_pos beyond, if_pos beyond]
        rfl
      · rw [if_neg beyond, if_neg beyond,
          cut_eq_ok (Nat.le_add_right _ _) (not_lt.1 beyond),
          Nat.add_sub_cancel_left]
        rfl

theorem panics_return_iff
    {α β : Type} {computation : Checked α} {finish : α → β} :
    Panics (computation >>= fun value => .ok (finish value)) ↔
      Panics computation := by
  rw [panics_bind_iff]
  constructor
  · rintro (panics | ⟨value, -, panics⟩)
    · exact panics
    · exact absurd panics (not_panics_ok _)
  · exact Or.inl

/-- The variable store is measured or refused, on any image. -/
theorem not_panics_checkedMeasureCfv
    (sha384 : Bytes → Block 48) (tdvf : Tdvf) :
    ¬ Panics (checkedMeasureCfv sha384 tdvf) := by
  intro panics
  have message := panics_return_iff.1 panics
  rw [checkedCfvMessage_eq] at message
  exact not_panics_ofResult _ message

/-! ## The block -/

section

variable {memorySize base : Nat} {range last : MemoryRange}

theorem checkedRangeHob_eq_ok (forward : range.start ≤ range.stop) :
    checkedRangeHob range = .ok (rangeHob range) := by
  rw [checkedRangeHob, sub64_eq_ok forward]
  rfl

theorem mapM_checkedRangeHob
    {ranges : List MemoryRange}
    (forward : ∀ range ∈ ranges, range.start ≤ range.stop) :
    ranges.mapM checkedRangeHob = .ok (ranges.map rangeHob) := by
  induction ranges with
  | nil => rfl
  | cons range ranges induction =>
      rcases List.forall_mem_cons.1 forward with ⟨first, rest⟩
      rw [List.mapM_cons, checkedRangeHob_eq_ok first, induction rest]
      rfl

/-- The subtractions of the last range are guarded. -/
theorem checkedLastHobs_eq (forward : last.start ≤ last.stop) :
    checkedLastHobs memorySize last = ofResult (lastHobs memorySize last) := by
  rw [checkedLastHobs, lastHobs]
  by_cases large : 0xB0000000 ≤ memorySize
  · rw [if_pos large, if_pos large]
    by_cases starts : 0x80000000 ≤ last.start
    · rw [if_pos starts, if_pos starts]
      rfl
    · rw [if_neg starts, if_neg starts]
      by_cases stops : last.stop < 0x80000000
      · rw [if_pos stops, if_pos stops]
        rfl
      · rw [if_neg stops, if_neg stops, sub64_eq_ok (not_le.1 starts).le,
          sub64_eq_ok (not_lt.1 stops)]
        rfl
  · rw [if_neg large, if_neg large, sub64_eq_ok forward]
    rfl

theorem completes_checkedEndOfHobList (base : Nat) (tdHob : Bytes) :
    Completes (checkedEndOfHobList base tdHob)
      (base + tdHob.length + 8 < 2 ^ 64) (fixEndOfHobList base tdHob) := by
  refine (completes_add64 _ _).bind ?_ fun _ => ?_
  · intro fits
    omega
  · exact (completes_add64 _ _).bind id fun fits => .ok fits _

theorem lastHobs_of_lastFits (fits : LastFits memorySize last) :
    lastHobs memorySize last =
      .ok
        ((lastDescriptors memorySize last).flatMap
          ResourceDescriptor.bytes) := by
  rw [lastHobs, lastDescriptors]
  by_cases large : 0xB0000000 ≤ memorySize
  · rcases fits large with ⟨starts, stops⟩
    rw [if_pos large, if_neg (not_le.2 starts), if_neg (not_lt.2 stops),
      if_pos large, List.flatMap_cons, List.flatMap_singleton]
    rfl
  · rw [if_neg large, if_neg large, List.flatMap_singleton]
    rfl

/-- The bytes of a block in front of its end. -/
def blockBytes (memorySize : Nat) (front : List MemoryRange)
    (last : MemoryRange) : Bytes :=
  phitHob ++
    (front.map rangeDescriptor ++ lastDescriptors memorySize last).flatMap
      ResourceDescriptor.bytes

theorem length_blockBytes (front : List MemoryRange) :
    (blockBytes memorySize front last).length =
      56 + (front.length + (lastDescriptors memorySize last).length) * 48 := by
  rw [blockBytes, List.length_append, length_phitHob, length_flatMap_bytes,
    List.length_append, List.length_map]

/-- What the block is built from, after the two checks of its last range. -/
theorem checkedBlock_eq
    {front : List MemoryRange}
    (forward : ∀ range ∈ front ++ [last], range.start ≤ range.stop) :
    checkedBlock memorySize base (front ++ [last]) =
      ofResult (lastHobs memorySize last) >>= fun tail =>
        checkedEndOfHobList base
          (phitHob ++ front.flatMap rangeHob ++ tail) := by
  have frontForward : ∀ range ∈ front, range.start ≤ range.stop := by
    intro range member
    exact forward range (List.mem_append_left _ member)
  have lastForward : last.start ≤ last.stop :=
    forward last (List.mem_append_right _ (List.mem_singleton_self _))
  unfold checkedBlock
  rw [List.getLast?_concat, List.dropLast_concat]
  dsimp only
  rw [mapM_checkedRangeHob frontForward, checkedLastHobs_eq lastForward,
    List.flatMap_def]
  rfl

/-- The block of the model without words. -/
def block (memorySize base : Nat) (ranges : List MemoryRange) :
    Except String Bytes :=
  match ranges.getLast? with
  | none => .error "MemoryAcceptor has no ranges"
  | some last => do
      let tail ← lastHobs memorySize last
      return fixEndOfHobList base
        (phitHob ++ ranges.dropLast.flatMap rangeHob ++ tail)

theorem checkedBlock_eq_ofResult
    {ranges front : List MemoryRange} (parts : ranges = front ++ [last])
    (forward : ∀ range ∈ front ++ [last], range.start ≤ range.stop)
    (noPanic : ¬ Panics (checkedBlock memorySize base ranges)) :
    checkedBlock memorySize base ranges =
      ofResult (block memorySize base ranges) := by
  subst parts
  rw [checkedBlock_eq forward] at noPanic ⊢
  unfold block
  rw [List.getLast?_concat, List.dropLast_concat]
  apply bind_eq_ofResult noPanic
  intro tail _ noPanic
  exact (completes_checkedEndOfHobList _ _).eq_ok_of_not_panics noPanic

/-- A block that is not refused panics where the address behind it overflows. -/
theorem panics_checkedBlock_iff
    {front : List MemoryRange}
    (forward : ∀ range ∈ front ++ [last], range.start ≤ range.stop) :
    Panics (checkedBlock memorySize base (front ++ [last])) ↔
      LastFits memorySize last ∧
        2 ^ 64 ≤
          base + (blockBytes memorySize front last).length + 8 := by
  rw [checkedBlock_eq forward, panics_bind_iff,
    or_iff_right (not_panics_ofResult _)]
  have sameBytes :
      phitHob ++ front.flatMap rangeHob ++
          (lastDescriptors memorySize last).flatMap ResourceDescriptor.bytes =
        blockBytes memorySize front last := by
    rw [blockBytes, List.flatMap_append, List.flatMap_map, List.append_assoc]
    rfl
  constructor
  · rintro ⟨tail, built, panics⟩
    rcases lastHobs_eq_ok (mapError_eq_ok.1 built) with ⟨fits, rfl⟩
    rw [sameBytes] at panics
    exact
      ⟨fits, not_lt.1 ((completes_checkedEndOfHobList _ _).panics_iff.1 panics)⟩
  · rintro ⟨fits, overflows⟩
    refine ⟨_, mapError_eq_ok.2 (lastHobs_of_lastFits fits), ?_⟩
    rw [sameBytes]
    exact
      (completes_checkedEndOfHobList _ _).panics_iff.2 (not_lt.2 overflows)

end

/-! ## When the address overflows -/

section

variable (tdvf : Tdvf) (memorySize : UInt64)

/-- The accepted sections, and what they leave of guest memory. -/
def handOffRanges : List (Nat × Nat) :=
  acceptedRanges (entriesOf tdvf) ++
    leftOver (0, memorySize.toNat) (acceptedRanges (entriesOf tdvf))

/-- The block is not refused: by an accepted section or by the last range. -/
def HandOffBuilt : Prop :=
  (∀ entry ∈ entriesOf tdvf,
    IsAccepted entry → (memoryRange entry).2 < 2 ^ 64) ∧
    (0xB0000000 ≤ memorySize.toNat →
      ∀ last, highest (handOffRanges tdvf memorySize) = some last →
        last.1 < 0x80000000 ∧ 0x80000000 ≤ last.2)

/-- One descriptor for each section and gap, and one more in a large memory. -/
def descriptorCount : Nat :=
  (handOffRanges tdvf memorySize).length +
    if 0xB0000000 ≤ memorySize.toNat then 1 else 0

/-- Where the block is built, the address behind its end is in 64 bits. -/
def HandOffFits : Prop :=
  HandOffBuilt tdvf memorySize →
    hobBase 0x809000 (entriesOf tdvf) + 64 +
        48 * descriptorCount tdvf memorySize <
      2 ^ 64

/-- Guest memory as the acceptor keeps it when all sections are accepted. -/
def acceptedMemory : MemoryAcceptor :=
  acceptAll
    { ranges := [{ accepted := false, start := 0, stop := memorySize.toNat }] }
    (acceptedRanges (entriesOf tdvf))

end

section

variable {tdvf : Tdvf} {memorySize : UInt64}
  {front : List MemoryRange} {last : MemoryRange}

theorem accepts_acceptedMemory :
    Accepts (0, memorySize.toNat) (acceptedRanges (entriesOf tdvf))
      (acceptedMemory tdvf memorySize) :=
  (accepts_whole 0 memorySize.toNat).acceptAll nonempty_acceptedRanges

theorem acceptedMemory_eq_concat (tdvf : Tdvf) (memorySize : UInt64) :
    ∃ front last,
      (acceptedMemory tdvf memorySize).ranges = front ++ [last] ∧
        ∀ range ∈ front ++ [last], range.start ≤ range.stop := by
  have accepts := @accepts_acceptedMemory tdvf memorySize
  have forward := accepts.forward nonempty_acceptedRanges (Nat.zero_le _)
  rcases List.eq_nil_or_concat (acceptedMemory tdvf memorySize).ranges with
    none | ⟨front, last, parts⟩
  · exact absurd none accepts.ranges_ne_nil
  · rw [List.concat_eq_append] at parts
    rw [parts] at forward
    exact ⟨front, last, parts, forward⟩

theorem length_acceptedMemory :
    (acceptedMemory tdvf memorySize).ranges.length =
      (handOffRanges tdvf memorySize).length := by
  rw [handOffRanges, ← accepts_acceptedMemory.perm.length_eq,
    List.length_map]

/-- The block is built where its last range is the one that starts last. -/
theorem handOffBuilt_iff
    (parts : (acceptedMemory tdvf memorySize).ranges = front ++ [last]) :
    HandOffBuilt tdvf memorySize ↔
      (∀ entry ∈ entriesOf tdvf,
        IsAccepted entry → (memoryRange entry).2 < 2 ^ 64) ∧
        LastFits memorySize.toNat last := by
  rw [HandOffBuilt, LastFits]
  apply and_congr_right'
  apply forall_congr'
  intro large
  have positive : 0 < memorySize.toNat :=
    lt_of_lt_of_le (by decide) large
  have known :
      some (ends last) = highest (handOffRanges tdvf memorySize) := by
    have lastRange :=
      getLast?_acceptAll positive (@nonempty_acceptedRanges (entriesOf tdvf))
    change (acceptedMemory tdvf memorySize).ranges.getLast?.map ends = _
      at lastRange
    rw [parts, List.getLast?_concat] at lastRange
    exact lastRange
  rw [← known]
  simp only [Option.some.injEq, forall_eq', ends]

theorem length_blockBytes_acceptedMemory
    (parts : (acceptedMemory tdvf memorySize).ranges = front ++ [last]) :
    (blockBytes memorySize.toNat front last).length + 8 =
      64 + 48 * descriptorCount tdvf memorySize := by
  rw [length_blockBytes, descriptorCount, ← length_acceptedMemory, parts,
    List.length_append, List.length_singleton, lastDescriptors]
  split
  · simp only [List.length_cons, List.length_nil]
    omega
  · simp only [List.length_cons, List.length_nil]
    omega

/-- The steps in front of the block can only refuse. -/
theorem checkedTdHobMessage_eq_bind (tdvf : Tdvf) (memorySize : UInt64) :
    checkedTdHobMessage tdvf memorySize =
      ofResult
          ((entriesOf tdvf).foldlM acceptSection
            ({ ranges :=
                [{ accepted := false, start := 0,
                   stop := memorySize.toNat }] },
              0x809000)) >>= fun accepted =>
        checkedBlock memorySize.toNat accepted.2 accepted.1.ranges := by
  rw [checkedTdHobMessage, new_eq_ok memorySize]
  rfl

theorem tdHobMessage_eq_bind (tdvf : Tdvf) (memorySize : UInt64) :
    tdHobMessage tdvf memorySize =
      (entriesOf tdvf).foldlM acceptSection
          ({ ranges :=
              [{ accepted := false, start := 0, stop := memorySize.toNat }] },
            0x809000) >>= fun accepted =>
        block memorySize.toNat accepted.2 accepted.1.ranges := by
  rw [tdHobMessage, new_eq_ok memorySize]
  rfl

/-- The one overflow behind the hand-off block. -/
theorem panics_checkedTdHobMessage_iff :
    Panics (checkedTdHobMessage tdvf memorySize) ↔
      ¬ HandOffFits tdvf memorySize := by
  rcases acceptedMemory_eq_concat tdvf memorySize with
    ⟨front, last, parts, forward⟩
  have block :
      Panics
          (checkedBlock memorySize.toNat (hobBase 0x809000 (entriesOf tdvf))
            (acceptedMemory tdvf memorySize).ranges) ↔
        LastFits memorySize.toNat last ∧
          2 ^ 64 ≤
            hobBase 0x809000 (entriesOf tdvf) +
                (blockBytes memorySize.toNat front last).length +
              8 := by
    rw [parts]
    exact panics_checkedBlock_iff forward
  have looped :
      Panics (checkedTdHobMessage tdvf memorySize) ↔
        (∀ entry ∈ entriesOf tdvf,
          IsAccepted entry → (memoryRange entry).2 < 2 ^ 64) ∧
          Panics
            (checkedBlock memorySize.toNat
              (hobBase 0x809000 (entriesOf tdvf))
              (acceptedMemory tdvf memorySize).ranges) := by
    rw [checkedTdHobMessage_eq_bind, panics_bind_iff,
      or_iff_right (not_panics_ofResult _)]
    constructor
    · rintro ⟨value, folded, panics⟩
      rcases foldlM_acceptSection_eq_ok_iff.1 (mapError_eq_ok.1 folded) with
        ⟨fits, rfl⟩
      exact ⟨fits, panics⟩
    · rintro ⟨fits, panics⟩
      exact
        ⟨_, mapError_eq_ok.2 (foldlM_acceptSection_eq_ok_iff.2 ⟨fits, rfl⟩),
          panics⟩
  rw [looped, block, HandOffFits, handOffBuilt_iff parts, Classical.not_imp,
    not_lt, and_assoc, Nat.add_assoc, length_blockBytes_acceptedMemory parts,
    Nat.add_assoc]

/-- Without an overflow the block is the one of the model without words. -/
theorem checkedTdHobMessage_eq (fits : HandOffFits tdvf memorySize) :
    checkedTdHobMessage tdvf memorySize =
      ofResult (tdHobMessage tdvf memorySize) := by
  have noPanic := mt panics_checkedTdHobMessage_iff.1 (not_not.2 fits)
  rcases acceptedMemory_eq_concat tdvf memorySize with
    ⟨front, last, parts, forward⟩
  rw [checkedTdHobMessage_eq_bind] at noPanic ⊢
  rw [tdHobMessage_eq_bind]
  apply bind_eq_ofResult noPanic
  intro accepted folded noPanic
  rcases foldlM_acceptSection_eq_ok_iff.1 folded with ⟨-, rfl⟩
  exact checkedBlock_eq_ofResult parts forward noPanic

end

/--
The image is measured and the hand-off block and the variable store are measured
or refused, without an overflow and with every slice in the image, exactly if the
measured sections end in 64 bits and the block that is built does.
-/
theorem measures_without_panic_iff
    (sha384 : Bytes → Block 48) {tdvf : Tdvf}
    (image : tdvf.fw.length < 2 ^ 64) (memorySize : UInt64) :
    (checkedMrtd sha384 tdvf = .ok (mrtd sha384 tdvf) ∧
        ¬ Panics (checkedMeasureTdHob sha384 tdvf memorySize) ∧
          ¬ Panics (checkedMeasureCfv sha384 tdvf)) ↔
      (∀ entry ∈ entriesOf tdvf, SectionFits entry) ∧
        HandOffFits tdvf memorySize := by
  have block :
      Panics (checkedMeasureTdHob sha384 tdvf memorySize) ↔
        ¬ HandOffFits tdvf memorySize :=
    panics_return_iff.trans panics_checkedTdHobMessage_iff
  rw [(completes_checkedMrtd sha384 image).eq_ok_iff, block, not_not,
    and_iff_left (not_panics_checkedMeasureCfv sha384 tdvf)]

/-! ## Two images -/

/-- The image with one page that is added, and three pages of memory. -/
theorem measures_without_panic_sampleFirmware :
    ∃ tdvf,
      parse 1 (sampleFirmware 0) = some (.ok tdvf) ∧
        checkedMrtd (fun _ => Block.zero 48) tdvf = .ok (Block.zero 48) ∧
          ¬ Panics
            (checkedMeasureTdHob (fun _ => Block.zero 48) tdvf 0x3000) ∧
            ¬ Panics (checkedMeasureCfv (fun _ => Block.zero 48) tdvf) := by
  have stated :
      ((parse 1 (sampleFirmware 0)).bind Except.toOption).map
          (fun tdvf =>
            (entriesOf tdvf,
              (tdHobMessage tdvf 0x3000).toOption.map resourceDescriptors)) =
        some
          ([sampleEntry],
            some [⟨0x07, 0, 0x1000⟩, ⟨0x00, 0x1000, 0x1000⟩,
              ⟨0x07, 0x2000, 0x1000⟩]) := by
    decide +kernel
  rcases exists_block_sampleFirmware stated with
    ⟨tdvf, message, parsed, -, entries, -⟩
  have image : tdvf.fw.length < 2 ^ 64 := by
    rw [fw_of_parse parsed]
    decide +kernel
  refine
    ⟨tdvf, parsed,
      (measures_without_panic_iff (fun _ => Block.zero 48) image 0x3000).2 ?_⟩
  rw [HandOffFits, descriptorCount, handOffRanges, entries]
  refine ⟨by decide, fun _ => by decide⟩

/-- The small image with another place for its section. -/
def firmwareAt (address size : Nat) : Bytes :=
  utf8Bytes "TDVF" ++ leBytes 4 0 ++ leBytes 4 1 ++ leBytes 4 1 ++
    (leBytes 4 0 ++ leBytes 4 0 ++ leBytes 8 address ++ leBytes 8 size ++
      leBytes 4 3 ++ leBytes 4 0) ++
    (leBytes 4 120 ++ leBytes 2 4 ++
      [0x35, 0x65, 0x7a, 0xe4, 0x4a, 0x98, 0x98, 0x47, 0x86, 0x5e, 0x46, 0x85,
        0xa7, 0xbf, 0x8e, 0xc2]) ++
    leBytes 2 22 ++
    [0xde, 0x82, 0xb5, 0x96, 0xb2, 0x1f, 0xf7, 0x45, 0xba, 0xea, 0xa3, 0x66,
      0xc5, 0x5a, 0x08, 0x2d] ++
    List.replicate 32 0

/-- Two pages of which the second is behind the last address. -/
theorem panics_checkedMrtd_lastPage :
    ∃ tdvf,
      parse 1 (firmwareAt 0xFFFFFFFFFFFFF000 0x2000) = some (.ok tdvf) ∧
        Panics (checkedMrtd (fun _ => Block.zero 48) tdvf) := by
  have stated :
      ((parse 1 (firmwareAt 0xFFFFFFFFFFFFF000 0x2000)).bind
            Except.toOption).map checkedOperations =
        some panicked := by
    decide +kernel
  rcases Option.map_eq_some_iff.1 stated with ⟨tdvf, found, panics⟩
  rcases Option.bind_eq_some_iff.1 found with ⟨result, accepted, isOk⟩
  cases result with
  | error problem => cases isOk
  | ok other =>
      cases isOk
      exact ⟨tdvf, accepted, panics_return_iff.2 panics⟩

end Confos.Tdx.HandOffPanics
