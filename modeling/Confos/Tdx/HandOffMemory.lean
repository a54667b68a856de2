import Confos.Library.Patches
import Confos.Tdx.AcceptedMemory

/-!
# Guest memory in the hand-off block

The block states guest memory by resource descriptors, which are read back here
from its bytes.  They describe the memory exactly if the accepted sections do
not meet and end below the end of the memory: the last range is always stated
as not accepted, and nothing checks the sections against the memory or against
each other.
-/

namespace Confos.Tdx.HandOffMemory

open Confos.Library.ByteStrings
open Confos.Library.Fallible
open Confos.Library.Patches
open Confos.Library.Ranges
open Confos.Tdx.Firmware
open Confos.Tdx.Rtmr0
open Confos.Tdx.AcceptedMemory

/-! ## Descriptors -/

/-- What a resource descriptor states. -/
structure ResourceDescriptor where
  resourceType : UInt8
  start : Nat
  length : Nat
deriving DecidableEq, Repr

namespace ResourceDescriptor

def bytes (descriptor : ResourceDescriptor) : Bytes :=
  resourceHob descriptor.resourceType descriptor.start descriptor.length

/-- Its numbers fit their fields. -/
def Fits (descriptor : ResourceDescriptor) : Prop :=
  descriptor.start < 2 ^ 64 ∧ descriptor.length < 2 ^ 64

def read (hob : Bytes) : ResourceDescriptor where
  resourceType := hob.getD 24 0
  start := ofLeBytes (slice hob 32 8)
  length := ofLeBytes (slice hob 40 8)

end ResourceDescriptor

/-- The descriptors of a block, behind its first entry. -/
def resourceDescriptors (tdHob : Bytes) : List ResourceDescriptor :=
  (List.range ((tdHob.length - 56) / 48)).map fun index =>
    .read (slice tdHob (56 + index * 48) 48)

section

variable {descriptor : ResourceDescriptor}
  {descriptors : List ResourceDescriptor}

@[simp]
theorem length_bytes (descriptor : ResourceDescriptor) :
    descriptor.bytes.length = 48 := by
  simp [ResourceDescriptor.bytes, resourceHob]

theorem read_bytes (fits : descriptor.Fits) :
    ResourceDescriptor.read descriptor.bytes = descriptor := by
  have whole :
      ReadsAt descriptor.bytes 32
        (leBytes 8 descriptor.start ++ (leBytes 8 descriptor.length ++ [])) := by
    have parts :
        descriptor.bytes =
          ([0x03, 0x00] ++ leBytes 2 48 ++ leBytes 4 0 ++
              List.replicate 16 0 ++ [descriptor.resourceType] ++
                List.replicate 3 0 ++ leBytes 4 0x00000007) ++
            (leBytes 8 descriptor.start ++
              (leBytes 8 descriptor.length ++ [])) := by
      rw [List.append_nil, ← List.append_assoc]
      rfl
    rw [parts]
    exact ReadsAt.of_append _ _
  have behind := whole.advance (length_leBytes 8 _)
  have start := whole.slice_eq (length_leBytes 8 _)
  have length := behind.slice_eq (length_leBytes 8 _)
  rw [ResourceDescriptor.read, start, length,
    ofLeBytes_leBytes_of_lt fits.1, ofLeBytes_leBytes_of_lt fits.2]
  rfl

/-- The descriptors behind some bytes are read one by one. -/
theorem map_range_read
    (front : Bytes) (fits : ∀ descriptor ∈ descriptors, descriptor.Fits) :
    ((List.range descriptors.length).map fun index =>
        ResourceDescriptor.read
          (slice (front ++ descriptors.flatMap ResourceDescriptor.bytes)
            (front.length + index * 48) 48)) =
      descriptors := by
  induction descriptors generalizing front with
  | nil => rfl
  | cons descriptor descriptors induction =>
      rcases List.forall_mem_cons.1 fits with ⟨firstFits, restFits⟩
      have first :
          slice
              (front ++
                (descriptor.bytes ++
                  descriptors.flatMap ResourceDescriptor.bytes))
              (front.length + 0 * 48) 48 =
            descriptor.bytes := by
        rw [Nat.zero_mul, Nat.add_zero]
        exact (ReadsAt.of_append _ _).slice_eq (length_bytes descriptor)
      have rest := induction (front ++ descriptor.bytes) restFits
      rw [List.length_append, length_bytes, List.append_assoc] at rest
      rw [List.length_cons, List.range_succ_eq_map, List.map_cons,
        List.map_map, List.flatMap_cons, first, read_bytes firstFits]
      refine congrArg _ (Eq.trans ?_ rest)
      apply List.map_congr_left
      intro index _
      rw [Function.comp_apply, Nat.succ_mul, Nat.add_comm (index * 48),
        Nat.add_assoc]

theorem length_flatMap_bytes (descriptors : List ResourceDescriptor) :
    (descriptors.flatMap ResourceDescriptor.bytes).length =
      descriptors.length * 48 := by
  induction descriptors with
  | nil => rfl
  | cons descriptor descriptors induction =>
      rw [List.flatMap_cons, List.length_append, length_bytes, induction,
        List.length_cons, Nat.succ_mul, Nat.add_comm]

theorem length_phitHob : phitHob.length = 56 :=
  rfl

/-- The address behind the block's end is in its first entry. -/
theorem fixEndOfHobList_append (base : Nat) (rest : Bytes) :
    ∃ front : Bytes, front.length = 56 ∧
      fixEndOfHobList base (phitHob ++ rest) = front ++ rest := by
  refine
    ⟨phitHob.take 48 ++ leBytes 8 (base + (phitHob ++ rest).length + 8), ?_, ?_⟩
  · rw [List.length_append, List.length_take, length_leBytes, length_phitHob]
    rfl
  · rw [fixEndOfHobList, List.take_append_of_le_length (by decide),
      List.drop_left' length_phitHob]

/-- The descriptors are read back from the block. -/
theorem resourceDescriptors_block
    (base : Nat) (fits : ∀ descriptor ∈ descriptors, descriptor.Fits) :
    resourceDescriptors
        (fixEndOfHobList base
          (phitHob ++ descriptors.flatMap ResourceDescriptor.bytes)) =
      descriptors := by
  rcases
      fixEndOfHobList_append base
        (descriptors.flatMap ResourceDescriptor.bytes) with
    ⟨front, length, block⟩
  have count :
      ((front ++ descriptors.flatMap ResourceDescriptor.bytes).length - 56) /
          48 =
        descriptors.length := by
    rw [List.length_append, length, length_flatMap_bytes,
      Nat.add_sub_cancel_left, Nat.mul_div_cancel _ (by decide)]
  have read := map_range_read front fits
  rw [length] at read
  rw [resourceDescriptors, block, count, read]

end

/-! ## The descriptors of some ranges -/

def rangeDescriptor (range : MemoryRange) : ResourceDescriptor where
  resourceType := if range.accepted then 0x00 else 0x07
  start := range.start
  length := range.stop - range.start

/-- The last range is stated as not accepted; a large one is cut at 2 GiB. -/
def lastDescriptors (memorySize : Nat) (last : MemoryRange) :
    List ResourceDescriptor :=
  if 0xB0000000 ≤ memorySize then
    [{ resourceType := 0x07, start := last.start,
       length := 0x80000000 - last.start },
      { resourceType := 0x07, start := 0x100000000,
        length := last.stop - 0x80000000 }]
  else
    [{ resourceType := 0x07, start := last.start,
       length := last.stop - last.start }]

/-- A large memory ends in a range around 2 GiB. -/
def LastFits (memorySize : Nat) (last : MemoryRange) : Prop :=
  0xB0000000 ≤ memorySize →
    last.start < 0x80000000 ∧ 0x80000000 ≤ last.stop

/-- What a block is made from. -/
structure HandOff (tdvf : Tdvf) (memorySize : UInt64) where
  acceptor : MemoryAcceptor
  base : Nat
  front : List MemoryRange
  last : MemoryRange
  folded :
    (tdvf.sections.map CheckedSection.toTdvfSection).foldlM acceptSection
        ({ ranges := [{ accepted := false, start := 0,
                        stop := memorySize.toNat }] },
          0x809000) =
      .ok (acceptor, base)
  ranges_eq : acceptor.ranges = front ++ [last]
  last_fits : LastFits memorySize.toNat last

/-- The descriptors of the block. -/
def HandOff.descriptors
    {tdvf : Tdvf} {memorySize : UInt64} (handOff : HandOff tdvf memorySize) :
    List ResourceDescriptor :=
  handOff.front.map rangeDescriptor ++
    lastDescriptors memorySize.toNat handOff.last

section

variable {tdvf : Tdvf} {memorySize : UInt64} {message : Bytes}

theorem lastHobs_eq_ok
    {memorySize : Nat} {last : MemoryRange} {tail : Bytes}
    (built : lastHobs memorySize last = .ok tail) :
    LastFits memorySize last ∧
      tail =
        (lastDescriptors memorySize last).flatMap ResourceDescriptor.bytes := by
  rw [lastHobs] at built
  split at built
  · next large =>
      split at built
      · cases built
      · next starts =>
          split at built
          · cases built
          · next stops =>
              cases built
              rw [lastDescriptors, if_pos large]
              refine ⟨fun _ => ⟨not_le.1 starts, not_lt.1 stops⟩, ?_⟩
              rw [List.flatMap_cons, List.flatMap_singleton]
              rfl
  · next small =>
      cases built
      rw [lastDescriptors, if_neg small, List.flatMap_singleton]
      exact ⟨fun large => absurd large small, rfl⟩

/-- Guest memory starts at zero and its end is in a word. -/
theorem new_eq_ok (memorySize : UInt64) :
    MemoryAcceptor.new 0 memorySize.toNat =
      .ok
        { ranges := [{ accepted := false, start := 0,
                       stop := memorySize.toNat }] } := by
  have inside : 0 + memorySize.toNat < 2 ^ 64 := by
    rw [Nat.zero_add]
    exact memorySize.toNat_lt
  rw [MemoryAcceptor.new, if_pos inside, Nat.zero_add]

/-- What is known where a block is built. -/
theorem tdHobMessage_eq_ok (built : tdHobMessage tdvf memorySize = .ok message) :
    ∃ handOff : HandOff tdvf memorySize,
      message =
        fixEndOfHobList handOff.base
          (phitHob ++ handOff.descriptors.flatMap ResourceDescriptor.bytes) := by
  unfold tdHobMessage at built
  rw [new_eq_ok memorySize] at built
  rcases bind_eq_ok.1 built with ⟨acceptor, same, rest⟩
  cases same
  rcases bind_eq_ok.1 rest with ⟨⟨acceptor, base⟩, folded, finished⟩
  dsimp only at finished
  cases known : acceptor.ranges.getLast? with
  | none =>
      rw [known] at finished
      cases finished
  | some last =>
      rw [known] at finished
      rcases bind_eq_ok.1 finished with ⟨tail, tailBuilt, returned⟩
      cases returned
      rcases lastHobs_eq_ok tailBuilt with ⟨fits, rfl⟩
      refine
        ⟨{ acceptor, base, front := acceptor.ranges.dropLast, last, folded,
           ranges_eq := (List.dropLast_append_getLast? last known).symm,
           last_fits := fits },
          ?_⟩
      rw [HandOff.descriptors, List.flatMap_append, List.flatMap_map,
        ← List.append_assoc]
      rfl

end

/-! ## Back to guest memory -/

/-- The place in guest memory of an address behind the hole of a large one. -/
def guestStart (memorySize start : Nat) : Nat :=
  if 0xB0000000 ≤ memorySize ∧ 0x100000000 ≤ start then start - 0x80000000
  else start

/-- The guest memory that a descriptor states. -/
def guestRange (memorySize : Nat) (descriptor : ResourceDescriptor) :
    Nat × Nat :=
  (guestStart memorySize descriptor.start,
    guestStart memorySize descriptor.start + descriptor.length)

/-- The last range as it is stated, in guest memory. -/
def lastPieces (memorySize : Nat) (last : MemoryRange) : List (Nat × Nat) :=
  if 0xB0000000 ≤ memorySize then
    [(last.start, 0x80000000), (0x80000000, last.stop)]
  else
    [ends last]

def entriesOf (tdvf : Tdvf) : List TdvfSection :=
  tdvf.sections.map CheckedSection.toTdvfSection

section

variable {tdvf : Tdvf} {memorySize : UInt64} (handOff : HandOff tdvf memorySize)

theorem HandOff.accepts :
    Accepts (0, memorySize.toNat) (acceptedRanges (entriesOf tdvf))
      handOff.acceptor := by
  rcases Prod.mk.inj (foldlM_acceptSection_eq_ok_iff.1 handOff.folded).2 with
    ⟨acceptor, -⟩
  rw [acceptor]
  exact (accepts_whole 0 memorySize.toNat).acceptAll nonempty_acceptedRanges

/-- Every range goes forward and ends in 64 bits. -/
theorem HandOff.bounds :
    ∀ range ∈ handOff.acceptor.ranges,
      range.start ≤ range.stop ∧ range.stop < 2 ^ 64 := by
  intro range member
  have known :=
    handOff.accepts.perm.mem_iff.1 (List.mem_map_of_mem (f := ends) member)
  rcases List.mem_append.1 known with accepted | left
  · rcases mem_acceptedRanges_iff.1 accepted with
      ⟨entry, inTable, isAccepted, -, same⟩
    have fits :=
      (foldlM_acceptSection_eq_ok_iff.1 handOff.folded).1 entry inTable
        isAccepted
    have order := nonempty_acceptedRanges _ accepted
    rw [same] at fits
    exact ⟨order.le, fits⟩
  · rcases bounds_leftOver (Nat.zero_le _) _ left with ⟨-, order, inside⟩
    exact ⟨order, inside.trans_lt memorySize.toNat_lt⟩

theorem HandOff.last_mem : handOff.last ∈ handOff.acceptor.ranges := by
  rw [handOff.ranges_eq]
  exact List.mem_append_right _ (List.mem_singleton_self _)

theorem HandOff.front_mem :
    ∀ range ∈ handOff.front, range ∈ handOff.acceptor.ranges := by
  intro range member
  rw [handOff.ranges_eq]
  exact List.mem_append_left _ member

/-- No range starts behind the last one. -/
theorem HandOff.front_start_le :
    ∀ range ∈ handOff.front, range.start ≤ handOff.last.start := by
  intro range member
  have sorted := handOff.accepts.sorted
  rw [handOff.ranges_eq] at sorted
  exact
    (List.pairwise_append.1 sorted).2.2 range member handOff.last
      (List.mem_singleton_self _)

theorem HandOff.fits :
    ∀ descriptor ∈ handOff.descriptors, descriptor.Fits := by
  have last := handOff.bounds _ handOff.last_mem
  intro descriptor member
  rcases List.mem_append.1 member with inFront | inLast
  · rcases List.mem_map.1 inFront with ⟨range, known, rfl⟩
    have bounds := handOff.bounds _ (handOff.front_mem _ known)
    exact
      ⟨bounds.1.trans_lt bounds.2, (Nat.sub_le _ _).trans_lt bounds.2⟩
  · rw [lastDescriptors] at inLast
    split at inLast
    · rcases List.mem_pair.1 inLast with rfl | rfl
      · exact
          ⟨last.1.trans_lt last.2, (Nat.sub_le _ _).trans_lt (by decide)⟩
      · have high : 0x100000000 < 2 ^ 64 := by decide
        exact ⟨high, (Nat.sub_le _ _).trans_lt last.2⟩
    · cases List.mem_singleton.1 inLast
      exact ⟨last.1.trans_lt last.2, (Nat.sub_le _ _).trans_lt last.2⟩

/-- A range in front of the last one is stated where it is. -/
theorem HandOff.guestRange_front :
    ∀ range ∈ handOff.front,
      guestRange memorySize.toNat (rangeDescriptor range) = ends range := by
  intro range member
  have bounds := handOff.bounds _ (handOff.front_mem _ member)
  have before := handOff.front_start_le _ member
  have same : guestStart memorySize.toNat range.start = range.start := by
    rw [guestStart, if_neg]
    rintro ⟨large, high⟩
    have fits := handOff.last_fits large
    omega
  rw [guestRange, rangeDescriptor, same, Nat.add_sub_cancel' bounds.1]
  rfl

/-- The descriptors in guest memory are the ranges, the last one in pieces. -/
theorem HandOff.map_guestRange :
    handOff.descriptors.map (guestRange memorySize.toNat) =
      handOff.front.map ends ++ lastPieces memorySize.toNat handOff.last := by
  have front :
      (handOff.front.map rangeDescriptor).map (guestRange memorySize.toNat) =
        handOff.front.map ends := by
    rw [List.map_map]
    exact List.map_congr_left handOff.guestRange_front
  have last := handOff.bounds _ handOff.last_mem
  rw [HandOff.descriptors, List.map_append, front]
  congr 1
  by_cases large : 0xB0000000 ≤ memorySize.toNat
  · have fits := handOff.last_fits large
    have low :
        guestStart memorySize.toNat handOff.last.start =
          handOff.last.start := by
      rw [guestStart, if_neg]
      rintro ⟨-, high⟩
      omega
    have high : guestStart memorySize.toNat 0x100000000 = 0x80000000 := by
      rw [guestStart, if_pos ⟨large, le_rfl⟩]
    rw [lastDescriptors, if_pos large, lastPieces, if_pos large, List.map_cons,
      List.map_singleton, guestRange, guestRange, low, high,
      Nat.add_sub_cancel' fits.1.le, Nat.add_sub_cancel' fits.2]
  · have same :
        guestStart memorySize.toNat handOff.last.start =
          handOff.last.start := by
      rw [guestStart, if_neg]
      rintro ⟨isLarge, -⟩
      exact large isLarge
    rw [lastDescriptors, if_neg large, lastPieces, if_neg large,
      List.map_singleton, guestRange, same, Nat.add_sub_cancel' last.1]
    rfl

/-- The pieces of the last range hold its points. -/
theorem HandOff.allPoints_lastPieces :
    allPoints (lastPieces memorySize.toNat handOff.last) =
      points (ends handOff.last) := by
  rw [lastPieces]
  split
  · next large =>
      have fits := handOff.last_fits large
      rw [allPoints_cons, allPoints_cons, allPoints_nil, Set.union_empty]
      exact Set.Ico_union_Ico_eq_Ico fits.1.le fits.2
  · rw [allPoints_cons, allPoints_nil, Set.union_empty]

theorem HandOff.allPoints_guest :
    allPoints (handOff.descriptors.map (guestRange memorySize.toNat)) =
      allPoints (acceptedRanges (entriesOf tdvf)) ∪
        points (0, memorySize.toNat) := by
  rw [← handOff.accepts.allPoints_eq, handOff.ranges_eq,
    handOff.map_guestRange, List.map_append, allPoints_append,
    allPoints_append, handOff.allPoints_lastPieces, List.map_singleton,
    allPoints_cons, allPoints_nil, Set.union_empty]

end

/-! ## Exact descriptions -/

/--
The descriptors stand in ascending order, do not meet, hold every byte of the
memory and no other, and state a byte as system memory exactly if it is in an
accepted section, and as unaccepted otherwise.
-/
structure DescribesMemory (entries : List TdvfSection) (memorySize : Nat)
    (descriptors : List ResourceDescriptor) : Prop where
  ascending :
    (descriptors.map (guestRange memorySize)).Pairwise fun left right =>
      left.1 < right.1
  apart : (descriptors.map (guestRange memorySize)).Pairwise Apart
  covers :
    allPoints (descriptors.map (guestRange memorySize)) =
      Set.Ico 0 memorySize
  lengths : (descriptors.map (·.length)).sum = memorySize
  system :
    ∀ byte,
      (∃ descriptor ∈ descriptors,
        descriptor.resourceType = 0x00 ∧
          byte ∈ points (guestRange memorySize descriptor)) ↔
        ∃ entry ∈ entries, IsAccepted entry ∧ byte ∈ points (memoryRange entry)
  unaccepted :
    ∀ byte < memorySize,
      (¬ ∃ entry ∈ entries,
        IsAccepted entry ∧ byte ∈ points (memoryRange entry)) →
        ∃ descriptor ∈ descriptors,
          descriptor.resourceType = 0x07 ∧
            byte ∈ points (guestRange memorySize descriptor)

section

variable {tdvf : Tdvf} {memorySize : UInt64} {handOff : HandOff tdvf memorySize}

/-- Where the descriptors do not meet, the ranges do not. -/
theorem pairwise_ranges_of_descriptors
    (apart :
      (handOff.descriptors.map (guestRange memorySize.toNat)).Pairwise Apart) :
    (handOff.acceptor.ranges.map ends).Pairwise Apart := by
  rw [handOff.map_guestRange, List.pairwise_append] at apart
  rcases apart with ⟨front, -, cross⟩
  rw [handOff.ranges_eq, List.map_append, List.map_singleton,
    List.pairwise_append]
  refine ⟨front, List.pairwise_singleton _ _, ?_⟩
  intro range member last inLast
  cases List.mem_singleton.1 inLast
  apply Set.disjoint_left.2
  intro point inRange inLastRange
  rw [← handOff.allPoints_lastPieces] at inLastRange
  rcases inLastRange with ⟨piece, known, inPiece⟩
  exact Set.disjoint_left.1 (cross range member piece known) inRange inPiece

/-- A byte stated as system memory is in an accepted range before the last. -/
theorem exists_front_of_system
    {byte : Nat}
    (stated :
      ∃ descriptor ∈ handOff.descriptors,
        descriptor.resourceType = 0x00 ∧
          byte ∈ points (guestRange memorySize.toNat descriptor)) :
    ∃ range ∈ handOff.front,
      range.accepted = true ∧ byte ∈ points (ends range) := by
  rcases stated with ⟨descriptor, member, isSystem, inside⟩
  rcases List.mem_append.1 member with inFront | inLast
  · rcases List.mem_map.1 inFront with ⟨range, known, rfl⟩
    rw [handOff.guestRange_front range known] at inside
    refine ⟨range, known, ?_, inside⟩
    by_contra other
    have unaccepted : (rangeDescriptor range).resourceType = 0x07 :=
      if_neg other
    rw [unaccepted] at isSystem
    cases isSystem
  · rw [lastDescriptors] at inLast
    split at inLast
    · rcases List.mem_pair.1 inLast with rfl | rfl
      · cases isSystem
      · cases isSystem
    · cases List.mem_singleton.1 inLast
      cases isSystem

/-- An exact description needs sections that end below the memory's end. -/
theorem lt_of_describesMemory
    (describes :
      DescribesMemory (entriesOf tdvf) memorySize.toNat handOff.descriptors) :
    ∀ range ∈ acceptedRanges (entriesOf tdvf), range.2 < memorySize.toNat := by
  intro range member
  have nonempty := nonempty_acceptedRanges range member
  have inMemory : points range ⊆ Set.Ico 0 memorySize.toNat := by
    rw [← describes.covers, handOff.allPoints_guest]
    exact (points_subset_allPoints member).trans Set.subset_union_left
  have inRange : range.2 - 1 ∈ points range :=
    ⟨Nat.le_sub_one_of_lt nonempty, Nat.sub_one_lt (Nat.ne_zero_of_lt nonempty)⟩
  have known := (inMemory inRange).2
  by_contra notBelow
  have ended : range.2 = memorySize.toNat := by omega
  rcases mem_acceptedRanges_iff.1 member with
    ⟨entry, inTable, isAccepted, -, same⟩
  have stated := (describes.system (range.2 - 1)).2
    ⟨entry, inTable, isAccepted, same ▸ inRange⟩
  rcases exists_front_of_system stated with ⟨before, inFront, -, inBefore⟩
  have memoryNonempty : 0 < memorySize.toNat := by omega
  have lastNonempty :=
    handOff.accepts.nonempty nonempty_acceptedRanges memoryNonempty
      handOff.last handOff.last_mem
  have apart := pairwise_ranges_of_descriptors describes.apart
  rw [handOff.ranges_eq, List.map_append, List.pairwise_append] at apart
  have ordered :=
    (apart.2.2 (ends before) (List.mem_map_of_mem inFront) (ends handOff.last)
      (List.mem_singleton_self _)).stop_le
      (handOff.front_start_le before inFront) lastNonempty
  have lastInside : handOff.last.start ∈ Set.Ico 0 memorySize.toNat := by
    rw [← describes.covers, handOff.map_guestRange, allPoints_append,
      handOff.allPoints_lastPieces]
    exact Or.inr (start_mem_points lastNonempty)
  have lastBefore : handOff.last.start < memorySize.toNat := lastInside.2
  have upper : range.2 - 1 < before.stop := inBefore.2
  have order : before.stop ≤ handOff.last.start := ordered
  omega

/-- A memory without bytes stays one range. -/
theorem ranges_of_empty
    (inside :
      ∀ range ∈ acceptedRanges (entriesOf tdvf),
        range.2 < memorySize.toNat)
    (empty : memorySize.toNat = 0) :
    handOff.acceptor.ranges.map ends = [(0, 0)] := by
  have none : acceptedRanges (entriesOf tdvf) = [] := by
    apply List.eq_nil_iff_forall_not_mem.2
    intro range member
    have below := inside range member
    omega
  have perm := handOff.accepts.perm
  rw [none, List.nil_append, empty] at perm
  exact List.perm_singleton.1 perm

/-- Sections that do not meet and end inside cut the memory without a gap. -/
theorem fills_ranges
    (apart : (acceptedRanges (entriesOf tdvf)).Pairwise Apart)
    (inside :
      ∀ range ∈ acceptedRanges (entriesOf tdvf),
        range.2 < memorySize.toNat) :
    Fills 0 (handOff.acceptor.ranges.map ends) memorySize.toNat := by
  have accepts := handOff.accepts
  rcases Nat.eq_zero_or_pos memorySize.toNat with empty | positive
  · rw [ranges_of_empty inside empty, empty]
    exact ⟨rfl, rfl⟩
  · apply fills_of_allPoints
    · exact List.pairwise_map.2 accepts.sorted
    · exact (accepts.pairwise_iff nonempty_acceptedRanges).2 apart
    · intro range member
      rcases List.mem_map.1 member with ⟨own, known, rfl⟩
      exact accepts.nonempty nonempty_acceptedRanges positive own known
    · exact Nat.zero_le _
    · rw [accepts.allPoints_eq]
      apply Set.union_eq_right.2
      rintro byte ⟨range, member, lower, upper⟩
      exact ⟨Nat.zero_le _, upper.trans (inside range member)⟩

/-- The pieces of the last range follow each other as it does. -/
theorem fills_lastPieces
    {start stop : Nat} (fills : Fills start [ends handOff.last] stop) :
    Fills start (lastPieces memorySize.toNat handOff.last) stop := by
  rw [lastPieces]
  split
  · exact ⟨fills.1, rfl, fills.2⟩
  · exact fills

/-- What the ranges are where the sections do not meet and end inside. -/
structure Exact (handOff : HandOff tdvf memorySize) : Prop where
  fills :
    Fills 0 (handOff.descriptors.map (guestRange memorySize.toNat))
      memorySize.toNat
  last_left : handOff.last.accepted = false
  last_ends : handOff.last.stop = memorySize.toNat
  front_empty : memorySize.toNat = 0 → handOff.front = []

theorem exact_of_sections
    (apart : (acceptedRanges (entriesOf tdvf)).Pairwise Apart)
    (inside :
      ∀ range ∈ acceptedRanges (entriesOf tdvf),
        range.2 < memorySize.toNat) : Exact handOff := by
  have fills := @fills_ranges tdvf memorySize handOff apart inside
  rw [handOff.ranges_eq, List.map_append, List.map_singleton] at fills
  rcases fills_append_iff.1 fills with ⟨middle, front, last⟩
  have lastEnds : handOff.last.stop = memorySize.toNat := last.2
  constructor
  · rw [handOff.map_guestRange]
    exact fills_append_iff.2 ⟨middle, front, fills_lastPieces last⟩
  · rw [← Bool.not_eq_true]
    intro accepted
    have below :=
      inside (ends handOff.last)
        (handOff.accepts.mem_iff.2
          ⟨handOff.last, handOff.last_mem, accepted, rfl⟩)
    exact absurd lastEnds below.ne
  · exact lastEnds
  · intro empty
    have single :=
      congrArg List.length (@ranges_of_empty _ _ handOff inside empty)
    rw [handOff.ranges_eq, List.length_map, List.length_append,
      List.length_singleton, List.length_singleton] at single
    exact List.length_eq_zero_iff.1 (Nat.succ.inj single)

theorem HandOff.forward
    (handOff : HandOff tdvf memorySize) :
    ∀ range ∈ handOff.descriptors.map (guestRange memorySize.toNat),
      range.1 ≤ range.2 := by
  intro range member
  rcases List.mem_map.1 member with ⟨descriptor, -, rfl⟩
  exact Nat.le_add_right _ _

/-- In a memory with bytes every descriptor has bytes. -/
theorem Exact.nonempty
    (exactly : Exact handOff) (positive : 0 < memorySize.toNat) :
    ∀ range ∈ handOff.descriptors.map (guestRange memorySize.toNat),
      range.1 < range.2 := by
  have nonempty :=
    handOff.accepts.nonempty nonempty_acceptedRanges positive
  rw [handOff.map_guestRange]
  intro range member
  rcases List.mem_append.1 member with inFront | inLast
  · rcases List.mem_map.1 inFront with ⟨own, known, rfl⟩
    exact nonempty own (handOff.front_mem own known)
  · rw [lastPieces] at inLast
    split at inLast
    · next large =>
        have fits := handOff.last_fits large
        have stops := exactly.last_ends
        rcases List.mem_pair.1 inLast with rfl | rfl
        · exact fits.1
        · change 0x80000000 < handOff.last.stop
          omega
    · cases List.mem_singleton.1 inLast
      exact nonempty handOff.last handOff.last_mem

theorem Exact.ascending (exactly : Exact handOff) :
    (handOff.descriptors.map (guestRange memorySize.toNat)).Pairwise
      fun left right => left.1 < right.1 := by
  have ordered := exactly.fills.pairwise (HandOff.forward handOff)
  rcases Nat.eq_zero_or_pos memorySize.toNat with empty | positive
  · have small : ¬ 0xB0000000 ≤ memorySize.toNat := by omega
    rw [HandOff.descriptors, exactly.front_empty empty, lastDescriptors,
      if_neg small]
    exact List.pairwise_singleton _ _
  · refine ordered.imp_of_mem ?_
    intro left right leftMember _ before
    exact (exactly.nonempty positive left leftMember).trans_le before

theorem Exact.apart (exactly : Exact handOff) :
    (handOff.descriptors.map (guestRange memorySize.toNat)).Pairwise Apart := by
  refine (exactly.fills.pairwise (HandOff.forward handOff)).imp ?_
  intro left right before
  apply Set.disjoint_left.2
  intro point inLeft inRight
  exact absurd (inLeft.2.trans_le before) (not_lt.2 inRight.1)

theorem Exact.lengths (exactly : Exact handOff) :
    (handOff.descriptors.map (·.length)).sum = memorySize.toNat := by
  have total := exactly.fills.sum_lengths (HandOff.forward handOff)
  rw [Nat.zero_add, List.map_map] at total
  rw [← total]
  congr 1
  apply List.map_congr_left
  intro descriptor _
  exact (Nat.add_sub_cancel_left ..).symm

/-- A byte of an accepted section is stated as system memory, and no other. -/
theorem Exact.system (exactly : Exact handOff) (byte : Nat) :
    (∃ descriptor ∈ handOff.descriptors,
      descriptor.resourceType = 0x00 ∧
        byte ∈ points (guestRange memorySize.toNat descriptor)) ↔
      byte ∈ allPoints (acceptedRanges (entriesOf tdvf)) := by
  constructor
  · intro stated
    rcases exists_front_of_system stated with
      ⟨range, inFront, accepted, inside⟩
    exact
      ⟨ends range,
        handOff.accepts.mem_iff.2
          ⟨range, handOff.front_mem range inFront, accepted, rfl⟩,
        inside⟩
  · rintro ⟨span, member, inside⟩
    rcases handOff.accepts.mem_iff.1 member with
      ⟨range, known, accepted, rfl⟩
    rw [handOff.ranges_eq] at known
    rcases List.mem_append.1 known with inFront | isLast
    · refine
        ⟨rangeDescriptor range,
          List.mem_append_left _ (List.mem_map_of_mem inFront), ?_, ?_⟩
      · exact if_pos accepted
      · rwa [handOff.guestRange_front range inFront]
    · cases List.mem_singleton.1 isLast
      rw [exactly.last_left] at accepted
      cases accepted

theorem Exact.describesMemory (exactly : Exact handOff) :
    DescribesMemory (entriesOf tdvf) memorySize.toNat handOff.descriptors := by
  have covers :=
    (exactly.fills.allPoints_eq (HandOff.forward handOff)).2
  refine
    ⟨exactly.ascending, exactly.apart, covers, exactly.lengths, ?_, ?_⟩
  · intro byte
    rw [exactly.system, allPoints_acceptedRanges]
  · intro byte below outside
    have stated : byte ∈ Set.Ico 0 memorySize.toNat := ⟨Nat.zero_le _, below⟩
    rw [← covers] at stated
    rcases stated with ⟨range, member, inside⟩
    rcases List.mem_map.1 member with ⟨descriptor, known, rfl⟩
    refine ⟨descriptor, known, ?_, inside⟩
    have notSystem : descriptor.resourceType ≠ 0x00 := by
      intro isSystem
      apply outside
      rw [← allPoints_acceptedRanges]
      exact (exactly.system byte).1 ⟨descriptor, known, isSystem, inside⟩
    rcases List.mem_append.1 known with inFront | inLast
    · rcases List.mem_map.1 inFront with ⟨own, -, rfl⟩
      apply if_neg
      intro accepted
      exact notSystem (if_pos accepted)
    · rw [lastDescriptors] at inLast
      split at inLast
      · rcases List.mem_pair.1 inLast with rfl | rfl
        · rfl
        · rfl
      · cases List.mem_singleton.1 inLast
        rfl

end

/--
The block that is built describes guest memory exactly if no two accepted
sections meet and each ends below the end of the memory.
-/
theorem describesMemory_iff
    {tdvf : Tdvf} {memorySize : UInt64} {message : Bytes}
    (built : tdHobMessage tdvf memorySize = .ok message) :
    DescribesMemory (entriesOf tdvf) memorySize.toNat
        (resourceDescriptors message) ↔
      (acceptedRanges (entriesOf tdvf)).Pairwise Apart ∧
        ∀ range ∈ acceptedRanges (entriesOf tdvf),
          range.2 < memorySize.toNat := by
  rcases tdHobMessage_eq_ok built with ⟨handOff, rfl⟩
  rw [resourceDescriptors_block handOff.base handOff.fits]
  constructor
  · intro describes
    refine ⟨?_, lt_of_describesMemory describes⟩
    exact
      (handOff.accepts.pairwise_iff nonempty_acceptedRanges).1
        (pairwise_ranges_of_descriptors describes.apart)
  · rintro ⟨apart, inside⟩
    exact (exact_of_sections apart inside).describesMemory

/-! ## One section in two memories -/

/-- The section of the small image. -/
def sampleEntry : TdvfSection where
  dataOffset := 0
  rawDataSize := 0
  memoryAddress := 0x1000
  memoryDataSize := 0x1000
  secType := tdvfSectionTempMem
  attributes := 0

/-- What the small image states about a memory of some pages. -/
theorem exists_block_sampleFirmware
    {memorySize : UInt64} {descriptors : List ResourceDescriptor}
    (stated :
      ((parse 1 (sampleFirmware 0)).bind Except.toOption).map
          (fun tdvf =>
            (entriesOf tdvf,
              (tdHobMessage tdvf memorySize).toOption.map
                resourceDescriptors)) =
        some ([sampleEntry], some descriptors)) :
    ∃ tdvf message,
      parse 1 (sampleFirmware 0) = some (.ok tdvf) ∧
        tdHobMessage tdvf memorySize = .ok message ∧
          entriesOf tdvf = [sampleEntry] ∧
            resourceDescriptors message = descriptors := by
  rcases Option.map_eq_some_iff.1 stated with ⟨tdvf, found, both⟩
  rcases Prod.mk.inj both with ⟨entries, blocks⟩
  rcases Option.map_eq_some_iff.1 blocks with ⟨message, built, read⟩
  refine ⟨tdvf, message, ?_, ?_, entries, read⟩
  · rcases Option.bind_eq_some_iff.1 found with ⟨result, accepted, isOk⟩
    cases result with
    | error problem => cases isOk
    | ok other =>
        cases isOk
        exact accepted
  · cases known : tdHobMessage tdvf memorySize with
    | error problem =>
        rw [known] at built
        cases built
    | ok other =>
        rw [known] at built
        cases built
        rfl

/-- Three pages of which the section is the second. -/
theorem describesMemory_threePages :
    ∃ tdvf message,
      parse 1 (sampleFirmware 0) = some (.ok tdvf) ∧
        tdHobMessage tdvf 0x3000 = .ok message ∧
          DescribesMemory (entriesOf tdvf) 0x3000
            (resourceDescriptors message) := by
  have stated :
      ((parse 1 (sampleFirmware 0)).bind Except.toOption).map
          (fun tdvf =>
            (entriesOf tdvf,
              (tdHobMessage tdvf 0x3000).toOption.map resourceDescriptors)) =
        some
          ([sampleEntry],
            some [⟨0x07, 0, 0x1000⟩, ⟨0x00, 0x1000, 0x1000⟩,
              ⟨0x07, 0x2000, 0x1000⟩]) := by
    decide +kernel
  rcases exists_block_sampleFirmware stated with
    ⟨tdvf, message, parsed, built, entries, -⟩
  refine ⟨tdvf, message, parsed, built, (describesMemory_iff built).2 ?_⟩
  have single : acceptedRanges [sampleEntry] = [(0x1000, 0x2000)] := by
    decide
  rw [entries, single]
  refine ⟨List.pairwise_singleton _ _, ?_⟩
  intro range member
  cases List.mem_singleton.1 member
  decide

/-- Two pages: the section is the last range, and stated as not accepted. -/
theorem not_describesMemory_twoPages :
    ∃ tdvf message,
      parse 1 (sampleFirmware 0) = some (.ok tdvf) ∧
        tdHobMessage tdvf 0x2000 = .ok message ∧
          entriesOf tdvf = [sampleEntry] ∧
            resourceDescriptors message =
                [⟨0x07, 0, 0x1000⟩, ⟨0x07, 0x1000, 0x1000⟩] ∧
              ¬ DescribesMemory (entriesOf tdvf) 0x2000
                (resourceDescriptors message) := by
  have stated :
      ((parse 1 (sampleFirmware 0)).bind Except.toOption).map
          (fun tdvf =>
            (entriesOf tdvf,
              (tdHobMessage tdvf 0x2000).toOption.map resourceDescriptors)) =
        some
          ([sampleEntry],
            some [⟨0x07, 0, 0x1000⟩, ⟨0x07, 0x1000, 0x1000⟩]) := by
    decide +kernel
  rcases exists_block_sampleFirmware stated with
    ⟨tdvf, message, parsed, built, entries, read⟩
  refine ⟨tdvf, message, parsed, built, entries, read, ?_⟩
  rw [entries, read]
  intro describes
  have inSection : 0x1000 ∈ points (memoryRange sampleEntry) :=
    start_mem_points (by decide)
  rcases (describes.system 0x1000).2
      ⟨sampleEntry, List.mem_singleton_self _, Or.inr rfl, inSection⟩ with
    ⟨descriptor, member, isSystem, -⟩
  rcases List.mem_pair.1 member with rfl | rfl
  · cases isSystem
  · cases isSystem

end Confos.Tdx.HandOffMemory
