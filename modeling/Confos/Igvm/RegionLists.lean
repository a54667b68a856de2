import Confos.Igvm.OvmfTable

/-!
# Region lists

What the regions of a firmware's metadata are, as a list states them: one for
each descriptor that is not empty, in order.  The builder reads a list up to
its last descriptor that fits into the image and leaves out one whose offset or
head does not, without a failure; so its regions are the stated ones exactly
where every list lies inside the image.
-/

namespace Confos.Igvm.RegionLists

open Confos.Library.ByteStrings
open Confos.Igvm.Ovmf
open Confos.Igvm.OvmfTable

/-! ## What a list states -/

/-- The region of a descriptor, if it has bytes. -/
def regionAt
    (newType : Nat → OvmfRegionType) (items : Bytes) (index : Nat) :
    Option OvmfRegion :=
  if nonempty : ofLeBytes (slice items (12 * index + 4) 4) ≠ 0 then
    some
      { base := ofLeBytes (slice items (12 * index) 4)
        size := ofLeBytes (slice items (12 * index + 4) 4)
        etype := newType (ofLeBytes (slice items (12 * index + 8) 4))
        base_lt := le32_lt items (12 * index)
        size_lt := le32_lt items (12 * index + 4)
        size_pos := Nat.pos_of_ne_zero nonempty }
  else
    none

/-- The regions of so many descriptors. -/
def regionsOf
    (newType : Nat → OvmfRegionType) (items : Bytes) (count : Nat) :
    List OvmfRegion :=
  (List.range count).filterMap (regionAt newType items)

section

variable (firmware blk : Bytes)

/-- How far before the end of the image the list starts. -/
def listBase : Nat :=
  ofLeBytes (slice blk 0 4)

/-- The list and what follows it in the image. -/
def listBytes : Bytes :=
  firmware.drop (firmware.length - listBase blk)

/-- The number of descriptors the head states. -/
def listCount : Nat :=
  ofLeBytes (slice (listBytes firmware blk) 12 4)

/-- The head and every descriptor of the list are in the image. -/
structure ListInside : Prop where
  payload : 4 ≤ blk.length
  offset : listBase blk ≤ firmware.length
  complete : 16 + 12 * listCount firmware blk ≤ listBase blk

instance : Decidable (ListInside firmware blk) :=
  decidable_of_iff
    (4 ≤ blk.length ∧ listBase blk ≤ firmware.length ∧
      16 + 12 * listCount firmware blk ≤ listBase blk)
    ⟨fun ⟨payload, offset, complete⟩ => ⟨payload, offset, complete⟩,
      fun inside => ⟨inside.payload, inside.offset, inside.complete⟩⟩

/-- The regions a list states, whether or not it is in the image. -/
def statedRegions (newType : Nat → OvmfRegionType) : List OvmfRegion :=
  regionsOf newType ((listBytes firmware blk).drop 16)
    (listCount firmware blk)

end

/-- The entries that point to a list, with the types of its regions. -/
def listType (blockGuid : Bytes) : Option (Nat → OvmfRegionType) :=
  if blockGuid = ovmfMetaSevList then some OvmfRegionType.newSev
  else if blockGuid = ovmfMetaIgvmParam then some OvmfRegionType.newIgvm
  else none

/-- The regions a table entry states. -/
def entryRegions (firmware : Bytes) (entry : TableEntry) : List OvmfRegion :=
  match listType entry.1 with
  | some newType => statedRegions firmware entry.2 newType
  | none => []

/-- The entries of the table in a firmware's footer, in walk order. -/
def footerEntries (firmware : Bytes) : List TableEntry :=
  match metaBlk (firmware.take (firmware.length - 0x20)) with
  | some (blockGuid, blocks, _) =>
      if blockGuid = ovmfMetaList then (tableEntries blocks).1 else []
  | none => []

/-- Every list the table points to is in the image. -/
def ListsInside (firmware : Bytes) : Prop :=
  ∀ entry ∈ footerEntries firmware,
    (listType entry.1).isSome = true → ListInside firmware entry.2

instance (firmware : Bytes) : Decidable (ListsInside firmware) :=
  List.decidableBAll _ _

/-- The regions are all that the lists state, and no list is cut. -/
structure RegionsExact (firmware : Bytes) (ovmfMeta : OvmfMeta) : Prop where
  regions_eq :
    ovmfMeta.regions = (footerEntries firmware).flatMap (entryRegions firmware)
  inside : ListsInside firmware

/-! ## What the builder reads -/

section

variable {newType : Nat → OvmfRegionType} {firmware blk : Bytes}

theorem regionAt_drop (items : Bytes) (index : Nat) :
    regionAt newType (items.drop 12) index =
      regionAt newType items (index + 1) := by
  have position :
      ∀ start, slice (items.drop 12) start 4 = slice items (12 + start) 4 := by
    intro start
    rw [slice, slice, List.drop_drop]
  have base : 12 + 12 * index = 12 * (index + 1) := by omega
  have size : 12 + (12 * index + 4) = 12 * (index + 1) + 4 := by omega
  have kind : 12 + (12 * index + 8) = 12 * (index + 1) + 8 := by omega
  simp only [regionAt, position, base, size, kind]

theorem regionsOf_succ (items : Bytes) (count : Nat) :
    regionsOf newType items (count + 1) =
      (regionAt newType items 0).toList ++
        regionsOf newType (items.drop 12) count := by
  have shifted :
      regionAt newType items ∘ Nat.succ = regionAt newType (items.drop 12) := by
    funext index
    exact (regionAt_drop items index).symm
  rw [regionsOf, regionsOf, List.range_succ_eq_map, List.filterMap_cons,
    List.filterMap_map, shifted]
  cases regionAt newType items 0 with
  | none => rfl
  | some region => rfl

/-- The descriptors that fit are read, and the first that does not ends the list. -/
theorem parseEntries_eq_regionsOf (entries : Nat) (items : Bytes) :
    parseEntries newType entries items =
      regionsOf newType items (min entries (items.length / 12)) := by
  induction entries generalizing items with
  | zero =>
      rw [Nat.zero_min]
      rfl
  | succ entries induction =>
      by_cases short : items.length < 12
      · have noneFit : items.length / 12 = 0 := Nat.div_eq_of_lt short
        rw [noneFit, Nat.min_zero, parseEntries, if_pos short]
        rfl
      · have count :
            min (entries + 1) (items.length / 12) =
              min entries ((items.drop 12).length / 12) + 1 := by
          rw [List.length_drop]
          omega
        rw [count, regionsOf_succ, ← induction, parseEntries, if_neg short,
          regionAt]
        by_cases nonempty : ofLeBytes (slice items 4 4) ≠ 0
        · rw [dif_pos nonempty, dif_pos nonempty]
          rfl
        · rw [dif_neg nonempty, dif_neg nonempty]
          rfl

/-- A list in the image is read whole. -/
theorem parseList_of_inside (inside : ListInside firmware blk) :
    parseList newType firmware blk = statedRegions firmware blk newType := by
  have payload := inside.payload
  have offset := inside.offset
  have complete := inside.complete
  have length : (listBytes firmware blk).length = listBase blk := by
    rw [listBytes, List.length_drop]
    omega
  have refused : ¬ (blk.length < 4 ∨ firmware.length < listBase blk) := by
    omega
  have headFits : ¬ (listBytes firmware blk).length < 16 := by
    omega
  have allFit :
      min (listCount firmware blk)
          (((listBytes firmware blk).drop 16).length / 12) =
        listCount firmware blk := by
    rw [List.length_drop]
    omega
  calc parseList newType firmware blk
      = parseEntries newType (listCount firmware blk)
          ((listBytes firmware blk).drop 16) := by
        rw [parseList]
        exact (if_neg refused).trans (if_neg headFits)
    _ = statedRegions firmware blk newType := by
        rw [parseEntries_eq_regionsOf, allFit, statedRegions]

theorem parseBlk_regions (ovmfMeta : OvmfMeta) (entry : TableEntry) :
    (ovmfMeta.parseBlk firmware entry.1 entry.2).regions =
      ovmfMeta.regions ++
        match listType entry.1 with
        | some newType => parseList newType firmware entry.2
        | none => [] := by
  have resetIsNoList : listType ovmfMetaSevReset = none := by decide
  rw [OvmfMeta.parseBlk]
  by_cases reset : entry.1 = ovmfMetaSevReset
  · rw [if_pos reset, reset, resetIsNoList]
    split
    · exact (List.append_nil _).symm
    · exact (List.append_nil _).symm
  · rw [if_neg reset, listType]
    by_cases sevList : entry.1 = ovmfMetaSevList
    · rw [if_pos sevList, if_pos sevList]
    · rw [if_neg sevList, if_neg sevList]
      by_cases igvmParam : entry.1 = ovmfMetaIgvmParam
      · rw [if_pos igvmParam, if_pos igvmParam]
      · rw [if_neg igvmParam, if_neg igvmParam]
        exact (List.append_nil _).symm

/-- One entry adds what its list states. -/
theorem parseBlk_regions_of_inside
    (ovmfMeta : OvmfMeta) {entry : TableEntry}
    (inside :
      (listType entry.1).isSome = true → ListInside firmware entry.2) :
    (ovmfMeta.parseBlk firmware entry.1 entry.2).regions =
      ovmfMeta.regions ++ entryRegions firmware entry := by
  rw [parseBlk_regions, entryRegions]
  cases isList : listType entry.1 with
  | none => rfl
  | some newType =>
      rw [isList] at inside
      dsimp only
      rw [parseList_of_inside (inside rfl)]

/-- The entries together add what their lists state. -/
theorem foldl_parseBlk_regions
    {entries : List TableEntry}
    (inside :
      ∀ entry ∈ entries,
        (listType entry.1).isSome = true → ListInside firmware entry.2)
    (ovmfMeta : OvmfMeta) :
    (entries.foldl
        (fun ovmfMeta entry => ovmfMeta.parseBlk firmware entry.1 entry.2)
        ovmfMeta).regions =
      ovmfMeta.regions ++ entries.flatMap (entryRegions firmware) := by
  induction entries generalizing ovmfMeta with
  | nil => exact (List.append_nil _).symm
  | cons entry entries induction =>
      rcases List.forall_mem_cons.1 inside with ⟨first, others⟩
      rw [List.foldl_cons, induction others, List.flatMap_cons,
        parseBlk_regions_of_inside ovmfMeta first, List.append_assoc]

end

/-- The regions of the metadata are those the entries add, one after the other. -/
theorem regions_of_new
    {firmware : Bytes} {ovmfMeta : OvmfMeta}
    (accepted : OvmfMeta.new firmware = some ovmfMeta) :
    ovmfMeta.regions =
      ((footerEntries firmware).foldl
        (fun ovmfMeta entry => ovmfMeta.parseBlk firmware entry.1 entry.2)
        ({} : OvmfMeta)).regions := by
  rw [OvmfMeta.new] at accepted
  unfold footerEntries
  split at accepted
  · cases accepted
  · cases parsed : metaBlk (firmware.take (firmware.length - 0x20)) with
    | none =>
        rw [parsed] at accepted
        cases accepted
    | some block =>
        rcases block with ⟨blockGuid, blocks, below⟩
        rw [parsed] at accepted
        dsimp only at accepted ⊢
        split at accepted
        · next isList =>
            cases accepted
            rw [if_pos isList, parseBlocks_eq_foldl, tableEntries]
        · next notList =>
            cases accepted
            rw [if_neg notList]
            rfl

/-- A firmware that is refused has no table to walk. -/
theorem exists_new_of_footerEntries
    {firmware : Bytes} (walked : footerEntries firmware ≠ []) :
    ∃ ovmfMeta, OvmfMeta.new firmware = some ovmfMeta := by
  unfold footerEntries at walked
  cases parsed : metaBlk (firmware.take (firmware.length - 0x20)) with
  | none =>
      rw [parsed] at walked
      exact absurd rfl walked
  | some block =>
      rcases block with ⟨blockGuid, blocks, below⟩
      have long : ¬ firmware.length < 0x20 := by
        intro short
        have cut : firmware.length - 0x20 = 0 := by omega
        rw [cut, List.take_zero] at parsed
        cases parsed
      rw [OvmfMeta.new, if_neg long, parsed]
      dsimp only
      split
      · exact ⟨_, rfl⟩
      · exact ⟨_, rfl⟩

/--
Every list of an accepted firmware is in its regions whole, exactly where the
lists that its table points to lie inside the image.
-/
theorem regionsExact_iff (firmware : Bytes) :
    (∀ ovmfMeta, OvmfMeta.new firmware = some ovmfMeta →
        RegionsExact firmware ovmfMeta) ↔
      ListsInside firmware := by
  constructor
  · intro allExact entry member isList
    rcases exists_new_of_footerEntries (List.ne_nil_of_mem member) with
      ⟨ovmfMeta, accepted⟩
    exact (allExact ovmfMeta accepted).inside entry member isList
  · intro inside ovmfMeta accepted
    refine ⟨?_, inside⟩
    rw [regions_of_new accepted, foldl_parseBlk_regions inside]
    rfl

/-! ## A cut list -/

/-- A list of two descriptors, the second one cut by the end of the image. -/
def cutListFirmware : Bytes :=
  (leBytes 4 32 ++ (leBytes 2 22 ++ ovmfMetaSevList)) ++
    (leBytes 2 40 ++ ovmfMetaList) ++
      (List.replicate 12 0 ++ leBytes 4 2 ++
        (leBytes 4 0x1000 ++ leBytes 4 0x1000 ++ leBytes 4 1) ++
          leBytes 4 0x2000)

/-- The image is accepted with the first of the two regions. -/
theorem not_regionsExact_cutList :
    ∃ ovmfMeta,
      OvmfMeta.new cutListFirmware = some ovmfMeta ∧
        ovmfMeta.regions.length = 1 ∧
          ¬ RegionsExact cutListFirmware ovmfMeta := by
  have cut : ¬ ListsInside cutListFirmware := by
    decide +kernel
  have accepted :
      (OvmfMeta.new cutListFirmware).map (·.regions.length) = some 1 := by
    decide +kernel
  rcases Option.map_eq_some_iff.1 accepted with ⟨ovmfMeta, found, one⟩
  exact ⟨ovmfMeta, found, one, fun regionsExact => cut regionsExact.inside⟩

end Confos.Igvm.RegionLists
