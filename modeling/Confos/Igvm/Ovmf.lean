import Confos.Library.ByteStrings

/-!
# OVMF metadata

OVMF firmware ends in a table of GUID-tagged blocks, read backwards from its
last 32 bytes.  Two of the blocks point to region lists elsewhere in the
image.  A list that runs out of bytes keeps the regions read so far, and the
outcome of a block is ignored, as in the source.
-/

namespace Confos.Igvm.Ovmf

open Confos.Library.ByteStrings

/-! ## GUIDs -/

/-- The wire form of a GUID: three little-endian fields, then eight bytes. -/
def guid (first second third : Nat) (last : Bytes) : Bytes :=
  leBytes 4 first ++ leBytes 2 second ++ leBytes 2 third ++ last

def ovmfMetaList : Bytes :=
  guid 0x96b582de 0x1fb2 0x45f7 [0xba, 0xea, 0xa3, 0x66, 0xc5, 0x5a, 0x08, 0x2d]

def ovmfMetaSevReset : Bytes :=
  guid 0x00f771de 0x1a7e 0x4fcb [0x89, 0x0e, 0x68, 0xc7, 0x7e, 0x2f, 0xb4, 0x4e]

def ovmfMetaSevList : Bytes :=
  guid 0xdc886566 0x984a 0x4798 [0xa7, 0x5e, 0x55, 0x85, 0xa7, 0xbf, 0x67, 0xcc]

def ovmfMetaIgvmParam : Bytes :=
  guid 0x784fa70e 0x3176 0x4677 [0x8a, 0x20, 0x04, 0xb6, 0x86, 0x99, 0xe3, 0x74]

/-! ## Regions -/

inductive OvmfRegionType where
  | undefined
  | sevMemory
  | sevSecrets
  | sevCpuid
  | sevSvsmCca
  | sevHashes
  | igvmParamArea
  | igvmParamMemoryMap
  | igvmParamVpCount
  | igvmHobArea
deriving DecidableEq, Repr

def OvmfRegionType.newSev (kind : Nat) : OvmfRegionType :=
  if kind = 0x01 then .sevMemory
  else if kind = 0x02 then .sevSecrets
  else if kind = 0x03 then .sevCpuid
  else if kind = 0x04 then .sevSvsmCca
  else if kind = 0x10 then .sevHashes
  else .undefined

def OvmfRegionType.newIgvm (kind : Nat) : OvmfRegionType :=
  if kind = 0x100 then .igvmParamArea
  else if kind = 0x101 then .igvmParamMemoryMap
  else if kind = 0x102 then .igvmParamVpCount
  else if kind = 0x200 then .igvmHobArea
  else .undefined

/-- A region: where it starts, its size, which is not zero, and what it is for. -/
structure OvmfRegion where
  base : Nat
  size : Nat
  etype : OvmfRegionType
  base_lt : base < 2 ^ 32
  size_lt : size < 2 ^ 32
  size_pos : 0 < size
deriving DecidableEq, Repr

structure OvmfMeta where
  regions : List OvmfRegion := []
  sevResetAddr : Option UInt32 := none
deriving DecidableEq, Repr

theorem le32_lt (data : Bytes) (start : Nat) :
    ofLeBytes (slice data start 4) < 2 ^ 32 :=
  ofLeBytes_slice_lt data start 4

/-- The entries of a region list; a region without bytes is left out. -/
def parseEntries (newType : Nat → OvmfRegionType) :
    Nat → Bytes → List OvmfRegion
  | 0, _ => []
  | entries + 1, items =>
      if items.length < 12 then
        []
      else
        if nonempty : ofLeBytes (slice items 4 4) ≠ 0 then
          { base := ofLeBytes (slice items 0 4)
            size := ofLeBytes (slice items 4 4)
            etype := newType (ofLeBytes (slice items 8 4))
            base_lt := le32_lt items 0
            size_lt := le32_lt items 4
            size_pos := Nat.pos_of_ne_zero nonempty } ::
            parseEntries newType entries (items.drop 12)
        else
          parseEntries newType entries (items.drop 12)

/-- The list a block points to: its head, and the entries behind the head. -/
def parseList
    (newType : Nat → OvmfRegionType) (firmware blk : Bytes) :
    List OvmfRegion :=
  let listBase := ofLeBytes (slice blk 0 4)
  if blk.length < 4 ∨ firmware.length < listBase then
    []
  else
    let list := firmware.drop (firmware.length - listBase)
    if list.length < 16 then
      []
    else
      parseEntries newType (ofLeBytes (slice list 12 4)) (list.drop 16)

/-! ## Blocks -/

/-- The last block of `blob`: its GUID, its payload, and what precedes it. -/
def metaBlk (blob : Bytes) : Option (Bytes × Bytes × Bytes) :=
  if blob.length < 18 then
    none
  else
    let data := blob.take (blob.length - 18)
    let size := ofLeBytes (slice blob (blob.length - 18) 2)
    if size < 18 ∨ data.length < size - 18 then
      none
    else
      let start := data.length - (size - 18)
      some
        (slice blob (blob.length - 16) 16, data.drop start, data.take start)

def OvmfMeta.parseBlk
    (ovmfMeta : OvmfMeta) (firmware blockGuid blk : Bytes) : OvmfMeta :=
  if blockGuid = ovmfMetaSevReset then
    if blk.length < 4 then
      ovmfMeta
    else
      { ovmfMeta with
        sevResetAddr := some (UInt32.ofNat (ofLeBytes (slice blk 0 4))) }
  else if blockGuid = ovmfMetaSevList then
    { ovmfMeta with
      regions :=
        ovmfMeta.regions ++ parseList OvmfRegionType.newSev firmware blk }
  else if blockGuid = ovmfMetaIgvmParam then
    { ovmfMeta with
      regions :=
        ovmfMeta.regions ++ parseList OvmfRegionType.newIgvm firmware blk }
  else
    ovmfMeta

/--
The loop over the blocks, last one first.  Each block is at least as long as
its trailer, so as many turns as there are bytes are enough.
-/
def parseBlocks (firmware : Bytes) : Nat → Bytes → OvmfMeta → OvmfMeta
  | 0, _, ovmfMeta => ovmfMeta
  | turns + 1, blocks, ovmfMeta =>
      match metaBlk blocks with
      | none => ovmfMeta
      | some (blockGuid, blk, other) =>
          parseBlocks firmware turns other
            (ovmfMeta.parseBlk firmware blockGuid blk)

theorem length_other_lt
    {blob blockGuid blk other : Bytes}
    (parsed : metaBlk blob = some (blockGuid, blk, other)) :
    other.length < blob.length := by
  rw [metaBlk] at parsed
  split at parsed
  · cases parsed
  · dsimp only at parsed
    split at parsed
    · cases parsed
    · cases parsed
      simp only [List.length_take]
      omega

/-- More turns than there are bytes read the same blocks. -/
theorem parseBlocks_of_le
    (firmware : Bytes) {turns : Nat} {blocks : Bytes}
    (enough : blocks.length ≤ turns) (ovmfMeta : OvmfMeta) :
    parseBlocks firmware turns blocks ovmfMeta =
      parseBlocks firmware blocks.length blocks ovmfMeta := by
  induction turns using Nat.strong_induction_on generalizing blocks ovmfMeta with
  | _ turns induction =>
      cases turns with
      | zero =>
          rw [Nat.le_zero.1 enough]
      | succ turns =>
          cases length : blocks.length with
          | zero =>
              have short : metaBlk blocks = none := by
                rw [metaBlk, if_pos (by omega)]
              simp only [parseBlocks, short]
          | succ fewer =>
              rw [parseBlocks, parseBlocks]
              cases parsed : metaBlk blocks with
              | none => rfl
              | some block =>
                  rcases block with ⟨blockGuid, blk, other⟩
                  have shorter := length_other_lt parsed
                  dsimp only
                  rw [induction turns (by omega) (by omega),
                    induction fewer (by omega) (by omega)]

/-- `OvmfMeta::new`. -/
def OvmfMeta.new (firmware : Bytes) : Option OvmfMeta :=
  if firmware.length < 0x20 then
    none
  else
    match metaBlk (firmware.take (firmware.length - 0x20)) with
    | none => none
    | some (blockGuid, blocks, _) =>
        if blockGuid = ovmfMetaList then
          some (parseBlocks firmware blocks.length blocks {})
        else
          some {}

/-- The smallest firmware with an area for the hand-off list: 100 bytes. -/
def hobFirmware (hobBase : Nat) : Bytes :=
  List.replicate 12 0 ++ leBytes 4 1 ++
    (leBytes 4 hobBase ++ leBytes 4 0x1000 ++ leBytes 4 0x200) ++
      (leBytes 4 100 ++ leBytes 2 22 ++ ovmfMetaIgvmParam) ++
        (leBytes 2 40 ++ ovmfMetaList) ++ List.replicate 32 0

example :
    OvmfMeta.new (hobFirmware 0x810000) =
      some
        { regions :=
            [{ base := 0x810000, size := 0x1000, etype := .igvmHobArea,
               base_lt := by decide, size_lt := by decide,
               size_pos := by decide }] } := by
  decide +kernel

end Confos.Igvm.Ovmf
