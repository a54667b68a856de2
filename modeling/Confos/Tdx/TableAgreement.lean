import Confos.Igvm.OvmfTable
import Confos.Tdx.Firmware

/-!
# Two readings of the footer table

The TDX measurement and the IGVM builder read the same table.  The builder
counts an entry without its trailer and cuts the table at its own start; the
measurement counts the trailer in and starts 18 bytes lower.  The two walks
stay 18 bytes apart, so they see the same entries.
-/

namespace Confos.Tdx.TableAgreement

open Confos.Library.ByteStrings
open Confos.Tdx.Ccel
open Confos.Tdx.Firmware
open Confos.Igvm.Ovmf
open Confos.Igvm.OvmfTable

/-- The wire form of the GUID of the metadata offset. -/
def tdxMetadataGuid : Bytes :=
  guid 0xe47a6535 0x984a 0x4798 [0x86, 0x5e, 0x46, 0x85, 0xa7, 0xbf, 0x8e, 0xc2]

theorem encodeGuid_tdxMetadataOffsetGuid :
    encodeGuid tdxMetadataOffsetGuid = .ok tdxMetadataGuid := by
  decide +kernel

theorem encodeGuid_tableFooterGuid :
    encodeGuid tableFooterGuid = .ok ovmfMetaList := by
  decide +kernel

/-! ## One entry -/

section

variable
    {tables sizeBytes blockGuid above encodedGuid : Bytes}
    {pos : Nat}

theorem u16At_of_readsAt
    (reads : ReadsAt tables pos (sizeBytes ++ above))
    (length_size : sizeBytes.length = 2) :
    (u16At tables pos).toNat = ofLeBytes sizeBytes := by
  rw [u16At, reads.slice_eq length_size]
  apply UInt16.toNat_ofNat_of_lt'
  have small := ofLeBytes_lt sizeBytes
  rwa [length_size] at small

/-- A turn at an entry that stays inside the table. -/
theorem tableTurn_of_readsAt
    (reads : ReadsAt tables pos (sizeBytes ++ (blockGuid ++ above)))
    (length_size : sizeBytes.length = 2)
    (length_guid : blockGuid.length = 16)
    (inside : ofLeBytes sizeBytes ≤ pos) :
    tableTurn encodedGuid tables (pos + 18) =
      if blockGuid = encodedGuid then
        .ok
          (.found
            (slice tables (pos - ofLeBytes sizeBytes)
              (ofLeBytes sizeBytes)))
      else
        .ok (.next (pos + 18 - ofLeBytes sizeBytes)) := by
  have atGuid := reads.advance length_size
  have size : (u16At tables (pos + 18 - 18)).toNat = ofLeBytes sizeBytes := by
    rw [Nat.add_sub_cancel]
    exact u16At_of_readsAt reads length_size
  have found : slice tables (pos + 18 - 16) 16 = blockGuid :=
    atGuid.slice_eq length_guid
  rw [tableTurn, if_neg (by omega), size, found]
  dsimp only
  rw [Nat.add_sub_cancel, if_neg (by omega)]

end

section

variable
    {rest blockGuid blk other sizeBytes : Bytes}
    (isBlock : IsBlock rest blockGuid blk other sizeBytes)
    {low : Bytes} (length_low : low.length = 18) (above encodedGuid : Bytes)

include isBlock length_low

/-- Above 18 bytes a block's trailer stands where its payload ends. -/
theorem readsAt_of_isBlock :
    ReadsAt (low ++ (rest ++ above)) rest.length
      (sizeBytes ++ (blockGuid ++ above)) := by
  have length_eq := isBlock.length_blob
  have behind :=
    ReadsAt.of_append (low ++ (other ++ blk))
      (sizeBytes ++ (blockGuid ++ above))
  have position : (low ++ (other ++ blk)).length = rest.length := by
    simp only [List.length_append]
    omega
  rw [position] at behind
  rw [isBlock.append_eq]
  simpa only [List.append_assoc] using behind

/-- The length the measurement reads covers the trailer, which lies 18 higher. -/
theorem tableTurn_of_isBlock :
    tableTurn encodedGuid (low ++ (rest ++ above)) (rest.length + 18) =
      if blockGuid = encodedGuid then
        .ok (.found ((low ++ other).drop other.length ++ blk))
      else
        .ok (.next (other.length + 18)) := by
  have length_eq := isBlock.length_blob
  have size_eq := isBlock.size_eq
  have start : rest.length - (blk.length + 18) = other.length := by omega
  have next : rest.length + 18 - (blk.length + 18) = other.length + 18 := by
    omega
  have payload :
      slice (low ++ (rest ++ above)) other.length (blk.length + 18) =
        (low ++ other).drop other.length ++ blk := by
    rw [isBlock.append_eq, ← List.append_assoc, slice,
      List.drop_append_of_le_length (by simp), ← List.append_assoc,
      List.take_left' (by simp; omega)]
  rw [tableTurn_of_readsAt (readsAt_of_isBlock isBlock length_low above)
      isBlock.length_size isBlock.length_guid (by omega),
    size_eq, start, next, payload]

end

/-! ## The walks -/

/--
The measurement's walk, 18 bytes behind the builder's, ends at the first entry
of the sought GUID and takes its payload with the 18 bytes below it.
-/
theorem walkTables_eq_found
    {low rest encodedGuid : Bytes} {walked : Nat}
    {entries : List TableEntry} {first : TableEntry}
    (length_low : low.length = 18)
    (walk : walkEntries walked rest = (entries, []))
    (found :
      entries.find? (fun entry => entry.1 = encodedGuid) = some first)
    (above : Bytes) :
    ∃ under : Bytes,
      under.length = 18 ∧
        ∀ turns, entries.length ≤ turns →
          walkTables encodedGuid (low ++ (rest ++ above)) turns
              (rest.length + 18) =
            some (.ok (some (under ++ first.2))) := by
  induction walked generalizing rest above entries with
  | zero =>
      cases walk
      cases found
  | succ walked induction =>
      cases parsed : metaBlk rest with
      | none =>
          rw [walkEntries_of_none parsed] at walk
          cases walk
          cases found
      | some block =>
          rcases block with ⟨blockGuid, blk, other⟩
          rw [walkEntries_succ parsed, Prod.mk.injEq] at walk
          rcases walk with ⟨rfl, ended⟩
          rcases exists_isBlock_of_metaBlk parsed with ⟨sizeBytes, isBlock⟩
          have turn := tableTurn_of_isBlock isBlock length_low above encodedGuid
          by_cases same : blockGuid = encodedGuid
          · rw [List.find?_cons_of_pos (by simpa using same)] at found
            cases found
            rw [if_pos same] at turn
            refine ⟨(low ++ other).drop other.length, ?_, ?_⟩
            · simp only [List.length_drop, List.length_append]
              omega
            · intro turns enough
              cases turns with
              | zero => exact absurd enough (Nat.not_succ_le_zero _)
              | succ turns => rw [walkTables, turn]
          · rw [List.find?_cons_of_neg (by simpa using same)] at found
            rw [if_neg same] at turn
            rcases
              induction (Prod.ext rfl ended) found
                (blk ++ (sizeBytes ++ (blockGuid ++ above))) with
              ⟨under, length_under, below⟩
            refine ⟨under, length_under, ?_⟩
            intro turns enough
            cases turns with
            | zero => exact absurd enough (Nat.not_succ_le_zero _)
            | succ turns =>
                rw [walkTables, turn, isBlock.append_eq]
                exact below turns (Nat.le_of_succ_le_succ enough)

/-! ## The footer -/

/--
A footer table as the builder walks it: the block of the footer GUID, with 18
bytes or more below it, and entries whose chain ends where the table starts.
-/
structure WellFormedFooter
    (fw blocks below : Bytes) (entries : List TableEntry) : Prop where
  footer :
    metaBlk (fw.take (fw.length - 0x20)) =
      some (ovmfMetaList, blocks, below)
  room : 18 ≤ below.length
  chain : tableEntries blocks = (entries, [])
  payloads : ∀ entry ∈ entries, 4 ≤ entry.2.length

section

variable {fw blocks below : Bytes} {entries : List TableEntry}

/-- The measurement cuts the table 18 bytes lower than the builder. -/
theorem WellFormedFooter.footerTables_eq
    (wellFormed : WellFormedFooter fw blocks below entries) :
    footerTables fw = .ok (below.drop (below.length - 18) ++ blocks) := by
  rcases exists_isBlock_of_metaBlk wellFormed.footer with
    ⟨sizeBytes, isBlock⟩
  have room := wellFormed.room
  have size_eq := isBlock.size_eq
  have length_blob := isBlock.length_blob
  rw [List.length_take] at length_blob
  have whole := isBlock.append_eq [] (fw.drop (fw.length - 0x20))
  rw [List.take_append_drop, List.nil_append, List.nil_append] at whole
  have behind :=
    ReadsAt.of_append (below ++ blocks)
      (sizeBytes ++ (ovmfMetaList ++ fw.drop (fw.length - 0x20)))
  have position :
      (below ++ blocks).length = fw.length - bytesAfterTableFooter - 18 := by
    rw [List.length_append, bytesAfterTableFooter]
    omega
  rw [List.append_assoc, ← whole, position] at behind
  have size :
      (u16At fw (fw.length - bytesAfterTableFooter - 18)).toNat =
        blocks.length + 18 := by
    rw [u16At_of_readsAt behind isBlock.length_size, size_eq]
  have guidFound :
      slice fw (fw.length - bytesAfterTableFooter - 16) 16 =
        ovmfMetaList := by
    have atGuid := behind.advance isBlock.length_size
    have offset :
        fw.length - bytesAfterTableFooter - 18 + 2 =
          fw.length - bytesAfterTableFooter - 16 := by
      rw [bytesAfterTableFooter]
      omega
    rw [offset] at atGuid
    exact atGuid.slice_eq isBlock.length_guid
  have start :
      fw.length - bytesAfterTableFooter - 18 - (blocks.length + 18) =
        below.length - 18 := by
    rw [bytesAfterTableFooter]
    omega
  have cut :
      slice fw (below.length - 18) (blocks.length + 18) =
        below.drop (below.length - 18) ++ blocks := by
    rw [slice, whole, List.drop_append_of_le_length (Nat.sub_le _ _),
      ← List.append_assoc, List.take_left' (by simp; omega)]
  rw [footerTables, if_neg (by rw [minFirmwareSize, bytesAfterTableFooter]; omega),
    encodeGuid_tableFooterGuid]
  change
    (if slice fw (fw.length - bytesAfterTableFooter - 16) 16 ≠ ovmfMetaList
      then _ else _) = _
  rw [if_neg (not_not.2 guidFound), size, if_neg, start, cut]
  rw [bytesAfterTableFooter]
  omega

end

/-! ## Parsing -/

/-- The last four bytes of a payload, as the measurement reads them. -/
theorem toNat_u32At_append
    {front payload : Bytes} (long : 4 ≤ payload.length) :
    (u32At (front ++ payload) ((front ++ payload).length - 4)).toNat =
      ofLeBytes (payload.drop (payload.length - 4)) := by
  have position :
      (front ++ payload).length - 4 = front.length + (payload.length - 4) := by
    rw [List.length_append]
    omega
  have last :
      slice (front ++ payload) ((front ++ payload).length - 4) 4 =
        payload.drop (payload.length - 4) := by
    rw [position, slice, List.drop_append, List.drop_of_length_le (by omega),
      List.nil_append, Nat.add_sub_cancel_left]
    apply List.take_of_length_le
    rw [List.length_drop]
    omega
  rw [u32At, last]
  apply UInt32.toNat_ofNat_of_lt'
  have small := ofLeBytes_lt (payload.drop (payload.length - 4))
  have four : (payload.drop (payload.length - 4)).length = 4 := by
    rw [List.length_drop]
    omega
  rwa [four] at small

/--
On a well-formed footer table with an entry for the metadata offset the
measurement's walk finds data and refuses nothing, and the offset it reads is
the end of the payload of the first such entry the builder's walk yields.
-/
theorem parse_of_wellFormedFooter
    {fw blocks below : Bytes} {entries : List TableEntry}
    (wellFormed : WellFormedFooter fw blocks below entries)
    (present : ∃ entry ∈ entries, entry.1 = tdxMetadataGuid) :
    ∃ tables data first,
      footerTables fw = .ok tables ∧
        entries.find? (fun entry => entry.1 = tdxMetadataGuid) =
          some first ∧
        4 ≤ data.length ∧
        (u32At data (data.length - 4)).toNat =
          ofLeBytes (first.2.drop (first.2.length - 4)) ∧
        ∀ turns, entries.length ≤ turns →
          walkTables tdxMetadataGuid tables turns tables.length =
              some (.ok (some data)) ∧
            parse turns fw = some (parseFound fw (some data)) := by
  have someFirst :
      (entries.find? fun entry => entry.1 = tdxMetadataGuid).isSome =
        true := by
    rw [List.find?_isSome]
    simpa using present
  rcases Option.isSome_iff_exists.1 someFirst with ⟨first, found⟩
  have payload := wellFormed.payloads first (List.mem_of_find?_eq_some found)
  have room := wellFormed.room
  have length_low : (below.drop (below.length - 18)).length = 18 := by
    rw [List.length_drop]
    omega
  have length_tables :
      (below.drop (below.length - 18) ++ blocks).length =
        blocks.length + 18 := by
    rw [List.length_append, length_low]
    omega
  rcases walkTables_eq_found length_low wellFormed.chain found [] with
    ⟨under, length_under, walks⟩
  rw [List.append_nil] at walks
  have footer := wellFormed.footerTables_eq
  refine
    ⟨_, under ++ first.2, first, footer, found, ?_,
      toNat_u32At_append payload, ?_⟩
  · rw [List.length_append]
    omega
  · intro turns enough
    rw [length_tables, parse, footer, encodeGuid_tdxMetadataOffsetGuid]
    dsimp only
    rw [length_tables, walks turns enough]
    exact ⟨rfl, rfl⟩

/-- A table with the sought entry below another one. -/
def twoEntryFirmware : Bytes :=
  List.replicate 18 0 ++
    (leBytes 4 120 ++ (leBytes 2 22 ++ tdxMetadataGuid)) ++
    ([9, 8, 7, 6, 5] ++ (leBytes 2 23 ++ ovmfMetaSevReset)) ++
    (leBytes 2 63 ++ ovmfMetaList) ++ List.replicate 32 0

/-- The sought entry is the second one the walks come to. -/
theorem parse_of_wellFormedFooter_twoEntries :
    ∃ tables data,
      footerTables twoEntryFirmware = .ok tables ∧
        (u32At data (data.length - 4)).toNat = 120 ∧
        walkTables tdxMetadataGuid tables 2 tables.length =
          some (.ok (some data)) := by
  have wellFormed :
      WellFormedFooter twoEntryFirmware
        (leBytes 4 120 ++ (leBytes 2 22 ++ tdxMetadataGuid) ++
          ([9, 8, 7, 6, 5] ++ (leBytes 2 23 ++ ovmfMetaSevReset)))
        (List.replicate 18 0)
        [(ovmfMetaSevReset, [9, 8, 7, 6, 5]),
          (tdxMetadataGuid, leBytes 4 120)] := by
    constructor <;> decide +kernel
  rcases parse_of_wellFormedFooter wellFormed (by decide) with
    ⟨tables, data, first, footer, found, -, read, walks⟩
  refine ⟨tables, data, footer, ?_, (walks 2 (by decide)).1⟩
  have isSecond :
      first = (tdxMetadataGuid, leBytes 4 120) :=
    (Option.some.inj
      (found.symm.trans (by decide +kernel)))
  rw [read, isSecond]
  decide +kernel

end Confos.Tdx.TableAgreement
