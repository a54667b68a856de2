import Confos.Igvm.Ovmf

/-!
# The entries of the footer table

The loop over the blocks of the footer table only looks at one block after the
other, so what it makes of a table is a fold over the table's entries.
-/

namespace Confos.Igvm.OvmfTable

open Confos.Library.ByteStrings
open Confos.Igvm.Ovmf

/-- An entry of the table: its GUID and its payload. -/
abbrev TableEntry := Bytes × Bytes

/-- The entries of a table, last one first, and what the walk leaves unread. -/
def walkEntries : Nat → Bytes → List TableEntry × Bytes
  | 0, blob => ([], blob)
  | turns + 1, blob =>
      match metaBlk blob with
      | none => ([], blob)
      | some (blockGuid, blk, other) =>
          let walked := walkEntries turns other
          ((blockGuid, blk) :: walked.1, walked.2)

/-- Each block is longer than its trailer, so a turn a byte is enough. -/
def tableEntries (blob : Bytes) : List TableEntry × Bytes :=
  walkEntries blob.length blob

theorem walkEntries_of_none
    {blob : Bytes} (ended : metaBlk blob = none) (turns : Nat) :
    walkEntries turns blob = ([], blob) := by
  cases turns with
  | zero => rfl
  | succ turns => rw [walkEntries, ended]

theorem walkEntries_succ
    {blob blockGuid blk other : Bytes}
    (parsed : metaBlk blob = some (blockGuid, blk, other)) (turns : Nat) :
    walkEntries (turns + 1) blob =
      ((blockGuid, blk) :: (walkEntries turns other).1,
        (walkEntries turns other).2) := by
  rw [walkEntries, parsed]

/-- The loop of the source folds over the entries. -/
theorem parseBlocks_eq_foldl
    (firmware : Bytes) (turns : Nat) (blob : Bytes) (ovmfMeta : OvmfMeta) :
    parseBlocks firmware turns blob ovmfMeta =
      (walkEntries turns blob).1.foldl
        (fun ovmfMeta entry => ovmfMeta.parseBlk firmware entry.1 entry.2)
        ovmfMeta := by
  induction turns generalizing blob ovmfMeta with
  | zero => rfl
  | succ turns induction =>
      cases parsed : metaBlk blob with
      | none =>
          rw [walkEntries_of_none parsed, parseBlocks, parsed]
          rfl
      | some block =>
          rcases block with ⟨blockGuid, blk, other⟩
          rw [walkEntries_succ parsed, parseBlocks, parsed]
          exact induction other _

/-- A block in its bytes: what precedes it, its payload, its size and GUID. -/
structure IsBlock (blob blockGuid blk other sizeBytes : Bytes) : Prop where
  blob_eq : blob = (other ++ blk) ++ (sizeBytes ++ blockGuid)
  length_size : sizeBytes.length = 2
  length_guid : blockGuid.length = 16
  size_eq : ofLeBytes sizeBytes = blk.length + 18

theorem IsBlock.length_blob
    {blob blockGuid blk other sizeBytes : Bytes}
    (isBlock : IsBlock blob blockGuid blk other sizeBytes) :
    blob.length = other.length + blk.length + 18 := by
  have length_size := isBlock.length_size
  have length_guid := isBlock.length_guid
  rw [isBlock.blob_eq]
  simp only [List.length_append]
  omega

/-- A block between other bytes, taken apart. -/
theorem IsBlock.append_eq
    {blob blockGuid blk other sizeBytes : Bytes}
    (isBlock : IsBlock blob blockGuid blk other sizeBytes)
    (low above : Bytes) :
    low ++ (blob ++ above) =
      low ++ (other ++ (blk ++ (sizeBytes ++ (blockGuid ++ above)))) := by
  rw [isBlock.blob_eq]
  simp only [List.append_assoc]

theorem exists_isBlock_of_metaBlk
    {blob blockGuid blk other : Bytes}
    (parsed : metaBlk blob = some (blockGuid, blk, other)) :
    ∃ sizeBytes, IsBlock blob blockGuid blk other sizeBytes := by
  rw [metaBlk] at parsed
  split at parsed
  · cases parsed
  · next long =>
      dsimp only at parsed
      split at parsed
      · cases parsed
      · next fits =>
          simp only [not_or, not_lt, List.length_take] at fits long
          simp only [Option.some.injEq, Prod.mk.injEq] at parsed
          rcases parsed with ⟨rfl, rfl, rfl⟩
          have trailer :
              slice blob (blob.length - 18) 2 ++
                  slice blob (blob.length - 16) 16 =
                blob.drop (blob.length - 18) := by
            have reads :
                ReadsAt blob (blob.length - 18)
                  (blob.drop (blob.length - 18)) :=
              ReadsAt.of_le (Nat.sub_le _ _)
            have split := (reads.split 2 (by omega)).1
            have behind : blob.length - 18 + 2 = blob.length - 16 := by
              omega
            rw [behind] at split
            have last :
                slice blob (blob.length - 16) 16 =
                  blob.drop (blob.length - 16) := by
              apply List.take_of_length_le
              rw [List.length_drop]
              omega
            rw [last, ← split]
          refine ⟨slice blob (blob.length - 18) 2, ?_, ?_, ?_, ?_⟩
          · rw [List.take_append_drop, trailer, List.take_append_drop]
          · exact length_slice_of_le (by omega)
          · exact length_slice_of_le (by omega)
          · simp only [List.length_drop, List.length_take]
            omega

end Confos.Igvm.OvmfTable
