import Confos.Library.ByteStrings
import Confos.Igvm.Ovmf

/-!
# The hand-off list

The blobs a guest starts with (certificates, shim, kernel) are laid out one
after the other and described by a list of hand-off blocks that the firmware
reads.  `hobs` writes that list and `decodeHobs` is how the firmware reads it
back; the marker at the end tells how many entries there are.
-/

namespace Confos.Igvm.Hob

open Confos.Library.ByteStrings
open Confos.Igvm.Ovmf

def hobPageSize : Nat := 4096

inductive IgvmDataType where
  | pk
  | kek
  | db
  | dbx
  | shim
  | kernel
deriving DecidableEq, Repr

def IgvmDataType.value : IgvmDataType → Nat
  | .pk => 0x100
  | .kek => 0x101
  | .db => 0x102
  | .dbx => 0x103
  | .shim => 0x200
  | .kernel => 0x201

def igvmDataHobGuid : Bytes :=
  guid 0x3dd177ff 0xb632 0x4e25 [0xbe, 0xf3, 0x06, 0x50, 0x63, 0xd5, 0x5f, 0xc4]

/-- `EfiHobHeader`: type, length and a reserved word. -/
def hobHeader (hobType hobLength : Nat) : Bytes :=
  leBytes 2 hobType ++ leBytes 2 hobLength ++ leBytes 4 0

def endOfHobList : Bytes :=
  hobHeader 0xFFFF 8

/-- What a hand-off block says about one blob. -/
structure HobEntry where
  address : Nat
  length : Nat
  dataType : Nat
deriving DecidableEq, Repr

/-- `EfiIgvmDataHob`, 48 bytes. -/
def igvmDataHob (entry : HobEntry) : Bytes :=
  hobHeader 0x0004 48 ++ igvmDataHobGuid ++ leBytes 8 entry.address ++
    leBytes 8 entry.length ++ leBytes 4 entry.dataType ++ leBytes 4 0

/-! ## The list -/

/-- One blob with its place in guest memory. -/
structure IgvmDataEntry where
  dataType : IgvmDataType
  addr : Nat
  blob : Bytes
  measured : Bool
deriving DecidableEq, Repr

def IgvmDataEntry.hob (entry : IgvmDataEntry) : HobEntry :=
  { address := entry.addr
    length := entry.blob.length
    dataType := entry.dataType.value }

/-- Where an entry is placed, as a pass of the builder takes it. -/
def IgvmDataEntry.placement (entry : IgvmDataEntry) : Nat × Bytes :=
  (entry.addr, entry.blob)

/-- The end of an entry's last page. -/
def IgvmDataEntry.pagesEnd (entry : IgvmDataEntry) : Nat :=
  entry.addr + roundUp hobPageSize entry.blob.length

structure IgvmDataList where
  base : Nat
  data : List IgvmDataEntry := []
deriving DecidableEq, Repr

/-- Place a blob at the current base, and the base behind its last page. -/
def IgvmDataList.add
    (list : IgvmDataList) (blob : Bytes) (dataType : IgvmDataType)
    (measured : Bool) : IgvmDataList :=
  { base := list.base + roundUp hobPageSize blob.length
    data := list.data ++ [{ dataType, addr := list.base, blob, measured }] }

def IgvmDataList.hobs (list : IgvmDataList) : Bytes :=
  list.data.flatMap (fun entry => igvmDataHob entry.hob) ++ endOfHobList

def IgvmDataList.blobs (list : IgvmDataList) (measured : Bool) :
    List (Nat × Bytes) :=
  (list.data.filter (·.measured == measured)).map IgvmDataEntry.placement

/-! ## Reading the list back -/

/--
Read the list at the front of some bytes: a block of the data GUID is an
entry, the end marker stops.  Each block has 48 bytes, so as many turns as
there are bytes are enough.
-/
def decodeHobs : Nat → Bytes → Option (List HobEntry)
  | 0, _ => none
  | turns + 1, bytes =>
      if bytes.take 8 = endOfHobList then
        some []
      else if bytes.take 24 = hobHeader 0x0004 48 ++ igvmDataHobGuid then
        match decodeHobs turns (bytes.drop 48) with
        | some entries =>
            some
              ({ address := ofLeBytes (slice bytes 24 8)
                 length := ofLeBytes (slice bytes 32 8)
                 dataType := ofLeBytes (slice bytes 40 4) } :: entries)
        | none => none
      else
        none

@[simp]
theorem length_hobHeader (hobType hobLength : Nat) :
    (hobHeader hobType hobLength).length = 8 := by
  simp [hobHeader]

@[simp]
theorem length_igvmDataHobGuid : igvmDataHobGuid.length = 16 :=
  rfl

@[simp]
theorem length_endOfHobList : endOfHobList.length = 8 :=
  rfl

@[simp]
theorem length_igvmDataHob (entry : HobEntry) :
    (igvmDataHob entry).length = 48 := by
  simp [igvmDataHob]

theorem IgvmDataType.value_lt (dataType : IgvmDataType) :
    dataType.value < 256 ^ 4 := by
  cases dataType <;> decide

/-- An entry whose numbers fit their fields. -/
def HobEntry.Fits (entry : HobEntry) : Prop :=
  entry.address < 2 ^ 64 ∧ entry.length < 2 ^ 64 ∧ entry.dataType < 2 ^ 32

theorem decodeHobs_end {turns : Nat} (rest : Bytes) :
    decodeHobs (turns + 1) (endOfHobList ++ rest) = some [] := by
  rw [decodeHobs, List.take_left' length_endOfHobList, if_pos rfl]

/-- One block is read back whole. -/
theorem decodeHobs_cons
    {turns : Nat} {entry : HobEntry} (fits : entry.Fits) (rest : Bytes) :
    decodeHobs (turns + 1) (igvmDataHob entry ++ rest) =
      (decodeHobs turns rest).map (entry :: ·) := by
  rcases fits with ⟨addressFits, lengthFits, typeFits⟩
  have whole :
      ReadsAt (igvmDataHob entry ++ rest) 0
        ((hobHeader 0x0004 48 ++ igvmDataHobGuid) ++
          (leBytes 8 entry.address ++
            (leBytes 8 entry.length ++
              (leBytes 4 entry.dataType ++ (leBytes 4 0 ++ rest))))) := by
    constructor
    · simp [igvmDataHob]
    · simp [igvmDataHob]
  have headLength :
      (hobHeader 0x0004 48 ++ igvmDataHobGuid).length = 24 :=
    rfl
  have atAddress := whole.advance headLength
  have atLength := atAddress.advance (length_leBytes 8 _)
  have atType := atLength.advance (length_leBytes 8 _)
  have address :
      ofLeBytes (slice (igvmDataHob entry ++ rest) 24 8) = entry.address := by
    rw [atAddress.slice_eq (length_leBytes 8 _),
      ofLeBytes_leBytes_of_lt addressFits]
  have length :
      ofLeBytes (slice (igvmDataHob entry ++ rest) 32 8) = entry.length := by
    rw [atLength.slice_eq (length_leBytes 8 _),
      ofLeBytes_leBytes_of_lt lengthFits]
  have dataType :
      ofLeBytes (slice (igvmDataHob entry ++ rest) 40 4) =
        entry.dataType := by
    rw [atType.slice_eq (length_leBytes 4 _),
      ofLeBytes_leBytes_of_lt typeFits]
  have head :
      (igvmDataHob entry ++ rest).take 24 =
        hobHeader 0x0004 48 ++ igvmDataHobGuid :=
    whole.slice_eq headLength
  have notEnd : (igvmDataHob entry ++ rest).take 8 ≠ endOfHobList := by
    have first :
        (igvmDataHob entry ++ rest).take 8 = hobHeader 0x0004 48 := by
      have cut := congrArg (List.take 8) head
      rwa [List.take_take] at cut
    rw [first]
    decide
  have behind : (igvmDataHob entry ++ rest).drop 48 = rest :=
    List.drop_left' (length_igvmDataHob entry)
  rw [decodeHobs, if_neg notEnd, if_pos head, behind, address, length,
    dataType]
  cases decodeHobs turns rest <;> rfl

/-- The firmware reads back the list that was written. -/
theorem decodeHobs_encode
    {entries : List HobEntry} (rest : Bytes)
    (fits : ∀ entry ∈ entries, entry.Fits)
    {turns : Nat} (enough : entries.length < turns) :
    decodeHobs turns (entries.flatMap igvmDataHob ++ endOfHobList ++ rest) =
      some entries := by
  induction entries generalizing turns with
  | nil =>
      cases turns with
      | zero => exact absurd enough (Nat.not_lt_zero _)
      | succ turns => exact decodeHobs_end rest
  | cons entry entries induction =>
      cases turns with
      | zero => exact absurd enough (Nat.not_lt_zero _)
      | succ turns =>
          have entryFits := fits entry (List.mem_cons_self ..)
          have others : ∀ other ∈ entries, other.Fits := by
            intro other member
            exact fits other (List.mem_cons_of_mem _ member)
          rw [List.flatMap_cons, List.append_assoc, List.append_assoc,
            decodeHobs_cons entryFits, ← List.append_assoc,
            induction others (Nat.lt_of_succ_lt_succ enough)]
          rfl

theorem length_hobs (list : IgvmDataList) :
    list.hobs.length = 48 * list.data.length + 8 := by
  have blocks :
      ∀ data : List IgvmDataEntry,
        (data.flatMap fun entry => igvmDataHob entry.hob).length =
          48 * data.length := by
    intro data
    induction data with
    | nil => rfl
    | cons entry data induction =>
        rw [List.flatMap_cons, List.length_append, length_igvmDataHob,
          induction, List.length_cons]
        omega
  rw [IgvmDataList.hobs, List.length_append, blocks, length_endOfHobList]

end Confos.Igvm.Hob
