import Confos.Library.Codes
import Confos.Tdx.Firmware

/-!
# MRTD

The build-time measurement of a TDX guest is the hash of one record for each
page that is added and each chunk of a page that is extended.  The records
stand one behind the other without lengths, and an extended chunk is followed
by its 256 bytes of firmware; the name at its start still tells how long a
record is, so the hashed bytes tell the whole sequence of operations.
-/

namespace Confos.Tdx.Mrtd

open Confos.Library.ByteStrings
open Confos.Library.Codes
open Confos.Tdx.Firmware

def mrExtendGranularity : Nat := 0x100

/-! ## The operations -/

/-- One operation of the TDX module; the address may be beyond 64 bits. -/
inductive Operation where
  | pageAdd (gpa : Nat)
  | mrExtend (gpa : Nat) (chunk : Bytes)
deriving DecidableEq, Repr

namespace Operation

def gpa : Operation → Nat
  | pageAdd gpa => gpa
  | mrExtend gpa _ => gpa

/-- The 128 bytes that name an operation and its address. -/
def header (name : String) (gpa : Nat) : Bytes :=
  padTo 16 (utf8Bytes name) ++ leBytes 8 gpa ++ List.replicate 104 0

/-- What an operation adds to the hash; an address wraps in its field. -/
def encode : Operation → Bytes
  | pageAdd gpa => header "MEM.PAGE.ADD" gpa
  | mrExtend gpa chunk => header "MR.EXTEND" gpa ++ chunk

end Operation

section

variable {fw : Bytes} (entry : CheckedSection fw)

def numPages : Nat :=
  entry.memoryDataSize.toNat / pageSize

/-- The extension by one chunk of a page. -/
def extendChunk (page index : Nat) : Operation :=
  .mrExtend
    (entry.memoryAddress.toNat + page * pageSize +
      index * mrExtendGranularity)
    (slice fw
      (entry.dataOffset.toNat + page * pageSize +
        index * mrExtendGranularity)
      mrExtendGranularity)

/-- The operations on one page. -/
def pageOperations (page : Nat) : List Operation :=
  (if entry.attributes &&& attributePageAug = 0 then
      [.pageAdd (entry.memoryAddress.toNat + page * pageSize)]
    else
      []) ++
    if entry.IsExtended then
      (List.range (pageSize / mrExtendGranularity)).map
        (extendChunk entry page)
    else
      []

def sectionOperations : List Operation :=
  (List.range (numPages entry)).flatMap (pageOperations entry)

end

def operations (tdvf : Tdvf) : List Operation :=
  tdvf.sections.flatMap sectionOperations

/-- The bytes the measurement hashes. -/
def mrtdMessage (tdvf : Tdvf) : Bytes :=
  (operations tdvf).flatMap Operation.encode

def mrtd (sha384 : Bytes → Block 48) (tdvf : Tdvf) : Block 48 :=
  sha384 (mrtdMessage tdvf)

/-! ## Chunks -/

/-- A chunk is the firmware at the place its address stands for. -/
structure IsChunkOf
    {fw : Bytes} (entry : CheckedSection fw) (gpa : Nat) (chunk : Bytes) :
    Prop where
  extended : entry.IsExtended
  starts : entry.memoryAddress.toNat ≤ gpa
  ends :
    gpa + mrExtendGranularity ≤
      entry.memoryAddress.toNat + entry.memoryDataSize.toNat
  inside :
    entry.dataOffset.toNat + (gpa - entry.memoryAddress.toNat) +
        mrExtendGranularity ≤
      fw.length
  contents :
    chunk =
      slice fw
        (entry.dataOffset.toNat + (gpa - entry.memoryAddress.toNat))
        mrExtendGranularity

section

variable {fw : Bytes} {entry : CheckedSection fw}

theorem isChunkOf_of_mem_pageOperations
    {page gpa : Nat} {chunk : Bytes} (inSection : page < numPages entry)
    (member : .mrExtend gpa chunk ∈ pageOperations entry page) :
    IsChunkOf entry gpa chunk := by
  rcases List.mem_append.1 member with added | extended
  · split at added
    · cases List.mem_singleton.1 added
    · cases added
  split at extended
  · next isExtended =>
      rcases List.mem_map.1 extended with ⟨index, inPage, same⟩
      cases same
      have chunks : index < 16 := List.mem_range.1 inPage
      have pages :
          (page + 1) * pageSize ≤ entry.memoryDataSize.toNat :=
        (Nat.mul_le_mul_right _ inSection).trans (Nat.div_mul_le_self _ _)
      have fits := entry.extend_fits isExtended
      have apart :
          entry.memoryAddress.toNat + page * pageSize +
                index * mrExtendGranularity -
              entry.memoryAddress.toNat =
            page * pageSize + index * mrExtendGranularity := by
        omega
      have below :
          index * mrExtendGranularity + mrExtendGranularity ≤ pageSize := by
        rw [mrExtendGranularity, pageSize]
        omega
      rw [Nat.succ_mul] at pages
      refine ⟨isExtended, by omega, by omega, ?_, ?_⟩
      · rw [apart]
        omega
      · rw [apart, Nat.add_assoc]
  · cases extended

theorem IsChunkOf.length_eq
    {gpa : Nat} {chunk : Bytes} (isChunk : IsChunkOf entry gpa chunk) :
    chunk.length = mrExtendGranularity := by
  rw [isChunk.contents]
  exact length_slice_of_le isChunk.inside

end

/-- Every extended chunk belongs to a section. -/
theorem isChunkOf_of_mem_operations
    {tdvf : Tdvf} {gpa : Nat} {chunk : Bytes}
    (member : .mrExtend gpa chunk ∈ operations tdvf) :
    ∃ entry ∈ tdvf.sections, IsChunkOf entry gpa chunk := by
  rcases List.mem_flatMap.1 member with ⟨entry, inTable, inSection⟩
  rcases List.mem_flatMap.1 inSection with ⟨page, inPages, inPage⟩
  exact
    ⟨entry, inTable,
      isChunkOf_of_mem_pageOperations (List.mem_range.1 inPages) inPage⟩

/-! ## Reading the records back -/

/-- An operation whose record has the length its name says. -/
def Operation.Valid : Operation → Prop
  | pageAdd gpa => gpa < 2 ^ 64
  | mrExtend gpa chunk =>
      gpa < 2 ^ 64 ∧ chunk.length = mrExtendGranularity

theorem valid_of_mem_operations
    {tdvf : Tdvf} {operation : Operation}
    (fits : operation.gpa < 2 ^ 64)
    (member : operation ∈ operations tdvf) : operation.Valid := by
  cases operation with
  | pageAdd gpa => exact fits
  | mrExtend gpa chunk =>
      rcases isChunkOf_of_mem_operations member with ⟨entry, -, isChunk⟩
      exact ⟨fits, isChunk.length_eq⟩

theorem header_append_inj
    {leftName rightName : String} {leftGpa rightGpa : Nat}
    {left right : Bytes}
    (leftFits : leftGpa < 2 ^ 64) (rightFits : rightGpa < 2 ^ 64)
    (equal :
      Operation.header leftName leftGpa ++ left =
        Operation.header rightName rightGpa ++ right) :
    padTo 16 (utf8Bytes leftName) = padTo 16 (utf8Bytes rightName) ∧
      leftGpa = rightGpa ∧ left = right := by
  simp only [Operation.header, List.append_assoc] at equal
  rcases List.append_inj equal (by rw [length_padTo, length_padTo]) with
    ⟨sameName, behindName⟩
  rcases List.append_inj behindName (by simp) with ⟨sameGpa, behindGpa⟩
  exact
    ⟨sameName, leBytes_injOn leftFits rightFits sameGpa,
      List.append_cancel_left behindGpa⟩

theorem name_apart :
    padTo 16 (utf8Bytes "MEM.PAGE.ADD") ≠
      padTo 16 (utf8Bytes "MR.EXTEND") := by
  decide +kernel

/-- The name at its start tells how long a record is. -/
theorem selfDelimitingOn_encode :
    SelfDelimitingOn Operation.Valid Operation.encode := by
  intro left right leftRest rightRest leftValid rightValid equal
  cases left with
  | pageAdd leftGpa =>
      cases right with
      | pageAdd rightGpa =>
          rcases header_append_inj leftValid rightValid equal with
            ⟨-, rfl, rest⟩
          exact ⟨rfl, rest⟩
      | mrExtend rightGpa chunk =>
          rw [Operation.encode, Operation.encode, List.append_assoc] at equal
          rcases header_append_inj leftValid rightValid.1 equal with
            ⟨sameName, -, -⟩
          exact (name_apart sameName).elim
  | mrExtend leftGpa leftChunk =>
      cases right with
      | pageAdd rightGpa =>
          rw [Operation.encode, Operation.encode, List.append_assoc] at equal
          rcases header_append_inj leftValid.1 rightValid equal with
            ⟨sameName, -, -⟩
          exact (name_apart sameName.symm).elim
      | mrExtend rightGpa rightChunk =>
          rw [Operation.encode, Operation.encode, List.append_assoc,
            List.append_assoc] at equal
          rcases header_append_inj leftValid.1 rightValid.1 equal with
            ⟨-, rfl, behindHeader⟩
          rcases
            List.append_inj behindHeader
              (leftValid.2.trans rightValid.2.symm) with
            ⟨rfl, rest⟩
          exact ⟨rfl, rest⟩

theorem encode_ne_nil (operation : Operation) : operation.encode ≠ [] := by
  have longer : 0 < operation.encode.length := by
    cases operation <;> simp [Operation.encode, Operation.header]
  exact List.ne_nil_of_length_pos longer

/--
Two images whose measurements hash the same bytes perform the same operations
in the same order, and every extended chunk is the firmware of its section at
its address.
-/
theorem mrtdMessage_injective
    {leftTurns rightTurns : Nat} {leftFw rightFw : Bytes}
    {left right : Tdvf}
    (leftParsed : parse leftTurns leftFw = some (.ok left))
    (rightParsed : parse rightTurns rightFw = some (.ok right))
    (leftFits : ∀ operation ∈ operations left, operation.gpa < 2 ^ 64)
    (rightFits : ∀ operation ∈ operations right, operation.gpa < 2 ^ 64)
    (equal : mrtdMessage left = mrtdMessage right) :
    operations left = operations right ∧
      left.fw = leftFw ∧ right.fw = rightFw ∧
        (∀ gpa chunk, .mrExtend gpa chunk ∈ operations left →
          ∃ entry ∈ left.sections, IsChunkOf entry gpa chunk) ∧
          ∀ gpa chunk, .mrExtend gpa chunk ∈ operations right →
            ∃ entry ∈ right.sections, IsChunkOf entry gpa chunk := by
  refine ⟨?_, ?_, ?_, ?_, ?_⟩
  · exact
      selfDelimitingOn_encode.flatMap_injOn encode_ne_nil
        (fun operation member =>
          valid_of_mem_operations (leftFits operation member) member)
        (fun operation member =>
          valid_of_mem_operations (rightFits operation member) member)
        equal
  · exact fw_of_parse leftParsed
  · exact fw_of_parse rightParsed
  · intro gpa chunk member
    exact isChunkOf_of_mem_operations member
  · intro gpa chunk member
    exact isChunkOf_of_mem_operations member

/-! ## Two images with one measurement -/

theorem operations_sampleFirmware
    {filler : UInt8} (known : filler ∈ [0, 1]) :
    ∃ tdvf,
      parse 1 (sampleFirmware filler) = some (.ok tdvf) ∧
        operations tdvf = [.pageAdd 0x1000] := by
  have parsed :
      ∀ filler ∈ [0, 1],
        ((parse 1 (sampleFirmware filler)).bind Except.toOption).map
            operations =
          some [.pageAdd 0x1000] := by
    decide +kernel
  rcases Option.map_eq_some_iff.1 (parsed filler known) with
    ⟨tdvf, found, listed⟩
  rcases Option.bind_eq_some_iff.1 found with ⟨result, accepted, isOk⟩
  cases result with
  | error problem => cases isOk
  | ok other =>
      cases isOk
      exact ⟨tdvf, accepted, listed⟩

/-- Two images that differ in a byte outside every section. -/
theorem mrtdMessage_injective_fillers :
    ∃ left right,
      parse 1 (sampleFirmware 0) = some (.ok left) ∧
        parse 1 (sampleFirmware 1) = some (.ok right) ∧
          mrtdMessage left = mrtdMessage right ∧
            operations left = operations right := by
  rcases operations_sampleFirmware List.mem_cons_self with
    ⟨left, leftParsed, leftOperations⟩
  rcases
    operations_sampleFirmware
      (List.mem_cons_of_mem 0 List.mem_cons_self) with
    ⟨right, rightParsed, rightOperations⟩
  have equal : mrtdMessage left = mrtdMessage right := by
    rw [mrtdMessage, mrtdMessage, leftOperations, rightOperations]
  refine ⟨left, right, leftParsed, rightParsed, equal, ?_⟩
  refine (mrtdMessage_injective leftParsed rightParsed ?_ ?_ equal).1
  · rw [leftOperations]
    decide
  · rw [rightOperations]
    decide

end Confos.Tdx.Mrtd
