import Confos.Tdx.Rtmr0

/-!
# Measured UEFI variables

The message of a variable states how many UTF-16 code units its name has, and
the reader of the log turns the units into characters one by one.  A character
of two units gets lost there, so the reader undoes the writer on the names that
have none; the messages of two variables differ in any case.
-/

namespace Confos.Tdx.EfiVariables

open Confos.Library.ByteStrings
open Confos.Tdx.Ccel
open Confos.Tdx.Firmware
open Confos.Tdx.Rtmr
open Confos.Tdx.Rtmr0

/-! ## Code units -/

/-- A character of one code unit. -/
def IsBasic (char : Char) : Prop :=
  char.toNat < 0x10000

instance (char : Char) : Decidable (IsBasic char) :=
  inferInstanceAs (Decidable (_ < _))

theorem encodeUtf16_of_isBasic {char : Char} (basic : IsBasic char) :
    encodeUtf16 char = [UInt16.ofNat char.toNat] :=
  if_pos basic

/-- No character is half a pair. -/
theorem isScalar (char : Char) :
    char.toNat < 0xD800 ∨ 0xE000 ≤ char.toNat ∧ char.toNat < 0x110000 := by
  rcases char.valid with low | ⟨above, below⟩
  · exact Or.inl low
  · exact Or.inr ⟨above, below⟩

/-- A character of two code units, both of them halves. -/
theorem encodeUtf16_of_not_isBasic {char : Char} (notBasic : ¬ IsBasic char) :
    ∃ high low : Nat,
      high < 0x400 ∧ low < 0x400 ∧
        char.toNat = 0x10000 + high * 0x400 + low ∧
          encodeUtf16 char =
            [UInt16.ofNat (0xD800 + high), UInt16.ofNat (0xDC00 + low)] := by
  have large : 0x10000 ≤ char.toNat := not_lt.1 notBasic
  have bound : char.toNat < 0x110000 := by
    rcases isScalar char with low | ⟨-, below⟩
    · omega
    · exact below
  refine
    ⟨(char.toNat - 0x10000) / 0x400, (char.toNat - 0x10000) % 0x400, ?_, ?_, ?_,
      if_neg notBasic⟩
  · omega
  · exact Nat.mod_lt _ (by decide)
  · have parts := Nat.div_add_mod' (char.toNat - 0x10000) 0x400
    omega

theorem toNat_ofNat_of_lt {value : Nat} (small : value < 0x10000) :
    (UInt16.ofNat value).toNat = value := by
  rw [UInt16.toNat_ofNat']
  exact Nat.mod_eq_of_lt small

theorem charOfUnit_of_isBasic {char : Char} (basic : IsBasic char) :
    charOfUnit (UInt16.ofNat char.toNat) = some char := by
  have scalar : char.toNat < 0xD800 ∨ 0xE000 ≤ char.toNat :=
    (isScalar char).imp_right And.left
  rw [charOfUnit, toNat_ofNat_of_lt basic, if_pos scalar, Char.ofNat_toNat]

theorem charOfUnit_of_half {value : Nat}
    (low : 0xD800 ≤ value) (high : value < 0xE000) :
    charOfUnit (UInt16.ofNat value) = none := by
  rw [charOfUnit, toNat_ofNat_of_lt (by omega), if_neg (by omega)]

/-- The reader finds the characters of one code unit. -/
theorem filterMap_charOfUnit (text : List Char) :
    (text.flatMap encodeUtf16).filterMap charOfUnit =
      text.filter fun char => IsBasic char := by
  induction text with
  | nil => rfl
  | cons char text induction =>
      rw [List.flatMap_cons, List.filterMap_append, induction,
        List.filter_cons]
      by_cases basic : IsBasic char
      · rw [if_pos (decide_eq_true basic), encodeUtf16_of_isBasic basic,
          List.filterMap_cons_some (charOfUnit_of_isBasic basic),
          List.filterMap_nil, List.singleton_append]
      · rcases encodeUtf16_of_not_isBasic basic with
          ⟨high, low, highLt, lowLt, -, encoded⟩
        rw [if_neg (by simpa using basic), encoded,
          List.filterMap_cons_none (charOfUnit_of_half (by omega) (by omega)),
          List.filterMap_cons_none (charOfUnit_of_half (by omega) (by omega)),
          List.filterMap_nil, List.nil_append]

theorem ofNat_injOn {left right : Nat}
    (leftSmall : left < 0x10000) (rightSmall : right < 0x10000)
    (equal : UInt16.ofNat left = UInt16.ofNat right) : left = right := by
  have numbers := congrArg UInt16.toNat equal
  rwa [toNat_ofNat_of_lt leftSmall, toNat_ofNat_of_lt rightSmall] at numbers

/-- The first unit tells a character of one unit from one of two. -/
theorem encodeUtf16_ne
    {left right : Char} {leftRest rightRest : List UInt16}
    (basic : IsBasic left) (notBasic : ¬ IsBasic right) :
    encodeUtf16 left ++ leftRest ≠ encodeUtf16 right ++ rightRest := by
  rcases encodeUtf16_of_not_isBasic notBasic with
    ⟨high, low, highLt, -, -, encoded⟩
  rw [encodeUtf16_of_isBasic basic, encoded]
  intro equal
  have same :=
    ofNat_injOn basic (by omega) (List.head_eq_of_cons_eq equal)
  rcases isScalar left with below | ⟨above, -⟩
  · omega
  · omega

/-- No character is encoded by the start of another one's code. -/
theorem encodeUtf16_append_inj
    {left right : Char} {leftRest rightRest : List UInt16}
    (equal : encodeUtf16 left ++ leftRest = encodeUtf16 right ++ rightRest) :
    left = right ∧ leftRest = rightRest := by
  by_cases leftBasic : IsBasic left
  · by_cases rightBasic : IsBasic right
    · rw [encodeUtf16_of_isBasic leftBasic,
        encodeUtf16_of_isBasic rightBasic] at equal
      rcases List.cons.inj equal with ⟨units, rests⟩
      have same := ofNat_injOn leftBasic rightBasic units
      exact ⟨Char.toNat_inj.1 same, rests⟩
    · exact absurd equal (encodeUtf16_ne leftBasic rightBasic)
  · by_cases rightBasic : IsBasic right
    · exact absurd equal.symm (encodeUtf16_ne rightBasic leftBasic)
    · rcases encodeUtf16_of_not_isBasic leftBasic with
        ⟨leftHigh, leftLow, leftHighLt, leftLowLt, leftValue, leftEncoded⟩
      rcases encodeUtf16_of_not_isBasic rightBasic with
        ⟨rightHigh, rightLow, rightHighLt, rightLowLt, rightValue,
          rightEncoded⟩
      rw [leftEncoded, rightEncoded] at equal
      rcases List.cons.inj equal with ⟨highs, lowsRests⟩
      rcases List.cons.inj lowsRests with ⟨lows, rests⟩
      have sameHigh := ofNat_injOn (by omega) (by omega) highs
      have sameLow := ofNat_injOn (by omega) (by omega) lows
      refine ⟨Char.toNat_inj.1 ?_, rests⟩
      omega

theorem encodeUtf16_ne_nil (char : Char) : encodeUtf16 char ≠ [] := by
  rw [encodeUtf16]
  split
  · exact List.cons_ne_nil _ _
  · exact List.cons_ne_nil _ _

/-- The code units of a text tell its characters. -/
theorem flatMap_encodeUtf16_injective :
    Function.Injective fun text : List Char => text.flatMap encodeUtf16 := by
  intro left right equal
  dsimp only at equal
  induction left generalizing right with
  | nil =>
      cases right with
      | nil => rfl
      | cons char right =>
          rw [List.flatMap_nil, List.flatMap_cons] at equal
          have none := (List.append_eq_nil_iff.1 equal.symm).1
          exact absurd none (encodeUtf16_ne_nil char)
  | cons char left induction =>
      cases right with
      | nil =>
          rw [List.flatMap_nil, List.flatMap_cons] at equal
          have none := (List.append_eq_nil_iff.1 equal).1
          exact absurd none (encodeUtf16_ne_nil char)
      | cons other right =>
          rw [List.flatMap_cons, List.flatMap_cons] at equal
          rcases encodeUtf16_append_inj equal with ⟨rfl, rests⟩
          rw [induction rests]

/-! ## Units as bytes -/

def unitBytes (units : List UInt16) : Bytes :=
  units.flatMap fun unit => leBytes 2 unit.toNat

theorem length_unitBytes (units : List UInt16) :
    (unitBytes units).length = units.length * 2 := by
  induction units with
  | nil => rfl
  | cons unit units induction =>
      rw [unitBytes] at induction ⊢
      rw [List.flatMap_cons, List.length_append, induction, length_leBytes,
        List.length_cons]
      omega

theorem u16At_unitBytes_zero (unit : UInt16) (rest : Bytes) :
    u16At (leBytes 2 unit.toNat ++ rest) 0 = unit := by
  have front : slice (leBytes 2 unit.toNat ++ rest) 0 2 = leBytes 2 unit.toNat := by
    rw [slice, List.drop_zero]
    exact List.take_left' (length_leBytes 2 unit.toNat)
  rw [u16At, front, ofLeBytes_leBytes_of_lt unit.toNat_lt, UInt16.ofNat_toNat]

theorem u16At_unitBytes_succ (unit : UInt16) (rest : Bytes) (index : Nat) :
    u16At (leBytes 2 unit.toNat ++ rest) (2 * (index + 1)) =
      u16At rest (2 * index) := by
  have later : 2 * (index + 1) = (leBytes 2 unit.toNat).length + 2 * index := by
    rw [length_leBytes]
    omega
  rw [u16At, u16At, slice, slice, later, List.drop_length_add_append]

/-- The reader cuts the bytes of a name into its units. -/
theorem map_u16At_unitBytes (units : List UInt16) :
    ((List.range units.length).map fun index =>
        u16At (unitBytes units) (2 * index)) = units := by
  induction units with
  | nil => rfl
  | cons unit units induction =>
      have rest : unitBytes (unit :: units) =
          leBytes 2 unit.toNat ++ unitBytes units := List.flatMap_cons
      rw [List.length_cons, List.range_succ_eq_map, List.map_cons, List.map_map,
        rest, Nat.mul_zero, u16At_unitBytes_zero]
      refine congrArg (unit :: ·) ?_
      calc
        _ = (List.range units.length).map fun index =>
              u16At (unitBytes units) (2 * index) :=
            List.map_congr_left fun index _ =>
              u16At_unitBytes_succ unit (unitBytes units) index
        _ = units := induction

theorem unitBytes_injective : Function.Injective unitBytes := by
  intro left right equal
  have lengths := congrArg List.length equal
  rw [length_unitBytes, length_unitBytes] at lengths
  have same : left.length = right.length := by omega
  rw [← map_u16At_unitBytes left, ← map_u16At_unitBytes right, equal, same]

theorem decodeUtf16Le_unitBytes (units : List UInt16) :
    decodeUtf16Le (unitBytes units) =
      String.ofList (units.filterMap charOfUnit) := by
  have count : (unitBytes units).length / 2 = units.length := by
    rw [length_unitBytes]
    omega
  rw [decodeUtf16Le, count]
  nth_rewrite 3 [← map_u16At_unitBytes units]
  rw [List.filterMap_map]
  rfl

/-! ## The message of a variable -/

/-- A variable by the bytes that its message is made of. -/
structure Variable where
  guid : Block 16
  name : String
  value : Bytes
deriving DecidableEq

namespace Variable

def units (variableOf : Variable) : List UInt16 :=
  variableOf.name.toList.flatMap encodeUtf16

def message (variableOf : Variable) : Bytes :=
  variableOf.guid.bytes ++ leBytes 8 variableOf.units.length ++
    leBytes 8 variableOf.value.length ++ unitBytes variableOf.units ++
      variableOf.value

theorem length_message (variableOf : Variable) :
    variableOf.message.length =
      32 + variableOf.units.length * 2 + variableOf.value.length := by
  simp only [message, List.length_append, length_leBytes, length_unitBytes,
    Block.length_eq]

theorem readsAt_message (variableOf : Variable) :
    ReadsAt variableOf.message 0
      (variableOf.guid.bytes ++ (leBytes 8 variableOf.units.length ++
        (leBytes 8 variableOf.value.length ++
          (unitBytes variableOf.units ++ variableOf.value)))) := by
  have whole :
      variableOf.message =
        variableOf.guid.bytes ++ (leBytes 8 variableOf.units.length ++
          (leBytes 8 variableOf.value.length ++
            (unitBytes variableOf.units ++ variableOf.value))) := by
    simp only [message, List.append_assoc]
  rw [← whole]
  exact ReadsAt.of_le (Nat.zero_le _)

theorem u64At_of_readsAt
    {data rest : Bytes} {offset value : Nat} (small : value < 2 ^ 64)
    (reads : ReadsAt data offset (leBytes 8 value ++ rest)) :
    (u64At data offset).toNat = value := by
  rw [u64At, reads.slice_eq (length_leBytes 8 value),
    ofLeBytes_leBytes_of_lt small, UInt64.toNat_ofNat']
  exact Nat.mod_eq_of_lt small

/-- The reader takes the message apart again. -/
theorem parseUefiVariableData_message
    {variableOf : Variable} (small : variableOf.message.length < 2 ^ 64) :
    parseUefiVariableData variableOf.message =
      some (decodeUtf16Le (unitBytes variableOf.units), variableOf.value) := by
  have length := length_message variableOf
  have atNameLen :=
    (readsAt_message variableOf).advance variableOf.guid.length_eq
  have atDataLen := atNameLen.advance (length_leBytes 8 _)
  have atName := atDataLen.advance (length_leBytes 8 _)
  have atData := atName.advance (length_unitBytes _)
  have nameLen := u64At_of_readsAt (by omega) atNameLen
  have dataLen := u64At_of_readsAt (by omega) atDataLen
  rw [parseUefiVariableData, if_neg (by omega)]
  simp only [Nat.zero_add, Nat.reduceAdd] at nameLen dataLen atName atData
  rw [nameLen, dataLen, if_neg (by omega), Nat.add_sub_cancel_left,
    Nat.add_sub_cancel_left, atName.slice_eq (length_unitBytes _)]
  rw [← List.append_nil variableOf.value] at atData
  rw [atData.slice_eq rfl]

/-- A message tells its variable. -/
theorem eq_of_message_eq
    {left right : Variable} (small : left.message.length < 2 ^ 64)
    (equal : left.message = right.message) : left = right := by
  have leftLength := length_message left
  have rightLength := length_message right
  rw [equal] at leftLength small
  simp only [message, List.append_assoc] at equal
  rcases Block.append_inj equal with ⟨guids, equal⟩
  rcases List.append_inj equal (by simp) with ⟨nameLens, equal⟩
  rcases List.append_inj equal (by simp) with ⟨dataLens, equal⟩
  have nameLen : left.units.length = right.units.length :=
    leBytes_injOn (by omega) (by omega) nameLens
  have unitBytesEqual : unitBytes left.units = unitBytes right.units ∧
      left.value = right.value := by
    refine List.append_inj equal ?_
    rw [length_unitBytes, length_unitBytes, nameLen]
  have units : left.units = right.units := by
    rw [← map_u16At_unitBytes left.units, unitBytesEqual.1, nameLen,
      map_u16At_unitBytes]
  have names : left.name = right.name :=
    String.toList_injective (flatMap_encodeUtf16_injective units)
  cases left
  cases right
  cases guids
  cases names
  cases unitBytesEqual.2
  rfl

end Variable

/-! ## Round trips -/

/-- The message of a variable is read back, and is the message of no other. -/
def RoundTrips
    (vendorGuid varName : String) (varData : Option Bytes) : Prop :=
  ∀ message,
    efiVariableMessage vendorGuid varName varData = .ok message →
      parseUefiVariableData message = some (varName, varData.getD []) ∧
        ∀ (otherGuid otherName : String) (otherData : Option Bytes)
          (guid : Block 16),
          encodeGuid otherGuid = .ok guid.bytes →
            efiVariableMessage otherGuid otherName otherData = .ok message →
              encodeGuid otherGuid = encodeGuid vendorGuid ∧
                otherName = varName ∧ otherData.getD [] = varData.getD []

theorem efiVariableMessage_eq
    {vendorGuid : String} {guid : Block 16}
    (accepted : encodeGuid vendorGuid = .ok guid.bytes)
    (varName : String) (varData : Option Bytes) :
    efiVariableMessage vendorGuid varName varData =
      .ok
        ({ guid, name := varName, value := varData.getD [] } :
          Variable).message := by
  rw [efiVariableMessage, accepted]
  rfl

theorem decodeUtf16Le_eq_iff {name : String} :
    decodeUtf16Le (unitBytes (name.toList.flatMap encodeUtf16)) = name ↔
      ∀ char ∈ name.toList, IsBasic char := by
  rw [decodeUtf16Le_unitBytes, filterMap_charOfUnit]
  constructor
  · intro same char member
    have texts := congrArg String.toList same
    rw [String.toList_ofList, List.filter_eq_self] at texts
    exact of_decide_eq_true (texts char member)
  · intro basic
    rw [List.filter_eq_self.2 fun char member =>
      decide_eq_true (basic char member), String.ofList_toList]

/--
Reading a variable undoes measuring it exactly if no character of its name
takes two code units.
-/
theorem roundTrips_iff
    {vendorGuid varName : String} {varData : Option Bytes} {guid : Block 16}
    (accepted : encodeGuid vendorGuid = .ok guid.bytes)
    (small :
      32 + (varName.toList.flatMap encodeUtf16).length * 2 +
        (varData.getD []).length < 2 ^ 64) :
    RoundTrips vendorGuid varName varData ↔
      ∀ char ∈ varName.toList, IsBasic char := by
  have short :
      ({ guid, name := varName, value := varData.getD [] } :
        Variable).message.length < 2 ^ 64 := by
    rw [Variable.length_message]
    exact small
  have parsed := Variable.parseUefiVariableData_message short
  constructor
  · intro roundTrips
    have read :=
      (roundTrips _ (efiVariableMessage_eq accepted varName varData)).1
    rw [parsed] at read
    exact decodeUtf16Le_eq_iff.1 (Prod.mk.inj (Option.some.inj read)).1
  · intro basic message measured
    rw [efiVariableMessage_eq accepted] at measured
    cases measured
    constructor
    · rw [parsed]
      exact congrArg (fun name => some (name, _)) (decodeUtf16Le_eq_iff.2 basic)
    · intro otherGuid otherName otherData block otherAccepted same
      rw [efiVariableMessage_eq otherAccepted] at same
      have equal :=
        Variable.eq_of_message_eq short (Except.ok.inj same).symm
      rcases (Variable.mk.injEq ..).mp equal with ⟨rfl, rfl, values⟩
      exact ⟨otherAccepted.trans accepted.symm, rfl, values.symm⟩

/-- A GUID of zeros. -/
def sampleGuid : String := "00000000-0000-0000-0000-000000000000"

theorem roundTrips_test :
    RoundTrips sampleGuid "Test" (some [1, 2, 3]) := by
  have basic :
      ("Test".toList.all fun char => decide (IsBasic char)) = true := by
    decide
  apply (@roundTrips_iff _ _ _ (Block.zero 16) rfl (by decide)).2
  intro char member
  exact of_decide_eq_true (List.all_eq_true.1 basic char member)

/-- A name that ends in a character of two code units. -/
def astralName : String := String.ofList ['A', Char.ofNat 0x1F600]

/-- The name that is read back has lost its last character. -/
theorem not_roundTrips_astralName :
    (efiVariableMessage sampleGuid astralName none).toOption.bind
        parseUefiVariableData = some ("A", []) ∧
      ¬ RoundTrips sampleGuid astralName none := by
  have read :
      (efiVariableMessage sampleGuid astralName none).toOption.bind
        parseUefiVariableData = some ("A", []) := by
    decide +kernel
  refine ⟨read, fun roundTrips => ?_⟩
  cases measured : efiVariableMessage sampleGuid astralName none with
  | error problem =>
      rw [measured] at read
      cases read
  | ok message =>
      rw [measured] at read
      have names := (roundTrips message measured).1.symm.trans read
      exact absurd (Prod.mk.inj (Option.some.inj names)).1 (by decide)

end Confos.Tdx.EfiVariables
