import Confos.Tdx.Firmware
import Mathlib.Logic.Relation

/-!
# The walk over the footer table

The walk goes down by the length each entry states of itself, and refuses only
a length that leaves the table.  An entry of length zero leaves it where it is.
So parsing ends on an image unless a chain of entries from the table's end
leads to such an entry.
-/

namespace Confos.Tdx.TableWalk

open Confos.Library.ByteStrings
open Confos.Library.Fallible
open Confos.Tdx.Ccel
open Confos.Tdx.Firmware

/-! ## Entries -/

section

variable (encodedGuid tables : Bytes)

/-- The length the entry below an offset states. -/
def entryLength (offset : Nat) : Nat :=
  (u16At tables (offset - 18)).toNat

def entryGuid (offset : Nat) : Bytes :=
  slice tables (offset - 16) 16

/-- An entry inside the table that is not the one sought. -/
structure IsOther (offset : Nat) : Prop where
  room : 18 ≤ offset
  inside : entryLength tables offset ≤ offset - 18
  other : entryGuid tables offset ≠ encodedGuid

/-- Below an offset stands another entry than the one sought, of length zero. -/
structure IsStuck (offset : Nat) : Prop where
  room : 18 ≤ offset
  empty : entryLength tables offset = 0
  other : entryGuid tables offset ≠ encodedGuid

/-- Entries that are not the one sought chain down from the table's end. -/
inductive Chained : Nat → Prop
  | start : Chained tables.length
  | entry {offset : Nat}
      (above : Chained offset)
      (isOther : IsOther encodedGuid tables offset) :
      Chained (offset - entryLength tables offset)

/-- One turn of the walk goes on at another offset. -/
def Steps (offset next : Nat) : Prop :=
  tableTurn encodedGuid tables offset = .ok (.next next)

/-- The offsets the walk comes to. -/
def Visits (offset : Nat) : Prop :=
  Relation.ReflTransGen (Steps encodedGuid tables) tables.length offset

end

section

variable {encodedGuid tables : Bytes} {offset next turns : Nat}

/-- The walk goes on below an entry that is not the one sought. -/
theorem steps_iff :
    Steps encodedGuid tables offset next ↔
      IsOther encodedGuid tables offset ∧
        next = offset - entryLength tables offset := by
  rw [Steps, tableTurn]
  split
  · next short =>
      constructor
      · intro ended
        cases ended
      · rintro ⟨isOther, -⟩
        exact absurd isOther.room (not_le.2 short)
  · next room =>
      dsimp only
      split
      · next outside =>
          constructor
          · intro refused
            cases refused
          · rintro ⟨isOther, -⟩
            exact absurd isOther.inside (not_le.2 outside)
      · next inside =>
          split
          · next same =>
              constructor
              · intro found
                cases found
              · rintro ⟨isOther, -⟩
                exact absurd same isOther.other
          · next other =>
              constructor
              · intro goesOn
                cases goesOn
                exact ⟨⟨not_lt.1 room, not_lt.1 inside, other⟩, rfl⟩
              · rintro ⟨-, rfl⟩
                rfl

theorem visits_iff_chained :
    Visits encodedGuid tables offset ↔ Chained encodedGuid tables offset := by
  constructor
  · intro visits
    induction visits with
    | refl => exact .start
    | tail _ step induction =>
        rcases steps_iff.1 step with ⟨isOther, rfl⟩
        exact .entry induction isOther
  · intro chained
    induction chained with
    | start => exact .refl
    | entry _ isOther induction =>
        exact induction.tail (steps_iff.2 ⟨isOther, rfl⟩)

theorem Steps.le (step : Steps encodedGuid tables offset next) :
    next ≤ offset := by
  rcases steps_iff.1 step with ⟨-, rfl⟩
  exact Nat.sub_le _ _

/-- The walk stays where it is at an entry of length zero. -/
theorem steps_self_iff :
    Steps encodedGuid tables offset offset ↔
      IsStuck encodedGuid tables offset := by
  rw [steps_iff]
  constructor
  · rintro ⟨isOther, same⟩
    have room := isOther.room
    have inside := isOther.inside
    exact ⟨room, by omega, isOther.other⟩
  · intro isStuck
    have empty := isStuck.empty
    exact ⟨⟨isStuck.room, by omega, isStuck.other⟩, by omega⟩

/-- An offset the walk comes back to is one it never leaves. -/
theorem isStuck_of_revisit
    (revisit :
      Relation.TransGen (Steps encodedGuid tables) offset offset) :
    IsStuck encodedGuid tables offset := by
  rcases Relation.TransGen.head'_iff.1 revisit with ⟨next, step, back⟩
  have returns : offset ≤ next := by
    have descends :
        ∀ {first last}, Relation.ReflTransGen (Steps encodedGuid tables)
          first last → last ≤ first := by
      intro first last path
      induction path with
      | refl => exact le_rfl
      | tail _ later induction => exact later.le.trans induction
    exact descends back
  rw [Nat.le_antisymm step.le returns] at step
  exact steps_self_iff.1 step

/-! ## Turns -/

theorem walkTables_of_steps (step : Steps encodedGuid tables offset next) :
    walkTables encodedGuid tables (turns + 1) offset =
      walkTables encodedGuid tables turns next := by
  rw [walkTables, show tableTurn encodedGuid tables offset = _ from step]

/-- A walk that ends, ends from every offset it comes to. -/
theorem walkTables_ends_of_visits
    (visits : Visits encodedGuid tables offset)
    (ends :
      ∃ turns, walkTables encodedGuid tables turns tables.length ≠ none) :
    ∃ turns, walkTables encodedGuid tables turns offset ≠ none := by
  induction visits with
  | refl => exact ends
  | tail _ step induction =>
      rcases induction with ⟨turns, ended⟩
      cases turns with
      | zero => exact absurd rfl ended
      | succ turns =>
          rw [walkTables_of_steps step] at ended
          exact ⟨turns, ended⟩

/-- At an entry of length zero no number of turns is enough. -/
theorem walkTables_of_isStuck
    (isStuck : IsStuck encodedGuid tables offset) (turns : Nat) :
    walkTables encodedGuid tables turns offset = none := by
  induction turns with
  | zero => rfl
  | succ turns induction =>
      rw [walkTables_of_steps (steps_self_iff.2 isStuck), induction]

/-- Without such an entry each turn goes down, so an offset's turns suffice. -/
theorem walkTables_ends_of_not_isStuck
    (noneStuck :
      ∀ later, Chained encodedGuid tables later →
        ¬ IsStuck encodedGuid tables later)
    (chained : Chained encodedGuid tables offset)
    (enough : offset < turns) :
    walkTables encodedGuid tables turns offset ≠ none := by
  induction turns generalizing offset with
  | zero => exact absurd enough (Nat.not_lt_zero _)
  | succ turns induction =>
      rw [walkTables]
      cases turn : tableTurn encodedGuid tables offset with
      | error problem => exact Option.some_ne_none _
      | ok outcome =>
          cases outcome with
          | ended => exact Option.some_ne_none _
          | found data => exact Option.some_ne_none _
          | next later =>
              have step : Steps encodedGuid tables offset later := turn
              have moved : later ≠ offset := by
                rintro rfl
                exact noneStuck later chained (steps_self_iff.1 step)
              have below : later < offset := lt_of_le_of_ne step.le moved
              rcases steps_iff.1 step with ⟨isOther, rfl⟩
              exact induction (chained.entry isOther) (by omega)

end

/-! ## Parsing -/

/-- What the walk over an image's table goes through. -/
structure HasTable (fw encodedGuid tables : Bytes) : Prop where
  footer : footerTables fw = .ok tables
  guid : encodeGuid tdxMetadataOffsetGuid = .ok encodedGuid

/-- Parsing returns, and its walk comes to no offset twice. -/
structure ParseEnds (fw : Bytes) : Prop where
  returns : ∃ turns result, parse turns fw = some result
  advances :
    ∀ encodedGuid tables, HasTable fw encodedGuid tables →
      ∀ offset, Visits encodedGuid tables offset →
        ¬ Relation.TransGen (Steps encodedGuid tables) offset offset

section

variable {fw encodedGuid tables : Bytes} {turns : Nat}

theorem parse_of_hasTable (hasTable : HasTable fw encodedGuid tables) :
    parse turns fw =
      (walkTables encodedGuid tables turns tables.length).map fun walked =>
        walked >>= parseFound fw := by
  rw [parse, hasTable.footer, hasTable.guid]

/-- An image whose footer is refused has no walk. -/
theorem exists_parse_of_no_table
    (noTable : ∀ encodedGuid tables, ¬ HasTable fw encodedGuid tables)
    (turns : Nat) :
    ∃ result, parse turns fw = some result := by
  rw [parse]
  cases footer : footerTables fw with
  | error problem => exact ⟨_, rfl⟩
  | ok tables =>
      cases guid : encodeGuid tdxMetadataOffsetGuid with
      | error problem => exact ⟨_, rfl⟩
      | ok encodedGuid =>
          exact absurd ⟨footer, guid⟩ (noTable encodedGuid tables)

end

/--
Parsing ends exactly on the images where no chain of entries from the end of
the table leads to another entry of length zero.
-/
theorem parseEnds_iff (fw : Bytes) :
    ParseEnds fw ↔
      ∀ encodedGuid tables, HasTable fw encodedGuid tables →
        ∀ offset, Chained encodedGuid tables offset →
          ¬ IsStuck encodedGuid tables offset := by
  constructor
  · intro ends encodedGuid tables hasTable offset chained isStuck
    have visits := visits_iff_chained.2 chained
    exact
      ends.advances encodedGuid tables hasTable offset visits
        (.single (steps_self_iff.2 isStuck))
  · intro noneStuck
    refine ⟨?_, ?_⟩
    · by_cases hasTable : ∃ encodedGuid tables, HasTable fw encodedGuid tables
      · rcases hasTable with ⟨encodedGuid, tables, hasTable⟩
        have walked :=
          walkTables_ends_of_not_isStuck
            (noneStuck encodedGuid tables hasTable) .start
            (Nat.lt_succ_self tables.length)
        rcases Option.ne_none_iff_exists'.1 walked with ⟨result, ended⟩
        refine ⟨tables.length + 1, result >>= parseFound fw, ?_⟩
        rw [parse_of_hasTable hasTable, ended]
        rfl
      · refine ⟨0, exists_parse_of_no_table ?_ 0⟩
        intro encodedGuid tables found
        exact hasTable ⟨encodedGuid, tables, found⟩
    · intro encodedGuid tables hasTable offset visits revisit
      exact
        noneStuck encodedGuid tables hasTable offset
          (visits_iff_chained.1 visits) (isStuck_of_revisit revisit)

/-- An image whose table leads to an entry of length zero is never parsed. -/
theorem parse_of_isStuck
    {fw encodedGuid tables : Bytes} {offset : Nat}
    (hasTable : HasTable fw encodedGuid tables)
    (chained : Chained encodedGuid tables offset)
    (isStuck : IsStuck encodedGuid tables offset) (turns : Nat) :
    parse turns fw = none := by
  rw [parse_of_hasTable hasTable, Option.map_eq_none_iff]
  by_contra ended
  rcases
    walkTables_ends_of_visits (visits_iff_chained.2 chained)
      ⟨turns, ended⟩ with
    ⟨more, endsThere⟩
  exact endsThere (walkTables_of_isStuck isStuck more)

/-! ## An image that is never parsed -/

/-- A table of 18 zero bytes: one entry of length zero with a GUID of zeros. -/
def stuckFirmware : Bytes :=
  List.replicate 18 0 ++ leBytes 2 18 ++
    [0xde, 0x82, 0xb5, 0x96, 0xb2, 0x1f, 0xf7, 0x45, 0xba, 0xea, 0xa3, 0x66,
      0xc5, 0x5a, 0x08, 0x2d] ++
    List.replicate 32 0

theorem hasTable_stuckFirmware :
    ∃ encodedGuid,
      HasTable stuckFirmware encodedGuid (List.replicate 18 0) ∧
        encodedGuid ≠ List.replicate 16 0 := by
  have footer : footerTables stuckFirmware = .ok (List.replicate 18 0) := by
    decide +kernel
  have guid :
      ∃ encodedGuid, encodeGuid tdxMetadataOffsetGuid = .ok encodedGuid ∧
        encodedGuid ≠ List.replicate 16 0 := by
    refine
      ⟨[0x35, 0x65, 0x7a, 0xe4, 0x4a, 0x98, 0x98, 0x47, 0x86, 0x5e, 0x46,
          0x85, 0xa7, 0xbf, 0x8e, 0xc2], ?_, by decide⟩
    decide +kernel
  rcases guid with ⟨encodedGuid, encoded, nonzero⟩
  exact ⟨encodedGuid, ⟨footer, encoded⟩, nonzero⟩

/-- Sixty-eight bytes on which the walk never ends. -/
theorem not_exists_parse_stuckFirmware :
    ¬ ∃ turns result, parse turns stuckFirmware = some result := by
  rcases hasTable_stuckFirmware with ⟨encodedGuid, hasTable, nonzero⟩
  have isStuck :
      IsStuck encodedGuid (List.replicate 18 0)
        (List.replicate 18 (0 : UInt8)).length :=
    ⟨by decide, by decide, nonzero.symm⟩
  rintro ⟨turns, result, parsed⟩
  rw [parse_of_isStuck hasTable .start isStuck turns] at parsed
  cases parsed

end Confos.Tdx.TableWalk
