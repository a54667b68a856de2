import Mathlib.Logic.Function.Basic

/-!
# Parties that share cells

Parties take turns at changing cells.  Each claims some of them and relies on
what these hold.  If no cell is claimed twice and a party changes and claims
only what no other one claims, what each relies on holds after every turn.
-/

namespace Confos.Library.Ownership

/-- What a party claims, and what it relies on of the cells it claims. -/
structure Discipline (Local Cell Value : Type) where
  Claims : Local → Cell → Prop
  Holds : Local → (Cell → Value) → Prop
  holds_congr :
    ∀ {party cells others},
      (∀ cell, Claims party cell → cells cell = others cell) →
        Holds party cells → Holds party others

namespace Discipline

variable {Party Local Cell Value : Type}
  (discipline : Discipline Local Cell Value)

/-- No cell is claimed twice, and what the parties rely on holds. -/
structure Invariant (parties : Party → Local) (cells : Cell → Value) :
    Prop where
  exclusive :
    ∀ {one other cell}, one ≠ other →
      discipline.Claims (parties one) cell →
        ¬discipline.Claims (parties other) cell
  holds : ∀ party, discipline.Holds (parties party) cells

/-- No other party claims a cell. -/
def FreeFor (parties : Party → Local) (party : Party) (cell : Cell) : Prop :=
  ∀ other, other ≠ party → ¬discipline.Claims (parties other) cell

variable {discipline} {parties : Party → Local} {cells : Cell → Value}

theorem Invariant.freeFor
    (invariant : discipline.Invariant parties cells) {party : Party}
    {cell : Cell} (claims : discipline.Claims (parties party) cell) :
    discipline.FreeFor parties party cell :=
  fun _ different => invariant.exclusive (Ne.symm different) claims

/-- A turn of one party, on cells that are free for it. -/
theorem Invariant.update
    [DecidableEq Party] (invariant : discipline.Invariant parties cells)
    {party : Party} {next : Local} {after : Cell → Value}
    (claimsFree :
      ∀ cell, discipline.Claims next cell →
        discipline.FreeFor parties party cell)
    (changesFree :
      ∀ cell, cells cell ≠ after cell →
        discipline.FreeFor parties party cell)
    (holds : discipline.Holds next after) :
    discipline.Invariant (Function.update parties party next) after where
  exclusive := by
    intro one other cell different claims
    by_cases isOne : one = party
    · rw [isOne, Function.update_self] at claims
      rw [Function.update_of_ne (isOne ▸ Ne.symm different)]
      exact claimsFree cell claims other (isOne ▸ Ne.symm different)
    · rw [Function.update_of_ne isOne] at claims
      by_cases isOther : other = party
      · rw [isOther, Function.update_self]
        intro also
        exact claimsFree cell also one isOne claims
      · rw [Function.update_of_ne isOther]
        exact invariant.exclusive different claims
  holds := by
    intro other
    by_cases isParty : other = party
    · rw [isParty, Function.update_self]
      exact holds
    · rw [Function.update_of_ne isParty]
      refine discipline.holds_congr ?_ (invariant.holds other)
      intro cell claims
      by_contra changed
      exact changesFree cell changed other isParty claims

end Discipline

end Confos.Library.Ownership
