import Mathlib.Logic.Basic

/-!
# Cells that parties replace and check

Any number of parties replace what a cell holds, at any time, and each checks
the cell again before it goes on; one whose check fails breaks the run.  What
was good once is good again when no party is left that replaces it, whoever
was the last to write.
-/

namespace Confos.Library.Replacement

variable {Party Cell Value : Type}

/-- A settled cell is good, or it is being replaced, or the run is broken. -/
def Kept (good : Cell → Value → Prop) (settled : Cell → Prop)
    (cells : Cell → Value) (replaced : Party → Option Cell)
    (broken : Prop) : Prop :=
  ∀ cell, settled cell →
    good cell (cells cell) ∨ (∃ party, replaced party = some cell) ∨ broken

section

variable {good goodAfter : Cell → Value → Prop}
  {settled settledAfter : Cell → Prop} {cells cellsAfter : Cell → Value}
  {replaced replacedAfter : Party → Option Cell} {broken brokenAfter : Prop}

/-- Nothing is settled anew, and nothing is given up. -/
theorem Kept.mono
    (kept : Kept good settled cells replaced broken)
    (stays : ∀ cell, settledAfter cell → settled cell)
    (holds :
      ∀ cell, settledAfter cell → good cell (cells cell) →
        goodAfter cell (cellsAfter cell))
    (replacing :
      ∀ party cell, replaced party = some cell →
        replacedAfter party = some cell ∨ brokenAfter)
    (worse : broken → brokenAfter) :
    Kept goodAfter settledAfter cellsAfter replacedAfter brokenAfter := by
  intro cell isSettled
  rcases kept cell (stays cell isSettled) with
    isGood | ⟨party, isReplaced⟩ | isBroken
  · exact Or.inl (holds cell isSettled isGood)
  · rcases replacing party cell isReplaced with still | isBroken
    · exact Or.inr (Or.inl ⟨party, still⟩)
    · exact Or.inr (Or.inr isBroken)
  · exact Or.inr (Or.inr (worse isBroken))

/-- One party turns to a cell: it replaces it, or it has found it good. -/
theorem Kept.turn
    (kept : Kept good settled cells replaced broken) (party : Party)
    (cell : Cell)
    (stays :
      ∀ other, settledAfter other → settled other ∨ other = cell)
    (others :
      ∀ other, other ≠ cell → good other (cells other) →
        goodAfter other (cellsAfter other))
    (parties :
      ∀ other, other ≠ party → replacedAfter other = replaced other)
    (own : ∀ other, replaced party = some other → other = cell)
    (worse : broken → brokenAfter)
    (now :
      goodAfter cell (cellsAfter cell) ∨ replacedAfter party = some cell) :
    Kept goodAfter settledAfter cellsAfter replacedAfter brokenAfter := by
  intro other isSettled
  by_cases same : other = cell
  · rw [same]
    rcases now with isGood | isReplaced
    · exact Or.inl isGood
    · exact Or.inr (Or.inl ⟨party, isReplaced⟩)
  · rcases stays other isSettled with earlier | impossible
    · rcases kept other earlier with
        isGood | ⟨replacer, isReplaced⟩ | isBroken
      · exact Or.inl (others other same isGood)
      · have different : replacer ≠ party := by
          rintro rfl
          exact same (own other isReplaced)
        refine Or.inr (Or.inl ⟨replacer, ?_⟩)
        rw [parties replacer different]
        exact isReplaced
      · exact Or.inr (Or.inr (worse isBroken))
    · exact absurd impossible same

/-- At the end whatever is settled is good. -/
theorem Kept.good_of_idle
    (kept : Kept good settled cells replaced broken)
    (idle : ∀ party cell, replaced party ≠ some cell) (unbroken : ¬ broken)
    {cell : Cell} (isSettled : settled cell) : good cell (cells cell) := by
  rcases kept cell isSettled with isGood | ⟨party, isReplaced⟩ | isBroken
  · exact isGood
  · exact absurd isReplaced (idle party cell)
  · exact absurd isBroken unbroken

end

end Confos.Library.Replacement
