import Confos.Library.Fallible
import Mathlib.Logic.Function.Basic

/-!
# Loops over independent cells

A loop that changes one cell of its state for each key, in a way that does
nothing more when it is repeated.  What it makes of the cells, and whether it
succeeds at all, depends on the set of the keys alone: not on their order, not
on repetitions, and not on how they are split among several loops.
-/

namespace Confos.Library.Cells

open Confos.Library.Fallible

universe u v w

variable {Key : Type u} [DecidableEq Key] {Cell : Type v} {ε : Type w}

/-- Change the cell of one key. -/
def updateAt
    (step : Key → Cell → Except ε Cell) (cells : Key → Cell) (key : Key) :
    Except ε (Key → Cell) :=
  (step key (cells key)).map (Function.update cells key)

/-- A change that does nothing more when it is repeated. -/
def Idempotent (step : Key → Cell → Except ε Cell) : Prop :=
  ∀ key cell next, step key cell = .ok next → step key next = .ok next

variable {step : Key → Cell → Except ε Cell} {keys : List Key}
    {cells after : Key → Cell}

theorem updateAt_eq_ok {key : Key} :
    updateAt step cells key = .ok after ↔
      step key (cells key) = .ok (after key) ∧
        ∀ other, other ≠ key → after other = cells other := by
  rw [updateAt]
  constructor
  · intro updated
    cases stepped : step key (cells key) with
    | error problem =>
        rw [stepped] at updated
        cases updated
    | ok next =>
        rw [stepped] at updated
        cases updated
        rw [Function.update_self]
        exact ⟨rfl, fun other different => Function.update_of_ne different ..⟩
  · rintro ⟨stepped, others⟩
    rw [stepped]
    apply congrArg Except.ok
    rw [Function.update_eq_iff]
    exact ⟨rfl, fun other different => (others other different).symm⟩

/-- The loop changes the cells of its keys once each. -/
theorem foldlM_updateAt_eq_ok (idempotent : Idempotent step) :
    keys.foldlM (updateAt step) cells = .ok after ↔
      (∀ key ∈ keys, step key (cells key) = .ok (after key)) ∧
        ∀ key, key ∉ keys → after key = cells key := by
  induction keys generalizing cells with
  | nil =>
      constructor
      · intro unchanged
        cases unchanged
        exact ⟨by simp, fun _ _ => rfl⟩
      · rintro ⟨-, unchanged⟩
        rw [List.foldlM_nil, funext fun key => unchanged key (by simp)]
        rfl
  | cons first keys induction =>
      rw [List.foldlM_cons, bind_eq_ok]
      constructor
      · rintro ⟨middle, updated, looped⟩
        rcases updateAt_eq_ok.1 updated with ⟨stepped, others⟩
        rcases induction.1 looped with ⟨changed, unchanged⟩
        have atFirst : step first (cells first) = .ok (after first) := by
          by_cases again : first ∈ keys
          · have once := idempotent _ _ _ stepped
            have same := once.symm.trans (changed first again)
            rw [stepped, Except.ok.inj same]
          · rw [stepped, unchanged first again]
        constructor
        · intro key member
          rcases List.mem_cons.1 member with rfl | later
          · exact atFirst
          · by_cases same : key = first
            · rw [same]
              exact atFirst
            · rw [← others key same]
              exact changed key later
        · intro key absent
          rw [List.mem_cons, not_or] at absent
          rw [unchanged key absent.2, others key absent.1]
      · rintro ⟨changed, unchanged⟩
        have stepped := changed first List.mem_cons_self
        refine ⟨Function.update cells first (after first), ?_, ?_⟩
        · rw [updateAt, stepped]
          rfl
        · apply induction.2
          constructor
          · intro key later
            by_cases same : key = first
            · rw [same, Function.update_self]
              exact idempotent _ _ _ stepped
            · rw [Function.update_of_ne same]
              exact changed key (List.mem_cons_of_mem _ later)
          · intro key absent
            by_cases same : key = first
            · rw [same, Function.update_self]
            · rw [Function.update_of_ne same]
              apply unchanged
              rw [List.mem_cons, not_or]
              exact ⟨same, absent⟩

/-- The loop succeeds where each change does. -/
theorem exists_foldlM_updateAt
    (idempotent : Idempotent step)
    (each : ∀ key ∈ keys, ∃ cell, step key (cells key) = .ok cell) :
    ∃ after, keys.foldlM (updateAt step) cells = .ok after := by
  have changed :
      ∀ key, ∃ cell,
        (key ∈ keys → step key (cells key) = .ok cell) ∧
          (key ∉ keys → cell = cells key) := by
    intro key
    by_cases member : key ∈ keys
    · rcases each key member with ⟨cell, stepped⟩
      exact ⟨cell, fun _ => stepped, fun absent => absurd member absent⟩
    · exact ⟨cells key, fun present => absurd present member, fun _ => rfl⟩
  choose after stepped unchanged using changed
  exact
    ⟨after, (foldlM_updateAt_eq_ok idempotent).2 ⟨stepped, unchanged⟩⟩

/-- Loops over the same keys do the same. -/
theorem foldlM_updateAt_of_same_keys
    (idempotent : Idempotent step) {others : List Key}
    (same : ∀ key, key ∈ others ↔ key ∈ keys)
    (looped : keys.foldlM (updateAt step) cells = .ok after) :
    others.foldlM (updateAt step) cells = .ok after := by
  rcases (foldlM_updateAt_eq_ok idempotent).1 looped with
    ⟨changed, unchanged⟩
  apply (foldlM_updateAt_eq_ok idempotent).2
  constructor
  · intro key member
    exact changed key ((same key).1 member)
  · intro key absent
    exact unchanged key fun member => absent ((same key).2 member)

/-- A loop that is run again changes nothing. -/
theorem foldlM_updateAt_again
    (idempotent : Idempotent step)
    (looped : keys.foldlM (updateAt step) cells = .ok after) :
    keys.foldlM (updateAt step) after = .ok after := by
  apply (foldlM_updateAt_eq_ok idempotent).2
  constructor
  · intro key member
    exact
      idempotent _ _ _
        (((foldlM_updateAt_eq_ok idempotent).1 looped).1 key member)
  · intro key _
    rfl

end Confos.Library.Cells
