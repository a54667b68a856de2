import Mathlib.Data.List.Basic

/-!
# Self-delimiting codes

An encoding of items as words whose ends can be told without a separator.  A
concatenation of such words is read back one word at a time, so it tells the
whole sequence of items, whatever the words contain.
-/

namespace Confos.Library.Codes

universe u v

variable {Item : Type u} {Symbol : Type v}

/-- In front of anything, a word tells its item and where it ends. -/
def SelfDelimitingOn (valid : Item → Prop) (encode : Item → List Symbol) :
    Prop :=
  ∀ left right leftRest rightRest,
    valid left → valid right →
      encode left ++ leftRest = encode right ++ rightRest →
        left = right ∧ leftRest = rightRest

variable {valid : Item → Prop} {encode : Item → List Symbol}

/-- A sequence of words tells its items. -/
theorem SelfDelimitingOn.flatMap_injOn
    (delimited : SelfDelimitingOn valid encode)
    (nonempty : ∀ item, encode item ≠ [])
    {left right : List Item}
    (leftValid : ∀ item ∈ left, valid item)
    (rightValid : ∀ item ∈ right, valid item)
    (equal : left.flatMap encode = right.flatMap encode) :
    left = right := by
  induction left generalizing right with
  | nil =>
      cases right with
      | nil => rfl
      | cons item right =>
          rw [List.flatMap_nil, List.flatMap_cons] at equal
          exact
            (nonempty item (List.append_eq_nil_iff.1 equal.symm).1).elim
  | cons item left induction =>
      cases right with
      | nil =>
          rw [List.flatMap_nil, List.flatMap_cons] at equal
          exact (nonempty item (List.append_eq_nil_iff.1 equal).1).elim
      | cons other right =>
          rw [List.flatMap_cons, List.flatMap_cons] at equal
          rcases
            delimited item other _ _ (leftValid item List.mem_cons_self)
              (rightValid other List.mem_cons_self) equal with
            ⟨rfl, rest⟩
          rw [induction
            (fun later member => leftValid later (List.mem_cons_of_mem _ member))
            (fun later member =>
              rightValid later (List.mem_cons_of_mem _ member))
            rest]

end Confos.Library.Codes
