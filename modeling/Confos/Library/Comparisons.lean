import Mathlib.Data.List.Basic

/-!
# Comparisons

Lists are compared item by item, the shorter one as if a filler stood behind
it.  That is a lexicographic comparison of lists of one length, so it is as
good an order as the comparison of the items is.
-/

namespace Confos.Library.Comparisons

open Std

universe u

section

variable {α : Type u} (cmp : α → α → Ordering) (filler : α)

/-! ## Padded lists -/

/-- The first difference of fillers from the items of a list. -/
def compareFiller : List α → Ordering
  | [] => .eq
  | right :: rights => (cmp filler right).then (compareFiller rights)

/-- The first difference of two lists with fillers behind each. -/
def comparePadded : List α → List α → Ordering
  | [], rights => compareFiller cmp filler rights
  | left :: lefts, [] => (cmp left filler).then (comparePadded lefts [])
  | left :: lefts, right :: rights =>
      (cmp left right).then (comparePadded lefts rights)

/-- A list of `length` items, filled up at its end. -/
def padTo (length : Nat) (items : List α) : List α :=
  items ++ List.replicate (length - items.length) filler

variable {cmp filler}

theorem comparePadded_nil_cons (right : α) (rights : List α) :
    comparePadded cmp filler [] (right :: rights) =
      (cmp filler right).then (comparePadded cmp filler [] rights) :=
  rfl

theorem padTo_nil (length : Nat) :
    padTo filler (length + 1) [] = filler :: padTo filler length [] := by
  rw [padTo, padTo, List.nil_append, List.nil_append]
  rfl

theorem padTo_cons (length : Nat) (item : α) (items : List α) :
    padTo filler (length + 1) (item :: items) =
      item :: padTo filler length items := by
  rw [padTo, padTo, List.length_cons, Nat.add_sub_add_right, List.cons_append]

/-- Padded lists are compared like lists of one length. -/
theorem comparePadded_eq_compareLex
    [OrientedCmp cmp] {length : Nat} {lefts rights : List α}
    (leftFits : lefts.length ≤ length) (rightFits : rights.length ≤ length) :
    comparePadded cmp filler lefts rights =
      List.compareLex cmp (padTo filler length lefts)
        (padTo filler length rights) := by
  induction length generalizing lefts rights with
  | zero =>
      rw [List.eq_nil_of_length_eq_zero (Nat.le_zero.1 leftFits),
        List.eq_nil_of_length_eq_zero (Nat.le_zero.1 rightFits)]
      exact (@ReflCmp.compare_self _ (List.compareLex cmp) _ _).symm
  | succ length induction =>
      cases lefts with
      | nil =>
          cases rights with
          | nil =>
              exact (@ReflCmp.compare_self _ (List.compareLex cmp) _ _).symm
          | cons right rights =>
              rw [comparePadded_nil_cons, padTo_nil, padTo_cons,
                List.compareLex_cons_cons,
                induction (Nat.zero_le _) (Nat.le_of_succ_le_succ rightFits)]
      | cons left lefts =>
          cases rights with
          | nil =>
              rw [comparePadded, padTo_nil, padTo_cons,
                List.compareLex_cons_cons,
                induction (Nat.le_of_succ_le_succ leftFits) (Nat.zero_le _)]
          | cons right rights =>
              rw [comparePadded, padTo_cons, padTo_cons,
                List.compareLex_cons_cons,
                induction (Nat.le_of_succ_le_succ leftFits)
                  (Nat.le_of_succ_le_succ rightFits)]

instance [OrientedCmp cmp] : OrientedCmp (comparePadded cmp filler) where
  eq_swap {lefts rights} := by
    rw [comparePadded_eq_compareLex (Nat.le_max_left lefts.length rights.length)
        (Nat.le_max_right _ _),
      comparePadded_eq_compareLex (Nat.le_max_right lefts.length rights.length)
        (Nat.le_max_left _ _)]
    exact OrientedCmp.eq_swap

instance [TransCmp cmp] : TransCmp (comparePadded cmp filler) where
  isLE_trans {first second third} firstLE secondLE := by
    have firstFits :
        first.length ≤ first.length + second.length + third.length := by
      omega
    have secondFits :
        second.length ≤ first.length + second.length + third.length := by
      omega
    have thirdFits :
        third.length ≤ first.length + second.length + third.length :=
      Nat.le_add_left _ _
    rw [comparePadded_eq_compareLex firstFits secondFits] at firstLE
    rw [comparePadded_eq_compareLex secondFits thirdFits] at secondLE
    rw [comparePadded_eq_compareLex firstFits thirdFits]
    exact TransCmp.isLE_trans firstLE secondLE

/-- An item like the filler is no difference from a list that has ended. -/
theorem comparePadded_singleton
    [OrientedCmp cmp] {item : α}
    (same : ∀ right, cmp item right = cmp filler right) (rights : List α) :
    comparePadded cmp filler [item] rights =
      comparePadded cmp filler [] rights := by
  cases rights with
  | nil =>
      have step :
          comparePadded cmp filler [item] [] =
            (cmp item filler).then (comparePadded cmp filler [] []) :=
        rfl
      rw [step, same, @ReflCmp.compare_self _ cmp]
      rfl
  | cons right rights =>
      have step :
          comparePadded cmp filler [item] (right :: rights) =
            (cmp item right).then (comparePadded cmp filler [] rights) :=
        rfl
      rw [step, same]
      rfl

theorem compareLex_congr
    {other : α → α → Ordering} {lefts rights : List α}
    (same : ∀ left ∈ lefts, ∀ right ∈ rights, cmp left right = other left right) :
    List.compareLex cmp lefts rights = List.compareLex other lefts rights := by
  induction lefts generalizing rights with
  | nil =>
      cases rights with
      | nil => rfl
      | cons right rights => rfl
  | cons left lefts induction =>
      cases rights with
      | nil => rfl
      | cons right rights =>
          rw [List.compareLex_cons_cons, List.compareLex_cons_cons,
            same left List.mem_cons_self right List.mem_cons_self,
            induction fun left inLefts right inRights =>
              same left (List.mem_cons_of_mem _ inLefts) right
                (List.mem_cons_of_mem _ inRights)]

/-- Comparing by what stands for the items. -/
theorem transCmp_comap
    [TransCmp cmp] {β : Type u} (image : β → α) :
    TransCmp fun left right => cmp (image left) (image right) where
  eq_swap := OrientedCmp.eq_swap
  isLE_trans := TransCmp.isLE_trans

/-! ## Weights -/

/-- The difference of the first two items with different weights. -/
def firstDifference (weight : α → Int) (pairs : List (α × α)) : Option Int :=
  pairs.findSome? fun pair =>
    if weight pair.1 ≠ weight pair.2 then
      some (weight pair.1 - weight pair.2)
    else
      none

/-- The side of zero on which a difference is. -/
def sign (difference : Int) : Ordering :=
  compare difference 0

theorem sign_sub (left right : Int) :
    sign (left - right) = compare left right := by
  rw [sign, Int.compare_eq_ite_lt, Int.compare_eq_ite_lt]
  rcases Int.lt_trichotomy left right with less | rfl | greater
  · rw [if_pos (Int.sub_neg_of_lt less), if_pos less]
  · rw [Int.sub_self]
    simp
  · have positive : 0 < left - right := Int.sub_pos_of_lt greater
    rw [if_neg (Int.lt_asymm positive), if_pos positive,
      if_neg (Int.lt_asymm greater), if_pos greater]

theorem sign_eq_eq_iff {difference : Int} :
    sign difference = .eq ↔ difference = 0 :=
  Int.compare_eq_eq

theorem sign_natCast_sub (left right : Nat) :
    sign ((left : Int) - right) = compare left right := by
  rw [sign_sub]
  rcases Nat.lt_trichotomy left right with less | rfl | greater
  · rw [Int.compare_eq_lt.2 (Int.ofNat_lt.2 less), Nat.compare_eq_lt.2 less]
  · rw [Int.compare_eq_eq.2 rfl, Nat.compare_eq_eq.2 rfl]
  · rw [Int.compare_eq_gt.2 (Int.ofNat_lt.2 greater),
      Nat.compare_eq_gt.2 greater]

theorem firstDifference_ne_zero
    {weight : α → Int} {pairs : List (α × α)} {difference : Int}
    (found : firstDifference weight pairs = some difference) :
    difference ≠ 0 := by
  rcases List.exists_of_findSome?_eq_some found with ⟨pair, -, differs⟩
  split at differs
  · next different =>
      cases differs
      exact mt Int.sub_eq_zero.1 different
  · cases differs

/-- A difference that is not zero decides. -/
theorem sign_then {difference : Int} (differs : difference ≠ 0)
    (rest : Ordering) : (sign difference).then rest = sign difference := by
  cases order : sign difference with
  | lt => rfl
  | gt => rfl
  | eq => exact absurd (sign_eq_eq_iff.1 order) differs

/-- Lists of one length are compared by their first difference. -/
theorem compareLex_eq_firstDifference
    {weight : α → Int} {lefts rights : List α}
    (sameLength : lefts.length = rights.length) :
    List.compareLex (compareOn weight) lefts rights =
      ((firstDifference weight (lefts.zip rights)).map sign).getD .eq := by
  induction lefts generalizing rights with
  | nil =>
      rw [List.eq_nil_of_length_eq_zero sameLength.symm]
      rfl
  | cons left lefts induction =>
      cases rights with
      | nil => cases sameLength
      | cons right rights =>
          have rest := induction (Nat.succ.inj sameLength)
          rw [List.compareLex_cons_cons, List.zip_cons_cons, firstDifference,
            List.findSome?_cons]
          by_cases same : weight left = weight right
          · have equal : compareOn weight left right = .eq := by
              rw [compareOn, same]
              exact @ReflCmp.compare_self Int compare _ _
            rw [equal, if_neg (not_not.2 same), Ordering.eq_then, rest]
            rfl
          · have differs : weight left - weight right ≠ 0 :=
              mt Int.sub_eq_zero.1 same
            have found :
                compareOn weight left right =
                  sign (weight left - weight right) := by
              rw [sign_sub, compareOn]
            rw [if_pos same, Option.map_some, Option.getD_some, found,
              sign_then differs]

/-! ## The first maximum -/

/-- The first item, from `best` on, that no other one is above. -/
def maximumFrom (cmp : α → α → Ordering) (best : α) (items : List α) : α :=
  items.foldl
    (fun best item => if cmp item best = .gt then item else best) best

theorem maximumFrom_mem (best : α) (items : List α) :
    maximumFrom cmp best items ∈ best :: items := by
  induction items generalizing best with
  | nil => exact List.mem_singleton_self best
  | cons item items induction =>
      have known := induction (if cmp item best = .gt then item else best)
      rcases List.mem_cons.1 known with isBest | later
      · rw [maximumFrom, List.foldl_cons, ← maximumFrom, isBest]
        split
        · exact List.mem_cons_of_mem _ List.mem_cons_self
        · exact List.mem_cons_self
      · exact List.mem_cons_of_mem _ (List.mem_cons_of_mem _ later)

theorem isLE_maximumFrom [TransCmp cmp] (best : α) (items : List α) :
    ∀ item ∈ best :: items, (cmp item (maximumFrom cmp best items)).isLE := by
  induction items generalizing best with
  | nil =>
      intro item member
      rw [List.mem_singleton.1 member]
      exact ReflCmp.isLE_rfl
  | cons next items induction =>
      rw [maximumFrom, List.foldl_cons, ← maximumFrom]
      by_cases above : cmp next best = .gt
      · rw [if_pos above]
        have rest := induction next
        intro item member
        rcases List.mem_cons.1 member with rfl | later
        · have below : (cmp item next).isLE :=
            Ordering.isLE_of_eq_lt (OrientedCmp.gt_iff_lt.1 above)
          exact TransCmp.isLE_trans below (rest next List.mem_cons_self)
        · exact rest item later
      · rw [if_neg above]
        have rest := induction best
        intro item member
        rcases List.mem_cons.1 member with rfl | later
        · exact rest item List.mem_cons_self
        rcases List.mem_cons.1 later with rfl | behind
        · have below : (cmp item best).isLE := Ordering.isLE_iff_ne_gt.2 above
          exact TransCmp.isLE_trans below (rest best List.mem_cons_self)
        · exact rest item (List.mem_cons_of_mem _ behind)

/-- The maximum does not depend on the order, up to items that are equal. -/
theorem compare_maximumFrom_perm
    [TransCmp cmp] {first second : α} {firsts seconds : List α}
    (perm : (first :: firsts).Perm (second :: seconds)) :
    cmp (maximumFrom cmp first firsts) (maximumFrom cmp second seconds) =
      .eq :=
  OrientedCmp.isLE_antisymm
    (isLE_maximumFrom second seconds _
      (perm.mem_iff.1 (maximumFrom_mem first firsts)))
    (isLE_maximumFrom first firsts _
      (perm.mem_iff.2 (maximumFrom_mem second seconds)))

end

end Confos.Library.Comparisons
