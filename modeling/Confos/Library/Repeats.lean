import Mathlib.Data.List.Induction
import Mathlib.Data.List.Nodup

/-!
# Lists without their repeats

A loop keeps an item unless those it has kept already cover it.  With a cover
that is wider than membership it also drops items that it has never seen; it
keeps every item exactly if none is covered when it comes up first.
-/

namespace Confos.Library.Repeats

variable {Item : Type*}

section

variable (covered : List Item → Item → Prop)

/-- The items that the loop keeps. -/
def kept [∀ seen item, Decidable (covered seen item)]
    (items : List Item) : List Item :=
  items.foldl
    (fun seen item => if covered seen item then seen else seen ++ [item]) []

/-- No item is covered when it comes up for the first time. -/
def NoneCovered [BEq Item] (items : List Item) : Prop :=
  ∀ before item after,
    items = before ++ item :: after → item ∉ before →
      ¬ covered before.eraseDups item

/-- An item is covered by itself, and by more whenever by less. -/
structure Covers : Prop where
  of_mem : ∀ {seen item}, item ∈ seen → covered seen item
  mono : ∀ {seen item} more, covered seen item → covered (seen ++ more) item

end

variable {covered : List Item → Item → Prop}

/-! ## The loop -/

section

variable [∀ seen item, Decidable (covered seen item)]

theorem kept_append_singleton (items : List Item) (item : Item) :
    kept covered (items ++ [item]) =
      if covered (kept covered items) item then
        kept covered items
      else
        kept covered items ++ [item] :=
  List.foldl_concat _ _ _ _

theorem mem_of_mem_kept
    {items : List Item} {item : Item} (member : item ∈ kept covered items) :
    item ∈ items := by
  induction items using List.reverseRecOn with
  | nil => exact member
  | append_singleton items last induction =>
      rw [kept_append_singleton] at member
      split at member
      · exact List.mem_append_left _ (induction member)
      · rcases List.mem_append.1 member with earlier | same
        · exact List.mem_append_left _ (induction earlier)
        · exact List.mem_append_right _ same

theorem nodup_kept (covers : Covers covered) (items : List Item) :
    (kept covered items).Nodup := by
  induction items using List.reverseRecOn with
  | nil => exact List.nodup_nil
  | append_singleton items last induction =>
      rw [kept_append_singleton]
      split
      · exact induction
      · next fresh =>
          apply List.Nodup.append induction (List.nodup_singleton last)
          rw [List.disjoint_singleton]
          exact fun member => fresh (covers.of_mem member)

/-- What has come up once is covered from then on. -/
theorem covered_kept_of_mem
    (covers : Covers covered) {items : List Item} {item : Item}
    (member : item ∈ items) : covered (kept covered items) item := by
  induction items using List.reverseRecOn with
  | nil => exact absurd member List.not_mem_nil
  | append_singleton items last induction =>
      rw [kept_append_singleton]
      rcases List.mem_append.1 member with earlier | same
      · split
        · exact induction earlier
        · exact covers.mono [last] (induction earlier)
      · cases List.mem_singleton.1 same
        split
        · next found => exact found
        · exact covers.of_mem (List.mem_append_right _ List.mem_cons_self)

/-- An item that has come up is not kept later if it was not kept then. -/
theorem mem_kept_append_singleton_iff
    (covers : Covers covered) {items : List Item} {item last : Item}
    (member : item ∈ items) :
    item ∈ kept covered (items ++ [last]) ↔ item ∈ kept covered items := by
  rw [kept_append_singleton]
  split
  · rfl
  · next fresh =>
      rw [List.mem_append, List.mem_singleton, or_iff_left]
      rintro rfl
      exact fresh (covered_kept_of_mem covers member)

end

/-! ## The loop and the items that come up first -/

section

variable [BEq Item]

theorem noneCovered_append_singleton (items : List Item) (last : Item) :
    NoneCovered covered (items ++ [last]) ↔
      NoneCovered covered items ∧
        (last ∉ items → ¬ covered items.eraseDups last) := by
  constructor
  · intro none
    constructor
    · intro before item after split
      exact none before item (after ++ [last]) (by rw [split]; simp)
    · exact none items last [] rfl
  · rintro ⟨earlier, atLast⟩ before item after split
    rcases List.eq_nil_or_concat after with rfl | ⟨rest, final, rfl⟩
    · rcases List.append_inj' split rfl with ⟨rfl, same⟩
      cases same
      exact atLast
    · rw [List.concat_eq_append, ← List.cons_append, ← List.append_assoc] at split
      rcases List.append_inj' split rfl with ⟨rfl, -⟩
      exact earlier before item rest rfl

variable [LawfulBEq Item]

theorem eraseDups_append_singleton (items : List Item) (item : Item) :
    (items ++ [item]).eraseDups =
      if item ∈ items then items.eraseDups else items.eraseDups ++ [item] := by
  rw [List.eraseDups_append]
  by_cases repeated : item ∈ items
  · rw [if_pos repeated]
    simp [List.removeAll, repeated]
  · rw [if_neg repeated]
    simp [List.removeAll, repeated, List.eraseDups_cons]

theorem kept_eq_eraseDups [∀ seen item, Decidable (covered seen item)]
    (covers : Covers covered) {items : List Item}
    (none : NoneCovered covered items) :
    kept covered items = items.eraseDups := by
  induction items using List.reverseRecOn with
  | nil => rfl
  | append_singleton items last induction =>
      rcases (noneCovered_append_singleton items last).1 none with
        ⟨earlier, atLast⟩
      have same := induction earlier
      rw [kept_append_singleton, eraseDups_append_singleton]
      by_cases repeated : last ∈ items
      · rw [if_pos (covered_kept_of_mem covers repeated), if_pos repeated,
          same]
      · rw [same, if_neg (atLast repeated), if_neg repeated]

/-- The loop keeps every item exactly if none is covered when it comes up. -/
theorem forall_mem_kept_iff
    [∀ seen item, Decidable (covered seen item)] (covers : Covers covered) (items : List Item) :
    (∀ item ∈ items, item ∈ kept covered items) ↔
      NoneCovered covered items := by
  constructor
  · induction items using List.reverseRecOn with
    | nil =>
        intro _ before item after split
        simp at split
    | append_singleton items last induction =>
        intro all
        rw [noneCovered_append_singleton]
        have earlier : NoneCovered covered items := by
          apply induction
          intro item member
          rw [← mem_kept_append_singleton_iff covers member]
          exact all item (List.mem_append_left _ member)
        refine ⟨earlier, fun fresh found => ?_⟩
        have lastKept := all last (by simp)
        rw [kept_append_singleton, kept_eq_eraseDups covers earlier,
          if_pos found, List.mem_eraseDups] at lastKept
        exact fresh lastKept
  · intro none item member
    rw [kept_eq_eraseDups covers none, List.mem_eraseDups]
    exact member

end

end Confos.Library.Repeats
