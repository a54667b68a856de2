import Confos.Igvm.Build
import Mathlib.Order.CompletePartialOrder
import Mathlib.Order.Interval.Set.Disjoint

/-!
# Pages of an address range

Which page directives lie in a range of addresses, and what the two page
operations of the builder do to that: adding the pages of some data, and
removing the pages of a range.  Placing a blob leaves every range alone that
it does not clear.
-/

namespace Confos.Igvm.PageRanges

open Confos.Library.ByteStrings
open Confos.Igvm.Directives
open Confos.Igvm.Builder
open Confos.Igvm.Builder.IgvmBuilder
open Confos.Igvm.Build

/-- Whether a directive is a page whose address is in `[start, stop)`. -/
def isPageIn (start stop : Nat) : IgvmDirectiveHeader → Bool
  | .pageData gpa _ _ _ _ => start ≤ gpa.toNat && gpa.toNat < stop
  | _ => false

/-- The page directives of `[start, stop)`, in order. -/
def pagesIn (start stop : Nat) (directives : List IgvmDirectiveHeader) :
    List IgvmDirectiveHeader :=
  directives.filter (isPageIn start stop)

/-- A range that ends where another starts does not meet it. -/
theorem disjoint_Ico_of_le
    {start stop first last : Nat} (order : stop ≤ first) :
    Disjoint (Set.Ico start stop) (Set.Ico first last) := by
  apply Set.Ico_disjoint_Ico.2
  exact (min_le_left _ _).trans (order.trans (le_max_right _ _))

theorem isPageInRange_eq (base size : Nat) :
    isPageInRange base size = isPageIn base (base + max size psize) := by
  funext directive
  cases directive <;> rfl

theorem pagesIn_append
    (start stop : Nat) (first second : List IgvmDirectiveHeader) :
    pagesIn start stop (first ++ second) =
      pagesIn start stop first ++ pagesIn start stop second :=
  List.filter_append ..

/-- A page is in at most one of two ranges that do not meet. -/
theorem isPageIn_eq_false_of_disjoint
    {start stop first last : Nat} {directive : IgvmDirectiveHeader}
    (apart : Disjoint (Set.Ico start stop) (Set.Ico first last))
    (inside : isPageIn start stop directive = true) :
    isPageIn first last directive = false := by
  cases directive with
  | pageData gpa _ _ _ _ =>
      simp only [isPageIn, Bool.and_eq_true, decide_eq_true_eq] at inside
      by_contra also
      simp only [isPageIn, Bool.not_eq_false, Bool.and_eq_true,
        decide_eq_true_eq] at also
      exact Set.disjoint_left.1 apart inside also
  | _ => cases inside

theorem isPageIn_of_subset
    {start stop first last : Nat} {directive : IgvmDirectiveHeader}
    (lower : first ≤ start) (upper : stop ≤ last)
    (inside : isPageIn start stop directive = true) :
    isPageIn first last directive = true := by
  cases directive with
  | pageData gpa _ _ _ _ =>
      simp only [isPageIn, Bool.and_eq_true, decide_eq_true_eq] at inside ⊢
      exact ⟨lower.trans inside.1, inside.2.trans_le upper⟩
  | _ => cases inside

section

variable {directives : List IgvmDirectiveHeader} {start stop : Nat}

/-- Removing a range leaves the ranges alone that it does not meet. -/
theorem pagesIn_remove_of_disjoint
    {base size : Nat}
    (apart :
      Disjoint (Set.Ico start stop) (Set.Ico base (base + max size psize))) :
    pagesIn start stop
        (directives.filter fun directive =>
          !isPageInRange base size directive) =
      pagesIn start stop directives := by
  rw [pagesIn, pagesIn, List.filter_filter]
  apply List.filter_congr
  intro directive _
  rw [isPageInRange_eq]
  cases inside : isPageIn start stop directive with
  | false => rfl
  | true =>
      rw [isPageIn_eq_false_of_disjoint apart inside]
      rfl

/-- Removing a range empties every range inside it. -/
theorem pagesIn_remove_of_subset
    {base size : Nat}
    (lower : base ≤ start) (upper : stop ≤ base + max size psize) :
    pagesIn start stop
        (directives.filter fun directive =>
          !isPageInRange base size directive) =
      [] := by
  rw [pagesIn, List.filter_filter]
  apply List.filter_eq_nil_iff.2
  intro directive _
  rw [isPageInRange_eq]
  cases inside : isPageIn start stop directive with
  | false => simp
  | true =>
      rw [isPageIn_of_subset lower upper inside]
      simp

end

/-! ## The pages of some data -/

section

variable
    {base : Nat} {data : Bytes} {mask : UInt32} {flags : IgvmPageDataFlags}

/-- The address of a page of data that does not wrap. -/
theorem page_toNat
    {index : Nat}
    (fits : base + data.length ≤ 2 ^ 64)
    (inside : index < pageCount psize data.length) :
    (UInt64.ofNat (base + index * psize)).toNat = base + index * psize := by
  have below := (lt_pageCount_iff psize_pos).1 inside
  apply UInt64.toNat_ofNat_of_lt'
  exact lt_of_lt_of_le (Nat.add_lt_add_left below base) fits

/-- The pages of some data lie in every range that covers the data. -/
theorem pagesIn_dataPages_of_subset
    {start stop : Nat}
    (fits : base + data.length ≤ 2 ^ 64)
    (lower : start ≤ base) (upper : base + data.length ≤ stop) :
    pagesIn start stop (dataPages base data mask flags) =
      dataPages base data mask flags := by
  apply List.filter_eq_self.2
  intro directive member
  rcases List.mem_map.1 member with ⟨index, inside, rfl⟩
  have below :=
    (lt_pageCount_iff psize_pos).1 (List.mem_range.1 inside)
  have address := page_toNat fits (List.mem_range.1 inside)
  rw [page, isPageIn, address]
  simp only [Bool.and_eq_true, decide_eq_true_eq]
  omega

theorem pagesIn_dataPages_of_disjoint
    {start stop : Nat}
    (fits : base + data.length ≤ 2 ^ 64)
    (apart :
      Disjoint (Set.Ico start stop) (Set.Ico base (base + data.length))) :
    pagesIn start stop (dataPages base data mask flags) = [] := by
  have own : pagesIn base (base + data.length)
      (dataPages base data mask flags) = dataPages base data mask flags :=
    pagesIn_dataPages_of_subset fits le_rfl le_rfl
  apply List.filter_eq_nil_iff.2
  intro directive member
  rw [← own] at member
  rw [isPageIn_eq_false_of_disjoint apart.symm (List.mem_filter.1 member).2]
  simp

end

/-! ## Placing a blob -/

section

variable {flags : IgvmPageDataFlags} {builder : IgvmBuilder}

theorem placeBlob_directives (placed : Nat × Bytes) :
    (placeBlob flags builder placed).directives =
      (builder.directives.filter fun directive =>
          !isPageInRange placed.1 placed.2.length directive) ++
        dataPages placed.1 placed.2 builder.compatibilityMaskAll flags :=
  rfl

@[simp]
theorem placeBlob_compatibilityMaskAll (placed : Nat × Bytes) :
    (placeBlob flags builder placed).compatibilityMaskAll =
      builder.compatibilityMaskAll :=
  rfl

/-- The addresses a placement clears. -/
def cleared (placed : Nat × Bytes) : Set Nat :=
  Set.Ico placed.1 (placed.1 + max placed.2.length psize)

theorem data_subset_cleared (placed : Nat × Bytes) :
    Set.Ico placed.1 (placed.1 + placed.2.length) ⊆ cleared placed := by
  apply Set.Ico_subset_Ico_right
  exact Nat.add_le_add_left (le_max_left ..) _

/-- The frame rule: a placement leaves what it does not clear. -/
theorem pagesIn_placeBlob_of_disjoint
    {placed : Nat × Bytes} {start stop : Nat}
    (fits : placed.1 + placed.2.length ≤ 2 ^ 64)
    (apart : Disjoint (Set.Ico start stop) (cleared placed)) :
    pagesIn start stop (placeBlob flags builder placed).directives =
      pagesIn start stop builder.directives := by
  rw [placeBlob_directives, pagesIn_append,
    pagesIn_remove_of_disjoint apart,
    pagesIn_dataPages_of_disjoint fits
      (apart.mono_right (data_subset_cleared placed)), List.append_nil]

/-- Right after its placement a blob's range holds its pages and no others. -/
theorem pagesIn_placeBlob_self
    {placed : Nat × Bytes}
    (fits : placed.1 + placed.2.length ≤ 2 ^ 64) :
    pagesIn placed.1 (placed.1 + placed.2.length)
        (placeBlob flags builder placed).directives =
      dataPages placed.1 placed.2 builder.compatibilityMaskAll flags := by
  rw [placeBlob_directives, pagesIn_append,
    pagesIn_remove_of_subset le_rfl
      (Nat.add_le_add_left (le_max_left ..) _),
    pagesIn_dataPages_of_subset fits le_rfl le_rfl, List.nil_append]

/-- A range that a placement clears, and that the blob is not in, is empty. -/
theorem pagesIn_placeBlob_of_cleared
    {placed : Nat × Bytes} {start stop : Nat}
    (fits : placed.1 + placed.2.length ≤ 2 ^ 64)
    (lower : placed.1 ≤ start)
    (upper : stop ≤ placed.1 + max placed.2.length psize)
    (apart :
      Disjoint (Set.Ico start stop)
        (Set.Ico placed.1 (placed.1 + placed.2.length))) :
    pagesIn start stop (placeBlob flags builder placed).directives = [] := by
  rw [placeBlob_directives, pagesIn_append,
    pagesIn_remove_of_subset lower upper,
    pagesIn_dataPages_of_disjoint fits apart, List.append_nil]

end

section

variable {flags : IgvmPageDataFlags}

@[simp]
theorem foldl_placeBlob_compatibilityMaskAll
    (placements : List (Nat × Bytes)) (builder : IgvmBuilder) :
    (placements.foldl (placeBlob flags) builder).compatibilityMaskAll =
      builder.compatibilityMaskAll := by
  induction placements generalizing builder with
  | nil => rfl
  | cons placed placements induction =>
      rw [List.foldl_cons, induction, placeBlob_compatibilityMaskAll]

/-- A pass leaves the ranges that none of its placements clears. -/
theorem pagesIn_foldl_of_disjoint
    {placements : List (Nat × Bytes)} {builder : IgvmBuilder}
    {start stop : Nat}
    (fits : ∀ placed ∈ placements, placed.1 + placed.2.length ≤ 2 ^ 64)
    (apart :
      ∀ placed ∈ placements,
        Disjoint (Set.Ico start stop) (cleared placed)) :
    pagesIn start stop
        (placements.foldl (placeBlob flags) builder).directives =
      pagesIn start stop builder.directives := by
  induction placements generalizing builder with
  | nil => rfl
  | cons placed placements induction =>
      rw [List.foldl_cons,
        induction
          (fun later member => fits later (List.mem_cons_of_mem _ member))
          (fun later member => apart later (List.mem_cons_of_mem _ member)),
        pagesIn_placeBlob_of_disjoint (fits placed (List.mem_cons_self ..))
          (apart placed (List.mem_cons_self ..))]

/-- A blob keeps its pages through a pass whose later placements spare them. -/
theorem pagesIn_foldl_of_mem
    {placements : List (Nat × Bytes)} {builder : IgvmBuilder}
    {placed : Nat × Bytes}
    (member : placed ∈ placements)
    (fits : ∀ other ∈ placements, other.1 + other.2.length ≤ 2 ^ 64)
    (spared :
      placements.Pairwise fun earlier later =>
        Disjoint (Set.Ico earlier.1 (earlier.1 + earlier.2.length))
          (cleared later)) :
    pagesIn placed.1 (placed.1 + placed.2.length)
        (placements.foldl (placeBlob flags) builder).directives =
      dataPages placed.1 placed.2 builder.compatibilityMaskAll flags := by
  induction placements generalizing builder with
  | nil => cases member
  | cons first placements induction =>
      rcases List.pairwise_cons.1 spared with ⟨firstSpared, restSpared⟩
      have restFits :
          ∀ other ∈ placements, other.1 + other.2.length ≤ 2 ^ 64 :=
        fun other otherMember =>
          fits other (List.mem_cons_of_mem _ otherMember)
      rw [List.foldl_cons]
      rcases List.mem_cons.1 member with rfl | later
      · rw [pagesIn_foldl_of_disjoint restFits firstSpared,
          pagesIn_placeBlob_self (fits placed (List.mem_cons_self ..))]
      · rw [induction later restFits restSpared,
          placeBlob_compatibilityMaskAll]

/-- A range a placement has emptied stays empty while no blob is put into it. -/
theorem pagesIn_foldl_eq_nil
    {placements : List (Nat × Bytes)} {builder : IgvmBuilder}
    {start stop : Nat}
    (fits : ∀ placed ∈ placements, placed.1 + placed.2.length ≤ 2 ^ 64)
    (apart :
      ∀ placed ∈ placements,
        Disjoint (Set.Ico start stop)
          (Set.Ico placed.1 (placed.1 + placed.2.length)))
    (emptied :
      pagesIn start stop builder.directives = [] ∨
        ∃ placed ∈ placements,
          placed.1 ≤ start ∧
            stop ≤ placed.1 + max placed.2.length psize) :
    pagesIn start stop
        (placements.foldl (placeBlob flags) builder).directives =
      [] := by
  induction placements generalizing builder with
  | nil =>
      rcases emptied with empty | ⟨placed, impossible, -⟩
      · exact empty
      · cases impossible
  | cons first placements induction =>
      have firstFits := fits first (List.mem_cons_self ..)
      have firstApart := apart first (List.mem_cons_self ..)
      rw [List.foldl_cons]
      apply induction
      · intro placed member
        exact fits placed (List.mem_cons_of_mem _ member)
      · intro placed member
        exact apart placed (List.mem_cons_of_mem _ member)
      · rcases emptied with empty | ⟨placed, member, lower, upper⟩
        · left
          rw [placeBlob_directives, pagesIn_append,
            pagesIn_dataPages_of_disjoint firstFits firstApart,
            List.append_nil]
          apply List.filter_eq_nil_iff.2
          intro directive survived
          exact
            List.filter_eq_nil_iff.1 empty directive
              (List.mem_filter.1 survived).1
        · rcases List.mem_cons.1 member with rfl | later
          · left
            exact
              pagesIn_placeBlob_of_cleared firstFits lower upper firstApart
          · right
            exact ⟨placed, later, lower, upper⟩

end

end Confos.Igvm.PageRanges
