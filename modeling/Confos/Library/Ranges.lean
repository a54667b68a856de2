import Mathlib.Algebra.BigOperators.Group.List.Basic
import Mathlib.Algebra.GroupWithZero.Nat
import Mathlib.Data.List.Induction
import Mathlib.Data.List.Pairwise
import Mathlib.Data.List.Sort
import Mathlib.Order.CompletePartialOrder
import Mathlib.Order.Interval.Set.Disjoint

/-!
# Half-open ranges

A range holds the points from its start up to its stop.  Cutting a range out of
some ranges leaves the points outside it, in ranges that still do not meet, and
sorted ranges that do not meet and hold the points of a stretch follow each
other from its start to its stop.
-/

namespace Confos.Library.Ranges

variable {α : Type} [LinearOrder α]

/-! ## Points -/

/-- The points of a range. -/
def points (range : α × α) : Set α :=
  Set.Ico range.1 range.2

/-- The points of some ranges. -/
def allPoints (ranges : List (α × α)) : Set α :=
  { point | ∃ range ∈ ranges, point ∈ points range }

/-- Two ranges without a common point. -/
def Apart (left right : α × α) : Prop :=
  Disjoint (points left) (points right)

section

variable {range left right removed : α × α} {ranges : List (α × α)} {point : α}

theorem start_mem_points (nonempty : range.1 < range.2) :
    range.1 ∈ points range :=
  ⟨le_rfl, nonempty⟩

theorem points_subset_allPoints (member : range ∈ ranges) :
    points range ⊆ allPoints ranges :=
  fun _ inside => ⟨range, member, inside⟩

@[simp]
theorem allPoints_nil : allPoints ([] : List (α × α)) = ∅ := by
  apply Set.eq_empty_of_forall_notMem
  rintro point ⟨range, member, -⟩
  cases member

@[simp]
theorem allPoints_cons (range : α × α) (ranges : List (α × α)) :
    allPoints (range :: ranges) = points range ∪ allPoints ranges := by
  ext point
  constructor
  · rintro ⟨other, member, inside⟩
    rcases List.mem_cons.1 member with rfl | later
    · exact Or.inl inside
    · exact Or.inr ⟨other, later, inside⟩
  · rintro (inside | ⟨other, later, inside⟩)
    · exact ⟨range, List.mem_cons_self, inside⟩
    · exact ⟨other, List.mem_cons_of_mem _ later, inside⟩

theorem allPoints_append (first second : List (α × α)) :
    allPoints (first ++ second) = allPoints first ∪ allPoints second := by
  induction first with
  | nil => rw [List.nil_append, allPoints_nil, Set.empty_union]
  | cons range first induction =>
      rw [List.cons_append, allPoints_cons, allPoints_cons, induction,
        Set.union_assoc]

theorem allPoints_perm {first second : List (α × α)}
    (perm : first.Perm second) : allPoints first = allPoints second := by
  ext point
  apply exists_congr
  intro range
  rw [perm.mem_iff]

theorem Apart.symm (apart : Apart left right) : Apart right left :=
  Disjoint.symm apart

instance : Std.Symm (Apart (α := α)) where
  symm _ _ := Apart.symm

/-- Ranges in order that do not meet end each before the next starts. -/
theorem Apart.stop_le
    (apart : Apart left right) (order : left.1 ≤ right.1)
    (nonempty : right.1 < right.2) : left.2 ≤ right.1 := by
  by_contra before
  exact
    Set.disjoint_left.1 apart ⟨order, not_le.1 before⟩
      (start_mem_points nonempty)

/-! ## Cutting a range out -/

/-- What is left of a range without the points of another one. -/
def cutOut (removed range : α × α) : List (α × α) :=
  if range.2 ≤ removed.1 ∨ removed.2 ≤ range.1 then
    [range]
  else
    (if range.1 < removed.1 then [(range.1, removed.1)] else []) ++
      if removed.2 < range.2 then [(removed.2, range.2)] else []

/-- A range that is kept only if it has points. -/
theorem allPoints_ite (start stop : α) :
    allPoints (if start < stop then [(start, stop)] else []) =
      Set.Ico start stop := by
  split
  · rw [allPoints_cons, allPoints_nil, Set.union_empty]
    rfl
  · next empty => rw [allPoints_nil, Set.Ico_eq_empty empty]

/-- The pieces hold the points of the range that are not cut out. -/
theorem allPoints_cutOut :
    allPoints (cutOut removed range) = points range \ points removed := by
  ext point
  rw [cutOut, Set.mem_sdiff]
  split
  · next apart =>
      rw [allPoints_cons, allPoints_nil, Set.union_empty]
      constructor
      · rintro ⟨lower, upper⟩
        refine ⟨⟨lower, upper⟩, ?_⟩
        rintro ⟨removedLower, removedUpper⟩
        rcases apart with before | behind
        · exact absurd (upper.trans_le before) (not_lt.2 removedLower)
        · exact absurd (removedUpper.trans_le behind) (not_lt.2 lower)
      · exact And.left
  · next meets =>
      rw [not_or, not_le, not_le] at meets
      rw [allPoints_append, allPoints_ite, allPoints_ite]
      constructor
      · rintro (⟨lower, upper⟩ | ⟨lower, upper⟩)
        · refine ⟨⟨lower, upper.trans meets.1⟩, ?_⟩
          intro inRemoved
          exact not_lt.2 inRemoved.1 upper
        · refine ⟨⟨meets.2.le.trans lower, upper⟩, ?_⟩
          intro inRemoved
          exact not_lt.2 lower inRemoved.2
      · rintro ⟨⟨lower, upper⟩, outside⟩
        by_cases before : point < removed.1
        · exact Or.inl ⟨lower, before⟩
        · refine Or.inr ⟨?_, upper⟩
          by_contra inside
          exact outside ⟨not_lt.1 before, not_le.1 inside⟩

theorem pairwise_cutOut (nonempty : removed.1 < removed.2) :
    (cutOut removed range).Pairwise Apart := by
  rw [cutOut]
  split
  · exact List.pairwise_singleton _ _
  · split
    · split
      · refine List.Pairwise.cons ?_ (List.pairwise_singleton _ _)
        intro behind member
        cases List.mem_singleton.1 member
        apply Set.disjoint_left.2
        intro point before inside
        exact absurd (before.2.trans nonempty) (not_lt.2 inside.1)
      · exact List.pairwise_singleton _ _
    · split
      · exact List.pairwise_singleton _ _
      · exact List.Pairwise.nil

theorem nonempty_cutOut (nonempty : range.1 < range.2) :
    ∀ piece ∈ cutOut removed range, piece.1 < piece.2 := by
  intro piece member
  rw [cutOut] at member
  split at member
  · cases List.mem_singleton.1 member
    exact nonempty
  · rcases List.mem_append.1 member with front | back
    · split at front
      · next before =>
          cases List.mem_singleton.1 front
          exact before
      · cases front
    · split at back
      · next behind =>
          cases List.mem_singleton.1 back
          exact behind
      · cases back

/-- The pieces are inside the range. -/
theorem bounds_cutOut (forward : range.1 ≤ range.2) :
    ∀ piece ∈ cutOut removed range,
      range.1 ≤ piece.1 ∧ piece.1 ≤ piece.2 ∧ piece.2 ≤ range.2 := by
  intro piece member
  rw [cutOut] at member
  split at member
  · cases List.mem_singleton.1 member
    exact ⟨le_rfl, forward, le_rfl⟩
  · next meets =>
      rw [not_or, not_le, not_le] at meets
      rcases List.mem_append.1 member with front | back
      · split at front
        · next before =>
            cases List.mem_singleton.1 front
            exact ⟨le_rfl, before.le, meets.1.le⟩
        · cases front
      · split at back
        · next behind =>
            cases List.mem_singleton.1 back
            exact ⟨meets.2.le, behind.le, le_rfl⟩
        · cases back

end

/-! ## Cutting ranges out of ranges -/

section

variable {ranges removed : List (α × α)} {range whole : α × α}

theorem allPoints_flatMap_cutOut :
    allPoints (ranges.flatMap (cutOut range)) =
      allPoints ranges \ points range := by
  induction ranges with
  | nil => rw [List.flatMap_nil, allPoints_nil, Set.empty_sdiff]
  | cons first ranges induction =>
      rw [List.flatMap_cons, allPoints_append, allPoints_cutOut, induction,
        allPoints_cons, Set.union_sdiff_distrib]

theorem pairwise_flatMap_cutOut
    (nonempty : range.1 < range.2) (apart : ranges.Pairwise Apart) :
    (ranges.flatMap (cutOut range)).Pairwise Apart := by
  apply List.pairwise_flatMap.2
  refine ⟨fun _ _ => pairwise_cutOut nonempty, ?_⟩
  refine apart.imp ?_
  intro left right apart leftPiece inLeft rightPiece inRight
  have leftSubset : points leftPiece ⊆ points left := by
    apply (points_subset_allPoints inLeft).trans
    rw [allPoints_cutOut]
    exact Set.sdiff_subset
  have rightSubset : points rightPiece ⊆ points right := by
    apply (points_subset_allPoints inRight).trans
    rw [allPoints_cutOut]
    exact Set.sdiff_subset
  exact apart.mono leftSubset rightSubset

/-- What is left of a range when others are cut out one by one. -/
def leftOver (whole : α × α) (removed : List (α × α)) : List (α × α) :=
  removed.foldl (fun ranges range => ranges.flatMap (cutOut range)) [whole]

theorem leftOver_concat (range : α × α) :
    leftOver whole (removed ++ [range]) =
      (leftOver whole removed).flatMap (cutOut range) := by
  rw [leftOver, List.foldl_append]
  rfl

theorem allPoints_leftOver :
    allPoints (leftOver whole removed) =
      points whole \ allPoints removed := by
  induction removed using List.reverseRecOn with
  | nil =>
      rw [leftOver, List.foldl_nil, allPoints_cons, allPoints_nil,
        Set.union_empty, Set.sdiff_empty]
  | append_singleton removed range induction =>
      rw [leftOver_concat, allPoints_flatMap_cutOut, induction,
        allPoints_append, allPoints_cons, allPoints_nil, Set.union_empty,
        Set.sdiff_sdiff]

/-- A range that is cut out does not meet what is left. -/
theorem apart_leftOver
    {piece : α × α}
    (member : range ∈ removed) (inLeft : piece ∈ leftOver whole removed) :
    Apart range piece := by
  apply Set.disjoint_left.2
  intro point inside inPiece
  have outside : point ∈ points whole \ allPoints removed := by
    rw [← allPoints_leftOver]
    exact points_subset_allPoints inLeft inPiece
  exact outside.2 (points_subset_allPoints member inside)

theorem pairwise_leftOver (nonempty : ∀ range ∈ removed, range.1 < range.2) :
    (leftOver whole removed).Pairwise Apart := by
  induction removed using List.reverseRecOn with
  | nil => exact List.pairwise_singleton _ _
  | append_singleton removed range induction =>
      rw [leftOver_concat]
      apply pairwise_flatMap_cutOut
      · exact nonempty range (List.mem_append_right _ (List.mem_singleton_self _))
      · apply induction
        intro other member
        exact nonempty other (List.mem_append_left _ member)

theorem bounds_leftOver (forward : whole.1 ≤ whole.2) :
    ∀ range ∈ leftOver whole removed,
      whole.1 ≤ range.1 ∧ range.1 ≤ range.2 ∧ range.2 ≤ whole.2 := by
  induction removed using List.reverseRecOn with
  | nil =>
      intro range member
      cases List.mem_singleton.1 member
      exact ⟨le_rfl, forward, le_rfl⟩
  | append_singleton removed range induction =>
      intro piece member
      rw [leftOver_concat] at member
      rcases List.mem_flatMap.1 member with ⟨other, known, inside⟩
      rcases induction other known with ⟨starts, order, stops⟩
      rcases bounds_cutOut order piece inside with ⟨first, middle, last⟩
      exact ⟨starts.trans first, middle, last.trans stops⟩

theorem nonempty_leftOver (nonempty : whole.1 < whole.2) :
    ∀ range ∈ leftOver whole removed, range.1 < range.2 := by
  induction removed using List.reverseRecOn with
  | nil =>
      intro range member
      cases List.mem_singleton.1 member
      exact nonempty
  | append_singleton removed range induction =>
      intro piece member
      rw [leftOver_concat] at member
      rcases List.mem_flatMap.1 member with ⟨other, known, inside⟩
      exact nonempty_cutOut (induction other known) piece inside

end

/-! ## Parted ranges -/

/-- Two ranges with a gap between them. -/
def Parted (left right : α × α) : Prop :=
  left.2 < right.1 ∨ right.2 < left.1

theorem Parted.symm {left right : α × α} (parted : Parted left right) :
    Parted right left :=
  Or.symm parted

instance : Std.Symm (Parted (α := α)) where
  symm _ _ := Parted.symm

section

variable {first second ranges removed : List (α × α)} {range whole : α × α}

theorem Parted.ne
    {left right : α × α} (parted : Parted left right)
    (nonempty : left.1 < left.2) : left ≠ right := by
  rintro rfl
  rcases parted with before | behind
  · exact lt_asymm before nonempty
  · exact lt_asymm behind nonempty

theorem pairwise_parted_cutOut (nonempty : range.1 < range.2) :
    (cutOut range whole).Pairwise Parted := by
  rw [cutOut]
  split
  · exact List.pairwise_singleton _ _
  · split
    · split
      · refine List.Pairwise.cons ?_ (List.pairwise_singleton _ _)
        intro behind member
        cases List.mem_singleton.1 member
        exact Or.inl nonempty
      · exact List.pairwise_singleton _ _
    · split
      · exact List.pairwise_singleton _ _
      · exact List.Pairwise.nil

/-- What is left is parted: a gap comes with each range that is cut out. -/
theorem pairwise_parted_leftOver
    (forward : whole.1 ≤ whole.2)
    (nonempty : ∀ range ∈ removed, range.1 < range.2) :
    (leftOver whole removed).Pairwise Parted := by
  induction removed using List.reverseRecOn with
  | nil => exact List.pairwise_singleton _ _
  | append_singleton removed range induction =>
      have others : ∀ range ∈ removed, range.1 < range.2 :=
        fun other member => nonempty other (List.mem_append_left _ member)
      rw [leftOver_concat]
      apply List.pairwise_flatMap.2
      refine ⟨fun _ _ => pairwise_parted_cutOut ?_, ?_⟩
      · exact nonempty range (List.mem_append_right _ (List.mem_singleton_self _))
      · refine (induction others).imp_of_mem ?_
        intro left right inLeft inRight parted leftPiece isLeft rightPiece isRight
        have leftForward := (bounds_leftOver forward left inLeft).2.1
        have rightForward := (bounds_leftOver forward right inRight).2.1
        have leftBounds := bounds_cutOut leftForward leftPiece isLeft
        have rightBounds := bounds_cutOut rightForward rightPiece isRight
        rcases parted with before | behind
        · exact
            Or.inl
              ((leftBounds.2.2.trans_lt before).trans_le rightBounds.1)
        · exact
            Or.inr
              ((rightBounds.2.2.trans_lt behind).trans_le leftBounds.1)

/-- A stretch of the points of parted ranges is in one of them. -/
theorem exists_around_of_parted
    (parted : ranges.Pairwise Parted) (nonempty : range.1 < range.2)
    (inside : points range ⊆ allPoints ranges) :
    ∃ other ∈ ranges, other.1 ≤ range.1 ∧ range.2 ≤ other.2 := by
  rcases inside (start_mem_points nonempty) with ⟨other, member, lower, upper⟩
  refine ⟨other, member, lower, ?_⟩
  by_contra beyond
  -- The end of the one range is in another one, which leaves no gap.
  have endInside : other.2 ∈ points range := ⟨upper.le, not_le.1 beyond⟩
  rcases inside endInside with ⟨third, known, thirdLower, thirdUpper⟩
  have different : other ≠ third := by
    rintro rfl
    exact lt_irrefl _ thirdUpper
  rcases parted.forall member known different with before | behind
  · exact lt_irrefl _ (before.trans_le thirdLower)
  · exact
      lt_irrefl _ ((thirdUpper.trans behind).trans_le (lower.trans upper.le))

/-- Parted ranges are told by their points. -/
theorem mem_of_parted
    (firstParted : first.Pairwise Parted)
    (secondParted : second.Pairwise Parted)
    (nonempty : ∀ range ∈ first, range.1 < range.2)
    (same : allPoints first = allPoints second) (member : range ∈ first) :
    range ∈ second := by
  have rangeNonempty := nonempty range member
  have inSecond : points range ⊆ allPoints second :=
    same ▸ points_subset_allPoints member
  rcases exists_around_of_parted secondParted rangeNonempty inSecond with
    ⟨other, known, lower, upper⟩
  have otherNonempty : other.1 < other.2 :=
    (lower.trans_lt rangeNonempty).trans_le upper
  have inFirst : points other ⊆ allPoints first :=
    same.symm ▸ points_subset_allPoints known
  rcases exists_around_of_parted firstParted otherNonempty inFirst with
    ⟨third, thirdMember, thirdLower, thirdUpper⟩
  by_cases here : range = third
  · subst here
    have equal : other = range :=
      Prod.ext (le_antisymm lower thirdLower) (le_antisymm thirdUpper upper)
    exact equal ▸ known
  · exfalso
    rcases firstParted.forall member thirdMember here with before | behind
    · have backwards := before.trans_le (thirdLower.trans lower)
      exact lt_asymm backwards rangeNonempty
    · have backwards := (upper.trans thirdUpper).trans_lt behind
      exact lt_asymm backwards rangeNonempty

theorem nodup_of_parted
    (parted : ranges.Pairwise Parted)
    (nonempty : ∀ range ∈ ranges, range.1 < range.2) :
    ranges.Nodup := by
  refine parted.imp_of_mem ?_
  intro left right inLeft _ parted
  exact parted.ne (nonempty left inLeft)

theorem perm_of_parted
    (firstParted : first.Pairwise Parted)
    (secondParted : second.Pairwise Parted)
    (firstNonempty : ∀ range ∈ first, range.1 < range.2)
    (secondNonempty : ∀ range ∈ second, range.1 < range.2)
    (same : allPoints first = allPoints second) : first.Perm second := by
  apply
    (List.perm_ext_iff_of_nodup
      (nodup_of_parted firstParted firstNonempty)
      (nodup_of_parted secondParted secondNonempty)).2
  intro range
  exact
    ⟨mem_of_parted firstParted secondParted firstNonempty same,
      mem_of_parted secondParted firstParted secondNonempty same.symm⟩

/-- What is left does not depend on the order of the cuts. -/
theorem leftOver_perm
    (perm : first.Perm second) (wholeNonempty : whole.1 < whole.2)
    (nonempty : ∀ range ∈ first, range.1 < range.2) :
    (leftOver whole first).Perm (leftOver whole second) := by
  have secondNonempty : ∀ range ∈ second, range.1 < range.2 :=
    fun range member => nonempty range (perm.mem_iff.2 member)
  apply
    perm_of_parted (pairwise_parted_leftOver wholeNonempty.le nonempty)
      (pairwise_parted_leftOver wholeNonempty.le secondNonempty)
      (nonempty_leftOver wholeNonempty) (nonempty_leftOver wholeNonempty)
  rw [allPoints_leftOver, allPoints_leftOver, allPoints_perm perm]

end

/-! ## Ranges that follow each other -/

section

variable {β : Type}

/-- Ranges that follow each other from `start` to `stop` without a gap. -/
def Fills : β → List (β × β) → β → Prop
  | start, [], stop => start = stop
  | start, range :: ranges, stop =>
      range.1 = start ∧ Fills range.2 ranges stop

theorem fills_append_iff {first second : List (β × β)} {start stop : β} :
    Fills start (first ++ second) stop ↔
      ∃ middle, Fills start first middle ∧ Fills middle second stop := by
  induction first generalizing start with
  | nil =>
      constructor
      · intro fills
        exact ⟨start, rfl, fills⟩
      · rintro ⟨middle, same, fills⟩
        have equal : start = middle := same
        rwa [List.nil_append, equal]
  | cons range first induction =>
      constructor
      · rintro ⟨here, rest⟩
        rcases induction.1 rest with ⟨middle, firstFills, secondFills⟩
        exact ⟨middle, ⟨here, firstFills⟩, secondFills⟩
      · rintro ⟨middle, ⟨here, firstFills⟩, secondFills⟩
        exact ⟨here, induction.2 ⟨middle, firstFills, secondFills⟩⟩

end

section

variable {ranges : List (α × α)} {start stop : α}

/-- Behind its first range a stretch is held by the others. -/
theorem allPoints_tail
    {first : α × α}
    (sorted : ∀ range ∈ ranges, first.1 ≤ range.1)
    (apart : ∀ range ∈ ranges, Apart first range)
    (nonempty : ∀ range ∈ ranges, range.1 < range.2)
    (forward : first.1 ≤ first.2)
    (whole : allPoints (first :: ranges) = Set.Ico first.1 stop) :
    allPoints ranges = Set.Ico first.2 stop := by
  ext point
  constructor
  · rintro ⟨range, member, inside⟩
    have behind :=
      (apart range member).stop_le (sorted range member)
        (nonempty range member)
    have known :=
      points_subset_allPoints (List.mem_cons_of_mem first member) inside
    rw [whole] at known
    exact ⟨behind.trans inside.1, known.2⟩
  · rintro ⟨behind, before⟩
    have known : point ∈ allPoints (first :: ranges) := by
      rw [whole]
      exact ⟨forward.trans behind, before⟩
    rw [allPoints_cons] at known
    rcases known with inFirst | inRest
    · exact absurd inFirst.2 (not_lt.2 behind)
    · exact inRest

/-- Sorted ranges that do not meet and hold a stretch follow each other. -/
theorem fills_of_allPoints
    (sorted : ranges.Pairwise fun left right => left.1 ≤ right.1)
    (apart : ranges.Pairwise Apart)
    (nonempty : ∀ range ∈ ranges, range.1 < range.2)
    (order : start ≤ stop) (whole : allPoints ranges = Set.Ico start stop) :
    Fills start ranges stop := by
  induction ranges generalizing start with
  | nil =>
      rw [allPoints_nil] at whole
      exact le_antisymm order (not_lt.1 (Set.Ico_eq_empty_iff.1 whole.symm))
  | cons first ranges induction =>
      rcases List.pairwise_cons.1 sorted with ⟨firstSorted, restSorted⟩
      rcases List.pairwise_cons.1 apart with ⟨firstApart, restApart⟩
      rcases List.forall_mem_cons.1 nonempty with ⟨firstNonempty, restNonempty⟩
      have inWhole :
          ∀ point ∈ points first, start ≤ point ∧ point < stop := by
        intro point inside
        have known : point ∈ allPoints (first :: ranges) :=
          points_subset_allPoints List.mem_cons_self inside
        rwa [whole] at known
      have firstIn := inWhole first.1 (start_mem_points firstNonempty)
      have startIn : start ∈ allPoints (first :: ranges) := by
        rw [whole]
        exact ⟨le_rfl, firstIn.1.trans_lt firstIn.2⟩
      have here : first.1 = start := by
        apply le_antisymm ?_ firstIn.1
        rcases startIn with ⟨range, member, lower, -⟩
        rcases List.mem_cons.1 member with rfl | later
        · exact lower
        · exact (firstSorted range later).trans lower
      subst here
      have ends : first.2 ≤ stop := by
        by_contra beyond
        have inFirst := inWhole stop ⟨firstIn.2.le, not_le.1 beyond⟩
        exact lt_irrefl _ inFirst.2
      have rest :=
        allPoints_tail firstSorted firstApart restNonempty firstNonempty.le
          whole
      exact ⟨rfl, induction restSorted restApart restNonempty ends rest⟩

/-- Ranges that follow each other hold the points of the stretch. -/
theorem Fills.allPoints_eq
    (fills : Fills start ranges stop)
    (forward : ∀ range ∈ ranges, range.1 ≤ range.2) :
    start ≤ stop ∧ allPoints ranges = Set.Ico start stop := by
  induction ranges generalizing start with
  | nil =>
      have same : start = stop := fills
      rw [same, allPoints_nil, Set.Ico_self]
      exact ⟨le_rfl, rfl⟩
  | cons first ranges induction =>
      rcases List.forall_mem_cons.1 forward with ⟨firstForward, restForward⟩
      rcases fills with ⟨rfl, rest⟩
      rcases induction rest restForward with ⟨order, points⟩
      rw [allPoints_cons, points]
      exact
        ⟨firstForward.trans order, Set.Ico_union_Ico_eq_Ico firstForward order⟩

theorem Fills.start_le
    (fills : Fills start ranges stop)
    (forward : ∀ range ∈ ranges, range.1 ≤ range.2) :
    ∀ range ∈ ranges, start ≤ range.1 := by
  induction ranges generalizing start with
  | nil =>
      intro range impossible
      cases impossible
  | cons first ranges induction =>
      rcases List.forall_mem_cons.1 forward with ⟨firstForward, restForward⟩
      rcases fills with ⟨rfl, rest⟩
      intro range member
      rcases List.mem_cons.1 member with rfl | later
      · exact le_rfl
      · exact firstForward.trans (induction rest restForward range later)

/-- Ranges that follow each other end each before the later ones start. -/
theorem Fills.pairwise
    (fills : Fills start ranges stop)
    (forward : ∀ range ∈ ranges, range.1 ≤ range.2) :
    ranges.Pairwise fun left right => left.2 ≤ right.1 := by
  induction ranges generalizing start with
  | nil => exact List.Pairwise.nil
  | cons first ranges induction =>
      rcases List.forall_mem_cons.1 forward with ⟨firstForward, restForward⟩
      exact
        List.Pairwise.cons (fills.2.start_le restForward)
          (induction fills.2 restForward)

end

/-! ## The range that starts last -/

/-- Of the ranges that no other one starts behind, the last in the list. -/
def highest (ranges : List (α × α)) : Option (α × α) :=
  (ranges.filter fun range =>
    ∀ other ∈ ranges, other.1 ≤ range.1).getLast?

section

variable {first second front : List (α × α)} {last : α × α}

theorem highest_concat (sorted : ∀ range ∈ front, range.1 ≤ last.1) :
    highest (front ++ [last]) = some last := by
  have noneBehind : ∀ other ∈ front ++ [last], other.1 ≤ last.1 := by
    intro other member
    rcases List.mem_append.1 member with inFront | isLast
    · exact sorted other inFront
    · cases List.mem_singleton.1 isLast
      exact le_rfl
  have kept :
      [last].filter
          (fun range => ∀ other ∈ front ++ [last], other.1 ≤ range.1) =
        [last] :=
    List.filter_cons_of_pos (decide_eq_true noneBehind)
  rw [highest, List.filter_append, kept, List.getLast?_concat]

/-- The ranges that no other one starts behind have one start. -/
theorem filter_noneBehind
    {list ranges : List (α × α)} {top : α × α}
    (inside : ∀ range ∈ list, range ∈ ranges) (known : top ∈ ranges)
    (noneBehind : ∀ other ∈ ranges, other.1 ≤ top.1) :
    list.filter (fun range => ∀ other ∈ ranges, other.1 ≤ range.1) =
      list.filter fun range => range.1 = top.1 := by
  apply List.filter_congr
  intro range member
  rw [decide_eq_decide]
  constructor
  · intro behindNone
    exact
      le_antisymm (noneBehind range (inside range member))
        (behindNone top known)
  · intro starts other inRanges
    rw [starts]
    exact noneBehind other inRanges

/-- Only the order of ranges with one start matters. -/
theorem highest_congr
    (perm : first.Perm second)
    (stable : ∀ start,
      first.filter (fun range => range.1 = start) =
        second.filter fun range => range.1 = start) :
    highest first = highest second := by
  have same :
      (fun range : α × α =>
          decide (∀ other ∈ first, other.1 ≤ range.1)) =
        fun range => decide (∀ other ∈ second, other.1 ≤ range.1) := by
    funext range
    simp only [perm.mem_iff]
  have inSecond : ∀ range ∈ first, range ∈ second :=
    fun range member => perm.mem_iff.1 member
  rw [highest, highest, same]
  apply congrArg
  by_cases found : ∃ range ∈ second, ∀ other ∈ second, other.1 ≤ range.1
  · rcases found with ⟨top, known, noneBehind⟩
    rw [filter_noneBehind inSecond known noneBehind,
      filter_noneBehind (fun _ => id) known noneBehind, stable]
  · have none :
        ∀ range ∈ second,
          ¬ decide (∀ other ∈ second, other.1 ≤ range.1) = true := by
      intro range member noneBehind
      exact found ⟨range, member, of_decide_eq_true noneBehind⟩
    rw [List.filter_eq_nil_iff.2 none, List.filter_eq_nil_iff.2]
    intro range member
    exact none range (inSecond range member)

/-- Ranges with points that do not meet start at different points. -/
theorem Apart.start_ne
    {left right : α × α} (apart : Apart left right)
    (leftNonempty : left.1 < left.2) (rightNonempty : right.1 < right.2) :
    left.1 ≠ right.1 := by
  intro same
  refine
    Set.disjoint_left.1 apart (start_mem_points leftNonempty) ?_
  rw [same]
  exact start_mem_points rightNonempty

/-- Sorting keeps the order of items that stand in any order. -/
theorem filter_insertionSort
    {β : Type} {relation : β → β → Prop} [DecidableRel relation]
    {list : List β} {keep : β → Bool}
    (related : (list.filter keep).Pairwise relation) :
    (list.insertionSort relation).filter keep = list.filter keep := by
  have inSorted :
      List.Sublist (list.filter keep) (list.insertionSort relation) :=
    List.sublist_insertionSort related List.filter_sublist
  have kept := inSorted.filter keep
  rw [List.filter_filter] at kept
  simp only [Bool.and_self] at kept
  have length :=
    ((List.perm_insertionSort relation list).filter keep).length_eq
  exact (kept.eq_of_length length.symm).symm

end

/-- The lengths of ranges of numbers that follow each other add up. -/
theorem Fills.sum_lengths
    {ranges : List (Nat × Nat)} {start stop : Nat}
    (fills : Fills start ranges stop)
    (forward : ∀ range ∈ ranges, range.1 ≤ range.2) :
    start + (ranges.map fun range => range.2 - range.1).sum = stop := by
  induction ranges generalizing start with
  | nil => exact fills
  | cons first ranges induction =>
      rcases List.forall_mem_cons.1 forward with ⟨firstForward, restForward⟩
      rcases fills with ⟨rfl, rest⟩
      have total := induction rest restForward
      rw [List.map_cons, List.sum_cons]
      omega

end Confos.Library.Ranges
