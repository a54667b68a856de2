import Confos.Tdx.AcceptedMemory

/-!
# Accepting disjoint ranges

Ranges of memory that do not meet can be accepted in any order.  The acceptor
then holds them as they were given, sorted among what is left of the memory:
its ranges follow each other over the whole of it, and what is left is never
split in two.
-/

namespace Confos.Tdx.DisjointAccepts

open Confos.Library.Ranges
open Confos.Tdx.AcceptedMemory
open Confos.Tdx.Rtmr0

/-- The ranges of the memory up to `size` in which the intervals are accepted. -/
structure Exact (size : Nat) (intervals : List (Nat × Nat))
    (ranges : List MemoryRange) : Prop where
  sorted : ranges.Pairwise fun left right => left.start < right.start
  nonempty : ∀ range ∈ ranges, range.start < range.stop
  fills : Fills 0 (ranges.map ends) size
  accepted : (rangesThatAre true ranges).Perm intervals
  alternates :
    ranges.IsChain fun left right => left.accepted ∨ right.accepted

/-! ## Ranges by their ends -/

/-- The range with these ends. -/
def rangeOf (accepted : Bool) (span : Nat × Nat) : MemoryRange :=
  { accepted, start := span.1, stop := span.2 }

/-- The ranges of one kind are told by their ends. -/
theorem map_rangeOf_rangesThatAre
    (accepted : Bool) (ranges : List MemoryRange) :
    (rangesThatAre accepted ranges).map (rangeOf accepted) =
      ranges.filter fun range => range.accepted = accepted := by
  have same :
      ∀ range ∈ ranges.filter fun range => range.accepted = accepted,
        (rangeOf accepted ∘ ends) range = id range := by
    intro range member
    have kind := of_decide_eq_true (List.mem_filter.1 member).2
    rw [← kind]
    rfl
  rw [rangesThatAre, List.map_map, List.map_congr_left same, List.map_id]

theorem perm_of_rangesThatAre
    {first second : List MemoryRange}
    (accepted : (rangesThatAre true first).Perm (rangesThatAre true second))
    (left : (rangesThatAre false first).Perm (rangesThatAre false second)) :
    first.Perm second := by
  have parts :
      ∀ ranges : List MemoryRange,
        ((rangesThatAre true ranges).map (rangeOf true) ++
          (rangesThatAre false ranges).map (rangeOf false)).Perm ranges := by
    intro ranges
    rw [map_rangeOf_rangesThatAre, map_rangeOf_rangesThatAre]
    have split :=
      List.filter_append_perm (fun range : MemoryRange => range.accepted)
        ranges
    simpa using split
  exact
    (parts first).symm.trans
      (((accepted.map _).append (left.map _)).trans (parts second))

/-! ## What an acceptor holds -/

section

variable
    {size : Nat} {intervals others : List (Nat × Nat)}
    {acceptor other : MemoryAcceptor}

/-- Ranges that follow each other have no gap, so only one of two is left. -/
theorem isChain_of_parted
    {ranges : List MemoryRange} {start stop : Nat}
    (fills : Fills start (ranges.map ends) stop)
    (nonempty : ∀ range ∈ ranges, range.start < range.stop)
    (parted : (rangesThatAre false ranges).Pairwise Parted) :
    ranges.IsChain fun left right => left.accepted ∨ right.accepted := by
  induction ranges generalizing start with
  | nil => exact List.IsChain.nil
  | cons first ranges induction =>
      rcases List.forall_mem_cons.1 nonempty with ⟨firstNonempty, restNonempty⟩
      have restParted : (rangesThatAre false ranges).Pairwise Parted := by
        rw [← List.singleton_append, rangesThatAre_append] at parted
        exact (List.pairwise_append.1 parted).2.1
      have rest := induction fills.2 restNonempty restParted
      cases ranges with
      | nil => exact List.IsChain.singleton _
      | cons second ranges =>
          refine List.IsChain.cons_cons ?_ rest
          by_contra neither
          rw [not_or, Bool.not_eq_true, Bool.not_eq_true] at neither
          have both :
              rangesThatAre false (first :: second :: ranges) =
                ends first :: ends second :: rangesThatAre false ranges := by
            simp [rangesThatAre, neither.1, neither.2]
          rw [both, List.pairwise_cons] at parted
          have follows : second.start = first.stop := fills.2.1
          rcases parted.1 (ends second) List.mem_cons_self with
            before | behind
          · have gap : first.stop < second.start := before
            omega
          · have gap : second.stop < first.start := behind
            have secondNonempty := restNonempty second List.mem_cons_self
            omega

theorem allPoints_subset_of_inside
    (inside : ∀ interval ∈ intervals, interval.2 ≤ size) :
    allPoints intervals ⊆ points (0, size) := by
  rintro point ⟨interval, member, -, upper⟩
  exact ⟨Nat.zero_le _, upper.trans_le (inside interval member)⟩

theorem exact_of_accepts
    (accepts : Accepts (0, size) intervals acceptor)
    (positive : 0 < size)
    (nonempty : ∀ interval ∈ intervals, interval.1 < interval.2)
    (inside : ∀ interval ∈ intervals, interval.2 ≤ size)
    (apart : intervals.Pairwise Apart) :
    Exact size intervals acceptor.ranges := by
  have rangesNonempty := accepts.nonempty nonempty positive
  have endsNonempty :
      ∀ span ∈ acceptor.ranges.map ends, span.1 < span.2 := by
    rw [List.forall_mem_map]
    exact rangesNonempty
  have whole : allPoints (acceptor.ranges.map ends) = Set.Ico 0 size := by
    rw [accepts.allPoints_eq]
    exact Set.union_eq_self_of_subset_left (allPoints_subset_of_inside inside)
  have sortedEnds :
      (acceptor.ranges.map ends).Pairwise fun left right =>
        left.1 ≤ right.1 :=
    List.pairwise_map.2 accepts.sorted
  have fills : Fills 0 (acceptor.ranges.map ends) size :=
    fills_of_allPoints sortedEnds ((accepts.pairwise_iff nonempty).2 apart)
      endsNonempty positive.le whole
  have follows :=
    List.pairwise_map.1
      (fills.pairwise fun span member => (endsNonempty span member).le)
  have parted : (rangesThatAre false acceptor.ranges).Pairwise Parted :=
    (accepts.left.pairwise_iff Parted.symm).2
      (pairwise_parted_leftOver positive.le nonempty)
  constructor
  · refine follows.imp_of_mem ?_
    intro left right inLeft _ before
    exact (rangesNonempty left inLeft).trans_le before
  · exact rangesNonempty
  · exact fills
  · exact accepts.accepted
  · exact isChain_of_parted fills rangesNonempty parted

/-- Only the ranges that are accepted matter, not their order. -/
theorem ranges_eq_of_accepts
    (accepts : Accepts (0, size) intervals acceptor)
    (otherAccepts : Accepts (0, size) others other)
    (positive : 0 < size) (perm : others.Perm intervals)
    (nonempty : ∀ interval ∈ intervals, interval.1 < interval.2)
    (exact : Exact size intervals acceptor.ranges)
    (otherExact : Exact size others other.ranges) :
    other.ranges = acceptor.ranges := by
  have sameAccepted :=
    otherAccepts.accepted.trans (perm.trans accepts.accepted.symm)
  have sameLeft :=
    otherAccepts.left.trans
      ((leftOver_perm perm.symm positive nonempty).symm.trans
        accepts.left.symm)
  apply
    (perm_of_rangesThatAre sameAccepted sameLeft).eq_of_pairwise ?_
      otherExact.sorted exact.sorted
  intro left right _ _ before behind
  exact absurd before (lt_asymm behind)

end

/-! ## Accepting in any order -/

/-- Disjoint intervals are accepted exactly, in whatever order they come. -/
theorem acceptAll_exact
    {size : Nat} {intervals : List (Nat × Nat)}
    (positive : 0 < size) (word : size < 2 ^ 64)
    (nonempty : ∀ interval ∈ intervals, interval.1 < interval.2)
    (inside : ∀ interval ∈ intervals, interval.2 ≤ size)
    (apart : intervals.Pairwise Apart) :
    ∃ acceptor,
      MemoryAcceptor.new 0 size = .ok acceptor ∧
        Exact size intervals (acceptAll acceptor intervals).ranges ∧
          ∀ others : List (Nat × Nat), others.Perm intervals →
            (acceptAll acceptor others).ranges =
              (acceptAll acceptor intervals).ranges := by
  have created :
      MemoryAcceptor.new 0 size =
        .ok
          { ranges := [{ accepted := false, start := 0, stop := size }] } := by
    rw [MemoryAcceptor.new, Nat.zero_add, if_pos word]
  refine ⟨_, created, ?_⟩
  have accepts := (accepts_whole 0 size).acceptAll nonempty
  rw [List.nil_append] at accepts
  have exact := exact_of_accepts accepts positive nonempty inside apart
  refine ⟨exact, ?_⟩
  intro others perm
  have othersNonempty : ∀ interval ∈ others, interval.1 < interval.2 :=
    fun interval member => nonempty interval (perm.mem_iff.1 member)
  have othersInside : ∀ interval ∈ others, interval.2 ≤ size :=
    fun interval member => inside interval (perm.mem_iff.1 member)
  have othersApart : others.Pairwise Apart :=
    (perm.pairwise_iff Apart.symm).2 apart
  have othersAccepts := (accepts_whole 0 size).acceptAll othersNonempty
  rw [List.nil_append] at othersAccepts
  exact
    ranges_eq_of_accepts accepts othersAccepts positive perm nonempty exact
      (exact_of_accepts othersAccepts positive othersNonempty othersInside
        othersApart)

/-- Two intervals that touch, the later one accepted first. -/
theorem acceptAll_exact_touching :
    ∃ acceptor,
      MemoryAcceptor.new 0 0x2000 = .ok acceptor ∧
        Exact 0x2000 [(0x1000, 0x1800), (0x800, 0x1000)]
            (acceptAll acceptor [(0x1000, 0x1800), (0x800, 0x1000)]).ranges ∧
          ∀ others : List (Nat × Nat),
            others.Perm [(0x1000, 0x1800), (0x800, 0x1000)] →
              (acceptAll acceptor others).ranges =
                (acceptAll acceptor
                    [(0x1000, 0x1800), (0x800, 0x1000)]).ranges := by
  apply acceptAll_exact (by decide) (by decide) (by decide) (by decide)
  refine List.Pairwise.cons ?_ (List.pairwise_singleton _ _)
  intro interval member
  cases List.mem_singleton.1 member
  apply Set.disjoint_left.2
  intro point above below
  exact absurd below.2 (not_lt.2 above.1)

end Confos.Tdx.DisjointAccepts
