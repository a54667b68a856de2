import Confos.Library.Fallible
import Confos.Library.Ranges
import Confos.Tdx.Rtmr0

/-!
# Accepted memory

The acceptor keeps guest memory as a sorted list of ranges.  Its accepted ones
are the sections, one for each, and the others are what is left of the memory
when the sections are cut out of it.
-/

namespace Confos.Tdx.AcceptedMemory

open Confos.Library.ByteStrings
open Confos.Library.Fallible
open Confos.Library.Ranges
open Confos.Tdx.Firmware
open Confos.Tdx.Rtmr0

/-! ## Sections -/

/-- A section that the hand-off block states as accepted. -/
def IsAccepted (entry : TdvfSection) : Prop :=
  entry.secType = tdvfSectionTdHob ∨ entry.secType = tdvfSectionTempMem

instance (entry : TdvfSection) : Decidable (IsAccepted entry) :=
  inferInstanceAs (Decidable (_ ∨ _))

/-- The memory range of a section. -/
def memoryRange (entry : TdvfSection) : Nat × Nat :=
  (entry.memoryAddress.toNat,
    entry.memoryAddress.toNat + entry.memoryDataSize.toNat)

/-- The accepted sections that have memory, in firmware order. -/
def acceptedRanges (entries : List TdvfSection) : List (Nat × Nat) :=
  (entries.filter fun entry =>
    IsAccepted entry ∧ 0 < entry.memoryDataSize.toNat).map memoryRange

/-! ## The acceptor -/

def ends (range : MemoryRange) : Nat × Nat :=
  (range.start, range.stop)

/-- The ranges of an acceptor that are accepted, or that are not. -/
def rangesThatAre (accepted : Bool) (ranges : List MemoryRange) :
    List (Nat × Nat) :=
  (ranges.filter fun range => range.accepted = accepted).map ends

/--
The acceptor of some memory in which some ranges have been accepted: its own
ranges are those ranges and what is left of the memory, sorted.
-/
structure Accepts (memory : Nat × Nat) (ranges : List (Nat × Nat))
    (acceptor : MemoryAcceptor) : Prop where
  accepted : (rangesThatAre true acceptor.ranges).Perm ranges
  left :
    (rangesThatAre false acceptor.ranges).Perm (leftOver memory ranges)
  sorted :
    acceptor.ranges.Pairwise fun left right => left.start ≤ right.start

section

variable
    {memory : Nat × Nat} {ranges : List (Nat × Nat)}
    {acceptor : MemoryAcceptor} {start stop : Nat}

theorem rangesThatAre_append
    (accepted : Bool) (first second : List MemoryRange) :
    rangesThatAre accepted (first ++ second) =
      rangesThatAre accepted first ++ rangesThatAre accepted second := by
  rw [rangesThatAre, List.filter_append, List.map_append]
  rfl

theorem rangesThatAre_perm
    (accepted : Bool) {first second : List MemoryRange}
    (perm : first.Perm second) :
    (rangesThatAre accepted first).Perm (rangesThatAre accepted second) :=
  (perm.filter _).map _

/-- An accepted range stays; the others are cut. -/
theorem rangesThatAre_without (range : MemoryRange) :
    rangesThatAre true (range.without start stop) =
        rangesThatAre true [range] ∧
      rangesThatAre false (range.without start stop) =
        (rangesThatAre false [range]).flatMap (cutOut (start, stop)) := by
  cases range with
  | mk accepted first last =>
      cases accepted with
      | true => exact ⟨rfl, rfl⟩
      | false =>
          have single :
              (rangesThatAre false
                  [{ accepted := false, start := first, stop := last }]).flatMap
                  (cutOut (start, stop)) =
                cutOut (start, stop) (first, last) :=
            List.append_nil _
          rw [single, MemoryRange.without, cutOut]
          by_cases apart : last ≤ start ∨ stop ≤ first
          · rw [if_pos apart, if_pos (Or.inr apart)]
            exact ⟨rfl, rfl⟩
          · rw [if_neg apart, if_neg (by simpa using apart),
              rangesThatAre_append, rangesThatAre_append]
            constructor
            · split
              · split <;> rfl
              · split <;> rfl
            · split
              · split <;> rfl
              · split <;> rfl

theorem rangesThatAre_flatMap_without (list : List MemoryRange) :
    rangesThatAre true (list.flatMap fun range => range.without start stop) =
        rangesThatAre true list ∧
      rangesThatAre false (list.flatMap fun range => range.without start stop) =
        (rangesThatAre false list).flatMap (cutOut (start, stop)) := by
  induction list with
  | nil => exact ⟨rfl, rfl⟩
  | cons range list induction =>
      rcases @rangesThatAre_without start stop range with ⟨kept, cut⟩
      rw [List.flatMap_cons, rangesThatAre_append, rangesThatAre_append,
        induction.1, induction.2, kept, cut, ← List.flatMap_append,
        ← rangesThatAre_append, ← rangesThatAre_append]
      exact ⟨rfl, rfl⟩

/-- What an acceptor is once one more range is accepted. -/
theorem Accepts.accept
    (accepts : Accepts memory ranges acceptor) (nonempty : start < stop) :
    Accepts memory (ranges ++ [(start, stop)]) (acceptor.accept start stop) := by
  rw [MemoryAcceptor.accept, if_neg (not_le.2 nonempty)]
  rcases @rangesThatAre_flatMap_without start stop acceptor.ranges with
    ⟨kept, cut⟩
  have perm :=
    fun accepted =>
      rangesThatAre_perm accepted
        (List.perm_insertionSort
          (fun left right : MemoryRange => left.start ≤ right.start)
          (acceptor.ranges.flatMap (fun range => range.without start stop) ++
            [{ accepted := true, start, stop }]))
  constructor
  · refine (perm true).trans ?_
    rw [rangesThatAre_append, kept]
    exact accepts.accepted.append_right _
  · refine (perm false).trans ?_
    rw [rangesThatAre_append, cut, leftOver_concat]
    have none :
        rangesThatAre false [{ accepted := true, start, stop }] = [] :=
      rfl
    rw [none, List.append_nil]
    exact accepts.left.flatMap_right _
  · exact List.pairwise_insertionSort _ _

/-- Memory in which nothing is accepted yet. -/
theorem accepts_whole (start stop : Nat) :
    Accepts (start, stop) []
      { ranges := [{ accepted := false, start, stop }] } where
  accepted := List.Perm.nil
  left := List.Perm.refl _
  sorted := List.pairwise_singleton _ _

/-- The ranges of an acceptor are the accepted ones and what is left. -/
theorem Accepts.perm (accepts : Accepts memory ranges acceptor) :
    (acceptor.ranges.map ends).Perm (ranges ++ leftOver memory ranges) := by
  have split :
      (rangesThatAre true acceptor.ranges ++
          rangesThatAre false acceptor.ranges).Perm
        (acceptor.ranges.map ends) := by
    rw [rangesThatAre, rangesThatAre, ← List.map_append]
    apply List.Perm.map
    have parts :=
      List.filter_append_perm (fun range : MemoryRange => range.accepted)
        acceptor.ranges
    simpa using parts
  exact split.symm.trans (accepts.accepted.append accepts.left)

theorem Accepts.allPoints_eq (accepts : Accepts memory ranges acceptor) :
    allPoints (acceptor.ranges.map ends) =
      allPoints ranges ∪ points memory := by
  rw [allPoints_perm accepts.perm, allPoints_append, allPoints_leftOver,
    Set.union_sdiff_self]

/-- The ranges meet only where two accepted ones do. -/
theorem Accepts.pairwise_iff
    (accepts : Accepts memory ranges acceptor)
    (nonempty : ∀ range ∈ ranges, range.1 < range.2) :
    (acceptor.ranges.map ends).Pairwise Apart ↔ ranges.Pairwise Apart := by
  rw [accepts.perm.pairwise_iff Apart.symm, List.pairwise_append]
  constructor
  · exact And.left
  · intro apart
    refine ⟨apart, pairwise_leftOver nonempty, ?_⟩
    intro range member other inLeft
    exact apart_leftOver member inLeft

theorem Accepts.nonempty
    (accepts : Accepts memory ranges acceptor)
    (nonempty : ∀ range ∈ ranges, range.1 < range.2)
    (memoryNonempty : memory.1 < memory.2) :
    ∀ range ∈ acceptor.ranges, range.start < range.stop := by
  intro range member
  have known := accepts.perm.mem_iff.1 (List.mem_map_of_mem (f := ends) member)
  rcases List.mem_append.1 known with inRanges | inLeft
  · exact nonempty _ inRanges
  · exact nonempty_leftOver memoryNonempty _ inLeft

theorem Accepts.forward
    (accepts : Accepts memory ranges acceptor)
    (nonempty : ∀ range ∈ ranges, range.1 < range.2)
    (memoryForward : memory.1 ≤ memory.2) :
    ∀ range ∈ acceptor.ranges, range.start ≤ range.stop := by
  intro range member
  have known := accepts.perm.mem_iff.1 (List.mem_map_of_mem (f := ends) member)
  rcases List.mem_append.1 known with inRanges | inLeft
  · exact (nonempty _ inRanges).le
  · exact (bounds_leftOver memoryForward _ inLeft).2.1

/-- An acceptor has ranges. -/
theorem Accepts.ranges_ne_nil (accepts : Accepts memory ranges acceptor) :
    acceptor.ranges ≠ [] := by
  intro none
  have perm := accepts.perm
  rw [none] at perm
  rcases List.append_eq_nil_iff.1 perm.nil_eq.symm with ⟨rfl, noLeft⟩
  cases noLeft

/-- The accepted ranges of the acceptor. -/
theorem Accepts.mem_iff
    (accepts : Accepts memory ranges acceptor) {span : Nat × Nat} :
    span ∈ ranges ↔
      ∃ range ∈ acceptor.ranges, range.accepted = true ∧ ends range = span := by
  rw [← accepts.accepted.mem_iff, rangesThatAre, List.mem_map]
  simp only [List.mem_filter, decide_eq_true_eq, and_assoc]

theorem Accepts.mem_leftOver_iff
    (accepts : Accepts memory ranges acceptor) {span : Nat × Nat} :
    span ∈ leftOver memory ranges ↔
      ∃ range ∈ acceptor.ranges, range.accepted = false ∧ ends range = span := by
  rw [← accepts.left.mem_iff, rangesThatAre, List.mem_map]
  simp only [List.mem_filter, decide_eq_true_eq, and_assoc]

end

/-! ## The loop over the sections -/

section

variable
    {entry : TdvfSection} {entries : List TdvfSection}
    {memory : Nat × Nat} {ranges : List (Nat × Nat)}
    {state after : MemoryAcceptor × Nat}

theorem mem_acceptedRanges_iff {range : Nat × Nat} :
    range ∈ acceptedRanges entries ↔
      ∃ entry ∈ entries, IsAccepted entry ∧ 0 < entry.memoryDataSize.toNat ∧
        memoryRange entry = range := by
  rw [acceptedRanges, List.mem_map]
  simp only [List.mem_filter, decide_eq_true_eq, and_assoc]

theorem nonempty_acceptedRanges :
    ∀ range ∈ acceptedRanges entries, range.1 < range.2 := by
  intro range member
  rcases mem_acceptedRanges_iff.1 member with ⟨entry, -, -, positive, rfl⟩
  exact Nat.lt_add_of_pos_right positive

/-- The points of the accepted sections, with memory or without. -/
theorem allPoints_acceptedRanges {point : Nat} :
    point ∈ allPoints (acceptedRanges entries) ↔
      ∃ entry ∈ entries, IsAccepted entry ∧ point ∈ points (memoryRange entry) := by
  constructor
  · rintro ⟨range, member, inside⟩
    rcases mem_acceptedRanges_iff.1 member with
      ⟨entry, known, accepted, -, rfl⟩
    exact ⟨entry, known, accepted, inside⟩
  · rintro ⟨entry, known, accepted, lower, upper⟩
    have positive : 0 < entry.memoryDataSize.toNat := by
      have first : entry.memoryAddress.toNat ≤ point := lower
      have last :
          point < entry.memoryAddress.toNat + entry.memoryDataSize.toNat :=
        upper
      omega
    exact
      ⟨memoryRange entry,
        mem_acceptedRanges_iff.2 ⟨entry, known, accepted, positive, rfl⟩,
        lower, upper⟩

theorem acceptedRanges_cons (entry : TdvfSection) (entries : List TdvfSection) :
    acceptedRanges (entry :: entries) =
      acceptedRanges [entry] ++ acceptedRanges entries := by
  rw [acceptedRanges, acceptedRanges, acceptedRanges, ← List.map_append,
    ← List.filter_append]
  rfl

/-- An acceptor after some ranges have been accepted. -/
def acceptAll (acceptor : MemoryAcceptor) (ranges : List (Nat × Nat)) :
    MemoryAcceptor :=
  ranges.foldl (fun acceptor range => acceptor.accept range.1 range.2) acceptor

/-- Where the block is placed: the last TD_HOB section, or the address so far. -/
def hobBase (base : Nat) (entries : List TdvfSection) : Nat :=
  entries.foldl
    (fun base entry =>
      if entry.secType = tdvfSectionTdHob then entry.memoryAddress.toNat
      else base)
    base

theorem acceptAll_append
    (acceptor : MemoryAcceptor) (first second : List (Nat × Nat)) :
    acceptAll acceptor (first ++ second) =
      acceptAll (acceptAll acceptor first) second :=
  List.foldl_append ..

/-- A section without memory is accepted without a change. -/
theorem acceptAll_singleton (acceptor : MemoryAcceptor) (entry : TdvfSection) :
    acceptAll acceptor (acceptedRanges [entry]) =
      if IsAccepted entry then
        acceptor.accept (memoryRange entry).1 (memoryRange entry).2
      else acceptor := by
  by_cases accepted : IsAccepted entry
  · rw [if_pos accepted]
    by_cases positive : 0 < entry.memoryDataSize.toNat
    · rw [acceptedRanges,
        List.filter_cons_of_pos (by simp [accepted, positive])]
      rfl
    · have empty : (memoryRange entry).2 ≤ (memoryRange entry).1 := by
        rw [memoryRange]
        omega
      rw [acceptedRanges, List.filter_cons_of_neg (by simp [positive]),
        MemoryAcceptor.accept, if_pos empty]
      rfl
  · rw [if_neg accepted, acceptedRanges,
      List.filter_cons_of_neg (by simp [accepted])]
    rfl

/-- One section is refused or accepted, by its kind and by its end. -/
theorem acceptSection_eq
    (state : MemoryAcceptor × Nat) (entry : TdvfSection) :
    acceptSection state entry =
      if IsAccepted entry ∧ 2 ^ 64 ≤ (memoryRange entry).2 then
        .error "section memory_address + memory_data_size overflow"
      else
        .ok
          (acceptAll state.1 (acceptedRanges [entry]),
            hobBase state.2 [entry]) := by
  rw [acceptAll_singleton, acceptSection]
  dsimp only
  by_cases accepted : IsAccepted entry
  · have kind :
        entry.secType = tdvfSectionTdHob ∨
          entry.secType = tdvfSectionTempMem :=
      accepted
    rw [if_pos kind, if_pos accepted]
    by_cases fits : (memoryRange entry).2 < 2 ^ 64
    · have inside : ¬ (IsAccepted entry ∧ 2 ^ 64 ≤ (memoryRange entry).2) := by
        rintro ⟨-, beyond⟩
        exact absurd fits (not_lt.2 beyond)
      exact (if_pos fits).trans (if_neg inside).symm
    · exact (if_neg fits).trans (if_pos ⟨accepted, not_lt.1 fits⟩).symm
  · have inside : ¬ (IsAccepted entry ∧ 2 ^ 64 ≤ (memoryRange entry).2) := by
      rintro ⟨isAccepted, -⟩
      exact accepted isAccepted
    have other :
        ¬ (entry.secType = tdvfSectionTdHob ∨
          entry.secType = tdvfSectionTempMem) :=
      accepted
    rw [if_neg other, if_neg accepted]
    exact (if_neg inside).symm

/-- The loop goes through exactly if the accepted sections end in 64 bits. -/
theorem foldlM_acceptSection_eq_ok_iff :
    entries.foldlM acceptSection state = .ok after ↔
      (∀ entry ∈ entries,
        IsAccepted entry → (memoryRange entry).2 < 2 ^ 64) ∧
        after =
          (acceptAll state.1 (acceptedRanges entries),
            hobBase state.2 entries) := by
  induction entries generalizing state with
  | nil =>
      constructor
      · intro folded
        cases folded
        exact ⟨fun _ impossible => absurd impossible List.not_mem_nil, rfl⟩
      · rintro ⟨-, rfl⟩
        rfl
  | cons entry entries induction =>
      rw [List.foldlM_cons, acceptSection_eq, List.forall_mem_cons,
        acceptedRanges_cons entry entries, acceptAll_append]
      by_cases overflows : IsAccepted entry ∧ 2 ^ 64 ≤ (memoryRange entry).2
      · rw [if_pos overflows]
        constructor
        · intro impossible
          cases impossible
        · rintro ⟨⟨fits, -⟩, -⟩
          exact absurd (fits overflows.1) (not_lt.2 overflows.2)
      · rw [if_neg overflows]
        have fits : IsAccepted entry → (memoryRange entry).2 < 2 ^ 64 := by
          intro accepted
          by_contra beyond
          exact overflows ⟨accepted, not_lt.1 beyond⟩
        refine (@induction (_, _)).trans ?_
        rw [and_iff_right fits]
        rfl

/-- The ranges of an acceptor grow by the ranges that are accepted. -/
theorem Accepts.acceptAll
    {acceptor : MemoryAcceptor} {more : List (Nat × Nat)}
    (accepts : Accepts memory ranges acceptor)
    (nonempty : ∀ range ∈ more, range.1 < range.2) :
    Accepts memory (ranges ++ more)
      (AcceptedMemory.acceptAll acceptor more) := by
  induction more generalizing ranges acceptor with
  | nil =>
      rw [List.append_nil]
      exact accepts
  | cons range more induction =>
      rcases List.forall_mem_cons.1 nonempty with ⟨first, others⟩
      have next := induction (accepts.accept first) others
      rwa [List.append_assoc] at next

/-- Accepted ranges with one start stay in the order they were accepted in. -/
theorem filter_rangesThatAre_accept
    (acceptor : MemoryAcceptor) {start stop : Nat} (nonempty : start < stop)
    (first : Nat) :
    (rangesThatAre true (acceptor.accept start stop).ranges).filter
        (fun range => range.1 = first) =
      (rangesThatAre true acceptor.ranges ++ [(start, stop)]).filter
        fun range => range.1 = first := by
  rcases @rangesThatAre_flatMap_without start stop acceptor.ranges with
    ⟨kept, -⟩
  have added :
      rangesThatAre true [{ accepted := true, start, stop }] =
        [(start, stop)] :=
    rfl
  rw [MemoryAcceptor.accept, if_neg (not_le.2 nonempty), ← kept, ← added,
    ← rangesThatAre_append]
  simp only [rangesThatAre, List.filter_map, List.filter_filter]
  apply congrArg
  apply filter_insertionSort
  rw [List.pairwise_filter]
  apply List.pairwise_of_forall
  intro left right leftKept rightKept
  have leftStart := of_decide_eq_true (Bool.and_eq_true_iff.1 leftKept).1
  have rightStart := of_decide_eq_true (Bool.and_eq_true_iff.1 rightKept).1
  exact leftStart.trans_le rightStart.ge

theorem filter_rangesThatAre_acceptAll
    {acceptor : MemoryAcceptor} {more : List (Nat × Nat)}
    (nonempty : ∀ range ∈ more, range.1 < range.2) (first : Nat) :
    (rangesThatAre true (acceptAll acceptor more).ranges).filter
        (fun range => range.1 = first) =
      (rangesThatAre true acceptor.ranges ++ more).filter
        fun range => range.1 = first := by
  induction more generalizing acceptor with
  | nil => rw [List.append_nil]; rfl
  | cons range more induction =>
      rcases List.forall_mem_cons.1 nonempty with ⟨here, others⟩
      have next := @induction (acceptor.accept range.1 range.2) others
      rw [List.filter_append, filter_rangesThatAre_accept acceptor here,
        ← List.filter_append, List.append_assoc] at next
      exact next

/-- A start of a range that is left is the start of that range only. -/
theorem eq_of_start_leftOver
    {range other : Nat × Nat} (memoryNonempty : memory.1 < memory.2)
    (nonempty : ∀ range ∈ ranges, range.1 < range.2)
    (inLeft : range ∈ leftOver memory ranges)
    (known : other ∈ ranges ++ leftOver memory ranges)
    (sameStart : other.1 = range.1) :
    other = range := by
  have rangeNonempty := nonempty_leftOver memoryNonempty range inLeft
  by_contra different
  rcases List.mem_append.1 known with accepted | left
  · exact
      (apart_leftOver accepted inLeft).start_ne (nonempty other accepted)
        rangeNonempty sameStart
  · exact
      ((pairwise_leftOver nonempty).forall left inLeft different).start_ne
        (nonempty_leftOver memoryNonempty other left) rangeNonempty sameStart

/-- The ranges of an acceptor with one start stand as they were accepted. -/
theorem Accepts.filter_start
    {acceptor : MemoryAcceptor}
    (accepts : Accepts memory ranges acceptor)
    (memoryNonempty : memory.1 < memory.2)
    (nonempty : ∀ range ∈ ranges, range.1 < range.2) {first : Nat}
    (stable :
      (rangesThatAre true acceptor.ranges).filter
          (fun range => range.1 = first) =
        ranges.filter fun range => range.1 = first) :
    (acceptor.ranges.map ends).filter (fun range => range.1 = first) =
      (ranges ++ leftOver memory ranges).filter
        fun range => range.1 = first := by
  by_cases starts : ∃ range ∈ leftOver memory ranges, range.1 = first
  · -- The one range that starts here is one that is left.
    rcases starts with ⟨range, inLeft, rfl⟩
    have only :
        ∀ other ∈
            (ranges ++ leftOver memory ranges).filter
              fun other => other.1 = range.1,
          other = range := by
      intro other member
      rcases List.mem_filter.1 member with ⟨known, starts⟩
      exact
        eq_of_start_leftOver memoryNonempty nonempty inLeft known
          (of_decide_eq_true starts)
    rw [List.eq_replicate_of_mem only]
    apply List.perm_replicate.1
    rw [← List.eq_replicate_of_mem only]
    exact accepts.perm.filter _
  · -- All ranges that start here are accepted.
    have noLeft :
        (leftOver memory ranges).filter (fun range => range.1 = first) =
          [] := by
      apply List.filter_eq_nil_iff.2
      intro range member isFirst
      exact starts ⟨range, member, of_decide_eq_true isFirst⟩
    rw [List.filter_append, noLeft, List.append_nil, ← stable, rangesThatAre]
    simp only [List.filter_map, List.filter_filter]
    apply congrArg
    apply List.filter_congr
    intro range member
    cases accepted : range.accepted with
    | true => simp
    | false =>
        have inLeft :=
          accepts.mem_leftOver_iff.2 ⟨range, member, accepted, rfl⟩
        have elsewhere : ¬ (ends range).1 = first :=
          fun starts' => starts ⟨_, inLeft, starts'⟩
        simp [elsewhere]

/-- The last range of an acceptor is the one that starts last. -/
theorem getLast?_acceptAll
    {stop : Nat} {more : List (Nat × Nat)} (positive : 0 < stop)
    (nonempty : ∀ range ∈ more, range.1 < range.2) :
    ((acceptAll
        { ranges := [{ accepted := false, start := 0, stop }] }
        more).ranges.getLast?).map ends =
      highest (more ++ leftOver (0, stop) more) := by
  have accepts := (accepts_whole 0 stop).acceptAll nonempty
  rw [List.nil_append] at accepts
  have stable :=
    fun first =>
      accepts.filter_start positive nonempty
        (filter_rangesThatAre_acceptAll nonempty first)
  rw [← highest_congr accepts.perm stable]
  rcases List.eq_nil_or_concat
      (acceptAll
        { ranges := [{ accepted := false, start := 0, stop }] }
        more).ranges with
    none | ⟨front, last, parts⟩
  · exact absurd none accepts.ranges_ne_nil
  rw [List.concat_eq_append] at parts
  have sorted := accepts.sorted
  rw [parts] at sorted ⊢
  rw [List.getLast?_concat, List.map_append]
  symm
  apply highest_concat
  intro range member
  rcases List.mem_map.1 member with ⟨known, inFront, rfl⟩
  exact
    (List.pairwise_append.1 sorted).2.2 known inFront last
      (List.mem_singleton_self _)

end

end Confos.Tdx.AcceptedMemory
