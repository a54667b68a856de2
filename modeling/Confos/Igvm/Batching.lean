import Confos.Igvm.Measure
import Confos.Library.Fallible
import Mathlib.Data.List.SplitBy

/-!
# What the batching of page data measures

The walk of `measureSnp` holds page data back in a batch while parameter
inserts jump ahead of it.  Here the order this produces is stated without any
batch: the compatible page data is split into maximal runs, and each run is
measured right after the inserts that stand between it and the next run.  The
walk then computes the plain fold of `updatePageInfo` over that order.
-/

namespace Confos.Igvm.Batching

open Confos.Library.ByteStrings
open Confos.Library.Fallible
open Confos.Igvm.Directives
open Confos.Igvm.Measure

/-! ## The compatible directives -/

/-- A compatible page with the index of its directive and its has-data flag. -/
structure IndexedPage where
  idx : Nat
  page : PendingPage
  hasData : Bool

/-- A compatible insert: the index of its directive and its pages. -/
structure IndexedInsert where
  idx : Nat
  pages : List PendingPage

section

variable (sha384 : Bytes → Digest) (igvmCrate : IgvmCrate)
variable (snpCompat : UInt32) (paramAreas : List (UInt32 × UInt64))

def asPage? (indexed : IgvmDirectiveHeader × Nat) : Option IndexedPage :=
  match indexed.1 with
  | .pageData gpa compatibilityMask flags dataType data =>
      if compatibilityMask &&& snpCompat = 0 then
        none
      else
        let (pageType, contents, hasData) :=
          classifyPageData sha384 dataType flags data
        some {
          idx := indexed.2
          page := { gpa, pageType, contents }
          hasData }
  | _ => none

/-- An insert of an unknown area has no pages; the walk fails on it. -/
def asInsert? (indexed : IgvmDirectiveHeader × Nat) : Option IndexedInsert :=
  match indexed.1 with
  | .parameterInsert parameterAreaIndex gpa compatibilityMask =>
      if compatibilityMask &&& snpCompat = 0 then
        none
      else
        some {
          idx := indexed.2
          pages :=
            insertPages gpa ((paramAreas.lookup parameterAreaIndex).getD 0) }
  | _ => none

def asVmsa? (directive : IgvmDirectiveHeader) : Option Bytes :=
  match directive with
  | .snpVpContext _ compatibilityMask _ vmsa =>
      if compatibilityMask &&& snpCompat = 0 then
        none
      else
        some (vmsaPage (igvmCrate.vmsaAsBytes vmsa))
  | _ => none

/-- The compatible page data in directive order. -/
def compatiblePages (directives : List IgvmDirectiveHeader) : List IndexedPage :=
  directives.zipIdx.filterMap (asPage? sha384 snpCompat)

/-- The compatible inserts in directive order. -/
def compatibleInserts
    (directives : List IgvmDirectiveHeader) : List IndexedInsert :=
  directives.zipIdx.filterMap (asInsert? snpCompat paramAreas)

/-- The measured pages of the compatible VMSAs in directive order. -/
def compatibleVmsas (directives : List IgvmDirectiveHeader) : List Bytes :=
  directives.filterMap (asVmsa? igvmCrate snpCompat)

/-! ## Runs and the measured order -/

/-- `next` continues the run that ends in `page`. -/
def Follows (page next : IndexedPage) : Prop :=
  next.idx = page.idx + 1 ∧
    next.page.gpa.toNat = page.page.gpa.toNat + pageSize ∧
    next.page.pageType = page.page.pageType ∧
    next.hasData = page.hasData

instance (page next : IndexedPage) : Decidable (Follows page next) :=
  inferInstanceAs (Decidable (_ ∧ _))

/-- The maximal runs of a page list. -/
def runs (pages : List IndexedPage) : List (List IndexedPage) :=
  pages.splitBy fun page next => decide (Follows page next)

/-- The pages of the inserts whose index passes `keep`. -/
def insertedWhere
    (inserts : List IndexedInsert) (keep : Nat → Bool) : List PendingPage :=
  (inserts.filter fun insert => keep insert.idx).flatMap (·.pages)

/-- `idx` lies after the last page of `run`. -/
def afterRun (run : List IndexedPage) (idx : Nat) : Bool :=
  run.getLast?.all fun last => last.idx < idx

/-- `idx` lies before the first page of the first run, if there is one. -/
def beforeRuns (rest : List (List IndexedPage)) (idx : Nat) : Bool :=
  rest.head?.all fun run => run.head?.all fun first => idx < first.idx

/-- Every run right after the inserts between it and the next run. -/
def measuredRuns
    (inserts : List IndexedInsert) : List (List IndexedPage) → List PendingPage
  | [] => []
  | run :: rest =>
      insertedWhere inserts
          (fun idx => afterRun run idx && beforeRuns rest idx) ++
        run.map (·.page) ++
        measuredRuns inserts rest

/-- The inserts before the first run, then the runs with their inserts. -/
def measuredBeforeVmsas
    (inserts : List IndexedInsert) (pages : List IndexedPage) :
    List PendingPage :=
  insertedWhere inserts (beforeRuns (runs pages)) ++
    measuredRuns inserts (runs pages)

/-- The whole measured page sequence of a directive list. -/
def measuredSequence
    (directives : List IgvmDirectiveHeader) : List PendingPage :=
  measuredBeforeVmsas
      (compatibleInserts snpCompat (collectParamAreas directives) directives)
      (compatiblePages sha384 snpCompat directives) ++
    (compatibleVmsas igvmCrate snpCompat directives).map fun vmsa =>
      { gpa := vmsaGpa, pageType := snpPageTypeVmsa, contents := sha384 vmsa }

end

/-! ## Runs grow at the end -/

theorem runs_concat_break
    {pages : List IndexedPage} {page : IndexedPage}
    (breaks : ∀ last ∈ pages.getLast?, ¬ Follows last page) :
    runs (pages ++ [page]) = runs pages ++ [[page]] := by
  rw [runs, List.splitBy_append_cons]
  · rfl
  · intro last member
    simpa using breaks last member

theorem runs_concat_follow
    {pages : List IndexedPage} {last page : IndexedPage}
    {earlier : List (List IndexedPage)} {run : List IndexedPage}
    (split : runs pages = earlier ++ [run ++ [last]])
    (follows : Follows last page) :
    runs (pages ++ [page]) = earlier ++ [run ++ [last] ++ [page]] := by
  rw [runs] at split
  obtain ⟨flat, nonempty, chains, breaks⟩ := List.splitBy_eq_iff.1 split
  rw [runs, List.splitBy_eq_iff]
  refine ⟨?_, ?_, ?_, ?_⟩
  · simp [flat]
  · intro member
    rw [List.mem_append] at member
    rcases member with inEarlier | isLast
    · exact nonempty (List.mem_append_left _ inEarlier)
    · simp at isLast
  · intro part member
    rw [List.mem_append, List.mem_singleton] at member
    rcases member with inEarlier | rfl
    · exact chains part (List.mem_append_left _ inEarlier)
    · have lastChain := chains (run ++ [last]) (by simp)
      rw [List.isChain_append]
      refine ⟨lastChain, List.isChain_singleton _, ?_⟩
      intro left leftLast right rightFirst
      simp only [List.getLast?_concat, Option.mem_def, Option.some.injEq,
        List.head?_cons] at leftLast rightFirst
      subst leftLast rightFirst
      simpa using follows
  · rw [List.isChain_append] at breaks ⊢
    obtain ⟨earlierBreaks, -, joint⟩ := breaks
    refine ⟨earlierBreaks, List.isChain_singleton _, ?_⟩
    intro left leftLast right rightFirst
    simp only [List.head?_cons, Option.mem_def, Option.some.injEq] at rightFirst
    subst rightFirst
    obtain ⟨leftNonempty, runNonempty, related⟩ :=
      joint left leftLast (run ++ [last]) (by simp)
    refine ⟨leftNonempty, by simp, ?_⟩
    rw [← related]
    congr 1
    cases run <;> rfl

theorem ne_nil_of_mem_runs
    {pages run : List IndexedPage}
    (member : run ∈ runs pages) :
    run ≠ [] :=
  List.ne_nil_of_mem_splitBy member

theorem mem_of_mem_runs
    {pages run : List IndexedPage} {page : IndexedPage}
    (member : run ∈ runs pages)
    (inRun : page ∈ run) :
    page ∈ pages := by
  rw [← List.flatten_splitBy (fun page next => decide (Follows page next)) pages]
  exact List.mem_flatten.2 ⟨run, member, inRun⟩

/-- A nonempty page list ends with the last page of its last run. -/
theorem runs_split_last (pages : List IndexedPage) (last : IndexedPage) :
    ∃ earlier run, runs (pages ++ [last]) = earlier ++ [run ++ [last]] := by
  by_cases follows :
      ∃ previous ∈ pages.getLast?, Follows previous last
  · obtain ⟨previous, isLast, follows⟩ := follows
    obtain ⟨front, rfl⟩ := List.getLast?_eq_some_iff.1 isLast
    obtain ⟨earlier, run, split⟩ := runs_split_last front previous
    exact ⟨earlier, run ++ [previous], runs_concat_follow split follows⟩
  · refine ⟨runs pages, [], runs_concat_break ?_⟩
    intro previous isLast related
    exact follows ⟨previous, isLast, related⟩
termination_by pages.length
decreasing_by simp_all

/-! ## The order grows with the directive list -/

theorem insertedWhere_congr
    {inserts : List IndexedInsert} {keep other : Nat → Bool}
    (same : ∀ insert ∈ inserts, keep insert.idx = other insert.idx) :
    insertedWhere inserts keep = insertedWhere inserts other := by
  rw [insertedWhere, insertedWhere, List.filter_congr same]

theorem insertedWhere_eq_nil
    {inserts : List IndexedInsert} {keep : Nat → Bool}
    (none : ∀ insert ∈ inserts, keep insert.idx = false) :
    insertedWhere inserts keep = [] := by
  rw [insertedWhere, List.filter_eq_nil_iff.2]
  · rfl
  · intro insert member
    simp [none insert member]

theorem insertedWhere_concat
    (inserts : List IndexedInsert) (insert : IndexedInsert)
    (keep : Nat → Bool) :
    insertedWhere (inserts ++ [insert]) keep =
      insertedWhere inserts keep ++
        if keep insert.idx then insert.pages else [] := by
  by_cases kept : keep insert.idx
  · simp [insertedWhere, kept]
  · simp [insertedWhere, kept]

/-- An index past every page of the runs lies before none of them. -/
theorem beforeRuns_eq_false
    {rest : List (List IndexedPage)} {idx : Nat}
    (nonempty : rest ≠ [])
    (full : ∀ run ∈ rest, run ≠ [])
    (past : ∀ run ∈ rest, ∀ page ∈ run, page.idx < idx) :
    beforeRuns rest idx = false := by
  cases rest with
  | nil => exact (nonempty rfl).elim
  | cons run rest =>
      cases run with
      | nil => exact (full [] (by simp) rfl).elim
      | cons first run =>
          have before := past (first :: run) (by simp) first (by simp)
          simp [beforeRuns, before.le]

/-- A new insert is measured ahead of the last run, which is still pending. -/
theorem measuredRuns_concat_insert
    (inserts : List IndexedInsert) (insert : IndexedInsert)
    (earlier : List (List IndexedPage)) (run : List IndexedPage)
    (full : ∀ part ∈ earlier ++ [run], part ≠ [])
    (past :
      ∀ part ∈ earlier ++ [run], ∀ page ∈ part, page.idx < insert.idx) :
    ∃ front,
      measuredRuns inserts (earlier ++ [run]) =
          front ++ run.map (·.page) ∧
        measuredRuns (inserts ++ [insert]) (earlier ++ [run]) =
          front ++ insert.pages ++ run.map (·.page) := by
  induction earlier with
  | nil =>
      have after : afterRun run insert.idx = true := by
        rw [afterRun, Option.all_eq_true]
        intro last isLast
        exact decide_eq_true
          (past run (by simp) last (List.mem_of_getLast? isLast))
      refine ⟨insertedWhere inserts fun idx =>
        afterRun run idx && beforeRuns [] idx, ?_, ?_⟩
      · simp [measuredRuns]
      · simp [measuredRuns, insertedWhere_concat, after, beforeRuns]
  | cons first earlier induction =>
      obtain ⟨front, unchanged, grown⟩ :=
        induction
          (fun part member => full part (List.mem_cons_of_mem _ member))
          (fun part member => past part (List.mem_cons_of_mem _ member))
      have notBefore :
          beforeRuns (earlier ++ [run]) insert.idx = false :=
        beforeRuns_eq_false (by simp)
          (fun part member => full part (List.mem_cons_of_mem _ member))
          (fun part member => past part (List.mem_cons_of_mem _ member))
      refine ⟨insertedWhere inserts
        (fun idx => afterRun first idx && beforeRuns (earlier ++ [run]) idx) ++
          first.map (·.page) ++ front, ?_, ?_⟩
      · simp [measuredRuns, unchanged]
      · simp [measuredRuns, insertedWhere_concat, notBefore, grown]

/-- Growing the last run at its end leaves the first page of the runs alone. -/
theorem beforeRuns_grow_last
    (earlier : List (List IndexedPage)) (run : List IndexedPage)
    (last page : IndexedPage) :
    beforeRuns (earlier ++ [run ++ [last] ++ [page]]) =
      beforeRuns (earlier ++ [run ++ [last]]) := by
  funext idx
  cases earlier with
  | nil => cases run <;> rfl
  | cons _ _ => rfl

/-- A page that follows the last run is measured after everything before it. -/
theorem measuredRuns_concat_follow
    {inserts : List IndexedInsert} {last page : IndexedPage}
    (earlier : List (List IndexedPage)) (run : List IndexedPage)
    (adjacent : page.idx = last.idx + 1)
    (before : ∀ insert ∈ inserts, insert.idx < page.idx) :
    measuredRuns inserts (earlier ++ [run ++ [last] ++ [page]]) =
      measuredRuns inserts (earlier ++ [run ++ [last]]) ++ [page.page] := by
  induction earlier with
  | nil =>
      have noneAfterPage :
          insertedWhere inserts
            (fun idx =>
              afterRun (run ++ [last] ++ [page]) idx && beforeRuns [] idx) =
            [] := by
        apply insertedWhere_eq_nil
        intro insert member
        have bound := before insert member
        simp [afterRun, beforeRuns, bound.le]
      have noneAfterLast :
          insertedWhere inserts
            (fun idx => afterRun (run ++ [last]) idx && beforeRuns [] idx) =
            [] := by
        apply insertedWhere_eq_nil
        intro insert member
        have bound := before insert member
        rw [adjacent] at bound
        simp [afterRun, beforeRuns, Nat.le_of_lt_succ bound]
      simp only [List.nil_append, measuredRuns]
      rw [noneAfterPage, noneAfterLast]
      simp
  | cons first earlier induction =>
      simp only [List.cons_append, measuredRuns]
      rw [induction, beforeRuns_grow_last]
      simp

/-- A page that starts a run is measured after everything before it. -/
theorem measuredRuns_concat_break
    {inserts : List IndexedInsert} {page : IndexedPage}
    (earlier : List (List IndexedPage))
    (before : ∀ insert ∈ inserts, insert.idx < page.idx) :
    measuredRuns inserts (earlier ++ [[page]]) =
      measuredRuns inserts earlier ++ [page.page] := by
  induction earlier with
  | nil =>
      have noneAfter :
          insertedWhere inserts
            (fun idx => afterRun [page] idx && beforeRuns [] idx) = [] := by
        apply insertedWhere_eq_nil
        intro insert member
        have bound := before insert member
        simp [afterRun, beforeRuns, bound.le]
      simp only [List.nil_append, measuredRuns]
      rw [noneAfter]
      rfl
  | cons first earlier induction =>
      have sameInserts :
          insertedWhere inserts
              (fun idx =>
                afterRun first idx && beforeRuns (earlier ++ [[page]]) idx) =
            insertedWhere inserts
              (fun idx => afterRun first idx && beforeRuns earlier idx) := by
        apply insertedWhere_congr
        intro insert member
        cases earlier with
        | nil =>
            have bound := before insert member
            simp [beforeRuns, bound]
        | cons _ _ => rfl
      simp only [List.cons_append, measuredRuns]
      rw [induction, sameInserts]
      simp

/-- One more page goes to the end of the order, whether or not it breaks the run. -/
theorem measuredBeforeVmsas_concat_page
    {inserts : List IndexedInsert} (pages : List IndexedPage)
    {page : IndexedPage}
    (before : ∀ insert ∈ inserts, insert.idx < page.idx) :
    measuredBeforeVmsas inserts (pages ++ [page]) =
      measuredBeforeVmsas inserts pages ++ [page.page] := by
  by_cases follows : ∃ last ∈ pages.getLast?, Follows last page
  · obtain ⟨last, isLast, follows⟩ := follows
    obtain ⟨front, rfl⟩ := List.getLast?_eq_some_iff.1 isLast
    obtain ⟨earlier, run, split⟩ := runs_split_last front last
    rw [measuredBeforeVmsas, measuredBeforeVmsas,
      runs_concat_follow split follows, split, beforeRuns_grow_last,
      measuredRuns_concat_follow earlier run follows.1 before]
    simp
  · have grown : runs (pages ++ [page]) = runs pages ++ [[page]] := by
      apply runs_concat_break
      intro last isLast related
      exact follows ⟨last, isLast, related⟩
    have sameInserts :
        insertedWhere inserts (beforeRuns (runs pages ++ [[page]])) =
          insertedWhere inserts (beforeRuns (runs pages)) := by
      apply insertedWhere_congr
      intro insert member
      cases runs pages with
      | nil =>
          have bound := before insert member
          simp [beforeRuns, bound]
      | cons _ _ => rfl
    rw [measuredBeforeVmsas, measuredBeforeVmsas, grown, sameInserts,
      measuredRuns_concat_break (runs pages) before]
    simp

/-- The pages of the last run, which the walk has not measured yet. -/
def pendingRun (pages : List IndexedPage) : List PendingPage :=
  ((runs pages).getLast?.getD []).map (·.page)

theorem measuredBeforeVmsas_concat_insert
    (inserts : List IndexedInsert) (insert : IndexedInsert)
    {pages : List IndexedPage}
    (past : ∀ page ∈ pages, page.idx < insert.idx) :
    ∃ front,
      measuredBeforeVmsas inserts pages = front ++ pendingRun pages ∧
        measuredBeforeVmsas (inserts ++ [insert]) pages =
          front ++ insert.pages ++ pendingRun pages := by
  rcases List.eq_nil_or_concat' pages with rfl | ⟨front, last, rfl⟩
  · refine ⟨insertedWhere inserts (beforeRuns []), ?_, ?_⟩
    · simp [measuredBeforeVmsas, runs, measuredRuns, pendingRun]
    · simp [measuredBeforeVmsas, runs, measuredRuns, pendingRun,
        insertedWhere_concat, beforeRuns]
  · obtain ⟨earlier, run, split⟩ := runs_split_last front last
    have full :
        ∀ part ∈ earlier ++ [run ++ [last]], part ≠ [] := by
      intro part member
      rw [← split] at member
      exact ne_nil_of_mem_runs member
    have pastRuns :
        ∀ part ∈ earlier ++ [run ++ [last]],
          ∀ page ∈ part, page.idx < insert.idx := by
      intro part member page inPart
      rw [← split] at member
      exact past page (mem_of_mem_runs member inPart)
    obtain ⟨done, unchanged, grown⟩ :=
      measuredRuns_concat_insert inserts insert earlier
        (run ++ [last]) full pastRuns
    have notBefore :
        beforeRuns (earlier ++ [run ++ [last]]) insert.idx = false :=
      beforeRuns_eq_false (by simp) full pastRuns
    refine ⟨insertedWhere inserts
      (beforeRuns (earlier ++ [run ++ [last]])) ++ done, ?_, ?_⟩
    · rw [measuredBeforeVmsas, pendingRun, split, unchanged]
      simp
    · rw [measuredBeforeVmsas, pendingRun, split, grown,
        insertedWhere_concat, notBefore]
      simp

theorem pendingRun_concat_follow
    {pages : List IndexedPage} {last page : IndexedPage}
    (isLast : last ∈ pages.getLast?)
    (follows : Follows last page) :
    pendingRun (pages ++ [page]) = pendingRun pages ++ [page.page] := by
  obtain ⟨front, rfl⟩ := List.getLast?_eq_some_iff.1 isLast
  obtain ⟨earlier, run, split⟩ := runs_split_last front last
  rw [pendingRun, pendingRun, runs_concat_follow split follows, split]
  simp

theorem pendingRun_concat_break
    {pages : List IndexedPage} {page : IndexedPage}
    (breaks : ∀ last ∈ pages.getLast?, ¬ Follows last page) :
    pendingRun (pages ++ [page]) = [page.page] := by
  rw [pendingRun, runs_concat_break breaks]
  simp

theorem pendingRun_ne_nil
    {pages : List IndexedPage} {last : IndexedPage}
    (isLast : last ∈ pages.getLast?) :
    pendingRun pages ≠ [] := by
  obtain ⟨front, rfl⟩ := List.getLast?_eq_some_iff.1 isLast
  obtain ⟨earlier, run, split⟩ := runs_split_last front last
  rw [pendingRun, split]
  simp

/-! ## The walk keeps to the order -/

section

variable (sha384 : Bytes → Digest)

/--
The state of the walk after some directives: the batch holds the last run, the
digest and the counter cover everything measured before it, and the remembered
values are those of the last page.
-/
structure Tracks
    (consumed : Nat) (pages : List IndexedPage)
    (inserts : List IndexedInsert) (vmsas : List Bytes)
    (state : MeasureState) : Prop where
  pagesBefore : ∀ page ∈ pages, page.idx < consumed
  insertsBefore : ∀ insert ∈ inserts, insert.idx < consumed
  batch : state.pendingBatch = pendingRun pages
  prevGpa : state.prevPageGpa = pages.getLast?.map (·.page.gpa)
  prevType : state.prevPageType = pages.getLast?.map (·.page.pageType)
  prevHasData : state.prevPageHasData = pages.getLast?.map (·.hasData)
  lastIdx : state.lastPageDirectiveIdx = pages.getLast?.map (·.idx)
  measured :
    ∃ done,
      measuredBeforeVmsas inserts pages = done ++ pendingRun pages ∧
        state.ld = foldPages sha384 (Block.zero 48) done ∧
        state.pageCount = done.length
  vmsaPages : state.vmsaPages.map Prod.snd = vmsas

variable {sha384}

theorem Tracks.initial :
    Tracks sha384 0 [] [] [] {} where
  pagesBefore := by simp
  insertsBefore := by simp
  batch := rfl
  prevGpa := rfl
  prevType := rfl
  prevHasData := rfl
  lastIdx := rfl
  measured := ⟨[], rfl, rfl, rfl⟩
  vmsaPages := rfl

/-- A directive that is not measured only moves the index on. -/
theorem Tracks.skip
    {consumed : Nat} {pages : List IndexedPage}
    {inserts : List IndexedInsert} {vmsas : List Bytes}
    {state : MeasureState}
    (tracks : Tracks sha384 consumed pages inserts vmsas state) :
    Tracks sha384 (consumed + 1) pages inserts vmsas state :=
  { tracks with
    pagesBefore := fun page member =>
      Nat.lt_succ_of_lt (tracks.pagesBefore page member)
    insertsBefore := fun insert member =>
      Nat.lt_succ_of_lt (tracks.insertsBefore insert member) }

theorem Tracks.vmsa
    {consumed : Nat} {pages : List IndexedPage}
    {inserts : List IndexedInsert} {vmsas : List Bytes}
    {state : MeasureState}
    (tracks : Tracks sha384 consumed pages inserts vmsas state)
    (gpa : UInt64) (vmsa : Bytes) :
    Tracks sha384 (consumed + 1) pages inserts (vmsas ++ [vmsa])
      { state with vmsaPages := state.vmsaPages ++ [(gpa, vmsa)] } :=
  { tracks.skip with
    vmsaPages := by simp [tracks.vmsaPages] }

theorem Tracks.insert
    {consumed : Nat} {pages : List IndexedPage}
    {inserts : List IndexedInsert} {vmsas : List Bytes}
    {state : MeasureState}
    (tracks : Tracks sha384 consumed pages inserts vmsas state)
    (inserted : List PendingPage) :
    Tracks sha384 (consumed + 1) pages
      (inserts ++ [{ idx := consumed, pages := inserted }]) vmsas
      (measureInsert sha384 state inserted) := by
  obtain ⟨done, order, ld, count⟩ := tracks.measured
  obtain ⟨front, before, after⟩ :=
    measuredBeforeVmsas_concat_insert inserts
      { idx := consumed, pages := inserted } tracks.pagesBefore
  have frontEqual : front = done := by
    rw [order] at before
    exact (List.append_cancel_right before).symm
  subst frontEqual
  exact
    { tracks.skip with
      insertsBefore := by
        intro insert member
        rw [List.mem_append, List.mem_singleton] at member
        rcases member with earlier | rfl
        · exact tracks.skip.insertsBefore insert earlier
        · exact Nat.lt_succ_self consumed
      measured :=
        ⟨front ++ inserted, after,
          by simp [measureInsert, ld, foldPages_append],
          by simp [measureInsert, count]⟩ }

/-- The flush test asks whether the page follows the last one. -/
theorem Tracks.shouldFlush_eq
    {consumed : Nat} {pages : List IndexedPage}
    {inserts : List IndexedInsert} {vmsas : List Bytes}
    {state : MeasureState}
    (tracks : Tracks sha384 consumed pages inserts vmsas state)
    (fits : ∀ last ∈ pages.getLast?, last.page.gpa.toNat + pageSize < 2 ^ 64)
    (page : IndexedPage) :
    shouldFlush state page.idx page.page.gpa page.page.pageType page.hasData =
      pages.getLast?.any fun last => !decide (Follows last page) := by
  rw [shouldFlush, tracks.prevGpa, tracks.prevType, tracks.prevHasData,
    tracks.lastIdx]
  cases isLast : pages.getLast? with
  | none => rfl
  | some last =>
      have noWrap :
          (last.page.gpa + UInt64.ofNat pageSize).toNat =
            last.page.gpa.toNat + pageSize := by
        have bound := fits last isLast
        rw [UInt64.toNat_add, UInt64.toNat_ofNat']
        simp only [pageSize] at bound ⊢
        omega
      have gpaTest :
          page.page.gpa = last.page.gpa + UInt64.ofNat pageSize ↔
            page.page.gpa.toNat = last.page.gpa.toNat + pageSize := by
        rw [← UInt64.toNat_inj, noWrap]
      rw [Bool.eq_iff_iff]
      simp only [Option.map_some, Option.any_some, Bool.or_eq_true, bne_iff_ne,
        Bool.not_eq_true', decide_eq_false_iff_not, ne_eq, gpaTest]
      rw [Follows]
      clear noWrap gpaTest fits
      tauto

theorem Tracks.page
    {consumed : Nat} {pages : List IndexedPage}
    {inserts : List IndexedInsert} {vmsas : List Bytes}
    {state : MeasureState}
    (tracks : Tracks sha384 consumed pages inserts vmsas state)
    (fits : ∀ last ∈ pages.getLast?, last.page.gpa.toNat + pageSize < 2 ^ 64)
    (page : PendingPage) (hasData : Bool) :
    Tracks sha384 (consumed + 1)
      (pages ++ [{ idx := consumed, page, hasData }]) inserts vmsas
      (pushPage sha384 state consumed page hasData) := by
  let indexed : IndexedPage := { idx := consumed, page, hasData }
  have flushTest := tracks.shouldFlush_eq fits indexed
  obtain ⟨done, order, ld, count⟩ := tracks.measured
  have grown :
      measuredBeforeVmsas inserts (pages ++ [indexed]) =
        done ++ pendingRun pages ++ [page] := by
    have appended :
        measuredBeforeVmsas inserts (pages ++ [indexed]) =
          measuredBeforeVmsas inserts pages ++ [indexed.page] :=
      measuredBeforeVmsas_concat_page pages tracks.insertsBefore
    rw [appended, order]
  have pagesBefore : ∀ page ∈ pages ++ [indexed], page.idx < consumed + 1 := by
    intro page member
    rw [List.mem_append, List.mem_singleton] at member
    rcases member with earlier | rfl
    · exact tracks.skip.pagesBefore page earlier
    · exact Nat.lt_succ_self consumed
  by_cases follows : ∃ last ∈ pages.getLast?, Follows last indexed
  · obtain ⟨last, isLast, follows⟩ := follows
    have kept :
        pushPage sha384 state consumed page hasData =
          { state with
            pendingBatch := state.pendingBatch ++ [page]
            prevPageGpa := some page.gpa
            prevPageType := some page.pageType
            prevPageHasData := some hasData
            lastPageDirectiveIdx := some consumed } := by
      have noFlush :
          shouldFlush state consumed page.gpa page.pageType hasData = false := by
        rw [flushTest, isLast]
        simp [follows]
      simp [pushPage, noFlush]
    rw [kept]
    exact
      { pagesBefore
        insertsBefore := tracks.skip.insertsBefore
        batch := by
          rw [pendingRun_concat_follow isLast follows, ← tracks.batch]
        prevGpa := by simp
        prevType := by simp
        prevHasData := by simp
        lastIdx := by simp
        measured :=
          ⟨done,
            by rw [grown, pendingRun_concat_follow isLast follows]; simp [indexed],
            ld, count⟩
        vmsaPages := tracks.vmsaPages }
  · have breaks : ∀ last ∈ pages.getLast?, ¬ Follows last indexed :=
      fun last isLast related => follows ⟨last, isLast, related⟩
    have flushed :
        pushPage sha384 state consumed page hasData =
          { flushBatch sha384 state with
            pendingBatch := [page]
            prevPageGpa := some page.gpa
            prevPageType := some page.pageType
            prevPageHasData := some hasData
            lastPageDirectiveIdx := some consumed } := by
      rcases isLast : pages.getLast? with _ | last
      · have empty : state.pendingBatch = [] := by
          rw [tracks.batch, List.getLast?_eq_none_iff.1 isLast]
          rfl
        simp [pushPage, flushBatch, empty]
      · have flush :
            shouldFlush state consumed page.gpa page.pageType hasData = true := by
          rw [flushTest, isLast]
          simp [breaks last isLast]
        have nonempty : state.pendingBatch ≠ [] := by
          rw [tracks.batch]
          exact pendingRun_ne_nil isLast
        simp [pushPage, flushBatch, flush, nonempty]
    rw [flushed]
    exact
      { pagesBefore
        insertsBefore := tracks.skip.insertsBefore
        batch := (pendingRun_concat_break breaks).symm
        prevGpa := by simp
        prevType := by simp
        prevHasData := by simp
        lastIdx := by simp
        measured :=
          ⟨done ++ pendingRun pages,
            by rw [grown, pendingRun_concat_break breaks],
            by simp [flushBatch, ld, foldPages_append, tracks.batch],
            by simp [flushBatch, count, tracks.batch]⟩
        vmsaPages := tracks.vmsaPages }

variable (sha384) (igvmCrate : IgvmCrate)
variable (snpCompat : UInt32) (paramAreas : List (UInt32 × UInt64))

/-- Every page address leaves room for the page behind it. -/
def PagesFit (directives : List IgvmDirectiveHeader) : Prop :=
  ∀ gpa compatibilityMask flags dataType data,
    IgvmDirectiveHeader.pageData gpa compatibilityMask flags dataType data ∈
        directives →
      gpa.toNat + pageSize < 2 ^ 64

theorem compatiblePages_concat
    (directives : List IgvmDirectiveHeader) (directive : IgvmDirectiveHeader) :
    compatiblePages sha384 snpCompat (directives ++ [directive]) =
      compatiblePages sha384 snpCompat directives ++
        (asPage? sha384 snpCompat (directive, directives.length)).toList := by
  simp [compatiblePages, List.zipIdx_append, List.filterMap_append,
    List.filterMap_cons]
  cases asPage? sha384 snpCompat (directive, directives.length) <;> rfl

theorem compatibleInserts_concat
    (directives : List IgvmDirectiveHeader) (directive : IgvmDirectiveHeader) :
    compatibleInserts snpCompat paramAreas (directives ++ [directive]) =
      compatibleInserts snpCompat paramAreas directives ++
        (asInsert? snpCompat paramAreas
          (directive, directives.length)).toList := by
  simp [compatibleInserts, List.zipIdx_append, List.filterMap_append,
    List.filterMap_cons]
  cases asInsert? snpCompat paramAreas (directive, directives.length) <;> rfl

theorem compatibleVmsas_concat
    (directives : List IgvmDirectiveHeader) (directive : IgvmDirectiveHeader) :
    compatibleVmsas igvmCrate snpCompat (directives ++ [directive]) =
      compatibleVmsas igvmCrate snpCompat directives ++
        (asVmsa? igvmCrate snpCompat directive).toList := by
  simp [compatibleVmsas, List.filterMap_append, List.filterMap_cons]
  cases asVmsa? igvmCrate snpCompat directive <;> rfl

theorem gpa_fits_of_mem_compatiblePages
    {directives : List IgvmDirectiveHeader} {page : IndexedPage}
    (fits : PagesFit directives)
    (member : page ∈ compatiblePages sha384 snpCompat directives) :
    page.page.gpa.toNat + pageSize < 2 ^ 64 := by
  obtain ⟨⟨directive, idx⟩, indexed, isPage⟩ := List.mem_filterMap.1 member
  have present : directive ∈ directives :=
    (List.mem_zipIdx indexed).2.2 ▸ List.getElem_mem _
  cases directive with
  | pageData gpa compatibilityMask flags dataType data =>
      simp only [asPage?] at isPage
      split at isPage
      · cases isPage
      · cases isPage
        exact fits gpa compatibilityMask flags dataType data present
  | _ => cases isPage

variable {sha384 igvmCrate snpCompat paramAreas}

/-- One iteration of the loop keeps the state on track. -/
theorem Tracks.step
    {consumed : List IgvmDirectiveHeader} {directive : IgvmDirectiveHeader}
    {before after : MeasureState}
    (tracks :
      Tracks sha384 consumed.length
        (compatiblePages sha384 snpCompat consumed)
        (compatibleInserts snpCompat paramAreas consumed)
        (compatibleVmsas igvmCrate snpCompat consumed) before)
    (fits : PagesFit consumed)
    (step :
      measureDirective sha384 igvmCrate snpCompat paramAreas before
        (directive, consumed.length) = .ok after) :
    Tracks sha384 (consumed ++ [directive]).length
      (compatiblePages sha384 snpCompat (consumed ++ [directive]))
      (compatibleInserts snpCompat paramAreas (consumed ++ [directive]))
      (compatibleVmsas igvmCrate snpCompat (consumed ++ [directive]))
      after := by
  rw [compatiblePages_concat, compatibleInserts_concat, compatibleVmsas_concat,
    List.length_append, List.length_singleton]
  cases directive with
  | pageData gpa compatibilityMask flags dataType data =>
      simp only [measureDirective] at step
      simp only [asPage?, asInsert?, asVmsa?]
      split at step
      · cases step
        rename_i incompatible
        simpa [incompatible] using tracks.skip
      · cases step
        rename_i compatible
        have lastFits :
            ∀ last ∈ (compatiblePages sha384 snpCompat consumed).getLast?,
              last.page.gpa.toNat + pageSize < 2 ^ 64 := by
          intro last isLast
          exact gpa_fits_of_mem_compatiblePages sha384 snpCompat fits
            (List.mem_of_getLast? isLast)
        have queued := tracks.page lastFits
          { gpa
            pageType := (classifyPageData sha384 dataType flags data).1
            contents := (classifyPageData sha384 dataType flags data).2.1 }
          (classifyPageData sha384 dataType flags data).2.2
        simpa [compatible] using queued
  | snpVpContext gpa compatibilityMask vpIndex vmsa =>
      simp only [measureDirective] at step
      simp only [asPage?, asInsert?, asVmsa?]
      split at step
      · cases step
        rename_i incompatible
        simpa [incompatible] using tracks.skip
      · cases step
        rename_i compatible
        simpa [compatible] using
          tracks.vmsa gpa (vmsaPage (igvmCrate.vmsaAsBytes vmsa))
  | parameterInsert parameterAreaIndex gpa compatibilityMask =>
      simp only [measureDirective] at step
      simp only [asPage?, asInsert?, asVmsa?]
      split at step
      · cases step
        rename_i incompatible
        simpa [incompatible] using tracks.skip
      · rename_i compatible
        split at step
        · rename_i areaSize known
          cases step
          simpa [compatible, known] using
            tracks.insert (insertPages gpa areaSize)
        · cases step
  | _ =>
      cases step
      simpa [asPage?, asInsert?, asVmsa?] using tracks.skip

end

/-! ## The meaning of the launch digest -/

section

variable (sha384 : Bytes → Digest) (igvmCrate : IgvmCrate)

/-- The whole walk, by its invariant. -/
theorem tracks_of_walk
    {snpCompat : UInt32} {paramAreas : List (UInt32 × UInt64)}
    {directives : List IgvmDirectiveHeader} {walked : MeasureState}
    (fits : PagesFit directives)
    (walk :
      directives.zipIdx.foldlM
        (measureDirective sha384 igvmCrate snpCompat paramAreas) {} =
          .ok walked) :
    Tracks sha384 directives.length
      (compatiblePages sha384 snpCompat directives)
      (compatibleInserts snpCompat paramAreas directives)
      (compatibleVmsas igvmCrate snpCompat directives) walked := by
  have invariant :=
    foldlM_zipIdx_invariant
      (fun consumed state =>
        PagesFit consumed →
          Tracks sha384 consumed.length
            (compatiblePages sha384 snpCompat consumed)
            (compatibleInserts snpCompat paramAreas consumed)
            (compatibleVmsas igvmCrate snpCompat consumed) state)
      (fun _ => Tracks.initial)
      (by
        intro consumed directive before after tracks step fits
        have earlierFits : PagesFit consumed :=
          fun gpa compatibilityMask flags dataType data member =>
            fits gpa compatibilityMask flags dataType data
              (List.mem_append_left _ member)
        exact (tracks earlierFits).step earlierFits step)
      walk
  exact invariant fits

/--
The launch digest is the plain one-page fold over the inserts before the first
run, then each run right after the inserts between it and the next run, then
the VMSA pages; the counters are the lengths of that sequence and of its VMSA
part.  Without page data it is the inserts and the VMSA pages alone.
-/
theorem measureSnp_measures_sequence
    {igvm : IgvmFile} {result : MeasureResult}
    (fits : PagesFit igvm.directives)
    (measured : measureSnp sha384 igvmCrate igvm = .ok result) :
    ∃ snpCompat, findSnpCompat igvm = .ok snpCompat ∧
      let sequence :=
        measuredSequence sha384 igvmCrate snpCompat igvm.directives
      let vmsas := compatibleVmsas igvmCrate snpCompat igvm.directives
      let inserts :=
        compatibleInserts snpCompat (collectParamAreas igvm.directives)
          igvm.directives
      result.launchDigest = foldPages sha384 (Block.zero 48) sequence ∧
        result.pageCount = sequence.length ∧
        result.vmsaCount.toNat = vmsas.length % 2 ^ 32 ∧
        (compatiblePages sha384 snpCompat igvm.directives = [] →
          sequence =
            inserts.flatMap (·.pages) ++
              vmsas.map fun vmsa =>
                { gpa := vmsaGpa
                  pageType := snpPageTypeVmsa
                  contents := sha384 vmsa }) := by
  obtain ⟨snpCompat, compat, continued⟩ := bind_eq_ok.1 measured
  obtain ⟨walked, walk, finished⟩ := bind_eq_ok.1 continued
  have tracks := tracks_of_walk sha384 igvmCrate fits walk
  obtain ⟨done, order, ld, count⟩ := tracks.measured
  have vmsaPages := tracks.vmsaPages
  have flushed :
      (if walked.pendingBatch.isEmpty then walked
        else flushBatch sha384 walked) =
        { walked with
          ld := foldPages sha384 walked.ld walked.pendingBatch
          pageCount := walked.pageCount + walked.pendingBatch.length
          pendingBatch := [] } := by
    rcases walked with ⟨_, _, _, _ | ⟨page, batch⟩, _, _, _, _⟩
    · rfl
    · rfl
  rw [flushed] at finished
  cases finished
  have vmsaSequence :
      walked.vmsaPages.map (vmsaPending sha384) =
        (compatibleVmsas igvmCrate snpCompat igvm.directives).map fun vmsa =>
          { gpa := vmsaGpa
            pageType := snpPageTypeVmsa
            contents := sha384 vmsa } := by
    rw [← vmsaPages, List.map_map]
    rfl
  have vmsaLength :
      walked.vmsaPages.length =
        (compatibleVmsas igvmCrate snpCompat igvm.directives).length := by
    rw [← vmsaPages, List.length_map]
  refine ⟨snpCompat, compat, ?_, ?_, ?_, ?_⟩
  · simp only [measureVmsaPages, measuredSequence, order, foldPages_append,
      vmsaSequence, ld, tracks.batch]
  · simp [measureVmsaPages, measuredSequence, order, vmsaLength, count,
      tracks.batch, Nat.add_assoc]
  · simp [measureVmsaPages, vmsaLength]
  · intro noPages
    simp [measuredSequence, measuredBeforeVmsas, noPages, runs, measuredRuns,
      insertedWhere, beforeRuns]

/-- Two pages with an insert between them: the insert is measured first. -/
def interleavedFile : IgvmFile where
  platforms :=
    [{ compatibilityMask := 1, highestVtl := 2, platformType := .sevSnp,
       platformVersion := 1, sharedGpaBoundary := 0 }]
  initializations := []
  directives :=
    [.parameterArea 4096 0 [], .pageData 0x1000 1 {} .normal [0xaa],
      .parameterInsert 0 0x80000 1, .pageData 0x2000 1 {} .normal [0xbb]]

theorem measureSnp_measures_sequence_interleaved :
    ∃ result,
      measureSnp (fun _ => Block.zero 48) ⟨fun _ => [], fun _ _ _ => .error "",
          fun _ => .ok []⟩ interleavedFile = .ok result ∧
        result.pageCount = 3 := by
  have fits : PagesFit interleavedFile.directives := by
    intro gpa compatibilityMask flags dataType data member
    simp only [interleavedFile, List.mem_cons, IgvmDirectiveHeader.pageData.injEq,
      reduceCtorEq, false_or, List.not_mem_nil, or_false] at member
    rcases member with ⟨rfl, -⟩ | ⟨rfl, -⟩
    · decide
    · decide
  refine ⟨_, rfl, ?_⟩
  obtain ⟨snpCompat, compat, -, count, -, -⟩ :=
    measureSnp_measures_sequence (fun _ => Block.zero 48)
      ⟨fun _ => [], fun _ _ _ => .error "", fun _ => .ok []⟩ fits rfl
  cases compat
  rw [count]
  rfl

end

end Confos.Igvm.Batching
