import Confos.Library.ByteStrings
import Confos.Library.Fallible

/-!
# Computations that refuse or panic

A computation over untrusted input ends with a value, refuses its input with a
message, or panics: an addition leaves its machine word, or a slice leaves its
buffer.  `Decides` says of a computation that it is a check, which accepts under
a condition and never panics.  Its rules follow the sequence of a computation,
and tell where a sequence of checks can panic behind them.
-/

namespace Confos.Library.Checks

open Confos.Library.ByteStrings

universe u v

/-- How a computation ends that has no value. -/
inductive Failure where
  | refused (problem : String)
  | panicked
deriving DecidableEq, Repr

abbrev Checked (α : Type u) := Except Failure α

section

variable {α β : Type u}

def refuse (problem : String) : Checked α :=
  .error (.refused problem)

def panicked : Checked α :=
  .error .panicked

/-- A computation of its own that can only refuse. -/
def ofResult (result : Except String α) : Checked α :=
  result.mapError .refused

def Panics (computation : Checked α) : Prop :=
  computation = panicked

/-! ## Machine words and buffers -/

/-- An addition in a word of 64 bits. -/
def add64 (left right : Nat) : Checked Nat :=
  if left + right < 2 ^ 64 then .ok (left + right) else panicked

def sub64 (left right : Nat) : Checked Nat :=
  if right ≤ left then .ok (left - right) else panicked

def mul64 (left right : Nat) : Checked Nat :=
  if left * right < 2 ^ 64 then .ok (left * right) else panicked

/-- The bytes from `start` up to `stop`. -/
def cut (data : Bytes) (start stop : Nat) : Checked Bytes :=
  if start ≤ stop ∧ stop ≤ data.length then
    .ok (slice data start (stop - start))
  else
    panicked

theorem add64_eq_ok {left right : Nat} (fits : left + right < 2 ^ 64) :
    add64 left right = .ok (left + right) :=
  if_pos fits

theorem sub64_eq_ok {left right : Nat} (ordered : right ≤ left) :
    sub64 left right = .ok (left - right) :=
  if_pos ordered

theorem mul64_eq_ok {left right : Nat} (fits : left * right < 2 ^ 64) :
    mul64 left right = .ok (left * right) :=
  if_pos fits

theorem panics_add64_iff {left right : Nat} :
    Panics (add64 left right) ↔ 2 ^ 64 ≤ left + right := by
  rw [add64]
  by_cases fits : left + right < 2 ^ 64
  · rw [if_pos fits]
    constructor
    · intro panics
      cases panics
    · intro overflows
      exact absurd fits (not_lt.2 overflows)
  · rw [if_neg fits]
    exact ⟨fun _ => not_lt.1 fits, fun _ => rfl⟩

theorem cut_eq_ok
    {data : Bytes} {start stop : Nat}
    (ordered : start ≤ stop) (inside : stop ≤ data.length) :
    cut data start stop = .ok (slice data start (stop - start)) :=
  if_pos ⟨ordered, inside⟩

theorem panics_cut_iff {data : Bytes} {start stop : Nat} :
    Panics (cut data start stop) ↔ stop < start ∨ data.length < stop := by
  rw [cut]
  by_cases inside : start ≤ stop ∧ stop ≤ data.length
  · rw [if_pos inside]
    constructor
    · intro panics
      cases panics
    · rintro (reversed | beyond)
      · exact absurd inside.1 (not_le.2 reversed)
      · exact absurd inside.2 (not_le.2 beyond)
  · rw [if_neg inside]
    refine ⟨fun _ => ?_, fun _ => rfl⟩
    rcases not_and_or.1 inside with reversed | beyond
    · exact Or.inl (not_le.1 reversed)
    · exact Or.inr (not_le.1 beyond)

/-! ## Sequences -/

theorem not_panics_ok (value : α) : ¬ Panics (.ok value : Checked α) := by
  intro panics
  cases panics

theorem not_panics_refuse (problem : String) :
    ¬ Panics (refuse problem : Checked α) := by
  intro panics
  cases panics

theorem not_panics_ofResult (result : Except String α) :
    ¬ Panics (ofResult result) := by
  intro panics
  cases result with
  | error problem => cases panics
  | ok value => cases panics

theorem panics_bind_iff {first : Checked α} {second : α → Checked β} :
    Panics (first >>= second) ↔
      Panics first ∨ ∃ value, first = .ok value ∧ Panics (second value) := by
  cases first with
  | error failure =>
      cases failure with
      | refused problem =>
          constructor
          · intro panics
            cases panics
          · rintro (panics | ⟨value, same, -⟩)
            · cases panics
            · cases same
      | panicked => exact ⟨fun _ => Or.inl rfl, fun _ => rfl⟩
  | ok value =>
      constructor
      · intro panics
        exact Or.inr ⟨value, rfl, panics⟩
      · rintro (panics | ⟨other, same, panics⟩)
        · cases panics
        · cases same
          exact panics

/-- A sequence that can only refuse is a sequence of such steps. -/
theorem ofResult_bind
    (first : Except String α) (second : α → Except String β) :
    ofResult (first >>= second) =
      ofResult first >>= fun value => ofResult (second value) := by
  cases first with
  | error problem => rfl
  | ok value => rfl

/-- A sequence without a panic is the one of steps that can only refuse. -/
theorem bind_eq_ofResult
    {first : Except String α} {second : α → Except String β}
    {checked : α → Checked β}
    (noPanic : ¬ Panics (ofResult first >>= checked))
    (each : ∀ value, first = .ok value → ¬ Panics (checked value) →
      checked value = ofResult (second value)) :
    ofResult first >>= checked = ofResult (first >>= second) := by
  cases first with
  | error problem => rfl
  | ok value => exact each value rfl noPanic

/-! ## Checks -/

/-- A computation that has its value under a condition and else refuses. -/
def Decides (computation : Checked α) (Accepts : Prop) (value : α) : Prop :=
  (Accepts ∧ computation = .ok value) ∨
    (¬ Accepts ∧ ∃ problem, computation = refuse problem)

namespace Decides

variable
    {computation : Checked α} {Accepts Before : Prop} {value : α}
    {next : α → Checked β} {result : β}

theorem ok (accepted : Accepts) (value : α) :
    Decides (.ok value) Accepts value :=
  Or.inl ⟨accepted, rfl⟩

theorem congr
    (decides : Decides computation Accepts value)
    (same : Before ↔ Accepts) :
    Decides computation Before value := by
  rwa [Decides, same]

theorem eq_ok
    (decides : Decides computation Accepts value) (accepted : Accepts) :
    computation = .ok value := by
  rcases decides with ⟨-, returned⟩ | ⟨notAccepted, -⟩
  · exact returned
  · exact absurd accepted notAccepted

theorem eq_ok_iff
    (decides : Decides computation Accepts value) {other : α} :
    computation = .ok other ↔ Accepts ∧ value = other := by
  constructor
  · intro returned
    rcases decides with ⟨accepted, same⟩ | ⟨-, problem, refused⟩
    · cases same.symm.trans returned
      exact ⟨accepted, rfl⟩
    · cases refused.symm.trans returned
  · rintro ⟨accepted, rfl⟩
    exact decides.eq_ok accepted

theorem not_panics
    (decides : Decides computation Accepts value) :
    ¬ Panics computation := by
  rcases decides with ⟨-, returned⟩ | ⟨-, problem, refused⟩
  · rw [returned]
    exact not_panics_ok value
  · rw [refused]
    exact not_panics_refuse problem

/-- A check in front of others: what is accepted in the end passes it. -/
theorem bind
    (decides : Decides computation Before value)
    (needed : Accepts → Before)
    (rest : Before → Decides (next value) Accepts result) :
    Decides (computation >>= next) Accepts result := by
  rcases decides with ⟨passed, returned⟩ | ⟨notPassed, problem, refused⟩
  · rw [returned]
    exact rest passed
  · refine Or.inr ⟨mt needed notPassed, problem, ?_⟩
    rw [refused]
    rfl

/-- A step that has a value in any case. -/
theorem bind_ok
    (returned : computation = .ok value)
    (rest : Decides (next value) Accepts result) :
    Decides (computation >>= next) Accepts result := by
  rw [returned]
  exact rest

theorem ite_refuse
    {Problem : Prop} [Decidable Problem] {problem : String}
    (needed : Accepts → ¬ Problem)
    (rest : ¬ Problem → Decides computation Accepts value) :
    Decides (if Problem then refuse problem else computation) Accepts
      value := by
  by_cases bad : Problem
  · rw [if_pos bad]
    exact Or.inr ⟨fun accepted => needed accepted bad, problem, rfl⟩
  · rw [if_neg bad]
    exact rest bad

/-- Behind a check the sequence panics where its rest does. -/
theorem panics_bind_iff
    (decides : Decides computation Accepts value) :
    Panics (computation >>= next) ↔ Accepts ∧ Panics (next value) := by
  rw [Checks.panics_bind_iff, or_iff_right decides.not_panics]
  constructor
  · rintro ⟨other, returned, panics⟩
    rcases decides.eq_ok_iff.1 returned with ⟨accepted, rfl⟩
    exact ⟨accepted, panics⟩
  · rintro ⟨accepted, panics⟩
    exact ⟨value, decides.eq_ok accepted, panics⟩

/-- Behind a check the sequence has the value that its rest has. -/
theorem bind_eq_ok_iff
    (decides : Decides computation Accepts value) :
    (computation >>= next) = .ok result ↔
      Accepts ∧ next value = .ok result := by
  rw [Fallible.bind_eq_ok]
  constructor
  · rintro ⟨other, returned, continued⟩
    rcases decides.eq_ok_iff.1 returned with ⟨accepted, rfl⟩
    exact ⟨accepted, continued⟩
  · rintro ⟨accepted, continued⟩
    exact ⟨value, decides.eq_ok accepted, continued⟩

/-- A loop of checks, one for each item. -/
theorem mapM
    {ι : Type v} {check : ι → Checked α} {AcceptsAt : ι → Prop}
    {valueAt : ι → α} {items : List ι}
    (each : ∀ item ∈ items,
      Decides (check item) (AcceptsAt item) (valueAt item)) :
    Decides (items.mapM check) (∀ item ∈ items, AcceptsAt item)
      (items.map valueAt) := by
  induction items with
  | nil => exact ok (fun _ member => absurd member List.not_mem_nil) []
  | cons item items induction =>
      rcases List.forall_mem_cons.1 each with ⟨first, others⟩
      rw [List.mapM_cons, List.map_cons]
      refine first.bind (fun all => all item List.mem_cons_self) ?_
      intro passed
      refine (induction others).bind ?_ ?_
      · intro all other member
        exact all other (List.mem_cons_of_mem _ member)
      · intro allPassed
        exact ok (List.forall_mem_cons.2 ⟨passed, allPassed⟩) _

end Decides

/-! ## Computations that never panic -/

/-- A computation that has this value, or refuses if there is none. -/
def Reads (computation : Checked α) : Option α → Prop
  | some value => computation = .ok value
  | none => ∃ problem, computation = refuse problem

namespace Reads

variable
    {computation : Checked α} {read : Option α}
    {next : α → Checked β} {nextRead : α → Option β}

theorem refused (problem : String) : Reads (refuse problem : Checked α) none :=
  ⟨problem, rfl⟩

theorem map
    (reads : Reads computation read) (change : α → β) :
    Reads (computation.map change) (read.map change) := by
  cases read with
  | none =>
      rcases reads with ⟨problem, rfl⟩
      exact refused problem
  | some value =>
      cases reads
      rfl

theorem bind
    (reads : Reads computation read)
    (rest : ∀ value, Reads (next value) (nextRead value)) :
    Reads (computation >>= next) (read.bind nextRead) := by
  cases read with
  | none =>
      rcases reads with ⟨problem, rfl⟩
      exact refused problem
  | some value =>
      cases reads
      exact rest value

theorem ite
    {Chosen : Prop} [Decidable Chosen] {other : Checked α}
    {otherRead : Option α}
    (reads : Reads computation read) (otherReads : Reads other otherRead) :
    Reads (if Chosen then computation else other)
      (if Chosen then read else otherRead) := by
  split
  · exact reads
  · exact otherReads

/-- Two computations with one reading have one value, or both refuse. -/
theorem agree
    {other : Checked α}
    (reads : Reads computation read) (otherReads : Reads other read) :
    (∃ value, computation = .ok value ∧ other = .ok value) ∨
      (∃ problem, computation = refuse problem) ∧
        ∃ problem, other = refuse problem := by
  cases read with
  | none => exact Or.inr ⟨reads, otherReads⟩
  | some value => exact Or.inl ⟨value, reads, otherReads⟩

end Reads

/-! ## Computations that never refuse -/

/-- A computation that has its value under a condition and else panics. -/
def Completes (computation : Checked α) (Fits : Prop) (value : α) : Prop :=
  (Fits ∧ computation = .ok value) ∨ (¬ Fits ∧ Panics computation)

theorem completes_add64 (left right : Nat) :
    Completes (add64 left right) (left + right < 2 ^ 64) (left + right) := by
  by_cases fits : left + right < 2 ^ 64
  · exact Or.inl ⟨fits, add64_eq_ok fits⟩
  · exact Or.inr ⟨fits, panics_add64_iff.2 (not_lt.1 fits)⟩

namespace Completes

variable
    {computation : Checked α} {Fits First : Prop} {value : α}
    {next : α → Checked β} {result : β}

theorem ok (fits : Fits) (value : α) : Completes (.ok value) Fits value :=
  Or.inl ⟨fits, rfl⟩

theorem congr
    (completes : Completes computation First value) (same : Fits ↔ First) :
    Completes computation Fits value := by
  rwa [Completes, same]

theorem eq_ok_iff (completes : Completes computation Fits value) :
    computation = .ok value ↔ Fits := by
  rcases completes with ⟨fits, returned⟩ | ⟨overflows, panics⟩
  · exact ⟨fun _ => fits, fun _ => returned⟩
  · constructor
    · intro returned
      cases panics.symm.trans returned
    · intro fits
      exact absurd fits overflows

theorem of_eq_ok
    (completes : Completes computation Fits value) {other : α}
    (returned : computation = .ok other) : Fits ∧ value = other := by
  rcases completes with ⟨fits, same⟩ | ⟨-, panics⟩
  · cases same.symm.trans returned
    exact ⟨fits, rfl⟩
  · cases panics.symm.trans returned

theorem panics_iff (completes : Completes computation Fits value) :
    Panics computation ↔ ¬ Fits := by
  rcases completes with ⟨fits, returned⟩ | ⟨overflows, panics⟩
  · rw [returned]
    exact
      ⟨fun panics => absurd panics (not_panics_ok value),
        fun overflows => absurd fits overflows⟩
  · exact ⟨fun _ => overflows, fun _ => panics⟩

theorem eq_ok_of_not_panics
    (completes : Completes computation Fits value)
    (noPanic : ¬ Panics computation) : computation = .ok value := by
  rcases completes with ⟨-, returned⟩ | ⟨-, panics⟩
  · exact returned
  · exact absurd panics noPanic

/-- A step in front of others: what fits in the end fits it. -/
theorem bind
    (completes : Completes computation First value)
    (needed : Fits → First)
    (rest : First → Completes (next value) Fits result) :
    Completes (computation >>= next) Fits result := by
  rcases completes with ⟨fits, returned⟩ | ⟨overflows, panics⟩
  · rw [returned]
    exact rest fits
  · refine Or.inr ⟨mt needed overflows, ?_⟩
    rw [Checks.panics_bind_iff]
    exact Or.inl panics

/-- A step that has a value in any case. -/
theorem bind_ok
    (returned : computation = .ok value)
    (rest : Completes (next value) Fits result) :
    Completes (computation >>= next) Fits result := by
  rw [returned]
  exact rest

/-- A loop, one step for each item. -/
theorem mapM
    {ι : Type v} {step : ι → Checked α} {FitsAt : ι → Prop}
    {valueAt : ι → α} {items : List ι}
    (each : ∀ item ∈ items,
      Completes (step item) (FitsAt item) (valueAt item)) :
    Completes (items.mapM step) (∀ item ∈ items, FitsAt item)
      (items.map valueAt) := by
  induction items with
  | nil => exact ok (fun _ member => absurd member List.not_mem_nil) []
  | cons item items induction =>
      rcases List.forall_mem_cons.1 each with ⟨first, others⟩
      rw [List.mapM_cons, List.map_cons]
      refine first.bind (fun all => all item List.mem_cons_self) ?_
      intro fits
      refine (induction others).bind ?_ ?_
      · intro all other member
        exact all other (List.mem_cons_of_mem _ member)
      · intro allFit
        exact ok (List.forall_mem_cons.2 ⟨fits, allFit⟩) _

end Completes

end

end Confos.Library.Checks
