import Confos.Apt.ParallelStaging

/-!
# When parallel staging does not trip over itself

A worker relies on a file from its opening to its last check.  As long as no
other worker opens the file anew in between, every check of genuine downloads
succeeds, in any order of the steps of any number of workers.
-/

namespace Confos.Apt.ParallelStaging

open Confos.Apt.Staging
open Confos.Library.ByteStrings
open Confos.Library.Machines
open Confos.Library.Ownership

variable {Digest : Type} [DecidableEq Digest]

/-! ## What a worker relies on -/

/-- What the commands take for granted of a file: it is checked before it is
written. -/
def needs : List (Command Digest) → Path Digest → Option Bytes
  | [], _ => none
  | .stage base file _ :: rest, path =>
      if path = .release base file then none else needs rest path
  | .check base file bytes :: rest, path =>
      if path = .release base file then some bytes else needs rest path
  | .want _ _ :: rest, path => needs rest path

/-- A file is checked for what has been written. -/
def Consistent : List (Command Digest) → Prop
  | [] => True
  | .stage base file bytes :: rest =>
      (∀ needed, needs rest (.release base file) = some needed →
        needed = bytes) ∧ Consistent rest
  | .check base file bytes :: rest =>
      (∀ needed, needs rest (.release base file) = some needed →
        needed = bytes) ∧ Consistent rest
  | .want _ _ :: rest => Consistent rest

/-- Between its opening and its last check. -/
def Busy : Phase → Prop
  | .writing _ _ | .size | .hash => True
  | _ => False

namespace Worker

/-- The file that the first command is about. -/
def path? (worker : Worker Digest) : Option (Path Digest) :=
  match worker.todo with
  | [] => none
  | .stage base file _ :: _ => some (.release base file)
  | .check base file _ :: _ => some (.release base file)
  | .want item _ :: _ => some (.content item.digest)

/-- A worker relies on the file it works at and on those still to be checked,
unless it has raised an exception. -/
def Claims (worker : Worker Digest) (path : Path Digest) : Prop :=
  worker.ended = none ∧
    (worker.path? = some path ∧ Busy worker.phase ∨
      (needs worker.todo path).isSome = true)

/-- What the index or the release says of the file wanted first. -/
def item? (worker : Worker Digest) : Option (Item Digest) :=
  match worker.todo with
  | .want item _ :: _ => some item
  | _ => none

/-- The file that a step opens anew. -/
def opens (worker : Worker Digest) (choice : Choice) : Option (Path Digest) :=
  match worker.todo, worker.phase, choice with
  | .stage base file _ :: _, .test, .go => some (.release base file)
  | .want item _ :: _, .request, .answer _ => some (.content item.digest)
  | _, _, _ => none

end Worker

section

variable (sha256 : Bytes → Digest)

/-- An answer is what the item says. -/
def Right (item : Item Digest) (response : Bytes) : Prop :=
  sha256 response = item.digest ∧ response.length = item.size

/-- What a file being staged holds. -/
def ItemHolds (item : Item Digest) (file : Option Bytes) : Phase → Prop
  | .writing response position =>
      Right sha256 item response ∧ position ≤ response.length ∧
        file = some (response.take position)
  | .size | .hash => ∃ response, Right sha256 item response ∧
      file = some response
  | _ => True

/-- What a file being written by `stage` holds. -/
def StageHolds (bytes : Bytes) (file : Option Bytes) : Phase → Prop
  | .writing response position =>
      response = bytes ∧ position ≤ response.length ∧
        file = some (response.take position)
  | .test => True
  | _ => False

/-- What the file of the first command holds. -/
def CurrentHolds (files : Files Digest) (phase : Phase) :
    List (Command Digest) → Prop
  | [] => True
  | .stage base file bytes :: _ =>
      StageHolds bytes (files (.release base file)) phase
  | .check _ _ _ :: _ => True
  | .want item _ :: _ =>
      ItemHolds sha256 item (files (.content item.digest)) phase

/-- What the commands and the phase of a worker rely on. -/
structure Worker.Relies (worker : Worker Digest) (files : Files Digest) :
    Prop where
  consistent : Consistent worker.todo
  needed :
    ∀ path bytes, needs worker.todo path = some bytes →
      files path = some bytes
  current : CurrentHolds sha256 files worker.phase worker.todo

/-- No check of a worker failed, and what it still relies on holds. -/
structure Worker.Holds (worker : Worker Digest) (files : Files Digest) :
    Prop where
  trusted : worker.ended ≠ some .untrusted
  relies : worker.ended = none → worker.Relies sha256 files

theorem Worker.relies_congr
    {worker : Worker Digest} {files others : Files Digest}
    (going : worker.ended = none)
    (same : ∀ path, worker.Claims path → files path = others path)
    (relies : worker.Relies sha256 files) :
    worker.Relies sha256 others where
  consistent := relies.consistent
  needed := by
    intro path bytes needed
    rw [← same path ⟨going, Or.inr (by rw [needed]; rfl)⟩]
    exact relies.needed path bytes needed
  current := by
    have current := relies.current
    rcases worker with ⟨todo, phase, ended⟩
    cases todo with
    | nil => trivial
    | cons command rest =>
        cases command with
        | stage base file bytes =>
            cases phase with
            | writing response position =>
                rw [CurrentHolds, ← same _ ⟨going, Or.inl ⟨rfl, trivial⟩⟩]
                exact current
            | _ => exact current
        | check base file bytes => trivial
        | want item optional =>
            cases phase with
            | writing response position =>
                rw [CurrentHolds, ← same _ ⟨going, Or.inl ⟨rfl, trivial⟩⟩]
                exact current
            | size =>
                rw [CurrentHolds, ← same _ ⟨going, Or.inl ⟨rfl, trivial⟩⟩]
                exact current
            | hash =>
                rw [CurrentHolds, ← same _ ⟨going, Or.inl ⟨rfl, trivial⟩⟩]
                exact current
            | _ => exact current

theorem Worker.holds_congr
    {worker : Worker Digest} {files others : Files Digest}
    (same : ∀ path, worker.Claims path → files path = others path)
    (holds : worker.Holds sha256 files) : worker.Holds sha256 others where
  trusted := holds.trusted
  relies going :=
    Worker.relies_congr sha256 going same (holds.relies going)

/-- Workers share the work directory. -/
def discipline : Discipline (Worker Digest) (Path Digest) (Option Bytes) where
  Claims := Worker.Claims
  Holds := Worker.Holds sha256
  holds_congr := Worker.holds_congr sha256

/-- The file of a digest is what the digest says. -/
def IsRight (files : Files Digest) (digest : Digest) : Prop :=
  ∃ content, files (.content digest) = some content ∧ sha256 content = digest

end

/-- A worker replaces the file of a digest. -/
def Worker.Replaces (worker : Worker Digest) (digest : Digest) : Prop :=
  worker.path? = some (.content digest) ∧
    worker.phase ≠ .test ∧ worker.phase ≠ .found

/-! ## One step -/

section

variable {sha256 : Bytes → Digest}

/-- What a step of one worker keeps of the order of the work directory. -/
structure Worker.Moves (sha256 : Bytes → Digest) (worker : Worker Digest)
    (files : Files Digest) (choice : Choice)
    (result : Worker.Result Digest) : Prop where
  claims :
    ∀ path, result.worker.Claims path →
      worker.Claims path ∨ worker.opens choice = some path
  changes :
    ∀ path, files path ≠ result.files path →
      worker.Claims path ∨ worker.opens choice = some path
  holds : result.worker.Holds sha256 result.files
  staged : ∀ digest ∈ result.staged, IsRight sha256 result.files digest
  replaces :
    ∀ digest, IsRight sha256 files digest ∨ worker.Replaces digest →
      IsRight sha256 result.files digest ∨ result.worker.Replaces digest

theorem Worker.claims_ofTask
    {todo : List (Command Digest)} {path : Path Digest} :
    (Worker.ofTask todo).Claims path ↔ (needs todo path).isSome = true := by
  constructor
  · rintro ⟨-, ⟨-, busy⟩ | needed⟩
    · exact absurd busy id
    · exact needed
  · exact fun needed => ⟨rfl, Or.inr needed⟩

theorem Worker.holds_ofTask
    {todo : List (Command Digest)} {files : Files Digest}
    (consistent : Consistent todo)
    (needed :
      ∀ path bytes, needs todo path = some bytes →
        files path = some bytes) :
    (Worker.ofTask todo).Holds sha256 files where
  trusted := by
    intro impossible
    cases impossible
  relies _ :=
    { consistent
      needed
      current := by
        cases todo with
        | nil => trivial
        | cons command rest =>
            cases command with
            | stage base file bytes => trivial
            | check base file bytes => trivial
            | want item optional => trivial }

/-- A worker that raises another exception relies on nothing. -/
theorem Worker.holds_failed
    {worker : Worker Digest} {files : Files Digest}
    (failed : worker.ended = some .failed) :
    worker.Holds sha256 files where
  trusted := by
    rw [failed]
    simp
  relies := by
    rw [failed]
    intro impossible
    cases impossible

theorem eq_of_ne_update
    {files : Files Digest} {path other : Path Digest} {value : Option Bytes}
    (changed : files other ≠ Function.update files path value other) :
    other = path := by
  by_contra different
  rw [Function.update_of_ne different] at changed
  exact changed rfl

theorem isRight_update_release
    {files : Files Digest} {base : String} {file : ReleaseFile}
    {value : Option Bytes} {digest : Digest} :
    IsRight sha256 (Function.update files (.release base file) value)
        digest ↔
      IsRight sha256 files digest := by
  have same :
      Function.update files (.release base file) value (.content digest) =
        files (.content digest) := by
    rw [Function.update_of_ne]
    intro impossible
    cases impossible
  rw [IsRight, IsRight, same]

theorem needs_stage_eq_some
    {base : String} {file : ReleaseFile} {bytes needed : Bytes}
    {rest : List (Command Digest)} {path : Path Digest} :
    needs (.stage base file bytes :: rest) path = some needed ↔
      path ≠ .release base file ∧ needs rest path = some needed := by
  rw [needs]
  split
  · next same =>
      constructor
      · intro impossible
        cases impossible
      · rintro ⟨different, -⟩
        exact absurd same different
  · next different => exact ⟨fun found => ⟨different, found⟩, And.right⟩

/-- What the other commands rely on while a file is written. -/
theorem needed_update
    {base : String} {file : ReleaseFile} {bytes : Bytes}
    {rest : List (Command Digest)} {files : Files Digest}
    (needed :
      ∀ path bytes',
        needs (.stage base file bytes :: rest) path = some bytes' →
          files path = some bytes')
    (value : Option Bytes) (path : Path Digest) (bytes' : Bytes)
    (needs : needs (.stage base file bytes :: rest) path = some bytes') :
    Function.update files (.release base file) value path = some bytes' := by
  rw [Function.update_of_ne (needs_stage_eq_some.1 needs).1]
  exact needed path bytes' needs

/-- What the commands behind a written or checked file rely on. -/
theorem needed_of_written
    {base : String} {file : ReleaseFile} {bytes : Bytes}
    {rest : List (Command Digest)} {files : Files Digest}
    (consistent :
      ∀ needed, needs rest (.release base file) = some needed →
        needed = bytes)
    (written : files (.release base file) = some bytes)
    (others :
      ∀ path needed, path ≠ .release base file →
        needs rest path = some needed → files path = some needed)
    (path : Path Digest) (needed : Bytes)
    (needs : needs rest path = some needed) :
    files path = some needed := by
  by_cases same : path = .release base file
  · rw [same] at needs ⊢
    rw [consistent needed needs, written]
  · exact others path needed same needs

/-- One step of `stage`. -/
theorem Worker.moves_stage
    {base : String} {file : ReleaseFile} {bytes : Bytes}
    {rest : List (Command Digest)} {worker : Worker Digest}
    {files : Files Digest} {choice : Choice} {result : Worker.Result Digest}
    (todo : worker.todo = .stage base file bytes :: rest)
    (going : worker.ended = none) (relies : worker.Relies sha256 files)
    (acted :
      Worker.actStage base file bytes rest worker files choice =
        some result) :
    worker.Moves sha256 files choice result := by
  rcases worker with ⟨_, phase, ended⟩
  cases todo
  cases going
  have notReplacing :
      ∀ phase digest,
        ¬Worker.Replaces
          (⟨.stage base file bytes :: rest, phase, none⟩ : Worker Digest)
          digest := by
    rintro phase digest ⟨impossible, -⟩
    cases impossible
  cases phase with
  | test =>
      cases choice with
      | giveUp =>
          cases acted
          exact
            { claims := fun _ claims => absurd claims.1 (by simp)
              changes := fun _ changed => absurd rfl changed
              holds := Worker.holds_failed rfl
              staged := by simp
              replaces := fun _ => id }
      | go =>
          cases acted
          refine
            { claims := ?_
              changes := fun _ changed =>
                Or.inr (by rw [eq_of_ne_update changed]; rfl)
              holds :=
                { trusted := by simp
                  relies := fun _ =>
                    { consistent := relies.consistent
                      needed := needed_update relies.needed _
                      current := ?_ } }
              staged := by simp
              replaces := ?_ }
          · rintro path ⟨going, ⟨current, -⟩ | needed⟩
            · exact Or.inr current
            · exact Or.inl ⟨going, Or.inr needed⟩
          · exact ⟨rfl, Nat.zero_le _, Function.update_self ..⟩
          · rintro digest (right | replaces)
            · exact Or.inl (isRight_update_release.2 right)
            · exact absurd replaces (notReplacing _ digest)
      | _ => cases acted
  | writing response position =>
      rcases relies.current with ⟨rfl, inside, there⟩
      cases choice with
      | block length =>
          simp only [Worker.actStage] at acted
          split at acted
          · cases acted
            refine
              { claims := fun _ => Or.inl
                changes := fun _ changed =>
                  Or.inl
                    ⟨rfl,
                      Or.inl
                        ⟨by rw [eq_of_ne_update changed]; rfl, trivial⟩⟩
                holds :=
                  { trusted := by simp
                    relies := fun _ =>
                      { consistent := relies.consistent
                        needed := needed_update relies.needed _
                        current := ?_ } }
                staged := by simp
                replaces := ?_ }
            · refine ⟨rfl, ?_, ?_⟩
              · rw [List.length_take, List.length_drop]
                omega
              · dsimp only
                rw [Function.update_self, there, Option.map_some,
                  writeAt_take _ _ _ inside]
            · rintro digest (right | replaces)
              · exact Or.inl (isRight_update_release.2 right)
              · exact absurd replaces (notReplacing _ digest)
          · cases acted
      | go =>
          simp only [Worker.actStage] at acted
          split at acted
          · cases acted
          · next all =>
              cases acted
              have written : files (.release base file) = some response := by
                rw [there, List.take_of_length_le (Nat.le_of_not_lt all)]
              have others :
                  ∀ path needed, path ≠ .release base file →
                    needs rest path = some needed →
                      files path = some needed :=
                fun path needed different needs =>
                  relies.needed path needed
                    (needs_stage_eq_some.2 ⟨different, needs⟩)
              refine
                { claims := ?_
                  changes := fun _ changed => absurd rfl changed
                  holds :=
                    Worker.holds_ofTask relies.consistent.2
                      (needed_of_written relies.consistent.1 written others)
                  staged := by simp
                  replaces := ?_ }
              · intro path claims
                rw [Worker.claims_ofTask] at claims
                by_cases same : path = .release base file
                · exact
                    Or.inl ⟨rfl, Or.inl ⟨by rw [same]; rfl, trivial⟩⟩
                · rcases Option.isSome_iff_exists.1 claims with
                    ⟨needed, needs⟩
                  refine Or.inl ⟨rfl, Or.inr ?_⟩
                  rw [needs_stage_eq_some.2 ⟨same, needs⟩]
                  rfl
              · rintro digest (right | replaces)
                · exact Or.inl right
                · exact absurd replaces (notReplacing _ digest)
      | _ => cases acted
  | _ => cases acted

/-- One check of a written file; it succeeds. -/
theorem Worker.moves_check
    {base : String} {file : ReleaseFile} {bytes : Bytes}
    {rest : List (Command Digest)} {worker : Worker Digest}
    {files : Files Digest} {choice : Choice} {result : Worker.Result Digest}
    (todo : worker.todo = .check base file bytes :: rest)
    (going : worker.ended = none) (relies : worker.Relies sha256 files)
    (acted : worker.act sha256 files choice = some result) :
    worker.Moves sha256 files choice result := by
  rcases worker with ⟨_, phase, ended⟩
  cases todo
  cases going
  have written : files (.release base file) = some bytes :=
    relies.needed _ _ (if_pos rfl)
  simp only [Worker.act, Option.isSome_none, Bool.false_eq_true,
    if_false] at acted
  cases phase with
  | test =>
      cases choice with
      | go =>
          simp only [written, if_true, Option.some.injEq] at acted
          cases acted
          have others :
              ∀ path needed, path ≠ .release base file →
                needs rest path = some needed →
                  files path = some needed := by
            intro path needed different needs
            refine relies.needed path needed ?_
            rw [ParallelStaging.needs, if_neg different]
            exact needs
          refine
            { claims := ?_
              changes := fun _ changed => absurd rfl changed
              holds :=
                Worker.holds_ofTask relies.consistent.2
                  (needed_of_written relies.consistent.1 written others)
              staged := by simp
              replaces := ?_ }
          · intro path claims
            rw [Worker.claims_ofTask] at claims
            refine Or.inl ⟨rfl, Or.inr ?_⟩
            dsimp only
            rw [needs]
            split
            · rfl
            · exact claims
          · rintro digest (right | ⟨impossible, -⟩)
            · exact Or.inl right
            · cases impossible
      | _ => cases acted
  | _ => cases acted

/-- A worker behind a file that is done with. -/
theorem Worker.moves_next
    {item : Item Digest} {optional : Bool} {rest : List (Command Digest)}
    {worker : Worker Digest} {files : Files Digest} {choice : Choice}
    {staged : Option Digest}
    (todo : worker.todo = .want item optional :: rest)
    (going : worker.ended = none) (relies : worker.Relies sha256 files)
    (right :
      staged = some item.digest ∧ IsRight sha256 files item.digest ∨
        staged = none ∧ worker.phase = .test) :
    worker.Moves sha256 files choice ⟨Worker.ofTask rest, files, staged⟩ := by
  rcases worker with ⟨_, phase, ended⟩
  cases todo
  refine
    { claims := ?_
      changes := fun _ changed => absurd rfl changed
      holds := Worker.holds_ofTask relies.consistent relies.needed
      staged := ?_
      replaces := ?_ }
  · intro path claims
    have needed : (needs rest path).isSome = true :=
      Worker.claims_ofTask.1 claims
    exact Or.inl ⟨going, Or.inr needed⟩
  · intro digest isStaged
    rcases right with ⟨same, right⟩ | ⟨same, -⟩
    · rw [same] at isStaged
      cases isStaged
      exact right
    · rw [same] at isStaged
      cases isStaged
  · rintro digest (isRight | ⟨same, notTest, -⟩)
    · exact Or.inl isRight
    · rcases right with ⟨-, right⟩ | ⟨-, isTest⟩
      · cases same
        exact Or.inl right
      · exact absurd isTest notTest

theorem needs_content
    {todo : List (Command Digest)} {digest : Digest} :
    needs todo (.content digest) = none := by
  induction todo with
  | nil => rfl
  | cons command rest induction =>
      cases command with
      | stage base file bytes =>
          rw [needs, if_neg (by simp)]
          exact induction
      | check base file bytes =>
          rw [needs, if_neg (by simp)]
          exact induction
      | want item optional => exact induction

/-- A worker that goes on with a file. -/
theorem Worker.moves_on
    {item : Item Digest} {optional : Bool} {rest : List (Command Digest)}
    {worker : Worker Digest} {files : Files Digest} {choice : Choice}
    {phase : Phase} {after : Option Bytes}
    (todo : worker.todo = .want item optional :: rest)
    (going : worker.ended = none) (relies : worker.Relies sha256 files)
    (busy :
      Busy phase →
        Busy worker.phase ∨
          worker.opens choice = some (.content item.digest))
    (changes :
      files (.content item.digest) ≠ after →
        Busy worker.phase ∨
          worker.opens choice = some (.content item.digest))
    (current : ItemHolds sha256 item after phase)
    (replaces :
      files (.content item.digest) = after ∧ phase = .found ∧
          worker.phase = .test ∨
        phase ≠ .test ∧ phase ≠ .found) :
    worker.Moves sha256 files choice
      ⟨⟨.want item optional :: rest, phase, none⟩,
        Function.update files (.content item.digest) after, none⟩ := by
  rcases worker with ⟨_, before, earlier⟩
  cases todo
  refine
    { claims := ?_
      changes := ?_
      holds :=
        { trusted := by simp
          relies := fun _ =>
            { consistent := relies.consistent
              needed := ?_
              current := ?_ } }
      staged := by simp
      replaces := ?_ }
  · rintro path ⟨-, ⟨current, isBusy⟩ | needed⟩
    · cases current
      rcases busy isBusy with wasBusy | opens
      · exact Or.inl ⟨going, Or.inl ⟨rfl, wasBusy⟩⟩
      · exact Or.inr opens
    · exact Or.inl ⟨going, Or.inr needed⟩
  · intro path changed
    cases eq_of_ne_update changed
    dsimp only at changed
    rw [Function.update_self] at changed
    rcases changes changed with wasBusy | opens
    · exact Or.inl ⟨going, Or.inl ⟨rfl, wasBusy⟩⟩
    · exact Or.inr opens
  · intro path bytes needed
    dsimp only at needed ⊢
    rw [Function.update_of_ne]
    · exact relies.needed path bytes needed
    · rintro rfl
      rw [needs_content] at needed
      cases needed
  · dsimp only
    rw [CurrentHolds, Function.update_self]
    exact current
  · intro digest before
    by_cases same : digest = item.digest
    · rw [same] at before ⊢
      rcases replaces with ⟨kept, rfl, rfl⟩ | ⟨notTest, notFound⟩
      · rw [← kept, Function.update_eq_self]
        rcases before with right | ⟨-, impossible, -⟩
        · exact Or.inl right
        · exact absurd rfl impossible
      · exact Or.inr ⟨rfl, notTest, notFound⟩
    · have other :
          Function.update files (.content item.digest) after
              (.content digest) =
            files (.content digest) := by
        rw [Function.update_of_ne]
        intro impossible
        cases impossible
        exact same rfl
      rcases before with right | ⟨current, -⟩
      · refine Or.inl ?_
        dsimp only
        rw [IsRight, other]
        exact right
      · cases current
        exact absurd rfl same

/-- A download that is what the item says. -/
def GenuineAnswer (sha256 : Bytes → Digest) (item : Item Digest) :
    Choice → Prop
  | .answer response => Right sha256 item response
  | _ => True

instance (sha256 : Bytes → Digest) (item : Item Digest) :
    DecidablePred (GenuineAnswer sha256 item)
  | .answer response =>
      inferInstanceAs
        (Decidable
          (sha256 response = item.digest ∧ response.length = item.size))
  | .go | .block _ | .retry | .giveUp | .present => .isTrue trivial

/-- One step with a file that is named by its digest. -/
theorem Worker.moves_item
    {item : Item Digest} {optional : Bool} {rest : List (Command Digest)}
    {worker : Worker Digest} {files : Files Digest} {choice : Choice}
    {outcome : Outcome} {after : Option Bytes}
    (todo : worker.todo = .want item optional :: rest)
    (going : worker.ended = none) (relies : worker.Relies sha256 files)
    (genuine : GenuineAnswer sha256 item choice)
    (acts :
      item.Acts sha256 worker.phase (files (.content item.digest)) choice
        outcome after) :
    worker.Moves sha256 files choice
      (Worker.behind item rest worker files (outcome, after)) := by
  rcases worker with ⟨_, phase, ended⟩
  cases todo
  cases going
  have current := relies.current
  rw [CurrentHolds] at current
  have same :
      Function.update files (.content item.digest)
          (files (.content item.digest)) =
        files :=
    Function.update_eq_self ..
  generalize there : files (.content item.digest) = file
    at acts current same
  cases acts with
  | absent =>
      exact
        Worker.moves_on rfl rfl relies False.elim
          (fun changed => absurd there changed) trivial
          (Or.inr ⟨by decide, by decide⟩)
  | there content =>
      exact
        Worker.moves_on rfl rfl relies False.elim
          (fun changed => absurd there changed) trivial
          (Or.inl ⟨there, rfl, rfl⟩)
  | reuse content right =>
      rw [Worker.behind]
      dsimp only
      rw [same]
      exact Worker.moves_next rfl rfl relies (Or.inl ⟨rfl, content, there, right⟩)
  | replace content wrong =>
      exact
        Worker.moves_on rfl rfl relies False.elim
          (fun changed => absurd there changed) trivial
          (Or.inr ⟨by decide, by decide⟩)
  | opened file response =>
      exact
        Worker.moves_on rfl rfl relies (fun _ => Or.inr rfl)
          (fun _ => Or.inr rfl) ⟨genuine, Nat.zero_le _, rfl⟩
          (Or.inr ⟨by simp, by simp⟩)
  | write file response position length before =>
      rcases current with ⟨right, inside, rfl⟩
      refine
        Worker.moves_on rfl rfl relies (fun _ => Or.inl trivial)
          (fun _ => Or.inl trivial) ⟨right, ?_, ?_⟩
          (Or.inr ⟨by simp, by simp⟩)
      · rw [List.length_take, List.length_drop]
        omega
      · rw [Option.map_some, writeAt_take _ _ _ inside]
  | written file response position all =>
      rcases current with ⟨right, inside, rfl⟩
      refine
        Worker.moves_on rfl rfl relies (fun _ => Or.inl trivial)
          (fun _ => Or.inl trivial) ⟨response, right, ?_⟩
          (Or.inr ⟨by decide, by decide⟩)
      rw [List.take_of_length_le all]
  | again phase file =>
      exact
        Worker.moves_on rfl rfl relies False.elim
          (fun changed => absurd there changed) trivial
          (Or.inr ⟨by decide, by decide⟩)
  | fitting content fits =>
      exact
        Worker.moves_on rfl rfl relies (fun _ => Or.inl trivial)
          (fun _ => Or.inl trivial) current
          (Or.inr ⟨by decide, by decide⟩)
  | misfit content misfits =>
      rcases current with ⟨response, right, same⟩
      cases same
      exact absurd right.2 misfits
  | verified content right =>
      rw [Worker.behind]
      dsimp only
      rw [same]
      exact Worker.moves_next rfl rfl relies (Or.inl ⟨rfl, content, there, right⟩)
  | tampered content wrong =>
      rcases current with ⟨response, right, same⟩
      cases same
      exact absurd right.1 wrong
  | failed phase file choice =>
      rw [Worker.behind]
      dsimp only
      rw [same]
      exact
        { claims := fun _ claims => absurd claims.1 (by simp)
          changes := fun _ changed => absurd rfl changed
          holds := Worker.holds_failed rfl
          staged := by simp
          replaces := fun _ => id }

theorem Worker.moves_want
    {item : Item Digest} {optional : Bool} {rest : List (Command Digest)}
    {worker : Worker Digest} {files : Files Digest} {choice : Choice}
    {result : Worker.Result Digest}
    (todo : worker.todo = .want item optional :: rest)
    (going : worker.ended = none) (relies : worker.Relies sha256 files)
    (genuine : GenuineAnswer sha256 item choice)
    (acted :
      Worker.actWant sha256 item optional rest worker files choice =
        some result) :
    worker.Moves sha256 files choice result := by
  unfold Worker.actWant at acted
  split at acted
  · next isTest =>
      cases acted
      exact Worker.moves_next todo going relies (Or.inr ⟨rfl, isTest⟩)
  · rcases Option.map_eq_some_iff.1 acted with
      ⟨⟨outcome, after⟩, stepped, rfl⟩
    exact
      Worker.moves_item todo going relies genuine
        (Item.acts_of_act sha256 stepped)

/-- One step of a worker whose downloads are genuine. -/
theorem Worker.moves_of_act
    {worker : Worker Digest} {files : Files Digest} {choice : Choice}
    {result : Worker.Result Digest} (holds : worker.Holds sha256 files)
    (genuine : ∀ item ∈ worker.item?, GenuineAnswer sha256 item choice)
    (acted : worker.act sha256 files choice = some result) :
    worker.Moves sha256 files choice result := by
  have stepped := acted
  rw [Worker.act] at acted
  split at acted
  · cases acted
  · next notEnded =>
      have going : worker.ended = none := by simpa using notEnded
      split at acted
      · cases acted
      · next base file bytes rest todo =>
          exact Worker.moves_stage todo going (holds.relies going) acted
      · next base file bytes rest todo =>
          exact Worker.moves_check todo going (holds.relies going) stepped
      · next item optional rest todo =>
          exact
            Worker.moves_want todo going (holds.relies going)
              (genuine item (by rw [Worker.item?, todo]; rfl)) acted

end

/-! ## Whole runs -/

section

variable (sha256 : Bytes → Digest)

/-- Every download delivers the genuine bytes. -/
def Genuine (state : State Digest) : Action → Prop
  | .start => True
  | .act worker choice =>
      ∀ item ∈ (state.workers worker).item?,
        GenuineAnswer sha256 item choice

instance (state : State Digest) (action : Action) :
    Decidable (Genuine sha256 state action) :=
  match action with
  | .start => .isTrue trivial
  | .act worker choice =>
      @Option.decidableForallMem _ (GenuineAnswer sha256 · choice)
        (fun _ => inferInstance) (state.workers worker).item?

/-- No file is opened anew that another worker relies on. -/
def Undisturbed (state : State Digest) : Action → Prop
  | .start => True
  | .act worker choice =>
      ∀ path, (state.workers worker).opens choice = some path →
        (discipline sha256).FreeFor state.workers worker path

/-- What every undisturbed step keeps. -/
structure State.Safe (state : State Digest) : Prop where
  shared : (discipline sha256).Invariant state.workers state.files
  staged :
    ∀ digest ∈ state.staged,
      IsRight sha256 state.files digest ∨
        ∃ worker, (state.workers worker).Replaces digest

variable {sha256}

theorem State.Safe.act
    {state after : State Digest} {worker : Nat} {choice : Choice}
    (safe : state.Safe sha256)
    (genuine : Genuine sha256 state (.act worker choice))
    (undisturbed : Undisturbed sha256 state (.act worker choice))
    {result : Worker.Result Digest}
    (acted :
      (state.workers worker).act sha256 state.files choice = some result)
    (afterEq :
      after =
        { state with
          files := result.files
          workers := Function.update state.workers worker result.worker
          staged := state.staged ++ result.staged.toList }) :
    after.Safe sha256 := by
  have moves :=
    Worker.moves_of_act (safe.shared.holds worker) genuine acted
  have free :
      ∀ path,
        (state.workers worker).Claims path ∨
            (state.workers worker).opens choice = some path →
          (discipline sha256).FreeFor state.workers worker path := by
    rintro path (claims | opens)
    · exact safe.shared.freeFor claims
    · exact undisturbed path opens
  rw [afterEq]
  constructor
  · exact
      safe.shared.update (fun path claims => free path (moves.claims path claims))
        (fun path changed => free path (moves.changes path changed))
        moves.holds
  · intro digest isStaged
    dsimp only at isStaged ⊢
    rcases List.mem_append.1 isStaged with earlier | new
    · by_cases own :
          IsRight sha256 state.files digest ∨
            (state.workers worker).Replaces digest
      · rcases moves.replaces digest own with right | replaces
        · exact Or.inl right
        · refine Or.inr ⟨worker, ?_⟩
          rw [Function.update_self]
          exact replaces
      · rcases safe.staged digest earlier with right | ⟨other, replaces⟩
        · exact absurd (Or.inl right) own
        · refine Or.inr ⟨other, ?_⟩
          rw [Function.update_of_ne]
          · exact replaces
          · rintro rfl
            exact own (Or.inr replaces)
    · exact Or.inl (moves.staged digest (Option.mem_toList.1 new))

theorem State.Safe.step
    {mirror : Mirror Digest} {before after : State Digest} {action : Action}
    (safe : before.Safe sha256) (genuine : Genuine sha256 before action)
    (undisturbed : Undisturbed sha256 before action)
    (stepped : step sha256 mirror before action = some after) :
    after.Safe sha256 := by
  cases action with
  | start =>
      rw [ParallelStaging.step] at stepped
      split at stepped
      · cases stepped
        exact ⟨safe.shared, safe.staged⟩
      · cases stepped
  | act worker choice =>
      rw [ParallelStaging.step] at stepped
      split at stepped
      · rcases Option.map_eq_some_iff.1 stepped with ⟨result, acted, rfl⟩
        exact safe.act genuine undisturbed acted rfl
      · cases stepped

/-! ## The start -/

/-- A task is consistent and relies on nothing yet. -/
def Fresh (todo : List (Command Digest)) : Prop :=
  Consistent todo ∧ ∀ path, needs todo path = none

theorem needs_wants
    {items : List (Item Digest)} {path : Path Digest} :
    needs (items.map Command.index) path = none := by
  induction items with
  | nil => rfl
  | cons item items induction => exact induction

theorem consistent_wants {items : List (Item Digest)} :
    Consistent (items.map Command.index) := by
  induction items with
  | nil => trivial
  | cons item items induction => exact induction

theorem fresh_suite (suite : Suite Digest) : Fresh suite.commands := by
  constructor
  · simp [Suite.commands, Consistent, needs, needs_wants, consistent_wants]
  · intro path
    cases path with
    | content digest => exact needs_content
    | release base file =>
        simp only [Suite.commands, List.cons_append, List.nil_append, needs,
          needs_wants, Path.release.injEq]
        by_cases same : base = suite.base
        · cases file with
          | inRelease => simp [same]
          | release => simp [same]
          | signature => simp [same]
        · simp [same]

theorem fresh_task
    (mirror : Mirror Digest) (worker : Nat) :
    Fresh (mirror.tasks.getD worker []) := by
  rw [List.getD_eq_getElem?_getD]
  cases found : mirror.tasks[worker]? with
  | none => exact ⟨trivial, fun _ => rfl⟩
  | some todo =>
      have isTask := List.mem_of_getElem? found
      rcases List.mem_append.1 isTask with isSuite | isFetch
      · rcases List.mem_map.1 isSuite with ⟨suite, -, rfl⟩
        exact fresh_suite suite
      · rcases List.mem_map.1 isFetch with ⟨item, -, rfl⟩
        exact ⟨trivial, fun _ => rfl⟩

/-- Only one task at a time is begun and not over. -/
structure State.Alone (mirror : Mirror Digest) (state : State Digest) :
    Prop where
  alone :
    ∀ one other, one < state.started → other < state.started →
      (state.workers one).running = true →
        (state.workers other).running = true → one = other
  fresh :
    ∀ worker, state.started ≤ worker →
      state.workers worker = .ofTask (mirror.tasks.getD worker [])

theorem Worker.running_of_claims
    {worker : Worker Digest} {path : Path Digest}
    (claims : worker.Claims path) : worker.running = true := by
  rcases worker with ⟨todo, phase, ended⟩
  rcases claims with ⟨rfl, current⟩
  cases todo with
  | nil =>
      rcases current with ⟨impossible, -⟩ | impossible
      · cases impossible
      · cases impossible
  | cons command rest => rfl

theorem Worker.running_of_act
    {worker : Worker Digest} {files : Files Digest} {choice : Choice}
    {result : Worker.Result Digest}
    (acted : worker.act sha256 files choice = some result) :
    worker.running = true := by
  rcases worker with ⟨todo, phase, ended⟩
  cases ended with
  | some outcome => cases acted
  | none =>
      cases todo with
      | nil => cases acted
      | cons command rest => rfl

theorem State.Alone.undisturbed
    {mirror : Mirror Digest} {before after : State Digest} {action : Action}
    (one : mirror.jobs = 1) (alone : before.Alone mirror)
    (stepped : step sha256 mirror before action = some after) :
    Undisturbed sha256 before action ∧ after.Alone mirror := by
  cases action with
  | start =>
      rw [step] at stepped
      split at stepped
      · next can =>
          cases stepped
          simp only [canStart, Bool.and_eq_true, decide_eq_true_eq, one,
            Nat.lt_one_iff, List.countP_eq_zero, List.mem_range] at can
          have idle := can.1.2
          refine ⟨trivial, ⟨?_, ?_⟩⟩
          · intro first second firstBegun secondBegun firstRuns secondRuns
            have isNew :
                ∀ worker, worker < before.started + 1 →
                  (before.workers worker).running = true →
                    worker = before.started := by
              intro worker begun runs
              by_contra other
              exact idle worker (by omega) runs
            rw [isNew first firstBegun firstRuns,
              isNew second secondBegun secondRuns]
          · intro worker notBegun
            exact alone.fresh worker (Nat.le_of_succ_le notBegun)
      · cases stepped
  | act worker choice =>
      rw [step] at stepped
      split at stepped
      · next begun =>
          rcases Option.map_eq_some_iff.1 stepped with ⟨result, acted, rfl⟩
          have runs := Worker.running_of_act acted
          refine ⟨?_, ⟨?_, ?_⟩⟩
          · intro path _ other different claims
            by_cases otherBegun : other < before.started
            · exact
                different
                  (alone.alone other worker otherBegun begun
                    (Worker.running_of_claims claims) runs)
            · rw [alone.fresh other (Nat.le_of_not_lt otherBegun)] at claims
              have needed := Worker.claims_ofTask.1 claims
              rw [(fresh_task mirror other).2] at needed
              cases needed
          · have wasRunning :
                ∀ other,
                  (Function.update before.workers worker result.worker
                    other).running = true →
                    (before.workers other).running = true := by
              intro other running
              by_cases same : other = worker
              · rw [same]
                exact runs
              · rw [Function.update_of_ne same] at running
                exact running
            intro first second firstBegun secondBegun firstRuns secondRuns
            exact
              alone.alone first second firstBegun secondBegun
                (wasRunning first firstRuns) (wasRunning second secondRuns)
          · intro other notBegun
            dsimp only at notBegun ⊢
            rw [Function.update_of_ne]
            · exact alone.fresh other notBegun
            · rintro rfl
              exact absurd begun (Nat.not_lt.2 notBegun)
      · cases stepped

end

/-! ## Two suites with an index in common -/

/-- The release files are staged and checked, and the index is not there. -/
def toRequest (worker : Nat) : List Action :=
  List.replicate 11 (.act worker .go)

/-- The index is downloaded and written. -/
def download (worker : Nat) : List Action :=
  [.act worker (.answer [1]), .act worker (.block 0), .act worker .go]

/-- The two suites one behind the other; the second one finds the index. -/
def inTurn : List Action :=
  [.start] ++ toRequest 0 ++ download 0 ++ [.act 0 .go, .act 0 .go, .start] ++
    List.replicate 12 (.act 1 .go)

end Confos.Apt.ParallelStaging
