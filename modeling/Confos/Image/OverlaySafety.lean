import Confos.Image.OverlaySteps
import Confos.Library.LastWrites
import Confos.Library.Machines
import Mathlib.Data.List.Infix

/-!
# What mkosi is given

Whatever builds of a checkout have run, and wherever they were killed, a build
that runs mkosi is the only one at the overlay.  Its `--sync-input` files are
there and no others, what it staged is there unless the operator or a script
of mkosi wrote over it, and all the rest is the operator's or was left by a
build that did not get to remove it.
-/

namespace Confos.Image.OverlaySafety

open Confos.Image.StagedProfiles (Node Path)
open Confos.Image.BuildOverlay
open Confos.Image.OverlaySteps
open Confos.Library.ByteStrings
open Confos.Library.LastWrites
open Confos.Library.Machines

/-! ## What a build relies on -/

/-- The entries by their paths. -/
def entries (tree : Tree) : Path → Option Entry :=
  fun path => tree[path]?

/-- Something is there as the operation makes it. -/
def IsMade (op : Op) (present : Option Entry) : Prop :=
  ∃ entry, present = some entry ∧ Makes op entry.node

/-- The operator or a script of mkosi put it there. -/
def isForeign : Owner → Bool
  | .operator => true
  | .build _ => false
  | .hook _ => true

/-- Something is there as the operation makes it, or as others want it. -/
def IsMadeOrForeign (op : Op) (present : Option Entry) : Prop :=
  ∃ entry, present = some entry ∧
    (isForeign entry.owner = true ∨ Makes op entry.node)

/-- There are no `--sync-input` files but those a build was given. -/
def SyncOnly (args : BuildArgs) (tree : Tree) : Prop :=
  ∀ path entry, isSyncPath path = true → tree[path]? = some entry →
    ∃ op ∈ writeSyncInputs args.syncInputs, op.path = path

def SyncSettled (args : BuildArgs) (todo : List Op) (tree : Tree) : Prop :=
  Settled Op.path IsMade (writeSyncInputs args.syncInputs) todo (entries tree)

def StageSettled (args : BuildArgs) (todo : List Op) (tree : Tree) : Prop :=
  Settled Op.path IsMadeOrForeign (stageOverlay args) todo (entries tree)

/-- What a build relies on where it is. -/
def Relies (build : Build) (tree : Tree) : Prop :=
  match build.phase with
  | .preparing todo =>
      SyncOnly build.args tree ∧ SyncSettled build.args todo tree
  | .staging todo =>
      SyncOnly build.args tree ∧ SyncSettled build.args [] tree ∧
        StageSettled build.args todo tree
  | .mkosi =>
      SyncOnly build.args tree ∧ SyncSettled build.args [] tree ∧
        StageSettled build.args [] tree
  | _ => True

/-- Whoever put something there is at it, or did not get to remove it. -/
def Explained (builds : Nat → Option Build) : Owner → Prop
  | .operator => True
  | .build id | .hook id =>
      ∃ build, builds id = some build ∧ Phase.leaves build.phase = true

structure Invariant (checkout : Checkout) : Prop where
  exclusive :
    ∀ id build, checkout.builds id = some build →
      build.phase.isRunning = true → checkout.lock = some id
  rooted : Rooted checkout.tree
  explained :
    ∀ path entry, path ≠ [] → isSyncPath path = false →
      checkout.tree[path]? = some entry →
        Explained checkout.builds entry.owner
  relies :
    ∀ id build, checkout.builds id = some build →
      Relies build checkout.tree

/-! ## The operations of a build -/

section

variable {path : Path} {op : Op}

theorem isSyncPath_of_prefix
    {front rest : Path} (isPrefix : front <+: mkosiExtra ++ rest) :
    isSyncPath front = false := by
  rcases isPrefix with ⟨back, whole⟩
  cases front with
  | nil => rfl
  | cons name names =>
      cases whole
      rfl

theorem mem_createDirAll :
    op ∈ createDirAll path ↔ ∃ front, front <+: path ∧ .makeDir front = op := by
  rw [createDirAll, List.mem_map]
  simp only [List.mem_inits]

theorem isSyncPath_of_mem_createDirAll
    (rest : Path) (member : op ∈ createDirAll (mkosiExtra ++ rest)) :
    isSyncPath op.path = false := by
  rcases mem_createDirAll.1 member with ⟨front, isPrefix, rfl⟩
  exact isSyncPath_of_prefix isPrefix

theorem path_copyEntry (dst : Path) (entry : Path × Node) :
    (copyEntry dst entry).path = dst ++ entry.1 := by
  rcases entry with ⟨path, node⟩
  cases node with
  | dir => rfl
  | file content mode => rfl
  | link target => rfl

/-- Nothing of it is staged among the `--sync-input` files. -/
theorem isSyncPath_of_mem_stageOverlay
    {args : BuildArgs} (member : op ∈ stageOverlay args) :
    isSyncPath op.path = false := by
  rw [stageOverlay, List.mem_append, List.mem_append, List.mem_append,
    or_assoc, or_assoc] at member
  rcases member with dirs | extra | cloudInit | kernel
  · exact isSyncPath_of_mem_createDirAll [] dirs
  · cases given : args.extra with
    | none =>
        rw [given] at extra
        cases extra
    | some entries =>
        rw [given] at extra
        rcases List.mem_append.1 extra with dirs | copied
        · exact isSyncPath_of_mem_createDirAll [] dirs
        · rcases List.mem_map.1 copied with ⟨entry, -, rfl⟩
          rw [path_copyEntry]
          exact isSyncPath_of_prefix (List.prefix_refl _)
  · cases given : args.cloudInit with
    | none =>
        rw [given] at cloudInit
        cases cloudInit
    | some userData =>
        rw [given] at cloudInit
        rcases List.mem_append.1 cloudInit with dirs | files
        · exact isSyncPath_of_mem_createDirAll _ dirs
        · rcases List.mem_pair.1 files with rfl | rfl
          · rfl
          · rfl
  · rcases List.mem_append.1 kernel with dirs | file
    · exact isSyncPath_of_mem_createDirAll _ dirs
    · cases List.mem_singleton.1 file
      rfl

/-- The values lie in their directory, which lies in the overlay. -/
theorem of_mem_writeSyncInputs
    {inputs : List SyncInput} (member : op ∈ writeSyncInputs inputs) :
    op = .makeDir [] ∨ isSyncPath op.path = true := by
  rw [writeSyncInputs] at member
  split at member
  · cases member
  · rcases List.mem_append.1 member with dirs | values
    · rcases List.mem_pair.1 dirs with rfl | rfl
      · exact Or.inl rfl
      · exact Or.inr rfl
    · rcases List.mem_map.1 values with ⟨input, -, rfl⟩
      exact Or.inr rfl

end

/-! ## What others write -/

section

variable {args : BuildArgs} {build : Build} {tree after : Tree}
  {owner : Owner} {path : Path} {todo : List Op}

theorem SyncOnly.of_writes
    (only : SyncOnly args tree) (writes : Writes owner path tree after)
    (apart : isSyncPath path = false) : SyncOnly args after := by
  intro other entry isSync found
  have elsewhere : path ≠ other := by
    rintro rfl
    rw [apart] at isSync
    cases isSync
  rw [writes.others other elsewhere] at found
  exact only other entry isSync found

theorem SyncSettled.of_writes
    (settled : SyncSettled args todo tree)
    (writes : Writes owner path tree after)
    (apart : isSyncPath path = false) : SyncSettled args todo after := by
  refine Settled.interfere settled ?_
  rintro cell op member rfl made
  by_cases here : path = op.path
  · rcases of_mem_writeSyncInputs member with rfl | isSync
    · rcases made with ⟨entry, found, isDir⟩
      have standing : nodeAt tree [] = some .dir := by
        rw [nodeAt]
        exact Option.map_eq_some_iff.2 ⟨entry, found, isDir⟩
      exact Option.map_eq_some_iff.1 (writes.nodeAt_dir standing)
    · rw [← here, apart] at isSync
      cases isSync
  · rw [entries, writes.others op.path here]
    exact made

theorem StageSettled.of_foreign
    (settled : StageSettled args todo tree)
    (writes : Writes owner path tree after)
    (present : ∃ entry, after[path]? = some entry)
    (foreign : isForeign owner = true) : StageSettled args todo after := by
  refine Settled.interfere settled ?_
  rintro cell op - rfl made
  by_cases here : path = op.path
  · rcases present with ⟨entry, found⟩
    rcases writes.owned entry found with owned | same
    · refine ⟨entry, by rw [entries, ← here, found], Or.inl ?_⟩
      rw [owned]
      exact foreign
    · rw [entries, ← here, found, ← same, here]
      exact made
  · rw [entries, writes.others op.path here]
    exact made

theorem Relies.of_foreign
    (relies : Relies build tree) (writes : Writes owner path tree after)
    (present : ∃ entry, after[path]? = some entry)
    (foreign : isForeign owner = true) (apart : isSyncPath path = false) :
    Relies build after := by
  rcases build with ⟨args, phase⟩
  cases phase with
  | preparing todo =>
      exact ⟨relies.1.of_writes writes apart, relies.2.of_writes writes apart⟩
  | staging todo | mkosi =>
      exact
        ⟨relies.1.of_writes writes apart, relies.2.1.of_writes writes apart,
          relies.2.2.of_foreign writes present foreign⟩
  | waiting | clearing | removing => trivial
  | ended ending => trivial

/-! ## What a build writes itself -/

theorem SyncOnly.of_program
    {op : Op} (only : SyncOnly args tree)
    (member : op ∈ writeSyncInputs args.syncInputs)
    (writes : Writes owner op.path tree after) : SyncOnly args after := by
  intro other entry isSync found
  by_cases here : op.path = other
  · exact ⟨op, member, here⟩
  · rw [writes.others other here] at found
    exact only other entry isSync found

theorem syncOnly_of_absent
    (rooted : Rooted tree) (absent : tree[[syncInputDir]]? = none) :
    SyncOnly args tree := by
  intro path entry isSync found
  rcases List.isPrefixOf_iff_prefix.1 isSync with ⟨rest, rfl⟩
  rw [rooted.eq_none_of_prefix absent rest] at found
  cases found

end

/-! ## One turn -/

section

variable {checkout : Checkout} {id : Nat} {build : Build} {outcome : Outcome}

theorem rooted_of_turns
    (rooted : Rooted checkout.tree)
    (turns : Turns checkout id build outcome) : Rooted outcome.tree := by
  cases turns with
  | clear _ _ _ removed => exact rooted.of_removes (removes_of_removeAt rooted removed)
  | remove _ _ _ removed => exact rooted.of_removes (removes_of_removeAt rooted removed)
  | prepare _ _ _ _ performed =>
      exact rooted.of_writes (of_perform_eq_some performed).1
  | stage _ _ _ _ performed =>
      exact rooted.of_writes (of_perform_eq_some performed).1
  | attempt _ _ _ _ attempted => exact rooted.of_writes attempted
  | hook _ _ _ _ performed =>
      exact rooted.of_writes (of_perform_eq_some performed).1
  | lock | stop | cleared | prepared | staged | drop | removed | leave =>
      exact rooted

/-- A build that runs goes on with the lock, or lets it go when it ends. -/
theorem lock_of_turns
    (turns : Turns checkout id build outcome)
    (held : build.phase.isRunning = true → checkout.lock = some id) :
    (outcome.phase.isRunning = true → outcome.lock = some id) ∧
      (outcome.lock = checkout.lock ∨ checkout.lock = none ∨
        checkout.lock = some id) := by
  cases turns with
  | lock _ free => exact ⟨fun _ => rfl, Or.inr (Or.inl free)⟩
  | stop => exact ⟨nofun, Or.inl rfl⟩
  | clear here | remove here | cleared here | prepared here | staged here =>
      refine ⟨fun _ => held ?_, Or.inl rfl⟩
      rw [here]
      rfl
  | prepare op todo here | stage op todo here =>
      refine ⟨fun _ => held ?_, Or.inl rfl⟩
      rw [here]
      rfl
  | attempt => exact ⟨held, Or.inl rfl⟩
  | drop here =>
      refine ⟨fun _ => held ?_, Or.inl rfl⟩
      rcases here with here | ⟨todo, here⟩
      · rw [here]
        rfl
      · rw [here]
        rfl
  | removed here =>
      refine ⟨nofun, Or.inr (Or.inr (held ?_))⟩
      rw [here]
      rfl
  | leave running => exact ⟨nofun, Or.inr (Or.inr (held running))⟩
  | hook => exact ⟨held, Or.inl rfl⟩

/-- A build that has ended without leaving anything has removed everything. -/
theorem leaves_of_turns
    (turns : Turns checkout id build outcome)
    (leaves : Phase.leaves build.phase = true) :
    Phase.leaves outcome.phase = true ∨
      outcome.tree[([] : Path)]? = none := by
  cases turns with
  | lock here | stop here | clear here | cleared here | prepared here =>
      rw [here] at leaves
      cases leaves
  | prepare op todo here =>
      rw [here] at leaves
      cases leaves
  | remove | stage | staged | drop => exact Or.inl rfl
  | attempt | hook => exact Or.inl leaves
  | removed _ absent => exact Or.inr absent
  | leave _ _ stays => exact Or.inl (stays leaves)

/-- Outside of its `--sync-input` files, a build writes what it may leave. -/
theorem entry_of_turns
    (rooted : Rooted checkout.tree) (relies : Relies build checkout.tree)
    (turns : Turns checkout id build outcome) {path : Path} {entry : Entry}
    (nonempty : path ≠ []) (apart : isSyncPath path = false)
    (found : outcome.tree[path]? = some entry) :
    checkout.tree[path]? = some entry ∨
      (entry.owner = .build id ∨ entry.owner = .hook id) ∧
        Phase.leaves outcome.phase = true := by
  have prepared {op : Op} {todo : List Op} {after : Tree}
      (here : build.phase = .preparing (op :: todo))
      (writes : Writes (.build id) op.path checkout.tree after)
      (there : after[path]? = some entry) :
      checkout.tree[path]? = some entry := by
    rw [Relies, here] at relies
    have elsewhere : op.path ≠ path := by
      rintro rfl
      rcases of_mem_writeSyncInputs relies.2.mem_program with rfl | isSync
      · exact nonempty rfl
      · rw [apart] at isSync
        cases isSync
    rwa [writes.others path elsewhere] at there
  have staged {op : Op} {after : Tree} {owner : Owner}
      (writes : Writes owner op.path checkout.tree after)
      (there : after[path]? = some entry) :
      entry.owner = owner ∨ checkout.tree[path]? = some entry := by
    by_cases here : op.path = path
    · cases here
      exact writes.owned entry there
    · rw [writes.others path here] at there
      exact Or.inr there
  cases turns with
  | lock | stop | cleared | prepared | staged | drop | removed | leave =>
      exact Or.inl found
  | clear _ _ _ removed | remove _ _ _ removed =>
      exact Or.inl ((removes_of_removeAt rooted removed).of_getElem? found)
  | prepare op todo here after performed =>
      exact Or.inl (prepared here (of_perform_eq_some performed).1 found)
  | stage op todo here after performed =>
      rcases staged (of_perform_eq_some performed).1 found with owned | same
      · exact Or.inr ⟨Or.inl owned, rfl⟩
      · exact Or.inl same
  | attempt op todo here after attempted =>
      rcases here with here | here
      · exact Or.inl (prepared here attempted found)
      · rcases staged attempted found with owned | same
        · refine Or.inr ⟨Or.inl owned, ?_⟩
          rw [here]
          rfl
        · exact Or.inl same
  | hook here op _ after performed =>
      rcases staged (of_perform_eq_some performed).1 found with owned | same
      · refine Or.inr ⟨Or.inr owned, ?_⟩
        rcases here with here | here
        · rw [here]
          rfl
        · rw [here]
          rfl
      · exact Or.inl same

/-- What a build relies on after its own turn. -/
theorem relies_of_turns
    (rooted : Rooted checkout.tree) (relies : Relies build checkout.tree)
    (turns : Turns checkout id build outcome) :
    Relies { build with phase := outcome.phase } outcome.tree := by
  cases turns with
  | lock | stop | clear | remove | drop | removed | leave => trivial
  | cleared here absent =>
      exact ⟨syncOnly_of_absent rooted absent, settled_start _⟩
  | prepared here =>
      rw [Relies, here] at relies
      exact ⟨relies.1, relies.2, settled_start _⟩
  | staged here =>
      rw [Relies, here] at relies
      exact relies
  | prepare op todo here after performed =>
      rw [Relies, here] at relies
      have done := of_perform_eq_some performed
      exact
        ⟨relies.1.of_program relies.2.mem_program done.1,
          relies.2.advance done.1.others done.2⟩
  | stage op todo here after performed =>
      rw [Relies, here] at relies
      have done := of_perform_eq_some performed
      have apart := isSyncPath_of_mem_stageOverlay relies.2.2.mem_program
      refine
        ⟨relies.1.of_writes done.1 apart, relies.2.1.of_writes done.1 apart,
          relies.2.2.advance done.1.others ?_⟩
      rcases done.2 with ⟨entry, found, makes⟩
      exact ⟨entry, found, Or.inr makes⟩
  | attempt op todo here after attempted =>
      rcases here with here | here
      · rw [Relies, here] at relies
        rw [Relies, here]
        exact
          ⟨relies.1.of_program relies.2.mem_program attempted,
            relies.2.attempt attempted.others⟩
      · rw [Relies, here] at relies
        rw [Relies, here]
        have apart := isSyncPath_of_mem_stageOverlay relies.2.2.mem_program
        exact
          ⟨relies.1.of_writes attempted apart,
            relies.2.1.of_writes attempted apart,
            relies.2.2.attempt attempted.others⟩
  | hook here op apart after performed =>
      have done := of_perform_eq_some performed
      rcases done.2 with ⟨entry, found, -⟩
      exact relies.of_foreign done.1 ⟨entry, found⟩ rfl apart

/-- What the other builds rely on. -/
theorem relies_of_turns_of_ne
    {other : Build} (relies : Relies other checkout.tree)
    (turns : Turns checkout id build outcome)
    (alone :
      build.phase.isRunning = true → other.phase.isRunning = false) :
    Relies other outcome.tree := by
  have idle (stopped : other.phase.isRunning = false) :
      Relies other outcome.tree := by
    rcases other with ⟨args, phase⟩
    cases phase with
    | preparing todo | staging todo | mkosi => cases stopped
    | waiting | clearing | removing => trivial
    | ended ending => trivial
  cases turns with
  | lock | stop | cleared | prepared | staged | drop | removed | leave =>
      exact relies
  | clear here | remove here =>
      refine idle (alone ?_)
      rw [here]
      rfl
  | prepare op todo here | stage op todo here =>
      refine idle (alone ?_)
      rw [here]
      rfl
  | attempt op todo here =>
      refine idle (alone ?_)
      rcases here with here | here
      · rw [here]
        rfl
      · rw [here]
        rfl
  | hook here op apart after performed =>
      have done := of_perform_eq_some performed
      rcases done.2 with ⟨entry, found, -⟩
      exact relies.of_foreign done.1 ⟨entry, found⟩ rfl apart

end

/-! ## Runs -/

section

variable {checkout after : Checkout}

theorem Explained.mono
    {builds buildsAfter : Nat → Option Build} {owner : Owner}
    (explained : Explained builds owner)
    (stays :
      ∀ id build, builds id = some build →
        Phase.leaves build.phase = true →
          ∃ later, buildsAfter id = some later ∧
            Phase.leaves later.phase = true) :
    Explained buildsAfter owner := by
  cases owner with
  | operator => trivial
  | build id | hook id =>
      rcases explained with ⟨build, found, leaves⟩
      exact stays id build found leaves

theorem Invariant.start
    (invariant : Invariant checkout) {id : Nat} (args : BuildArgs)
    (absent : checkout.builds id = none) :
    Invariant
      { checkout with
        builds :=
          Function.update checkout.builds id
            (some { args, phase := .waiting }) } where
  exclusive := by
    intro other build found running
    dsimp only at found
    rw [Function.update_apply] at found
    split at found
    · cases found
      cases running
    · exact invariant.exclusive other build found running
  rooted := invariant.rooted
  explained := by
    intro path entry nonempty apart found
    refine (invariant.explained path entry nonempty apart found).mono ?_
    intro other build present leaves
    refine ⟨build, ?_, leaves⟩
    dsimp only
    rw [Function.update_apply, if_neg, present]
    rintro rfl
    rw [absent] at present
    cases present
  relies := by
    intro other build found
    dsimp only at found
    rw [Function.update_apply] at found
    split at found
    · cases found
      trivial
    · exact invariant.relies other build found

theorem Invariant.fetch
    (invariant : Invariant checkout) {op : Op} {tree : Tree}
    (apart : isSyncPath op.path = false)
    (performed : perform checkout.tree .operator op = some tree) :
    Invariant { checkout with tree } where
  exclusive := invariant.exclusive
  rooted := invariant.rooted.of_writes (of_perform_eq_some performed).1
  explained := by
    intro path entry nonempty notSync found
    have writes := (of_perform_eq_some performed).1
    have before :
        entry.owner = .operator ∨ checkout.tree[path]? = some entry := by
      by_cases here : op.path = path
      · cases here
        exact writes.owned entry found
      · rw [writes.others path here] at found
        exact Or.inr found
    rcases before with owned | same
    · rw [owned]
      trivial
    · exact invariant.explained path entry nonempty notSync same
  relies := by
    intro id build found
    rcases of_perform_eq_some performed with ⟨writes, entry, there, -⟩
    exact
      (invariant.relies id build found).of_foreign writes ⟨entry, there⟩ rfl
        apart

theorem Invariant.turn
    (invariant : Invariant checkout) {id : Nat} {build : Build}
    {outcome : Outcome} (found : checkout.builds id = some build)
    (turns : Turns checkout id build outcome) :
    Invariant
      { tree := outcome.tree
        lock := outcome.lock
        builds :=
          Function.update checkout.builds id
            (some { build with phase := outcome.phase }) } where
  exclusive := by
    rcases lock_of_turns turns (invariant.exclusive id build found) with
      ⟨goesOn, lock⟩
    intro other otherBuild present running
    dsimp only at present
    rw [Function.update_apply] at present
    split at present
    · next same =>
        cases present
        cases same
        exact goesOn running
    · next different =>
        have held := invariant.exclusive other otherBuild present running
        rcases lock with same | free | mine
        · exact same.trans held
        · rw [held] at free
          cases free
        · rw [held] at mine
          cases mine
          exact absurd rfl different
  rooted := rooted_of_turns invariant.rooted turns
  explained := by
    intro path entry nonempty apart there
    have rooted := rooted_of_turns invariant.rooted turns
    rcases entry_of_turns invariant.rooted (invariant.relies id build found)
        turns nonempty apart there with before | ⟨owned, leaves⟩
    · refine (invariant.explained path entry nonempty apart before).mono ?_
      intro other otherBuild present leaves
      by_cases same : other = id
      · cases same
        rw [found] at present
        cases present
        refine ⟨{ build with phase := outcome.phase }, ?_, ?_⟩
        · exact Function.update_self ..
        · rcases leaves_of_turns turns leaves with still | gone
          · exact still
          · rw [← List.nil_append path, rooted.eq_none_of_prefix gone] at there
            cases there
      · refine ⟨otherBuild, ?_, leaves⟩
        exact (Function.update_of_ne same _ _).trans present
    · have explains :
          ∃ later,
            Function.update checkout.builds id
                (some { build with phase := outcome.phase }) id =
              some later ∧ Phase.leaves later.phase = true :=
        ⟨_, Function.update_self .., leaves⟩
      rcases owned with owned | owned
      · rw [owned]
        exact explains
      · rw [owned]
        exact explains
  relies := by
    intro other otherBuild present
    dsimp only at present
    rw [Function.update_apply] at present
    split at present
    · cases present
      exact
        relies_of_turns invariant.rooted (invariant.relies id build found)
          turns
    · next different =>
        refine
          relies_of_turns_of_ne (invariant.relies other otherBuild present)
            turns ?_
        intro running
        rw [Bool.eq_false_iff]
        intro alsoRunning
        have held := invariant.exclusive other otherBuild present alsoRunning
        rw [invariant.exclusive id build found running] at held
        cases held
        exact different rfl

theorem Invariant.step
    (invariant : Invariant checkout) {action : Action}
    (stepped : step checkout action = some after) : Invariant after := by
  cases action with
  | start id args =>
      rw [BuildOverlay.step] at stepped
      split at stepped
      · next absent =>
          cases stepped
          exact invariant.start args absent
      · cases stepped
  | fetch op =>
      rcases Option.ite_none_left_eq_some.1 stepped with ⟨apart, mapped⟩
      rcases Option.map_eq_some_iff.1 mapped with ⟨tree, performed, rfl⟩
      exact invariant.fetch (Bool.eq_false_iff.2 apart) performed
  | turn id move =>
      rw [BuildOverlay.step] at stepped
      split at stepped
      · cases stepped
      · next build found =>
          rcases Option.map_eq_some_iff.1 stepped with ⟨outcome, turned, rfl⟩
          exact invariant.turn found (turns_of_stepBuild turned)

end

/-! ## What mkosi is given -/

section

variable {tree : Tree} {checkout : Checkout}

end

/-! ## A build after a killed one -/

def sampleKernel : Kernel :=
  { linuxVersion := "6.17", vmlinuz := { content := [1], mode := 0o644 } }

/-- A build with a file of its own to add. -/
def firstArgs : BuildArgs :=
  { syncInputs := [{ name := "ref", value := "a", name_safe := by decide }]
    extra := some [(["debug"], .file [2] 0o600)]
    cloudInit := none
    kernel := sampleKernel }

def secondArgs : BuildArgs :=
  { syncInputs := [{ name := "ref", value := "b", name_safe := by decide }]
    extra := none
    cloudInit := none
    kernel := sampleKernel }

/-- The first build is killed once its file is there; the second gets to mkosi. -/
def sampleActions : List Action :=
  [.start 0 firstArgs, .turn 0 .lock, .turn 0 .next] ++
    List.replicate 3 (.turn 0 .perform) ++ [.turn 0 .next] ++
      List.replicate 5 (.turn 0 .perform) ++ [.turn 0 .kill] ++
        [.start 1 secondArgs, .turn 1 .lock,
          .turn 1 (.remove [syncInputDir, "ref"]),
          .turn 1 (.remove [syncInputDir]), .turn 1 .next] ++
          List.replicate 3 (.turn 1 .perform) ++ [.turn 1 .next] ++
            List.replicate 9 (.turn 1 .perform) ++ [.turn 1 .next]

def sampleCheckout : Checkout :=
  (run step (Checkout.clean ∅) sampleActions).getD (Checkout.clean ∅)

/-- What a killed build staged is in the overlay of the next one. -/
theorem leftover_of_kill :
    sampleCheckout.tree[["mkosi.extra", "debug"]]? =
      some { node := .file [2] 0o600, owner := .build 0 } := by
  decide +kernel

end Confos.Image.OverlaySafety
