import Confos.Image.StagedProfiles

/-!
# What one step of a build does

The step function of the builds takes the phase apart before it looks at the
directories.  Here each thing a step can do is one case, with the phase it
belongs to and what it needs to find; the proofs about runs go by these cases.
-/

namespace Confos.Image.StagedSteps

open Confos.Library.ByteStrings
open Confos.Image.StagedProfiles

inductive Steps (checkout : Checkout) : Action → Checkout → Prop where
  | start
      {arguments : List ProfileDir} {profiles listing : List String}
      (phase : checkout.phase = .idle)
      (listed : listing.Perm (rootNames checkout.tree)) :
      Steps checkout (.start arguments profiles listing)
        { checkout with
          phase := .sweeping listing
          arguments, profiles
          problem := none }
  | endSweep
      {followsToFile : Bool} (phase : checkout.phase = .sweeping []) :
      Steps checkout (.examine followsToFile)
        { checkout with phase := .checking }
  | sweep
      {followsToFile : Bool} {name : String} {todo : List String}
      (phase : checkout.phase = .sweeping (name :: todo))
      (swept :
        checkout.tree[[name]]? = some .dir ∧
          isFile followsToFile checkout.tree[[name, stagedProfileMarker]]? =
            true) :
      Steps checkout (.examine followsToFile)
        { checkout with phase := .sweepRemoving name todo }
  | pass
      {followsToFile : Bool} {name : String} {todo : List String}
      (phase : checkout.phase = .sweeping (name :: todo))
      (spared :
        ¬ (checkout.tree[[name]]? = some .dir ∧
          isFile followsToFile checkout.tree[[name, stagedProfileMarker]]? =
            true)) :
      Steps checkout (.examine followsToFile)
        { checkout with phase := .sweeping todo }
  | sweepBelow
      {path : Path} {name : String} {todo : List String} {tree : Tree}
      (phase : checkout.phase = .sweepRemoving name todo)
      (removed : removeUnder checkout.tree name path = some tree)
      (below : path ≠ [name]) :
      Steps checkout (.remove path) { checkout with tree }
  | endRemove
      {name : String} {todo : List String} {tree : Tree}
      (phase : checkout.phase = .sweepRemoving name todo)
      (removed : removeUnder checkout.tree name [name] = some tree) :
      Steps checkout (.remove [name])
        { checkout with tree, phase := .sweeping todo }
  | refuse
      {message : String} (phase : checkout.phase = .checking)
      (refused :
        checkProfileDirs checkout.tree checkout.arguments =
          .error message) :
      Steps checkout .check
        { checkout with
          phase := .idle, problem := some (.refused message) }
  | accept
      {names : List String} (phase : checkout.phase = .checking)
      (accepted :
        checkProfileDirs checkout.tree checkout.arguments = .ok names) :
      Steps checkout .check
        { checkout with phase := nextDir checkout.arguments [] }
  | createRoot
      {dir : ProfileDir} {rest : List ProfileDir} {guards : List String}
      (phase : checkout.phase = .creating dir rest guards)
      (absent : checkout.rootExists = false) :
      Steps checkout .createRoot { checkout with rootExists := true }
  | createTarget
      {dir : ProfileDir} {rest : List ProfileDir} {guards : List String}
      (phase : checkout.phase = .creating dir rest guards)
      (present : checkout.rootExists = true) :
      Steps checkout .createTarget
        { checkout with
          tree := checkout.tree.insert [dir.name] .dir
          phase := .marking dir rest guards }
  | mark
      {dir : ProfileDir} {rest : List ProfileDir} {guards : List String}
      (phase : checkout.phase = .marking dir rest guards) :
      Steps checkout .mark
        { checkout with
          tree :=
            checkout.tree.insert [dir.name, stagedProfileMarker] markerFile
          phase := .copying dir dir.entries rest guards }
  | copyPart
      {path : Path} {content whole : Bytes} {mode : Nat}
      {dir : ProfileDir} {pending : List (Path × Node)}
      {rest : List ProfileDir} {guards : List String}
      (phase : checkout.phase = .copying dir pending rest guards)
      (waiting :
        pendingAt checkout.tree dir.name pending path =
          some (.file whole mode))
      (replaces :
        (Node.file whole mode).canReplace checkout.tree[dir.name :: path]? =
          true) :
      Steps checkout (.copyPart path content)
        { checkout with
          tree :=
            checkout.tree.insert (dir.name :: path) (.file content mode) }
  | unlinkOld
      {path : Path} {target : String} {old : Node}
      {dir : ProfileDir} {pending : List (Path × Node)}
      {rest : List ProfileDir} {guards : List String}
      (phase : checkout.phase = .copying dir pending rest guards)
      (waiting :
        pendingAt checkout.tree dir.name pending path = some (.link target))
      (present : checkout.tree[dir.name :: path]? = some old)
      (noDir : old ≠ .dir) :
      Steps checkout (.unlinkOld path)
        { checkout with tree := checkout.tree.erase (dir.name :: path) }
  | copyEntry
      {path : Path} {node : Node}
      {dir : ProfileDir} {pending : List (Path × Node)}
      {rest : List ProfileDir} {guards : List String}
      (phase : checkout.phase = .copying dir pending rest guards)
      (waiting :
        pendingAt checkout.tree dir.name pending path = some node)
      (replaces :
        node.canReplace checkout.tree[dir.name :: path]? = true) :
      Steps checkout (.copyEntry path)
        { checkout with
          tree := checkout.tree.insert (dir.name :: path) node
          phase := .copying dir (pending.filter (·.1 ≠ path)) rest guards }
  | copyFails
      {path : Path} {node old : Node}
      {dir : ProfileDir} {pending : List (Path × Node)}
      {rest : List ProfileDir} {guards : List String}
      (phase : checkout.phase = .copying dir pending rest guards)
      (waiting :
        pendingAt checkout.tree dir.name pending path = some node)
      (present : checkout.tree[dir.name :: path]? = some old)
      (taken : node.canReplace (some old) = false)
      (noLink : ∀ target, node = .link target → old = .dir) :
      Steps checkout (.copyEntry path)
        { checkout with
          phase := .dropping guards
          problem := some (.copyFailed (dir.name :: path)) }
  | endCopy
      {dir : ProfileDir} {rest : List ProfileDir} {guards : List String}
      (phase : checkout.phase = .copying dir [] rest guards) :
      Steps checkout .endCopy
        { checkout with
          profiles := pushProfile checkout.profiles dir.name
          phase := nextDir rest guards }
  | finish
      {guards : List String} (phase : checkout.phase = .staged guards) :
      Steps checkout .finish { checkout with phase := .dropping guards }
  | endDrop (phase : checkout.phase = .dropping []) :
      Steps checkout .drop { checkout with phase := .idle }
  | dropAbsent
      {name : String} {guards : List String}
      (phase : checkout.phase = .dropping (name :: guards))
      (absent : checkout.tree[[name]]? = none) :
      Steps checkout .drop { checkout with phase := .dropping guards }
  | dropPresent
      {name : String} {guards : List String}
      (phase : checkout.phase = .dropping (name :: guards))
      (present : checkout.tree[[name]]? ≠ none) :
      Steps checkout .drop
        { checkout with phase := .dropRemoving name guards }
  | dropBelow
      {path : Path} {name : String} {guards : List String} {tree : Tree}
      (phase : checkout.phase = .dropRemoving name guards)
      (removed : removeUnder checkout.tree name path = some tree)
      (below : path ≠ [name]) :
      Steps checkout (.remove path) { checkout with tree }
  | dropped
      {name : String} {guards : List String} {tree : Tree}
      (phase : checkout.phase = .dropRemoving name guards)
      (removed : removeUnder checkout.tree name [name] = some tree) :
      Steps checkout (.remove [name])
        { checkout with tree, phase := .dropping guards }
  | kill (running : checkout.phase ≠ .idle) :
      Steps checkout .kill { checkout with phase := .idle }

/-! ## The cases are the steps -/

section

variable {checkout after : Checkout}

theorem steps_of_stepExamine
    {followsToFile : Bool}
    (stepped : stepExamine checkout followsToFile = some after) :
    Steps checkout (.examine followsToFile) after := by
  rw [stepExamine] at stepped
  split at stepped
  · rename_i phase
    cases stepped
    exact .endSweep phase
  · rename_i name todo phase
    split at stepped
    · rename_i swept
      cases stepped
      exact .sweep phase swept
    · rename_i spared
      cases stepped
      exact .pass phase spared
  · cases stepped

theorem steps_of_stepRemove
    {path : Path} (stepped : stepRemove checkout path = some after) :
    Steps checkout (.remove path) after := by
  rw [stepRemove] at stepped
  split at stepped
  · rename_i name todo phase
    rcases Option.map_eq_some_iff.1 stepped with ⟨tree, removed, rfl⟩
    by_cases whole : path = [name]
    · subst whole
      rw [if_pos rfl]
      exact .endRemove phase removed
    · rw [if_neg whole, ← phase]
      exact .sweepBelow phase removed whole
  · rename_i name guards phase
    rcases Option.map_eq_some_iff.1 stepped with ⟨tree, removed, rfl⟩
    by_cases whole : path = [name]
    · subst whole
      rw [if_pos rfl]
      exact .dropped phase removed
    · rw [if_neg whole, ← phase]
      exact .dropBelow phase removed whole
  · cases stepped

theorem steps_of_stepCheck (stepped : stepCheck checkout = some after) :
    Steps checkout .check after := by
  rw [stepCheck] at stepped
  split at stepped
  · rename_i phase
    split at stepped
    · rename_i message refused
      cases stepped
      exact .refuse phase refused
    · rename_i names accepted
      cases stepped
      exact .accept phase accepted
  · cases stepped

theorem steps_of_stepCopyPart
    {path : Path} {content : Bytes}
    (stepped : stepCopyPart checkout path content = some after) :
    Steps checkout (.copyPart path content) after := by
  rw [stepCopyPart] at stepped
  split at stepped
  · rename_i dir pending rest guards phase
    split at stepped
    · rename_i whole mode waiting
      rcases Option.ite_none_right_eq_some.1 stepped with
        ⟨replaces, written⟩
      cases written
      exact .copyPart phase waiting replaces
    · cases stepped
  · cases stepped

theorem steps_of_stepUnlinkOld
    {path : Path} (stepped : stepUnlinkOld checkout path = some after) :
    Steps checkout (.unlinkOld path) after := by
  rw [stepUnlinkOld] at stepped
  split at stepped
  · rename_i dir pending rest guards phase
    split at stepped
    · rename_i target content mode waiting present
      cases stepped
      exact .unlinkOld phase waiting present (by simp)
    · rename_i target old waiting present
      cases stepped
      exact .unlinkOld phase waiting present (by simp)
    · cases stepped
  · cases stepped

/-- What no copy replaces is there. -/
theorem exists_of_not_canReplace
    {node : Node} {present : Option Node}
    (taken : ¬ node.canReplace present = true) :
    ∃ old, present = some old ∧ node.canReplace (some old) = false := by
  cases present with
  | none =>
      cases node with
      | dir => exact absurd rfl taken
      | file content mode => exact absurd rfl taken
      | link target => exact absurd rfl taken
  | some old => exact ⟨old, rfl, Bool.eq_false_of_not_eq_true taken⟩

theorem steps_of_stepCopyEntry
    {path : Path} (stepped : stepCopyEntry checkout path = some after) :
    Steps checkout (.copyEntry path) after := by
  rw [stepCopyEntry] at stepped
  split at stepped
  · rename_i dir pending rest guards phase
    split at stepped
    · cases stepped
    · rename_i node waiting
      dsimp only at stepped
      split at stepped
      · rename_i replaces
        cases stepped
        exact .copyEntry phase waiting replaces
      · rename_i taken
        rcases exists_of_not_canReplace taken with ⟨old, present, refused⟩
        rw [present] at stepped
        cases node with
        | dir =>
            cases stepped
            exact .copyFails phase waiting present refused (by simp)
        | file content mode =>
            cases stepped
            exact .copyFails phase waiting present refused (by simp)
        | link target =>
            cases old with
            | dir =>
                cases stepped
                exact .copyFails phase waiting present refused (by simp)
            | file content mode => cases stepped
            | link other => cases stepped
  · cases stepped

theorem steps_of_step
    {action : Action} (stepped : step checkout action = some after) :
    Steps checkout action after := by
  cases action with
  | start arguments profiles listing =>
      rw [step] at stepped
      split at stepped
      · rename_i phase
        rcases Option.ite_none_right_eq_some.1 stepped with
          ⟨listed, started⟩
        cases started
        exact .start phase listed
      · cases stepped
  | examine followsToFile => exact steps_of_stepExamine stepped
  | remove path => exact steps_of_stepRemove stepped
  | check => exact steps_of_stepCheck stepped
  | createRoot =>
      rw [step] at stepped
      split at stepped
      · rename_i dir rest guards phase
        split at stepped
        · cases stepped
        · rename_i absent
          cases stepped
          exact .createRoot phase (Bool.eq_false_of_not_eq_true absent)
      · cases stepped
  | createTarget =>
      rw [step] at stepped
      split at stepped
      · rename_i dir rest guards phase
        rcases Option.ite_none_right_eq_some.1 stepped with
          ⟨present, created⟩
        cases created
        exact .createTarget phase present
      · cases stepped
  | mark =>
      rw [step] at stepped
      split at stepped
      · rename_i dir rest guards phase
        cases stepped
        exact .mark phase
      · cases stepped
  | copyPart path content => exact steps_of_stepCopyPart stepped
  | unlinkOld path => exact steps_of_stepUnlinkOld stepped
  | copyEntry path => exact steps_of_stepCopyEntry stepped
  | endCopy =>
      rw [step] at stepped
      split at stepped
      · rename_i dir rest guards phase
        cases stepped
        exact .endCopy phase
      · cases stepped
  | finish =>
      rw [step] at stepped
      split at stepped
      · rename_i guards phase
        cases stepped
        exact .finish phase
      · cases stepped
  | drop =>
      rw [step] at stepped
      split at stepped
      · rename_i phase
        cases stepped
        exact .endDrop phase
      · rename_i name guards phase
        cases stepped
        by_cases absent : checkout.tree[[name]]? = none
        · rw [if_pos absent]
          exact .dropAbsent phase absent
        · rw [if_neg absent]
          exact .dropPresent phase absent
      · cases stepped
  | kill =>
      rw [step] at stepped
      split at stepped
      · cases stepped
      · rename_i running
        cases stepped
        exact .kill running

theorem step_of_steps
    {action : Action} (steps : Steps checkout action after) :
    step checkout action = some after := by
  cases steps with
  | start phase listed => rw [step, phase]; exact if_pos listed
  | endSweep phase => rw [step, stepExamine, phase]
  | sweep phase swept =>
      rw [step, stepExamine, phase]
      exact congrArg some (by rw [if_pos swept])
  | pass phase spared =>
      rw [step, stepExamine, phase]
      exact congrArg some (by rw [if_neg spared])
  | sweepBelow phase removed below =>
      rw [step, stepRemove, phase]
      dsimp only
      rw [removed, Option.map_some, if_neg below, ← phase]
  | endRemove phase removed =>
      rw [step, stepRemove, phase]
      dsimp only
      rw [removed, Option.map_some, if_pos rfl]
  | refuse phase refused =>
      rw [step, stepCheck, phase]
      dsimp only
      rw [refused]
  | accept phase accepted =>
      rw [step, stepCheck, phase]
      dsimp only
      rw [accepted]
  | createRoot phase absent =>
      rw [step, phase]
      dsimp only
      rw [absent, if_neg Bool.false_ne_true]
  | createTarget phase present =>
      rw [step, phase]
      exact if_pos present
  | mark phase => rw [step, phase]
  | copyPart phase waiting replaces =>
      rw [step, stepCopyPart, phase]
      dsimp only
      rw [waiting]
      exact if_pos replaces
  | unlinkOld phase waiting present noDir =>
      rename_i old _ _ _ _
      rw [step, stepUnlinkOld, phase]
      dsimp only
      rw [waiting, present]
      cases old with
      | dir => exact absurd rfl noDir
      | file content mode => rfl
      | link target => rfl
  | copyEntry phase waiting replaces =>
      rw [step, stepCopyEntry, phase]
      dsimp only
      rw [waiting]
      exact if_pos replaces
  | copyFails phase waiting present taken noLink =>
      rename_i node old _ _ _ _
      rw [step, stepCopyEntry, phase]
      dsimp only
      rw [waiting]
      dsimp only
      rw [present, taken, if_neg Bool.false_ne_true]
      cases node with
      | dir => rfl
      | file content mode => rfl
      | link target =>
          rw [noLink target rfl]
  | endCopy phase => rw [step, phase]
  | finish phase => rw [step, phase]
  | endDrop phase => rw [step, phase]
  | dropAbsent phase absent =>
      rw [step, phase]
      exact congrArg some (by rw [if_pos absent])
  | dropPresent phase present =>
      rw [step, phase]
      exact congrArg some (by rw [if_neg present])
  | dropBelow phase removed below =>
      rw [step, stepRemove, phase]
      dsimp only
      rw [removed, Option.map_some, if_neg below, ← phase]
  | dropped phase removed =>
      rw [step, stepRemove, phase]
      dsimp only
      rw [removed, Option.map_some, if_pos rfl]
  | kill running =>
      rw [step]
      split
      · rename_i phase
        exact absurd phase running
      · rfl

end

end Confos.Image.StagedSteps
