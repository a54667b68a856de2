import Confos.Kernel.Readings
import Confos.Library.Machines

/-!
# The kernel cache

Kernel builds follow one another in a checkout whose input files may change
between two of them.  A manifest then always describes the inputs of the build
that wrote it, and a later run that finds its own fingerprint there takes the
kernel of that build.  The fingerprint leaves out the packages of the tools
tree, so the build had the inputs of the run exactly if it also had its
packages.
-/

namespace Confos.Kernel.Cache

open Confos.Library.ByteStrings
open Confos.Library.Effects
open Confos.Library.Text
open Confos.Library
open Confos.Kernel.Version
open Confos.Kernel.Worktree
open Confos.Kernel.Command
open Confos.Kernel.Readings

/-! ## Histories of a checkout -/

/-- Someone changes the input files, or `confos kernel` runs. -/
inductive Action where
  | edit (inputs : Inputs)
  | kernel (args : KernelArgs) (outcomes : ToolOutcomes)

section

variable (sha256 : Bytes → Block 32)

def step (checkout : Checkout) : Action → Option Checkout
  | .edit inputs => some { checkout with inputs }
  | .kernel args outcomes =>
      some (worldAfter (run sha256 args { checkout, outcomes })).checkout

/-- A run in a checkout would take the kernel that is there. -/
def takesHit (checkout : Checkout) (args : KernelArgs)
    (outcomes : ToolOutcomes) : Bool :=
  match consultCache sha256 args { checkout, outcomes } with
  | .ok (_, .hit) _ => true
  | _ => false

/-- The kernel in an output directory is that of the build which wrote the
manifest, and that build was given what a compile would be given now. -/
def ReusesOwnInputs (checkout : Checkout) (args : KernelArgs) : Prop :=
  ∃ record ∈ checkout.builds,
    (checkout.outputs args.output).writer = some record ∧
      (checkout.outputs args.output).vmlinuz = some record.vmlinuz ∧
        presentInputs sha256 checkout.inputs args = some record.inputs

/-- The build that wrote the manifest had the packages of this run. -/
def SamePackages (checkout : Checkout) (args : KernelArgs) : Prop :=
  ∃ record,
    (checkout.outputs args.output).writer = some record ∧
      String.intercalate "," record.packages =
        String.intercalate "," args.kernelInputs.kernelBuilderPackage

/-- The contents that a hit compares by their hashes. -/
def comparedContents (checkout : Checkout) (args : KernelArgs) :
    List Bytes :=
  (checkout.builds.flatMap fun record =>
      record.vmlinuz :: record.inputs.contents) ++
    ((presentInputs sha256 checkout.inputs args).toList.flatMap
        CompileInputs.contents ++
      (checkout.outputs args.output).vmlinuz.toList)

/-! ## The invariant -/

/-- A manifest describes a build: its inputs, and the kernel it made. -/
structure Describes (manifest : KernelManifest) (record : BuildRecord) :
    Prop where
  inputs :
    ∃ snapshot digest,
      manifest.inputs = fingerprintOf sha256 record.inputs snapshot digest ∧
        record.inputs.toolsTree = stampKey digest record.packages
  vmlinuz : manifest.vmlinuzSha256 = hexHash sha256 record.vmlinuz

/-- Every manifest describes the build that wrote it, and a stamp its tree. -/
structure Sound (checkout : Checkout) : Prop where
  manifests :
    ∀ name manifest,
      (checkout.outputs name).manifest = some manifest →
        ∃ record ∈ checkout.builds,
          (checkout.outputs name).writer = some record ∧
            Describes sha256 manifest record
  stamps : ∀ key, checkout.stamp = some key → checkout.tree = some key

/-- A sound checkout that nobody changes. -/
structure Settled (world : World) : Prop where
  quiet : Quiet world
  sound : Sound sha256 world.checkout

end

section

variable {sha256 : Bytes → Block 32}

/-- Output directories that keep manifests and writers stay sound. -/
theorem Sound.setOutput
    {checkout : Checkout} (sound : Sound sha256 checkout) {name : String}
    {output : KernelOutput}
    (described :
      ∀ manifest, output.manifest = some manifest →
        ∃ record ∈ checkout.builds,
          output.writer = some record ∧ Describes sha256 manifest record) :
    Sound sha256 (checkout.setOutput name output) where
  manifests := by
    intro other manifest written
    by_cases same : other = name
    · cases same
      rw [Checkout.setOutput_outputs_self] at written ⊢
      exact described manifest written
    · rw [Checkout.setOutput_outputs_of_ne checkout output same] at written ⊢
      exact sound.manifests other manifest written
  stamps := sound.stamps

theorem Settled.setInputs
    {world : World} (settled : Settled sha256 world) (inputs : Inputs) :
    Settled sha256 (world.setInputs inputs) :=
  ⟨settled.quiet, settled.sound.manifests, settled.sound.stamps⟩

theorem Settled.setTools
    {world : World} (settled : Settled sha256 world)
    {tree stamp : Option String}
    (stamps : ∀ key, stamp = some key → tree = some key) :
    Settled sha256 (world.setTools tree stamp) :=
  ⟨settled.quiet, settled.sound.manifests, stamps⟩

theorem Settled.setVmlinuz
    {world : World} (settled : Settled sha256 world) (name : String)
    (vmlinuz : Bytes) : Settled sha256 (world.setVmlinuz name vmlinuz) :=
  ⟨settled.quiet,
    settled.sound.setOutput (settled.sound.manifests name)⟩

theorem Settled.record
    {world : World} (settled : Settled sha256 world)
    (record : BuildRecord) : Settled sha256 (world.record record) where
  quiet := settled.quiet
  sound := by
    refine ⟨?_, settled.sound.stamps⟩
    intro name manifest written
    rcases settled.sound.manifests name manifest written with
      ⟨earlier, known, wrote, describes⟩
    exact ⟨earlier, List.mem_append_left _ known, wrote, describes⟩

/-- What leaves a quiet world alone keeps it settled. -/
theorem settled_of_stays
    {Value : Type} {program : Program Value}
    (stays : ∀ start, Quiet start → Stays start program) :
    Preserves (Settled sha256) program :=
  preserves_of_stays (fun _ => Settled.quiet) stays

/-! ## The tools tree -/

theorem settled_toolsTreeInputsDigest :
    Preserves (Settled sha256) (toolsTreeInputsDigest sha256) :=
  settled_of_stays fun _ quiet => stays_toolsTreeInputsDigest quiet

/-- A stamp that comes back last is that of the tree mkosi built. -/
theorem settled_rebuildToolsTree
    {world : World} {digest : String} (packages : List String)
    (settled : Settled sha256 world)
    (digested : presentDigest sha256 world.checkout.inputs = some digest) :
    Settled sha256
      (worldAfter
        (rebuildToolsTree sha256 (stampKey digest packages) packages
          world)) := by
  apply worldAfter_bind
  · intro problem left impossible
    cases impossible
  intro _ unstamped removed
  cases removed
  have cleared :
      Settled sha256 (world.setTools world.checkout.tree none) :=
    settled.setTools fun _ impossible => nomatch impossible
  apply worldAfter_bind
  · intro problem left failed
    exact settled_toolsTreeInputsDigest.of_error failed cleared
  intro found after hashed
  rcases toolsTreeInputsDigest_eq_ok cleared.quiet hashed with
    ⟨foundDigest, rfl⟩
  cases foundDigest.symm.trans digested
  apply worldAfter_bind
  · intro problem left impossible
    cases impossible
  intro current there got
  cases got
  split
  · exact cleared.setTools fun _ same => same
  · exact cleared.setTools fun _ impossible => nomatch impossible

theorem settled_refreshToolsTree
    {world : World} {digest : String} (force : Bool)
    (packages : List String)
    (settled : Settled sha256 world)
    (digested : presentDigest sha256 world.checkout.inputs = some digest) :
    Settled sha256
      (worldAfter
        (refreshToolsTree sha256 force (stampKey digest packages) packages
          world)) := by
  apply worldAfter_bind
  · intro problem left impossible
    cases impossible
  intro current there got
  cases got
  split
  · exact settled_rebuildToolsTree packages settled digested
  · exact settled

theorem stays_builtToolsTree {start : World} :
    Stays start builtToolsTree := by
  refine preserves_bind preserves_get fun world => ?_
  cases world.checkout.tree with
  | none => exact preserves_throw _
  | some tree => exact preserves_pure tree

theorem settled_ensureToolsTree (force : Bool) (packages : List String) :
    Preserves (Settled sha256) (ensureToolsTree sha256 force packages) := by
  apply preserves_bind_of_ok settled_toolsTreeInputsDigest
  intro world digest after settled digesting _
  rcases toolsTreeInputsDigest_eq_ok settled.quiet digesting with
    ⟨digested, rfl⟩
  have refreshed := settled_refreshToolsTree force packages settled digested
  apply worldAfter_bind
  · intro problem left failed
    rw [failed] at refreshed
    exact refreshed
  · intro _ there ran
    rw [ran] at refreshed
    exact settled_of_stays (fun _ _ => stays_builtToolsTree) there refreshed

theorem rebuildToolsTree_eq_ok
    {world after : World} {digest : String} {packages : List String}
    (quiet : Quiet world)
    (digested : presentDigest sha256 world.checkout.inputs = some digest)
    (ran :
      rebuildToolsTree sha256 (stampKey digest packages) packages world =
        .ok () after) :
    after.checkout.tree = some (stampKey digest packages) ∧
      after.checkout.inputs = world.checkout.inputs := by
  rcases bind_eq_ok.1 ran with ⟨_, _, removed, digesting⟩
  cases removed
  have quietThere : Quiet (world.setTools world.checkout.tree none) := quiet
  rcases bind_eq_ok.1 digesting with ⟨found, there, hashed, building⟩
  rcases toolsTreeInputsDigest_eq_ok quietThere hashed with
    ⟨foundDigest, rfl⟩
  cases foundDigest.symm.trans digested
  rcases bind_eq_ok.1 building with ⟨current, here, got, finishing⟩
  cases got
  split at finishing
  · cases finishing
    exact ⟨rfl, rfl⟩
  · rcases bind_eq_ok.1 finishing with ⟨_, _, wiped, impossible⟩
    exact (throw_ne_ok impossible).elim

theorem refreshToolsTree_eq_ok
    {world after : World} {digest : String} {force : Bool}
    {packages : List String}
    (settled : Settled sha256 world)
    (digested : presentDigest sha256 world.checkout.inputs = some digest)
    (ran :
      refreshToolsTree sha256 force (stampKey digest packages) packages
        world = .ok () after) :
    after.checkout.tree = some (stampKey digest packages) ∧
      after.checkout.inputs = world.checkout.inputs := by
  rcases bind_eq_ok.1 ran with ⟨current, there, got, refreshing⟩
  cases got
  split at refreshing
  · exact rebuildToolsTree_eq_ok settled.quiet digested refreshing
  · next fresh =>
      rcases pure_eq_ok.1 refreshing with ⟨-, rfl⟩
      rw [not_or, not_or, not_not] at fresh
      exact ⟨settled.sound.stamps _ fresh.2.2, rfl⟩

/-- The tools tree of a build is the one its stamp stands for. -/
theorem ensureToolsTree_eq_ok
    {world after : World} {force : Bool} {packages : List String}
    {tree : String}
    (settled : Settled sha256 world)
    (ran : ensureToolsTree sha256 force packages world = .ok tree after) :
    ∃ digest,
      presentDigest sha256 world.checkout.inputs = some digest ∧
        tree = stampKey digest packages ∧
          after.checkout.inputs = world.checkout.inputs := by
  rcases bind_eq_ok.1 ran with ⟨digest, _, digesting, ensuring⟩
  rcases toolsTreeInputsDigest_eq_ok settled.quiet digesting with
    ⟨digested, rfl⟩
  rcases bind_eq_ok.1 ensuring with ⟨_, refreshed, refreshing, taking⟩
  rcases refreshToolsTree_eq_ok settled digested refreshing with
    ⟨built, sameInputs⟩
  rcases bind_eq_ok.1 taking with ⟨current, here, got, taken⟩
  cases got
  simp only [built] at taken
  rcases pure_eq_ok.1 taken with ⟨rfl, rfl⟩
  exact ⟨digest, digested, rfl, sameInputs⟩

/-! ## A build -/

theorem settled_updateSnapshot (snapshot : String) :
    Preserves (Settled sha256) (updateSnapshot snapshot) := by
  refine preserves_bind preserves_get fun world => ?_
  cases world.outcomes.resolved with
  | none => exact preserves_throw _
  | some resolved =>
      exact preserves_modify fun _ settled => settled.setInputs _

theorem settled_compile (args : KernelArgs) (given : CompileInputs) :
    Preserves (Settled sha256) (compile args given) := by
  refine preserves_bind preserves_get fun world => ?_
  cases world.outcomes.compile with
  | failed => exact preserves_throw _
  | torn left =>
      exact
        preserves_bind
          (preserves_modify fun _ settled => settled.setVmlinuz _ left)
          fun _ => preserves_throw _
  | built vmlinuz =>
      exact
        preserves_bind
          (preserves_modify fun _ settled =>
            (settled.setVmlinuz _ vmlinuz).record _)
          fun _ => preserves_pure _

theorem settled_buildKernel (args : KernelArgs) (staging : Staging) :
    Preserves (Settled sha256) (buildKernel sha256 args staging) := by
  refine preserves_bind (settled_ensureToolsTree _ _) fun _ => ?_
  refine
    preserves_bind
      (settled_of_stays fun _ quiet => stays_readCompileInputs quiet _ _ _ _)
      fun _ => ?_
  refine preserves_bind (settled_updateSnapshot _) fun _ => ?_
  refine preserves_bind (settled_compile args _) fun _ => ?_
  refine
    preserves_bind
      (settled_of_stays fun _ quiet =>
        stays_computeFingerprint quiet _ _ _ _)
      fun _ => ?_
  exact
    preserves_bind (preserves_ensure _ _) fun _ => preserves_pure _

theorem compile_eq_ok
    {world after : World} {args : KernelArgs} {given : CompileInputs}
    {record : BuildRecord}
    (ran : compile args given world = .ok record after) :
    record.inputs = given ∧
      record.packages = args.kernelInputs.kernelBuilderPackage ∧
        record ∈ after.checkout.builds ∧
          (after.checkout.outputs args.output).vmlinuz =
            some record.vmlinuz := by
  rcases bind_eq_ok.1 ran with ⟨current, there, got, compiling⟩
  cases got
  cases outcome : world.outcomes.compile with
  | failed =>
      simp only [outcome] at compiling
      exact (throw_ne_ok compiling).elim
  | torn left =>
      simp only [outcome] at compiling
      rcases bind_eq_ok.1 compiling with ⟨_, _, copied, impossible⟩
      exact (throw_ne_ok impossible).elim
  | built vmlinuz =>
      simp only [outcome] at compiling
      rcases bind_eq_ok.1 compiling with ⟨_, _, copied, returning⟩
      cases copied
      rcases pure_eq_ok.1 returning with ⟨rfl, rfl⟩
      refine
        ⟨rfl, rfl, List.mem_append_right _ List.mem_cons_self, ?_⟩
      change
        ((world.checkout.setOutput args.output _).outputs
          args.output).vmlinuz = some vmlinuz
      rw [Checkout.setOutput_outputs_self]

/-- A build was given what a compile would be given when it began. -/
theorem buildKernel_eq_ok
    {world after : World} {args : KernelArgs} {staging : Staging}
    {record : BuildRecord} {finished : Fingerprint}
    (settled : Settled sha256 world)
    (version :
      presentVersion world.checkout.inputs = some staging.version)
    (ran :
      buildKernel sha256 args staging world =
        .ok (record, finished) after) :
    presentInputs sha256 world.checkout.inputs args = some record.inputs ∧
      record.packages = args.kernelInputs.kernelBuilderPackage ∧
        record ∈ after.checkout.builds ∧
          (after.checkout.outputs args.output).vmlinuz =
              some record.vmlinuz ∧
            finished =
              { staging.staged with
                snapshotConfigSha256 := finished.snapshotConfigSha256 } := by
  rcases bind_eq_ok.1 ran with ⟨tree, prepared, ensuring, ran₁⟩
  rcases ensureToolsTree_eq_ok settled ensuring with
    ⟨digest, digested, sameTree, sameInputs⟩
  have settledPrepared :=
    (settled_ensureToolsTree _ _).of_ok ensuring settled
  rcases bind_eq_ok.1 ran₁ with ⟨given, read, reading, ran₂⟩
  rcases readCompileInputs_eq_ok settledPrepared.quiet reading with
    ⟨reads, sameVersion, givenTree, rfl⟩
  rcases bind_eq_ok.1 ran₂ with ⟨_, updated, updating, ran₃⟩
  have settledUpdated :=
    (settled_updateSnapshot _).of_ok updating settledPrepared
  rcases bind_eq_ok.1 ran₃ with ⟨made, compiled, compiling, ran₄⟩
  have settledCompiled :=
    (settled_compile _ _).of_ok compiling settledUpdated
  rcases compile_eq_ok compiling with
    ⟨madeInputs, madePackages, known, stored⟩
  rcases bind_eq_ok.1 ran₄ with ⟨hashes, hashed, hashing, ran₅⟩
  rcases
    computeFingerprint_eq_ok args.kernelInputs.kernelBuilderPackage
      settledCompiled.quiet hashing with
    ⟨-, -, -, -, -, -, -, -, rfl⟩
  rcases bind_eq_ok.1 ran₅ with ⟨_, _, unchanged, returning⟩
  rcases ensure_eq_ok.1 unchanged with ⟨agree, rfl⟩
  rcases pure_eq_ok.1 returning with ⟨same, rfl⟩
  cases same
  rw [sameInputs] at reads
  refine ⟨?_, madePackages, known, stored, agree⟩
  rw [madeInputs]
  exact
    reads.presentInputs_eq (by rw [sameVersion]; exact version) digested
      (givenTree.trans sameTree)

/-- A build leaves a manifest that describes it. -/
theorem settled_rebuildKernel
    {world : World} {args : KernelArgs} {staging : Staging}
    {given : CompileInputs} {snapshotHash digest : String}
    (settled : Settled sha256 world)
    (present : presentInputs sha256 world.checkout.inputs args = some given)
    (version :
      presentVersion world.checkout.inputs = some staging.version)
    (tree :
      given.toolsTree =
        stampKey digest args.kernelInputs.kernelBuilderPackage)
    (staged :
      staging.staged = fingerprintOf sha256 given snapshotHash digest) :
    Settled sha256
      (worldAfter (rebuildKernel sha256 args staging world)) := by
  have keeps :
      Preserves (Settled sha256) (buildKernel sha256 args staging) :=
    settled_buildKernel args staging
  apply worldAfter_bind
  · intro problem left failed
    exact keeps.of_error failed settled
  rintro ⟨record, finished⟩ middle ran
  have built := keeps.of_ok ran settled
  rcases buildKernel_eq_ok settled version ran with
    ⟨givenThen, packages, known, stored, agree⟩
  cases present.symm.trans givenThen
  refine ⟨built.quiet, built.sound.setOutput ?_⟩
  intro manifest written
  rw [finishOutput, stored] at written
  cases written
  refine ⟨record, known, rfl, ?_, rfl⟩
  refine ⟨finished.snapshotConfigSha256, digest, ?_, ?_⟩
  · rw [staged] at agree
    exact agree
  · rw [packages]
    exact tree

theorem settled_reuseKernel (args : KernelArgs) :
    Preserves (Settled sha256) (reuseKernel sha256 args) :=
  preserves_ite
    (preserves_bind (settled_ensureToolsTree _ _) fun _ =>
      preserves_pure RunOutcome.cacheHit)
    (preserves_pure RunOutcome.cacheHit)

theorem settled_run (args : KernelArgs) :
    Preserves (Settled sha256) (Command.run sha256 args) := by
  apply
    preserves_bind_of_ok
      (settled_of_stays fun _ quiet => stays_consultCache quiet args)
  rintro world ⟨staging, found⟩ after settled consulted _
  rcases consultCache_eq_ok settled.quiet consulted with
    ⟨given, snapshotHash, digest, present, version, digested, tree, staged,
      checked, rfl⟩
  cases found with
  | hit => exact settled_reuseKernel args after settled
  | miss =>
      exact settled_rebuildKernel settled present version tree staged

/-- Every reachable checkout is sound. -/
theorem sound_of_run
    {inputs : Inputs} {actions : List Action} {checkout : Checkout}
    (ran : Machines.run (step sha256) { inputs } actions = some checkout) :
    Sound sha256 checkout := by
  refine Machines.run_invariant (Sound sha256) ?_ ?_ ran
  · constructor
    · intro name manifest impossible
      cases impossible
    · intro key impossible
      cases impossible
  · intro before action after sound stepped
    cases action with
    | edit changed =>
        cases stepped
        exact ⟨sound.manifests, sound.stamps⟩
    | kernel args outcomes =>
        cases stepped
        have settled :
            Settled sha256 { checkout := before, outcomes } :=
          ⟨rfl, sound⟩
        exact (settled_run args _ settled).sound

/-! ## Hits -/

/-- Hashes that only differ in case are equal. -/
theorem hexHash_eq_of_eqIgnoreCase
    {left right : Bytes}
    (equal :
      eqIgnoreCase (hexHash sha256 left).toList
        (hexHash sha256 right).toList = true) :
    hexHash sha256 left = hexHash sha256 right := by
  rw [eqIgnoreCase, decide_eq_true_iff, hexHash, hexHash,
    map_toLower_hexEncode, map_toLower_hexEncode] at equal
  exact String.toList_injective equal

theorem stampKey_inj
    {digest : String} {left right : List String}
    (equal : stampKey digest left = stampKey digest right) :
    String.intercalate "," left = String.intercalate "," right :=
  String.append_right_inj _ |>.1 equal

theorem takesHit_eq_true
    {checkout : Checkout} {args : KernelArgs} {outcomes : ToolOutcomes}
    (hit : takesHit sha256 checkout args outcomes = true) :
    ∃ staging after,
      consultCache sha256 args { checkout, outcomes } =
        .ok (staging, .hit) after := by
  rw [takesHit] at hit
  split at hit
  · next staging after consulted => exact ⟨staging, after, consulted⟩
  · cases hit

/-- On a hit the kernel is that of the build which wrote the manifest, and
that build was given what a compile would be given now but for its tools. -/
theorem hit_eq_true
    {inputs : Inputs} {actions : List Action} {checkout : Checkout}
    {args : KernelArgs} {outcomes : ToolOutcomes}
    (ran : Machines.run (step sha256) { inputs } actions = some checkout)
    (hit : takesHit sha256 checkout args outcomes = true)
    (noCollision :
      Set.InjOn sha256
        {bytes | bytes ∈ comparedContents sha256 checkout args}) :
    ∃ record ∈ checkout.builds, ∃ given digest,
      (checkout.outputs args.output).writer = some record ∧
        (checkout.outputs args.output).vmlinuz = some record.vmlinuz ∧
          presentInputs sha256 checkout.inputs args = some given ∧
            record.inputs =
                { given with toolsTree := record.inputs.toolsTree } ∧
              record.inputs.toolsTree = stampKey digest record.packages ∧
                given.toolsTree =
                  stampKey digest args.kernelInputs.kernelBuilderPackage := by
  rcases takesHit_eq_true hit with ⟨staging, after, consulted⟩
  have quiet : Quiet { checkout, outcomes } := rfl
  rcases consultCache_eq_ok quiet consulted with
    ⟨given, snapshotHash, digest, present, -, -, tree, staged, checked, -⟩
  rcases (checkCache_eq_ok checked).2 rfl with
    ⟨cached, vmlinuz, manifest, stored, matching, intact⟩
  rcases (sound_of_run ran).manifests args.output cached manifest with
    ⟨record, known, wrote, ⟨snapshotThen, digestThen, described, treeThen⟩,
      hashed⟩
  have recordKnown :
      ∀ bytes ∈ record.vmlinuz :: record.inputs.contents,
        bytes ∈ comparedContents sha256 checkout args :=
    fun bytes member =>
      List.mem_append_left _ (List.mem_flatMap.2 ⟨record, known, member⟩)
  have givenKnown :
      ∀ bytes ∈ given.contents,
        bytes ∈ comparedContents sha256 checkout args := by
    intro bytes member
    apply List.mem_append_right
    apply List.mem_append_left
    rw [present]
    exact List.mem_flatMap.2 ⟨given, List.mem_cons_self, member⟩
  have vmlinuzKnown : vmlinuz ∈ comparedContents sha256 checkout args := by
    apply List.mem_append_right
    apply List.mem_append_right
    rw [stored]
    exact List.mem_cons_self
  rw [hashed] at intact
  have sameKernel : vmlinuz = record.vmlinuz :=
    eq_of_hexHash_eq noCollision vmlinuzKnown
      (recordKnown _ List.mem_cons_self)
      (hexHash_eq_of_eqIgnoreCase intact)
  rw [staged, described] at matching
  rcases
    fingerprintOf_inj noCollision
      (fun bytes member =>
        recordKnown bytes (List.mem_cons_of_mem _ member))
      givenKnown matching with
    ⟨rfl, sameInputs⟩
  exact
    ⟨record, known, given, digestThen, wrote, sameKernel ▸ stored, present,
      sameInputs, treeThen, tree⟩

/-- A hit reuses the kernel of a build with its own inputs exactly if that
build also had the packages of the run. -/
theorem hit_reusesOwnInputs_iff
    {inputs : Inputs} {actions : List Action} {checkout : Checkout}
    {args : KernelArgs} {outcomes : ToolOutcomes}
    (ran : Machines.run (step sha256) { inputs } actions = some checkout)
    (hit : takesHit sha256 checkout args outcomes = true)
    (noCollision :
      Set.InjOn sha256
        {bytes | bytes ∈ comparedContents sha256 checkout args}) :
    ReusesOwnInputs sha256 checkout args ↔ SamePackages checkout args := by
  rcases hit_eq_true ran hit noCollision with
    ⟨record, known, given, digest, wrote, stored, present, sameInputs,
      treeThen, tree⟩
  constructor
  · rintro ⟨own, -, ownWrote, -, ownPresent⟩
    cases ownWrote.symm.trans wrote
    cases ownPresent.symm.trans present
    exact ⟨record, wrote, stampKey_inj (treeThen.symm.trans tree)⟩
  · rintro ⟨own, ownWrote, packages⟩
    cases ownWrote.symm.trans wrote
    refine ⟨record, known, wrote, stored, ?_⟩
    have sameTree : record.inputs.toolsTree = given.toolsTree := by
      rw [treeThen, tree, stampKey, stampKey, packages]
    rw [present, sameInputs, sameTree]

end

/-! ## A checkout with one build -/

theorem length_firstBytes (bytes : Bytes) : (padTo 32 bytes).length = 32 :=
  length_padTo 32 bytes

/-- A hash that keeps the first bytes. -/
def sampleHash (bytes : Bytes) : Block 32 :=
  ⟨padTo 32 bytes, length_firstBytes bytes⟩

/-- The least input files that a build accepts. -/
def sampleInputs : Inputs where
  files := fun path =>
    ([(versionPath, "LINUX_VERSION=6.1\nLINUX_TARBALL_SHA256=ab\n"),
      (Command.amlPatch, "aml\nLinux-Version: 6.1\n---\n"),
      (Command.mrPatch, "mr\nLinux-Version: 6.1\n---\n"),
      (defaultSigningCert, "-----BEGIN CERTIFICATE-----"),
      (randstructSeed, String.ofList (List.replicate 64 '0')),
      (requiredFragment, "required"),
      (hardeningFragment, "hardening"),
      (cvmFragment, "confidential"),
      (dsdtSource, "dsdt"),
      (toolsTreeConf, "conf")].lookup path).map utf8Bytes

def sampleOutcomes : ToolOutcomes where
  compile := .built [1]

/-- The sample after a build without extra packages. -/
def sampleCheckout : Checkout :=
  (worldAfter
    (Command.run sampleHash {}
      { checkout := { inputs := sampleInputs }
        outcomes := sampleOutcomes })).checkout

def sampleArgs (packages : List String) : KernelArgs where
  kernelInputs := { kernelBuilderPackage := packages }

theorem run_sampleBuild :
    Machines.run (step sampleHash) { inputs := sampleInputs }
      [.kernel {} sampleOutcomes] = some sampleCheckout := by
  rw [Machines.run, List.foldlM_cons, step, sampleCheckout]
  rfl

/-- A later run hits with any packages, and its hashes do not collide. -/
theorem sampleCheckout_hits :
    (∀ packages ∈ [[], ["dwarves"]],
        takesHit sampleHash sampleCheckout (sampleArgs packages)
            sampleOutcomes = true ∧
          ∀ left ∈
              comparedContents sampleHash sampleCheckout
                (sampleArgs packages),
            ∀ right ∈
                comparedContents sampleHash sampleCheckout
                  (sampleArgs packages),
              sampleHash left = sampleHash right → left = right) ∧
      ∀ record ∈ sampleCheckout.builds,
        presentInputs sampleHash sampleCheckout.inputs
          (sampleArgs ["dwarves"]) ≠ some record.inputs := by
  decide +kernel

/-- The run without extra packages reuses the kernel of the same build. -/
theorem hit_reusesOwnInputs_iff_samePackages :
    Machines.run (step sampleHash) { inputs := sampleInputs }
        [.kernel {} sampleOutcomes] = some sampleCheckout ∧
      (ReusesOwnInputs sampleHash sampleCheckout (sampleArgs []) ↔
        SamePackages sampleCheckout (sampleArgs [])) := by
  rcases sampleCheckout_hits.1 [] List.mem_cons_self with
    ⟨hit, noCollision⟩
  exact
    ⟨run_sampleBuild,
      hit_reusesOwnInputs_iff run_sampleBuild hit
        fun left leftKnown right rightKnown =>
          noCollision left leftKnown right rightKnown⟩

/-- With one package more the run still hits, on a kernel that no build with
its inputs has made. -/
theorem not_reusesOwnInputs_otherPackages :
    ∃ inputs actions checkout args outcomes,
      Machines.run (step sampleHash) { inputs } actions = some checkout ∧
        takesHit sampleHash checkout args outcomes = true ∧
          Set.InjOn sampleHash
              {bytes | bytes ∈ comparedContents sampleHash checkout args} ∧
            ¬ ∃ record ∈ checkout.builds,
              (checkout.outputs args.output).vmlinuz =
                  some record.vmlinuz ∧
                presentInputs sampleHash checkout.inputs args =
                  some record.inputs := by
  rcases
    sampleCheckout_hits.1 ["dwarves"]
      (List.mem_cons_of_mem _ List.mem_cons_self) with
    ⟨hit, noCollision⟩
  refine
    ⟨sampleInputs, [.kernel {} sampleOutcomes], sampleCheckout,
      sampleArgs ["dwarves"], sampleOutcomes, run_sampleBuild, hit, ?_,
      ?_⟩
  · intro left leftKnown right rightKnown
    exact noCollision left leftKnown right rightKnown
  · rintro ⟨record, known, -, present⟩
    exact sampleCheckout_hits.2 record known present

end Confos.Kernel.Cache
