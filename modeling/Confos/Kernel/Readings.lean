import Confos.Kernel.Command

/-!
# What a kernel build reads

In a checkout that nobody changes during a run, every operation that reads
the inputs leaves the checkout as it is, and what it returns is a function of
the files.  Two of them meet here: the fingerprint hashes what the compile is
given, except for the packages of the tools tree.
-/

namespace Confos.Kernel.Readings

open Confos.Library.ByteStrings
open Confos.Library.Effects
open Confos.Library.Text
open Confos.Kernel.Version
open Confos.Kernel.Worktree
open Confos.Kernel.Command

/-! ## The files as they are -/

def presentVersion (inputs : Inputs) : Option KernelVersion := do
  let bytes ← inputs.files versionPath
  let text ← utf8Text? bytes
  (KernelVersion.parse text.toList).toOption

def presentFragment (inputs : Inputs) (fragment : Option SourcePath) :
    Option (Option Bytes) :=
  match fragment with
  | none => some none
  | some source => (inputs.files source.path).map some

section

variable (sha256 : Bytes → Block 32)

def presentDigest (inputs : Inputs) : Option String :=
  (inputs.files toolsTreeConf).map fun conf => treeDigest sha256 conf inputs

/-- What a compile would be given now. -/
def presentInputs (inputs : Inputs) (args : KernelArgs) :
    Option CompileInputs := do
  let version ← presentVersion inputs
  let required ← inputs.files requiredFragment
  let hardening ← inputs.files hardeningFragment
  let confidential ← inputs.files cvmFragment
  let fragment ←
    presentFragment inputs args.kernelInputs.kernelConfigFragment
  let signingCert ← inputs.files args.kernelInputs.certPath
  let seed ← inputs.files randstructSeed
  let dsdt ← inputs.files dsdtSource
  let amlPatch ← inputs.files Command.amlPatch
  let mrPatch ← inputs.files Command.mrPatch
  let digest ← presentDigest sha256 inputs
  return {
    version, required, hardening, confidential, fragment, signingCert, seed
    dsdt, amlPatch, mrPatch
    toolsTree := stampKey digest args.kernelInputs.kernelBuilderPackage }

/-- The hash of a fragment, empty without one. -/
def fragmentHash (contents : Option Bytes) : String :=
  match contents with
  | some bytes => hexHash sha256 bytes
  | none => ""

/-- The fingerprint of what a compile is given; it leaves out the packages. -/
def fingerprintOf (given : CompileInputs) (snapshot digest : String) :
    Fingerprint where
  linuxVersion := given.version.linuxVersion
  tarballSha256 := given.version.tarballSha256
  requiredConfigSha256 := hexHash sha256 given.required
  hardeningConfigSha256 := hexHash sha256 given.hardening
  confidentialConfigSha256 := hexHash sha256 given.confidential
  kernelExtraConfigSha256 := fragmentHash sha256 given.fragment
  snapshotConfigSha256 := snapshot
  moduleSigningCertSha256 := hexHash sha256 given.signingCert
  randstructSeedSha256 := hexHash sha256 given.seed
  trustedDsdtSha256 := hexHash sha256 given.dsdt
  trustedAmlPatchSha256 := hexHash sha256 given.amlPatch
  snpMrPatchSha256 := hexHash sha256 given.mrPatch
  toolsTreeDigest := digest

end

/-- The contents a compile is given are those of the files. -/
structure Reads
    (inputs : Inputs) (fragment : Option SourcePath) (certPath : String)
    (given : CompileInputs) : Prop where
  required : inputs.files requiredFragment = some given.required
  hardening : inputs.files hardeningFragment = some given.hardening
  confidential : inputs.files cvmFragment = some given.confidential
  fragment : presentFragment inputs fragment = some given.fragment
  signingCert : inputs.files certPath = some given.signingCert
  seed : inputs.files randstructSeed = some given.seed
  dsdt : inputs.files dsdtSource = some given.dsdt
  amlPatch : inputs.files Command.amlPatch = some given.amlPatch
  mrPatch : inputs.files Command.mrPatch = some given.mrPatch

section

variable {sha256 : Bytes → Block 32}

theorem Reads.presentInputs_eq
    {inputs : Inputs} {args : KernelArgs} {given : CompileInputs}
    {digest : String}
    (reads :
      Reads inputs args.kernelInputs.kernelConfigFragment
        args.kernelInputs.certPath given)
    (version : presentVersion inputs = some given.version)
    (digested : presentDigest sha256 inputs = some digest)
    (tree :
      given.toolsTree =
        stampKey digest args.kernelInputs.kernelBuilderPackage) :
    presentInputs sha256 inputs args = some given := by
  rw [presentInputs, version, reads.required, reads.hardening,
    reads.confidential, reads.fragment, reads.signingCert, reads.seed,
    reads.dsdt, reads.amlPatch, reads.mrPatch, digested]
  change some _ = some given
  rw [← tree]

/-! ## What a fingerprint tells -/

/-- The empty hash of no fragment is not that of any. -/
theorem eq_of_fragmentHash_eq
    {known : Set Bytes} (noCollision : Set.InjOn sha256 known)
    {left right : Option Bytes}
    (leftKnown : ∀ bytes ∈ left, bytes ∈ known)
    (rightKnown : ∀ bytes ∈ right, bytes ∈ known)
    (equal : fragmentHash sha256 left = fragmentHash sha256 right) :
    left = right := by
  cases left with
  | none =>
      cases right with
      | none => rfl
      | some bytes =>
          exact (hexHash_ne_empty (by decide) sha256 bytes equal.symm).elim
  | some bytes =>
      cases right with
      | none => exact (hexHash_ne_empty (by decide) sha256 bytes equal).elim
      | some other =>
          rw [eq_of_hexHash_eq noCollision (leftKnown bytes rfl)
            (rightKnown other rfl) equal]

/-- Equal fingerprints are of equal inputs, up to the tools tree. -/
theorem fingerprintOf_inj
    {known : Set Bytes} (noCollision : Set.InjOn sha256 known)
    {left right : CompileInputs}
    {leftSnapshot rightSnapshot leftDigest rightDigest : String}
    (leftKnown : ∀ bytes ∈ left.contents, bytes ∈ known)
    (rightKnown : ∀ bytes ∈ right.contents, bytes ∈ known)
    (equal :
      fingerprintOf sha256 left leftSnapshot leftDigest =
        fingerprintOf sha256 right rightSnapshot rightDigest) :
    leftDigest = rightDigest ∧
      left = { right with toolsTree := left.toolsTree } := by
  have apart {field other : Bytes} (member : field ∈ left.contents)
      (otherMember : other ∈ right.contents)
      (same : hexHash sha256 field = hexHash sha256 other) : field = other :=
    eq_of_hexHash_eq noCollision (leftKnown field member)
      (rightKnown other otherMember) same
  rcases left with ⟨⟨linux, tarball⟩, required, hardening, confidential,
    fragment, signingCert, seed, dsdt, amlPatch, mrPatch, toolsTree⟩
  rcases right with ⟨⟨linux', tarball'⟩, required', hardening',
    confidential', fragment', signingCert', seed', dsdt', amlPatch', mrPatch',
    toolsTree'⟩
  injection equal with sameLinux sameTarball sameRequired sameHardening
    sameConfidential sameFragment sameSnapshot sameCert sameSeed sameDsdt
    sameAml sameMr sameDigest
  have fragments : fragment = fragment' :=
    eq_of_fragmentHash_eq noCollision
      (fun bytes member =>
        leftKnown bytes
          (List.mem_append_right _ (Option.mem_toList.2 member)))
      (fun bytes member =>
        rightKnown bytes
          (List.mem_append_right _ (Option.mem_toList.2 member)))
      sameFragment
  have known₁ :=
    apart (by simp [CompileInputs.contents])
      (by simp [CompileInputs.contents]) sameRequired
  have known₂ :=
    apart (by simp [CompileInputs.contents])
      (by simp [CompileInputs.contents]) sameHardening
  have known₃ :=
    apart (by simp [CompileInputs.contents])
      (by simp [CompileInputs.contents]) sameConfidential
  have known₄ :=
    apart (by simp [CompileInputs.contents])
      (by simp [CompileInputs.contents]) sameCert
  have known₅ :=
    apart (by simp [CompileInputs.contents])
      (by simp [CompileInputs.contents]) sameSeed
  have known₆ :=
    apart (by simp [CompileInputs.contents])
      (by simp [CompileInputs.contents]) sameDsdt
  have known₇ :=
    apart (by simp [CompileInputs.contents])
      (by simp [CompileInputs.contents]) sameAml
  have known₈ :=
    apart (by simp [CompileInputs.contents])
      (by simp [CompileInputs.contents]) sameMr
  subst sameLinux sameTarball fragments known₁ known₂ known₃ known₄
    known₅ known₆ known₇ known₈
  exact ⟨sameDigest, rfl⟩

/-! ## Reading in a checkout nobody changes -/

variable {world after : World}

theorem verifyVersion_eq_ok
    {path version : String} (quiet : Quiet world)
    (ran : verifyVersion path version world = .ok () after) :
    after = world := by
  rcases bind_eq_ok.1 ran with ⟨patch, readWorld, read, comparing⟩
  rcases readText_eq_ok quiet read with ⟨bytes, text, -, -, -, rfl⟩
  rcases bind_eq_ok.1 comparing with ⟨supported, here, found, checked⟩
  rcases ofExcept_eq_ok.1 found with ⟨-, rfl⟩
  exact (ensure_eq_ok.1 checked).2.symm

theorem pinnedVersion_eq_ok
    {version : KernelVersion} (quiet : Quiet world)
    (ran : pinnedVersion world = .ok version after) :
    presentVersion world.checkout.inputs = some version ∧ after = world := by
  rcases bind_eq_ok.1 ran with ⟨text, readWorld, read, parsing⟩
  rcases readText_eq_ok quiet read with
    ⟨bytes, decoded, found, valid, rfl, rfl⟩
  rcases bind_eq_ok.1 parsing with ⟨parsed, here, parses, checking⟩
  rcases ofExcept_eq_ok.1 parses with ⟨accepted, rfl⟩
  rcases bind_eq_ok.1 checking with ⟨_, there, first, checkingNext⟩
  cases verifyVersion_eq_ok quiet first
  rcases bind_eq_ok.1 checkingNext with ⟨_, last, second, returning⟩
  cases verifyVersion_eq_ok quiet second
  rcases pure_eq_ok.1 returning with ⟨rfl, rfl⟩
  refine ⟨?_, rfl⟩
  rw [presentVersion, found, Option.bind_eq_bind, Option.bind_some, valid,
    Option.bind_eq_bind, Option.bind_some, accepted]
  rfl

theorem verifyFragment_eq_ok
    {fragment : Option SourcePath} (quiet : Quiet world)
    (ran : verifyFragment fragment world = .ok () after) :
    after = world := by
  cases fragment with
  | none => exact (pure_eq_ok.1 ran).2.symm
  | some source =>
      rcases bind_eq_ok.1 ran with ⟨found, here, looked, checked⟩
      rcases inputExists_eq_ok quiet looked with ⟨-, rfl⟩
      exact (ensure_eq_ok.1 checked).2.symm

theorem verifySigningCert_eq_ok
    {certPath : String} (quiet : Quiet world)
    (ran : verifySigningCert certPath world = .ok () after) :
    after = world := by
  rcases bind_eq_ok.1 ran with ⟨found, here, looked, checking⟩
  rcases inputExists_eq_ok quiet looked with ⟨-, rfl⟩
  rcases bind_eq_ok.1 checking with ⟨_, there, present, reading⟩
  cases (ensure_eq_ok.1 present).2
  rcases bind_eq_ok.1 reading with ⟨bytes, readWorld, read, checked⟩
  rcases readInput_eq_ok quiet read with ⟨-, rfl⟩
  exact (ensure_eq_ok.1 checked).2.symm

/-- A file with its contents, empty if there is none. -/
def fileAt (inputs : Inputs) (path : String) : String × Bytes :=
  (path, (inputs.files path).getD [])

theorem readFiles_eq_ok
    {paths : List String} {files : List (String × Bytes)}
    (quiet : Quiet world)
    (ran : readFiles paths world = .ok files after) :
    files = paths.map (fileAt world.checkout.inputs) ∧
      (∀ path ∈ paths, (world.checkout.inputs.files path).isSome = true) ∧
        after = world := by
  induction paths generalizing files after with
  | nil =>
      rcases pure_eq_ok.1 ran with ⟨rfl, rfl⟩
      exact ⟨rfl, fun _ impossible => absurd impossible List.not_mem_nil, rfl⟩
  | cons path paths induction =>
      rw [readFiles, List.mapM_cons] at ran
      rcases bind_eq_ok.1 ran with ⟨file, here, first, continued⟩
      rcases bind_eq_ok.1 first with ⟨bytes, there, read, paired⟩
      rcases readInput_eq_ok quiet read with ⟨found, rfl⟩
      rcases pure_eq_ok.1 paired with ⟨rfl, rfl⟩
      rcases bind_eq_ok.1 continued with ⟨rest, last, others, returning⟩
      rcases induction others with ⟨rfl, present, rfl⟩
      rcases pure_eq_ok.1 returning with ⟨rfl, rfl⟩
      refine ⟨?_, ?_, rfl⟩
      · rw [List.map_cons, fileAt, found]
        rfl
      · exact
          List.forall_mem_cons.2 ⟨by rw [found]; rfl, present⟩

/-- The files of the sandbox are those its walk names. -/
theorem map_fileAt_sandboxFiles (inputs : Inputs) :
    (inputs.sandboxFiles.map (·.1)).map (fileAt inputs) =
      inputs.sandboxFiles := by
  rw [List.map_map]
  apply (List.map_congr_left ?_).trans (List.map_id _)
  intro file member
  rcases List.mem_filterMap.1 member with ⟨path, -, named⟩
  rcases Option.map_eq_some_iff.1 named with ⟨bytes, found, rfl⟩
  rw [Function.comp_apply, fileAt, found]
  rfl

theorem toolsTreeInputsDigest_eq_ok
    {digest : String} (quiet : Quiet world)
    (ran : toolsTreeInputsDigest sha256 world = .ok digest after) :
    presentDigest sha256 world.checkout.inputs = some digest ∧
      after = world := by
  rcases bind_eq_ok.1 ran with ⟨files, readWorld, read, hashing⟩
  rcases bind_eq_ok.1 read with ⟨_, _, waited, walking⟩
  rw [interfere_of_quiet quiet] at waited
  cases waited
  rcases bind_eq_ok.1 walking with ⟨current, _, got, reading⟩
  cases got
  rcases readFiles_eq_ok quiet reading with ⟨rfl, present, rfl⟩
  rcases pure_eq_ok.1 hashing with ⟨rfl, rfl⟩
  refine ⟨?_, rfl⟩
  have confPresent :=
    present toolsTreeConf
      ((List.mem_insertionSort _).2 List.mem_cons_self)
  rcases Option.isSome_iff_exists.1 confPresent with ⟨conf, found⟩
  rw [presentDigest, found, Option.map_some, treeDigest, hashTreeInputs,
    sortPaths]
  have sorted (inputs : Inputs) (paths : List String) :
      (paths.insertionSort fun left right =>
            pathKey left ≤ pathKey right).map (fileAt inputs) =
        (paths.map (fileAt inputs)).insertionSort fun left right =>
          pathKey left.1 ≤ pathKey right.1 := by
    apply List.map_insertionSort
    intro left _ right _
    exact Iff.rfl
  rw [sorted, List.map_cons, map_fileAt_sandboxFiles, fileAt, found]
  rfl

theorem hashInput_eq_ok
    {path hashed : String} (quiet : Quiet world)
    (ran : hashInput sha256 path world = .ok hashed after) :
    ∃ bytes,
      world.checkout.inputs.files path = some bytes ∧
        hexHash sha256 bytes = hashed ∧ after = world := by
  rcases bind_eq_ok.1 ran with ⟨bytes, readWorld, read, returning⟩
  rcases readInput_eq_ok quiet read with ⟨found, rfl⟩
  rcases pure_eq_ok.1 returning with ⟨hashes, rfl⟩
  exact ⟨bytes, found, hashes, rfl⟩

theorem hashFragment_eq_ok
    {fragment : Option SourcePath} {hashed : String} (quiet : Quiet world)
    (ran : hashFragment sha256 fragment world = .ok hashed after) :
    ∃ contents,
      presentFragment world.checkout.inputs fragment = some contents ∧
        hashed = fragmentHash sha256 contents ∧ after = world := by
  cases fragment with
  | none =>
      rcases pure_eq_ok.1 ran with ⟨rfl, rfl⟩
      exact ⟨none, rfl, rfl, rfl⟩
  | some source =>
      rcases hashInput_eq_ok quiet ran with ⟨bytes, found, rfl, rfl⟩
      refine ⟨some bytes, ?_, rfl, rfl⟩
      rw [presentFragment, found]
      rfl

theorem hashSnapshot_eq_ok
    {snapshot hashed : String} (quiet : Quiet world)
    (ran : hashSnapshot sha256 snapshot world = .ok hashed after) :
    after = world := by
  rcases bind_eq_ok.1 ran with ⟨found, here, looked, hashing⟩
  rcases inputExists_eq_ok quiet looked with ⟨-, rfl⟩
  cases found with
  | false => exact (pure_eq_ok.1 hashing).2.symm
  | true =>
      rcases hashInput_eq_ok quiet hashing with ⟨-, -, -, rfl⟩
      rfl

/-- The fingerprint hashes what a compile would be given now. -/
theorem computeFingerprint_eq_ok
    {version : KernelVersion} {fragment : Option SourcePath}
    {certPath snapshot : String} {fingerprint : Fingerprint}
    (packages : List String) (quiet : Quiet world)
    (ran :
      computeFingerprint sha256 version fragment certPath snapshot world =
        .ok fingerprint after) :
    ∃ given snapshotHash digest,
      Reads world.checkout.inputs fragment certPath given ∧
        given.version = version ∧
          presentDigest sha256 world.checkout.inputs = some digest ∧
            given.toolsTree = stampKey digest packages ∧
              fingerprint = fingerprintOf sha256 given snapshotHash digest ∧
                after = world := by
  rcases bind_eq_ok.1 ran with ⟨_, _, first, ran₁⟩
  rcases hashInput_eq_ok quiet first with ⟨required, foundRequired, rfl, rfl⟩
  rcases bind_eq_ok.1 ran₁ with ⟨_, _, second, ran₂⟩
  rcases hashInput_eq_ok quiet second with
    ⟨hardening, foundHardening, rfl, rfl⟩
  rcases bind_eq_ok.1 ran₂ with ⟨_, _, third, ran₃⟩
  rcases hashInput_eq_ok quiet third with
    ⟨confidential, foundConfidential, rfl, rfl⟩
  rcases bind_eq_ok.1 ran₃ with ⟨_, _, fourth, ran₄⟩
  rcases hashInput_eq_ok quiet fourth with ⟨signingCert, foundCert, rfl, rfl⟩
  rcases bind_eq_ok.1 ran₄ with ⟨_, _, fifth, ran₅⟩
  rcases hashInput_eq_ok quiet fifth with ⟨seed, foundSeed, rfl, rfl⟩
  rcases bind_eq_ok.1 ran₅ with ⟨_, _, sixth, ran₆⟩
  rcases hashInput_eq_ok quiet sixth with ⟨dsdt, foundDsdt, rfl, rfl⟩
  rcases bind_eq_ok.1 ran₆ with ⟨_, _, seventh, ran₇⟩
  rcases hashInput_eq_ok quiet seventh with ⟨aml, foundAml, rfl, rfl⟩
  rcases bind_eq_ok.1 ran₇ with ⟨_, _, eighth, ran₈⟩
  rcases hashInput_eq_ok quiet eighth with ⟨mr, foundMr, rfl, rfl⟩
  rcases bind_eq_ok.1 ran₈ with ⟨_, _, ninth, ran₉⟩
  rcases hashFragment_eq_ok quiet ninth with
    ⟨extra, foundExtra, rfl, rfl⟩
  rcases bind_eq_ok.1 ran₉ with ⟨snapshotHash, _, tenth, ran₁₀⟩
  cases hashSnapshot_eq_ok quiet tenth
  rcases bind_eq_ok.1 ran₁₀ with ⟨digest, _, last, returning⟩
  rcases toolsTreeInputsDigest_eq_ok quiet last with ⟨digested, rfl⟩
  rcases pure_eq_ok.1 returning with ⟨rfl, rfl⟩
  exact
    ⟨{ version, required, hardening, confidential, fragment := extra
       signingCert, seed, dsdt, amlPatch := aml, mrPatch := mr
       toolsTree := stampKey digest packages },
      snapshotHash, digest,
      ⟨foundRequired, foundHardening, foundConfidential, foundExtra,
        foundCert, foundSeed, foundDsdt, foundAml, foundMr⟩,
      rfl, digested, rfl, rfl, rfl⟩

theorem readFragment_eq_ok
    {fragment : Option SourcePath} {contents : Option Bytes}
    (quiet : Quiet world)
    (ran : readFragment fragment world = .ok contents after) :
    presentFragment world.checkout.inputs fragment = some contents ∧
      after = world := by
  cases fragment with
  | none =>
      rcases pure_eq_ok.1 ran with ⟨rfl, rfl⟩
      exact ⟨rfl, rfl⟩
  | some source =>
      rcases bind_eq_ok.1 ran with ⟨bytes, readWorld, read, returning⟩
      rcases readInput_eq_ok quiet read with ⟨found, rfl⟩
      rcases pure_eq_ok.1 returning with ⟨rfl, rfl⟩
      refine ⟨?_, rfl⟩
      rw [presentFragment, found]
      rfl

/-- What a build is given are the contents the files have. -/
theorem readCompileInputs_eq_ok
    {version : KernelVersion} {fragment : Option SourcePath}
    {certPath toolsTree : String} {given : CompileInputs}
    (quiet : Quiet world)
    (ran :
      readCompileInputs version fragment certPath toolsTree world =
        .ok given after) :
    Reads world.checkout.inputs fragment certPath given ∧
      given.version = version ∧ given.toolsTree = toolsTree ∧
        after = world := by
  rcases bind_eq_ok.1 ran with ⟨_, _, got, ran₁⟩
  cases got
  rcases bind_eq_ok.1 ran₁ with ⟨_, _, prepared, ran₂⟩
  cases (ensure_eq_ok.1 prepared).2
  rcases bind_eq_ok.1 ran₂ with ⟨dsdt, _, first, ran₃⟩
  rcases readInput_eq_ok quiet first with ⟨foundDsdt, rfl⟩
  rcases bind_eq_ok.1 ran₃ with ⟨aml, _, second, ran₄⟩
  rcases readInput_eq_ok quiet second with ⟨foundAml, rfl⟩
  rcases bind_eq_ok.1 ran₄ with ⟨mr, _, third, ran₅⟩
  rcases readInput_eq_ok quiet third with ⟨foundMr, rfl⟩
  rcases bind_eq_ok.1 ran₅ with ⟨seed, _, fourth, ran₆⟩
  rcases readInput_eq_ok quiet fourth with ⟨foundSeed, rfl⟩
  rcases bind_eq_ok.1 ran₆ with ⟨_, _, isHex, ran₇⟩
  cases (ensure_eq_ok.1 isHex).2
  rcases bind_eq_ok.1 ran₇ with ⟨signingCert, _, fifth, ran₈⟩
  rcases readInput_eq_ok quiet fifth with ⟨foundCert, rfl⟩
  rcases bind_eq_ok.1 ran₈ with ⟨required, _, sixth, ran₉⟩
  rcases readInput_eq_ok quiet sixth with ⟨foundRequired, rfl⟩
  rcases bind_eq_ok.1 ran₉ with ⟨hardening, _, seventh, ran₁₀⟩
  rcases readInput_eq_ok quiet seventh with ⟨foundHardening, rfl⟩
  rcases bind_eq_ok.1 ran₁₀ with ⟨confidential, _, eighth, ran₁₁⟩
  rcases readInput_eq_ok quiet eighth with ⟨foundConfidential, rfl⟩
  rcases bind_eq_ok.1 ran₁₁ with ⟨extra, _, ninth, returning⟩
  rcases readFragment_eq_ok quiet ninth with ⟨foundExtra, rfl⟩
  rcases pure_eq_ok.1 returning with ⟨rfl, rfl⟩
  exact
    ⟨⟨foundRequired, foundHardening, foundConfidential, foundExtra,
        foundCert, foundSeed, foundDsdt, foundAml, foundMr⟩,
      rfl, rfl, rfl⟩

/-! ## The decision -/

theorem earlierBuild_eq_some
    {args : KernelArgs} {output : KernelOutput}
    {manifest : KernelManifest} {vmlinuz : Bytes}
    (found : earlierBuild args output = some (manifest, vmlinuz)) :
    output.manifest = some manifest ∧ output.vmlinuz = some vmlinuz := by
  rw [earlierBuild] at found
  split at found
  · cases found
  · rcases Option.bind_eq_some_iff.1 found with ⟨stored, same, reading⟩
    rcases Option.bind_eq_some_iff.1 reading with ⟨kernel, sameKernel, pair⟩
    cases pair
    exact ⟨same, sameKernel⟩

/-- A hit finds a manifest with the fingerprint, and the kernel it hashes. -/
theorem checkCache_eq_ok
    {args : KernelArgs} {staged : Fingerprint} {found : CacheCheck}
    (ran : checkCache sha256 args staged world = .ok found after) :
    after = world ∧
      (found = .hit →
        ∃ cached vmlinuz,
          (world.checkout.outputs args.output).manifest = some cached ∧
            (world.checkout.outputs args.output).vmlinuz = some vmlinuz ∧
              cached.inputs = staged ∧
                eqIgnoreCase (hexHash sha256 vmlinuz).toList
                  cached.vmlinuzSha256.toList = true) := by
  rcases bind_eq_ok.1 ran with ⟨_, _, got, deciding⟩
  cases got
  cases earlier : earlierBuild args (world.checkout.outputs args.output) with
  | none =>
      simp only [earlier] at deciding
      rcases pure_eq_ok.1 deciding with ⟨rfl, rfl⟩
      exact ⟨rfl, fun impossible => nomatch impossible⟩
  | some build =>
      rcases build with ⟨cached, vmlinuz⟩
      simp only [earlier] at deciding
      by_cases matching : cached.inputs = staged
      · rw [if_pos matching] at deciding
        rcases bind_eq_ok.1 deciding with ⟨_, _, verified, returning⟩
        rcases ensure_eq_ok.1 verified with ⟨intact, rfl⟩
        rcases pure_eq_ok.1 returning with ⟨rfl, rfl⟩
        rcases earlierBuild_eq_some earlier with ⟨manifest, stored⟩
        exact
          ⟨rfl, fun _ =>
            ⟨cached, vmlinuz, manifest, stored, matching, intact⟩⟩
      · rw [if_neg matching] at deciding
        rcases pure_eq_ok.1 deciding with ⟨rfl, rfl⟩
        exact ⟨rfl, fun impossible => nomatch impossible⟩

/-- The fingerprint that decides hashes what a compile would be given now. -/
theorem consultCache_eq_ok
    {args : KernelArgs} {staging : Staging} {found : CacheCheck}
    (quiet : Quiet world)
    (ran : consultCache sha256 args world = .ok (staging, found) after) :
    ∃ given snapshotHash digest,
      presentInputs sha256 world.checkout.inputs args = some given ∧
        presentVersion world.checkout.inputs = some staging.version ∧
          presentDigest sha256 world.checkout.inputs = some digest ∧
            given.toolsTree =
                stampKey digest args.kernelInputs.kernelBuilderPackage ∧
              staging.staged =
                  fingerprintOf sha256 given snapshotHash digest ∧
                checkCache sha256 args staging.staged world =
                    .ok found after ∧
                  after = world := by
  rcases bind_eq_ok.1 ran with ⟨version, _, pinned, ran₁⟩
  rcases pinnedVersion_eq_ok quiet pinned with ⟨parsed, rfl⟩
  rcases bind_eq_ok.1 ran₁ with ⟨snapshot, _, named, ran₂⟩
  rcases ofExcept_eq_ok.1 named with ⟨-, rfl⟩
  rcases bind_eq_ok.1 ran₂ with ⟨_, _, fragmentFound, ran₃⟩
  cases verifyFragment_eq_ok quiet fragmentFound
  rcases bind_eq_ok.1 ran₃ with ⟨_, _, certFound, ran₄⟩
  cases verifySigningCert_eq_ok quiet certFound
  rcases bind_eq_ok.1 ran₄ with ⟨staged, _, hashed, ran₅⟩
  rcases
    computeFingerprint_eq_ok args.kernelInputs.kernelBuilderPackage quiet
      hashed with
    ⟨given, snapshotHash, digest, reads, sameVersion, digested, tree,
      fingerprint, rfl⟩
  rcases bind_eq_ok.1 ran₅ with ⟨decision, _, checked, returning⟩
  rcases pure_eq_ok.1 returning with ⟨same, rfl⟩
  cases same
  refine
    ⟨given, snapshotHash, digest, ?_, parsed, digested, tree, fingerprint,
      checked, (checkCache_eq_ok checked).1⟩
  exact reads.presentInputs_eq (by rw [sameVersion]; exact parsed) digested tree

end

/-! ## Reading, failed or not -/

/-- A program leaves a world exactly as it is. -/
abbrev Stays {Value : Type} (start : World) (program : Program Value) : Prop :=
  Preserves (fun world => world = start) program

/-- What leaves every world nobody changes keeps each invariant of those. -/
theorem preserves_of_stays
    {Value : Type} {Invariant : World → Prop} {program : Program Value}
    (quiet : ∀ world, Invariant world → Quiet world)
    (stays : ∀ start, Quiet start → Stays start program) :
    Preserves Invariant program := by
  intro world holds
  rw [stays world (quiet world holds) world rfl]
  exact holds

section

variable {sha256 : Bytes → Block 32} {start : World}

theorem stays_interfere (quiet : Quiet start) : Stays start interfere := by
  rintro world rfl
  rw [interfere_of_quiet quiet]
  rfl

theorem stays_readInput (quiet : Quiet start) (path : String) :
    Stays start (readInput path) := by
  refine preserves_bind (stays_interfere quiet) fun _ => ?_
  refine preserves_bind preserves_get fun world => ?_
  cases world.checkout.inputs.files path with
  | none => exact preserves_throw _
  | some bytes => exact preserves_pure bytes

theorem stays_readText (quiet : Quiet start) (path : String) :
    Stays start (readText path) := by
  refine preserves_bind (stays_readInput quiet path) fun bytes => ?_
  cases utf8Text? bytes with
  | none => exact preserves_throw _
  | some text => exact preserves_pure text.toList

theorem stays_inputExists (quiet : Quiet start) (path : String) :
    Stays start (inputExists path) :=
  preserves_bind (stays_interfere quiet) fun _ =>
    preserves_bind preserves_get fun _ => preserves_pure _

theorem stays_verifyVersion (quiet : Quiet start) (path version : String) :
    Stays start (verifyVersion path version) :=
  preserves_bind (stays_readText quiet path) fun _ =>
    preserves_bind (preserves_ofExcept _) fun _ => preserves_ensure _ _

theorem stays_pinnedVersion (quiet : Quiet start) :
    Stays start pinnedVersion :=
  preserves_bind (stays_readText quiet versionPath) fun _ =>
    preserves_bind (preserves_ofExcept _) fun _ =>
      preserves_bind (stays_verifyVersion quiet _ _) fun _ =>
        preserves_bind (stays_verifyVersion quiet _ _) fun _ =>
          preserves_pure _

theorem stays_verifyFragment
    (quiet : Quiet start) (fragment : Option SourcePath) :
    Stays start (verifyFragment fragment) := by
  cases fragment with
  | none => exact preserves_pure ()
  | some source =>
      exact
        preserves_bind (stays_inputExists quiet _) fun _ =>
          preserves_ensure _ _

theorem stays_verifySigningCert (quiet : Quiet start) (certPath : String) :
    Stays start (verifySigningCert certPath) :=
  preserves_bind (stays_inputExists quiet certPath) fun _ =>
    preserves_bind (preserves_ensure _ _) fun _ =>
      preserves_bind (stays_readInput quiet certPath) fun _ =>
        preserves_ensure _ _

theorem stays_readFiles (quiet : Quiet start) (paths : List String) :
    Stays start (readFiles paths) := by
  induction paths with
  | nil => exact preserves_pure []
  | cons path paths induction =>
      rw [readFiles, List.mapM_cons]
      refine
        preserves_bind
          (preserves_bind (stays_readInput quiet path) fun _ =>
            preserves_pure _) fun _ => ?_
      exact preserves_bind induction fun _ => preserves_pure _

theorem stays_toolsTreeInputsDigest (quiet : Quiet start) :
    Stays start (toolsTreeInputsDigest sha256) := by
  refine preserves_bind ?_ fun _ => preserves_pure _
  refine preserves_bind (stays_interfere quiet) fun _ => ?_
  exact preserves_bind preserves_get fun _ => stays_readFiles quiet _

theorem stays_hashInput (quiet : Quiet start) (path : String) :
    Stays start (hashInput sha256 path) :=
  preserves_bind (stays_readInput quiet path) fun _ => preserves_pure _

theorem stays_hashFragment
    (quiet : Quiet start) (fragment : Option SourcePath) :
    Stays start (hashFragment sha256 fragment) := by
  cases fragment with
  | none => exact preserves_pure ""
  | some source => exact stays_hashInput quiet source.path

theorem stays_hashSnapshot (quiet : Quiet start) (snapshot : String) :
    Stays start (hashSnapshot sha256 snapshot) :=
  preserves_bind (stays_inputExists quiet snapshot) fun _ =>
    preserves_ite (stays_hashInput quiet snapshot) (preserves_pure "")

theorem stays_computeFingerprint
    (quiet : Quiet start) (version : KernelVersion)
    (fragment : Option SourcePath) (certPath snapshot : String) :
    Stays start
      (computeFingerprint sha256 version fragment certPath snapshot) := by
  refine preserves_bind (stays_hashInput quiet _) fun _ => ?_
  refine preserves_bind (stays_hashInput quiet _) fun _ => ?_
  refine preserves_bind (stays_hashInput quiet _) fun _ => ?_
  refine preserves_bind (stays_hashInput quiet _) fun _ => ?_
  refine preserves_bind (stays_hashInput quiet _) fun _ => ?_
  refine preserves_bind (stays_hashInput quiet _) fun _ => ?_
  refine preserves_bind (stays_hashInput quiet _) fun _ => ?_
  refine preserves_bind (stays_hashInput quiet _) fun _ => ?_
  refine preserves_bind (stays_hashFragment quiet fragment) fun _ => ?_
  refine preserves_bind (stays_hashSnapshot quiet snapshot) fun _ => ?_
  exact
    preserves_bind (stays_toolsTreeInputsDigest quiet) fun _ =>
      preserves_pure _

theorem stays_checkCache (args : KernelArgs) (staged : Fingerprint) :
    Stays start (checkCache sha256 args staged) := by
  refine preserves_bind preserves_get fun world => ?_
  cases earlierBuild args (world.checkout.outputs args.output) with
  | none => exact preserves_pure CacheCheck.miss
  | some build =>
      exact
        preserves_ite
          (preserves_bind (preserves_ensure _ _) fun _ =>
            preserves_pure CacheCheck.hit)
          (preserves_pure CacheCheck.miss)

theorem stays_consultCache (quiet : Quiet start) (args : KernelArgs) :
    Stays start (consultCache sha256 args) := by
  refine preserves_bind (stays_pinnedVersion quiet) fun _ => ?_
  refine preserves_bind (preserves_ofExcept _) fun _ => ?_
  refine preserves_bind (stays_verifyFragment quiet _) fun _ => ?_
  refine preserves_bind (stays_verifySigningCert quiet _) fun _ => ?_
  refine preserves_bind (stays_computeFingerprint quiet _ _ _ _) fun _ => ?_
  exact
    preserves_bind (stays_checkCache args _) fun _ => preserves_pure _

theorem stays_readFragment
    (quiet : Quiet start) (fragment : Option SourcePath) :
    Stays start (readFragment fragment) := by
  cases fragment with
  | none => exact preserves_pure none
  | some source =>
      exact
        preserves_bind (stays_readInput quiet source.path) fun _ =>
          preserves_pure _

theorem stays_readCompileInputs
    (quiet : Quiet start) (version : KernelVersion)
    (fragment : Option SourcePath) (certPath toolsTree : String) :
    Stays start (readCompileInputs version fragment certPath toolsTree) := by
  refine preserves_bind preserves_get fun _ => ?_
  refine preserves_bind (preserves_ensure _ _) fun _ => ?_
  refine preserves_bind (stays_readInput quiet _) fun _ => ?_
  refine preserves_bind (stays_readInput quiet _) fun _ => ?_
  refine preserves_bind (stays_readInput quiet _) fun _ => ?_
  refine preserves_bind (stays_readInput quiet _) fun _ => ?_
  refine preserves_bind (preserves_ensure _ _) fun _ => ?_
  refine preserves_bind (stays_readInput quiet _) fun _ => ?_
  refine preserves_bind (stays_readInput quiet _) fun _ => ?_
  refine preserves_bind (stays_readInput quiet _) fun _ => ?_
  refine preserves_bind (stays_readInput quiet _) fun _ => ?_
  exact
    preserves_bind (stays_readFragment quiet fragment) fun _ =>
      preserves_pure _

end

end Confos.Kernel.Readings
