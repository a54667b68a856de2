import Confos.Library.ShellText
import Mathlib.Data.List.Induction
import Mathlib.Data.List.Infix
import Mathlib.Logic.Function.Basic

/-!
# The cache of GPU modules

The modules of the GPU driver are compiled once for a key over everything that
goes into the compile, and kept unsigned; each run signs a copy.  A run can be
killed in the middle of a write.  What a run takes from the cache then is,
module by module, what a run with its own inputs has compiled.
-/

namespace Confos.Kernel.GpuModules

open Confos.Library.ByteStrings
open Confos.Library.ShellText

/-! ## The cache -/

/-- `WANT_MODULES` -/
def wantModules : List Bytes :=
  [utf8Bytes "nvidia.ko", utf8Bytes "nvidia-uvm.ko"]

/-- The name of the file with a module's digest. -/
def sumName (ko : Bytes) : Bytes :=
  ko ++ utf8Bytes ".sha256"

/-- The files of the cache, by the directory of their key and their name. -/
abbrev Cache := Bytes × Bytes → Option Bytes

/-- A file of the cache gets another content, or is removed. -/
structure Change where
  path : Bytes × Bytes
  content : Option Bytes

def Change.apply (cache : Cache) (change : Change) : Cache :=
  Function.update cache change.path change.content

/-- A file is written from its start, byte by byte, as far as there is room. -/
def writes (room : Nat) (path : Bytes × Bytes) (content : Bytes) :
    List Change :=
  (List.range (min room content.length + 1)).map fun count =>
    { path, content := some (content.take count) }

section

variable (sha256 : Bytes → Block 32)

/-- `gpu_module_cache_key` -/
def gpuModuleCacheKey (files : List (Bytes × Bytes)) : Bytes :=
  digestText sha256 (sumLines sha256 files)

/-- What `sha256sum … | cut -d' ' -f1` writes for a module. -/
def sumContent (ko : Bytes) : Bytes :=
  digestText sha256 ko ++ [newline]

/-- The test of a module in `gpu_module_cache_restore`. -/
def restores (cache : Cache) (key ko : Bytes) : Bool :=
  match cache (key, ko), cache (key, sumName ko) with
  | some content, some sum =>
      content ≠ [] && digestText sha256 content = substituted sum
  | _, _ => false

/-- `gpu_module_cache_restore`: the copies, as far as there is room for them.
Only the last `cp` decides how the function ends. -/
def gpuModuleCacheRestore (room : Bytes → Nat) (cache : Cache) (key : Bytes)
    (names : List Bytes) : Option (Bytes → Option Bytes) :=
  let copied ko := (cache (key, ko)).map (·.take (room ko))
  if
    names.all (restores sha256 cache key) ∧
      ∀ ko ∈ names.getLast?, copied ko = cache (key, ko)
  then
    some copied
  else
    none

/-- `install` removes what is there; the digest is written over it. -/
def storeModule (room : Bytes × Bytes → Nat) (key ko content : Bytes) :
    List Change :=
  { path := (key, ko), content := none } ::
    (writes (room (key, ko)) (key, ko) content ++
      writes (room (key, sumName ko)) (key, sumName ko)
        (sumContent sha256 content))

/-- `gpu_module_cache_store`: what it changes, and whether it goes through all
modules; a write that finds no room does not stop it. -/
def gpuModuleCacheStore (room : Bytes × Bytes → Nat) (key : Bytes)
    (source : Bytes → Option Bytes) : List Bytes → List Change × Bool
  | [] => ([], true)
  | ko :: names =>
      match source ko with
      | none | some [] => ([], false)
      | some content =>
          let later := gpuModuleCacheStore room key source names
          (storeModule sha256 room key ko content ++ later.1, later.2)

end

/-! ## Runs -/

/-- A run of `confos-fetch-gpu`, with what it finds. -/
structure Fetch where
  /-- Script, manifest, configuration and symbols, by name. -/
  inputs : List (Bytes × Bytes)
  oneLine : ∀ file ∈ inputs, newline ∉ file.1
  /-- `CONFOS_GPU_MODULE_CACHE_DISABLE` -/
  cacheDisabled : Bool
  /-- What the compile leaves, if it comes to one. -/
  compiled : Bytes → Option Bytes
  /-- The room for the files of the cache. -/
  cacheRoom : Bytes × Bytes → Nat
  /-- The room for the copies of the cached modules. -/
  workRoom : Bytes → Nat
  /-- `sign-file` with the key of this run. -/
  signFile : Bytes → Bytes
  /-- The changes of the cache after which the run is killed. -/
  killedAfter : Option Nat

section

variable (sha256 : Bytes → Block 32)

/-- What a run takes from the cache. -/
def Fetch.restored (fetch : Fetch) (cache : Cache) :
    Option (Bytes → Option Bytes) :=
  if fetch.cacheDisabled then
    none
  else
    gpuModuleCacheRestore sha256 fetch.workRoom cache
      (gpuModuleCacheKey sha256 fetch.inputs) wantModules

/-- The changes a run that compiles makes to the cache, if nothing kills it. -/
def Fetch.stored (fetch : Fetch) : List Change × Bool :=
  gpuModuleCacheStore sha256 fetch.cacheRoom
    (gpuModuleCacheKey sha256 fetch.inputs) fetch.compiled wantModules

/-- The cache behind a run. -/
def Fetch.cacheAfter (fetch : Fetch) (cache : Cache) : Cache :=
  match fetch.restored sha256 cache with
  | some _ => cache
  | none =>
      let changes := (fetch.stored sha256).1
      ((fetch.killedAfter.elim changes (changes.take ·)).foldl Change.apply
        cache)

/-- The unsigned modules of a run that comes to sign them. -/
def Fetch.unsigned (fetch : Fetch) (cache : Cache) :
    Option (Bytes → Option Bytes) :=
  if fetch.killedAfter.isSome then
    none
  else
    match fetch.restored sha256 cache with
    | some modules => some modules
    | none =>
        if (fetch.stored sha256).2 then some fetch.compiled else none

/-- The signed modules that a run stages. -/
def Fetch.staged (fetch : Fetch) (cache : Cache) :
    Option (Bytes → Option Bytes) :=
  (fetch.unsigned sha256 cache).map fun modules ko =>
    (modules ko).map fetch.signFile

/-- The cache behind runs that follow one another. -/
def cacheBehind (fetches : List Fetch) : Cache :=
  fetches.foldl (fun cache fetch => fetch.cacheAfter sha256 cache) fun _ => none

/-! ## What the cache holds -/

/-- A file of the cache is the beginning of a module, or of its digest, of a
run with the key of the directory. -/
def Explains (fetches : List Fetch) (path : Bytes × Bytes) (bytes : Bytes) :
    Prop :=
  ∃ fetch ∈ fetches,
    gpuModuleCacheKey sha256 fetch.inputs = path.1 ∧
      ∃ ko ∈ wantModules,
        ∃ content,
          fetch.compiled ko = some content ∧
            ((path.2 = ko ∧ bytes <+: content) ∨
              (path.2 = sumName ko ∧ bytes <+: sumContent sha256 content))

/-- Everything that the runs hash. -/
def hashedBy (fetches : List Fetch) : Set Bytes :=
  {bytes |
    ∃ fetch ∈ fetches,
      bytes = sumLines sha256 fetch.inputs ∨
        (∃ file ∈ fetch.inputs, bytes = file.2) ∨
          ∃ ko content, fetch.compiled ko = some content ∧ bytes <+: content}

end

section

variable {sha256 : Bytes → Block 32}

theorem Explains.mono
    {fetches others : List Fetch} {path : Bytes × Bytes} {bytes : Bytes}
    (explains : Explains sha256 fetches path bytes)
    (more : fetches ⊆ others) : Explains sha256 others path bytes := by
  rcases explains with ⟨fetch, member, explained⟩
  exact ⟨fetch, more member, explained⟩

theorem prefix_of_mem_writes
    {room : Nat} {path : Bytes × Bytes} {content bytes : Bytes}
    {change : Change} (member : change ∈ writes room path content)
    (put : change.content = some bytes) :
    change.path = path ∧ bytes <+: content := by
  rcases List.mem_map.1 member with ⟨count, -, rfl⟩
  cases put
  exact ⟨rfl, List.take_prefix count content⟩

/-- What a run stores is explained by the run. -/
theorem explains_of_mem_store
    {fetch : Fetch} {names : List Bytes} (wanted : names ⊆ wantModules)
    {change : Change} {bytes : Bytes}
    (member :
      change ∈
        (gpuModuleCacheStore sha256 fetch.cacheRoom
          (gpuModuleCacheKey sha256 fetch.inputs) fetch.compiled names).1)
    (put : change.content = some bytes) :
    Explains sha256 [fetch] change.path bytes := by
  induction names with
  | nil => cases member
  | cons ko names induction =>
      rw [gpuModuleCacheStore] at member
      split at member
      · cases member
      · cases member
      · next content _ compiled =>
          rcases List.mem_append.1 member with now | later
          · rcases List.mem_cons.1 now with rfl | written
            · cases put
            · refine
                ⟨fetch, List.mem_singleton_self fetch, ?_, ko,
                  wanted List.mem_cons_self, content, compiled, ?_⟩
              · rcases List.mem_append.1 written with inModule | inSum
                · rw [(prefix_of_mem_writes inModule put).1]
                · rw [(prefix_of_mem_writes inSum put).1]
              · rcases List.mem_append.1 written with inModule | inSum
                · rcases prefix_of_mem_writes inModule put with ⟨path, cut⟩
                  exact Or.inl ⟨by rw [path], cut⟩
                · rcases prefix_of_mem_writes inSum put with ⟨path, cut⟩
                  exact Or.inr ⟨by rw [path], cut⟩
          · exact
              induction
                (fun other inNames => wanted (List.mem_cons_of_mem _ inNames))
                later

/-- Changes keep what holds of every file, if it holds of what they put. -/
theorem forall_foldl_apply
    {Holds : Bytes × Bytes → Bytes → Prop} {changes : List Change}
    (puts :
      ∀ change ∈ changes, ∀ bytes,
        change.content = some bytes → Holds change.path bytes)
    {cache : Cache}
    (holds : ∀ path bytes, cache path = some bytes → Holds path bytes) :
    ∀ path bytes,
      changes.foldl Change.apply cache path = some bytes →
        Holds path bytes := by
  induction changes generalizing cache with
  | nil => exact holds
  | cons change changes induction =>
      rcases List.forall_mem_cons.1 puts with ⟨first, others⟩
      refine induction others ?_
      intro path bytes found
      rw [Change.apply, Function.update_apply] at found
      split at found
      · next here =>
          rw [here]
          exact first bytes found
      · exact holds path bytes found

/-- Behind any runs, killed or not, the files of the cache are explained. -/
theorem explains_cacheBehind (fetches : List Fetch) :
    ∀ path bytes,
      cacheBehind sha256 fetches path = some bytes →
        Explains sha256 fetches path bytes := by
  induction fetches using List.reverseRecOn with
  | nil =>
      intro path bytes found
      cases found
  | append_singleton fetches fetch induction =>
      have earlier :
          ∀ path bytes,
            cacheBehind sha256 fetches path = some bytes →
              Explains sha256 (fetches ++ [fetch]) path bytes :=
        fun path bytes found =>
          (induction path bytes found).mono (List.subset_append_left _ _)
      rw [cacheBehind, List.foldl_append, List.foldl_cons, List.foldl_nil,
        ← cacheBehind, Fetch.cacheAfter]
      cases fetch.restored sha256 (cacheBehind sha256 fetches) with
      | some copied => exact earlier
      | none =>
          refine forall_foldl_apply ?_ earlier
          intro change member bytes put
          have stored : change ∈ (fetch.stored sha256).1 := by
            cases killed : fetch.killedAfter with
            | none =>
                rw [killed] at member
                exact member
            | some count =>
                rw [killed] at member
                exact List.mem_of_mem_take member
          exact
            (explains_of_mem_store (List.Subset.refl _) stored put).mono
              (List.subset_append_right _ _)

/-! ## What a run stages -/

theorem sumName_injective : Function.Injective sumName := by
  intro left right same
  exact List.append_cancel_right same

theorem sumName_not_mem :
    ∀ ko ∈ wantModules, ∀ other ∈ wantModules, sumName ko ≠ other := by
  decide +kernel

/-- A store that goes through all modules had them. -/
theorem exists_compiled_of_stored
    {room : Bytes × Bytes → Nat} {key : Bytes} {source : Bytes → Option Bytes}
    {names : List Bytes}
    (stored : (gpuModuleCacheStore sha256 room key source names).2 = true) :
    ∀ ko ∈ names, ∃ content, source ko = some content := by
  induction names with
  | nil =>
      intro ko member
      cases member
  | cons ko names induction =>
      rw [gpuModuleCacheStore] at stored
      split at stored
      · cases stored
      · cases stored
      · next content _ found =>
          exact List.forall_mem_cons.2 ⟨⟨content, found⟩, induction stored⟩

/-- Runs with the same key have the same inputs. -/
theorem inputs_of_key
    {fetches : List Fetch} {first second : Fetch}
    (noCollision : Set.InjOn sha256 (hashedBy sha256 fetches))
    (firstRan : first ∈ fetches) (secondRan : second ∈ fetches)
    (same :
      gpuModuleCacheKey sha256 first.inputs =
        gpuModuleCacheKey sha256 second.inputs) :
    first.inputs = second.inputs := by
  have lines :
      sumLines sha256 first.inputs = sumLines sha256 second.inputs :=
    noCollision ⟨first, firstRan, Or.inl rfl⟩ ⟨second, secondRan, Or.inl rfl⟩
      (hash_eq_of_digestText same)
  exact
    eq_of_sumLines noCollision
      (fun file member =>
        ⟨first.oneLine file member,
          first, firstRan, Or.inr (Or.inl ⟨file, member, rfl⟩)⟩)
      (fun file member =>
        ⟨second.oneLine file member,
          second, secondRan, Or.inr (Or.inl ⟨file, member, rfl⟩)⟩)
      lines

theorem exists_content_of_restores
    {cache : Cache} {key ko : Bytes}
    (tested : restores sha256 cache key ko = true) :
    ∃ content, cache (key, ko) = some content := by
  rw [restores] at tested
  split at tested
  · next content _ found _ => exact ⟨content, found⟩
  · cases tested

/-- A module that passes its test is one that a run has compiled. -/
theorem compiled_of_restores
    {fetches : List Fetch} {cache : Cache} {key ko content : Bytes}
    (noCollision : Set.InjOn sha256 (hashedBy sha256 fetches))
    (kept :
      ∀ path bytes,
        cache path = some bytes → Explains sha256 fetches path bytes)
    (wanted : ko ∈ wantModules) (tested : restores sha256 cache key ko = true)
    (found : cache (key, ko) = some content) :
    ∃ build ∈ fetches,
      gpuModuleCacheKey sha256 build.inputs = key ∧
        build.compiled ko = some content := by
  rw [restores, found] at tested
  cases sumFound : cache (key, sumName ko) with
  | none =>
      rw [sumFound] at tested
      cases tested
  | some sum =>
      rw [sumFound] at tested
      simp only [Bool.and_eq_true, decide_eq_true_eq] at tested
      rcases kept _ _ sumFound with
        ⟨build, ran, ofKey, other, otherWanted, whole, compiled, cut⟩
      rcases cut with ⟨sameName, -⟩ | ⟨sameName, cut⟩
      · exact absurd sameName (sumName_not_mem ko wanted other otherWanted)
      · cases sumName_injective sameName
        rcases kept _ _ found with
          ⟨writer, wrote, -, written, writtenWanted, product, produced, part⟩
        -- The name of a module is that of no digest.
        rcases part with ⟨sameModule, part⟩ | ⟨sameSum, -⟩
        · have digests :=
            hash_eq_of_digestText (digestText_of_substituted cut tested.2)
          have same : content = whole :=
            noCollision
              ⟨writer, wrote,
                Or.inr (Or.inr ⟨written, product, produced, part⟩)⟩
              ⟨build, ran,
                Or.inr (Or.inr ⟨ko, whole, compiled, List.prefix_rfl⟩)⟩
              digests
          exact ⟨build, ran, ofKey, same ▸ compiled⟩
        · exact
            absurd sameSum.symm (sumName_not_mem written writtenWanted ko wanted)

/--
A run that takes its modules from the cache stages, each signed by itself,
modules that runs with its own inputs have compiled, whatever runs before it
were killed or found no room, as long as there is room for its own copies.
-/
theorem staged_of_compiled
    {fetches : List Fetch} {fetch : Fetch} {staged : Bytes → Option Bytes}
    (noCollision :
      Set.InjOn sha256 (hashedBy sha256 (fetches ++ [fetch])))
    (room :
      ∀ ko ∈ wantModules, ∀ content,
        cacheBehind sha256 fetches
              (gpuModuleCacheKey sha256 fetch.inputs, ko) =
            some content →
          content.length ≤ fetch.workRoom ko)
    (ran : fetch.staged sha256 (cacheBehind sha256 fetches) = some staged) :
    ∀ ko ∈ wantModules,
      ∃ build ∈ fetches ++ [fetch],
        build.inputs = fetch.inputs ∧
          ∃ content,
            build.compiled ko = some content ∧
              staged ko = some (fetch.signFile content) := by
  intro ko wanted
  have last : fetch ∈ fetches ++ [fetch] :=
    List.mem_append_right _ (List.mem_singleton_self fetch)
  rcases Option.map_eq_some_iff.1 ran with ⟨modules, unsigned, rfl⟩
  rw [Fetch.unsigned] at unsigned
  split at unsigned
  · cases unsigned
  · split at unsigned
    · next copies restored =>
        cases unsigned
        rw [Fetch.restored] at restored
        split at restored
        · cases restored
        · rw [gpuModuleCacheRestore] at restored
          split at restored
          · next tested =>
              cases restored
              have passed := List.all_eq_true.1 tested.1 ko wanted
              rcases exists_content_of_restores passed with ⟨content, found⟩
              rcases
                compiled_of_restores noCollision
                  (fun path bytes here =>
                    (explains_cacheBehind fetches path bytes here).mono
                      (List.subset_append_left _ _))
                  wanted passed found with
                ⟨build, built, sameKey, compiled⟩
              refine
                ⟨build, built, inputs_of_key noCollision built last sameKey,
                  content, compiled, ?_⟩
              dsimp only
              rw [found, Option.map_some, Option.map_some,
                List.take_of_length_le (room ko wanted content found)]
          · cases restored
    · split at unsigned
      · next stored =>
          cases unsigned
          rcases exists_compiled_of_stored stored ko wanted with
            ⟨content, compiled⟩
          refine ⟨fetch, last, rfl, content, compiled, ?_⟩
          dsimp only
          rw [compiled, Option.map_some]
      · cases unsigned

end

/-! ## Runs around a killed one -/

/-- A hash that counts in base 257 and keeps the last digits. -/
def countDigits (bytes : Bytes) : Block 32 :=
  ⟨leBytes 32 (bytes.foldl (fun value byte => value * 257 + byte.toNat + 1) 0),
    length_leBytes 32 _⟩

def sampleInputs : List (Bytes × Bytes) :=
  [(utf8Bytes "output/kernel/manifest.json", [7])]

/-- A run on one input; it compiles these modules, if any. -/
def sampleFetch (modules : List (Bytes × Bytes)) (killedAfter : Option Nat)
    (workRoom : Bytes → Nat) : Fetch where
  inputs := sampleInputs
  oneLine := by decide +kernel
  cacheDisabled := false
  compiled ko := modules.lookup ko
  cacheRoom _ := 100
  workRoom := workRoom
  signFile content := content ++ [0xFF]
  killedAfter := killedAfter

def sampleModules : List (Bytes × Bytes) :=
  [(utf8Bytes "nvidia.ko", [1, 2]), (utf8Bytes "nvidia-uvm.ko", [3])]

/-- The first run is killed in a write, and the second one goes through. -/
def sampleFetches : List Fetch :=
  [sampleFetch sampleModules (some 2) fun _ => 100,
    sampleFetch sampleModules none fun _ => 100]

/-- A run that could not compile anything. -/
def lastFetch (workRoom : Bytes → Nat) : Fetch :=
  sampleFetch [] none workRoom

theorem compiled_sample
    {ko content : Bytes} (compiled : sampleModules.lookup ko = some content) :
    content = [1, 2] ∨ content = [3] := by
  rcases List.lookup_eq_some_iff.1 compiled with ⟨front, back, split, -⟩
  have member : (ko, content) ∈ sampleModules := by
    rw [split]
    exact List.mem_append_right _ List.mem_cons_self
  rcases List.mem_pair.1 member with first | second
  · exact Or.inl (Prod.mk.inj first).2
  · exact Or.inr (Prod.mk.inj second).2

theorem injOn_sample (workRoom : Bytes → Nat) :
    Set.InjOn countDigits
      (hashedBy countDigits (sampleFetches ++ [lastFetch workRoom])) := by
  have apart :
      ∀ left ∈ [sumLines countDigits sampleInputs, [7], [], [1], [1, 2], [3]],
        ∀ right ∈
            [sumLines countDigits sampleInputs, [7], [], [1], [1, 2], [3]],
          countDigits left = countDigits right → left = right := by
    decide +kernel
  have known :
      ∀ bytes ∈
          hashedBy countDigits (sampleFetches ++ [lastFetch workRoom]),
        bytes ∈
          [sumLines countDigits sampleInputs, [7], [], [1], [1, 2], [3]] := by
    rintro bytes ⟨fetch, member, hashed⟩
    have shape :
        fetch.inputs = sampleInputs ∧
          ∀ ko content, fetch.compiled ko = some content →
            content = [1, 2] ∨ content = [3] := by
      rcases List.mem_append.1 member with earlier | last
      · rcases List.mem_pair.1 earlier with rfl | rfl
        · exact ⟨rfl, fun _ _ => compiled_sample⟩
        · exact ⟨rfl, fun _ _ => compiled_sample⟩
      · rw [List.mem_singleton.1 last]
        refine ⟨rfl, ?_⟩
        intro ko content impossible
        cases impossible
    rcases hashed with rfl | ⟨file, inInputs, rfl⟩ | ⟨ko, content, compiled, cut⟩
    · rw [shape.1]
      exact List.mem_cons_self
    · rw [shape.1] at inInputs
      rw [List.mem_singleton.1 inInputs]
      exact List.mem_cons_of_mem _ List.mem_cons_self
    · have part : bytes ∈ content.inits := (List.mem_inits _ _).2 cut
      have among :
          ∀ part ∈ List.inits [1, 2] ++ List.inits [3],
            part ∈
              [sumLines countDigits sampleInputs, [7], [], [1], [1, 2], [3]] := by
        decide +kernel
      rcases shape.2 ko content compiled with rfl | rfl
      · exact among _ (List.mem_append_left _ part)
      · exact among _ (List.mem_append_right _ part)
  intro left inLeft right inRight same
  exact apart left (known left inLeft) right (known right inRight) same

theorem staged_of_compiled_sample :
    ∃ staged,
      (lastFetch fun _ => 100).staged countDigits
            (cacheBehind countDigits sampleFetches) = some staged ∧
        ∀ ko ∈ wantModules,
          ∃ content, staged ko = some (content ++ [0xFF]) := by
  have takes :
      ((lastFetch fun _ => 100).staged countDigits
        (cacheBehind countDigits sampleFetches)).isSome = true := by
    decide +kernel
  rcases Option.isSome_iff_exists.1 takes with ⟨staged, ran⟩
  refine ⟨staged, ran, ?_⟩
  have room :
      ∀ ko ∈ wantModules,
        (cacheBehind countDigits sampleFetches
            (gpuModuleCacheKey countDigits sampleInputs, ko)).all
          (fun content => content.length ≤ 100) = true := by
    decide +kernel
  intro ko wanted
  rcases
    staged_of_compiled (injOn_sample _)
      (fun other member content found => by
        have short := room other member
        rw [show cacheBehind countDigits sampleFetches
          (gpuModuleCacheKey countDigits sampleInputs, other) = some content
            from found] at short
        exact of_decide_eq_true short)
      ran ko wanted with
    ⟨build, -, -, content, -, signed⟩
  exact ⟨content, signed⟩

/-- Without room for its first copy, a run stages a module that no run has
compiled: only the last `cp` counts. -/
theorem staged_without_room :
    ∃ staged,
      (lastFetch fun ko => if ko = utf8Bytes "nvidia.ko" then 1 else 100).staged
            countDigits (cacheBehind countDigits sampleFetches) = some staged ∧
        staged (utf8Bytes "nvidia.ko") = some [1, 0xFF] := by
  have takes :
      (((lastFetch fun ko =>
            if ko = utf8Bytes "nvidia.ko" then 1 else 100).staged
          countDigits (cacheBehind countDigits sampleFetches)).map
        fun staged => staged (utf8Bytes "nvidia.ko")) =
        some (some [1, 0xFF]) := by
    decide +kernel
  rcases Option.map_eq_some_iff.1 takes with ⟨staged, ran, signed⟩
  exact ⟨staged, ran, signed⟩

end Confos.Kernel.GpuModules
