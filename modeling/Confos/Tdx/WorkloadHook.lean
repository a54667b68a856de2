import Confos.Library.HashChains
import Confos.Library.Machines
import Confos.Tdx.Pe
import Confos.Tdx.UkiBinding
import Confos.Tdx.Workloads
import Mathlib.Data.List.Perm.Subperm

/-!
# Containers of an attested guest

The runtime calls the hook before it starts a container, and the hook extends
RTMR[3] by the image of a workload.  Hooks of several containers run side by
side, and a container may never start behind its hook.  The register that a
verifier predicts from a list of images tells that no workload runs that is not
on the list.
-/

namespace Confos.Tdx.WorkloadHook

open Confos.Library.ByteStrings
open Confos.Library.Fallible
open Confos.Library.HashChains
open Confos.Library.Machines
open Confos.Tdx.Pe (withContext)
open Confos.Tdx.Rtmr
open Confos.Tdx.UkiBinding
open Confos.Tdx.Workloads

/-! ## The hook -/

/-- A value of `serde_json`. -/
inductive Value where
  | null
  | boolean (value : Bool)
  | number (literal : String)
  | string (text : String)
  | array (items : List Value)
  | object (members : List (String × Value))

namespace Value

/-- The member of an object. -/
def get (value : Value) (key : String) : Option Value :=
  match value with
  | object members => members.lookup key
  | _ => none

def isObject : Value → Bool
  | object _ => true
  | _ => false

def asStr : Value → Option String
  | string text => some text
  | _ => none

end Value

/-- A value that has to be there. -/
def orContext {α : Type} (value : Option α) (context : String) :
    Except String α :=
  match value with
  | some found => .ok found
  | none => .error context

/-- What the hook finds outside of itself. -/
structure Surroundings where
  stdin : Except String String
  readToString : String → Except String String

section

variable (fromStr : String → Except String Value)

/-- Annotations on the state, or else in the configuration of the bundle. -/
def loadAnnotations (around : Surroundings) (state : Value) :
    Except String Value :=
  match (state.get "annotations").filter Value.isObject with
  | some annotations => .ok annotations
  | none => do
      let bundle ←
        orContext ((state.get "bundle").bind Value.asStr)
          "OCI state has neither annotations nor a bundle path"
      let cfg ←
        withContext s!"read {bundle}/config.json"
          (around.readToString s!"{bundle}/config.json")
      let config ← fromStr cfg
      return (config.get "annotations").getD .null

def readAnnotations (around : Surroundings) : Except String Value := do
  let input ← withContext "read OCI state from stdin" around.stdin
  let state ← withContext "parse OCI state JSON" (fromStr input)
  loadAnnotations fromStr around state

variable (sha384 : Bytes → Block 48)

/-- The event of a container with these annotations, if it is a workload. -/
def eventOf (annotations : Value) : Except String (Option (Block 48)) :=
  let get key := (annotations.get key).bind Value.asStr
  if get "io.kubernetes.cri.container-type" ≠ some "container" then
    .ok none
  else do
    let image ←
      orContext (get "io.kubernetes.cri.image-name")
        "missing io.kubernetes.cri.image-name annotation (add it to the kata `container_annotations` allowlist)"
    let eventDigest ← workloadEventDigest sha384 image
    return some eventDigest

/-- The hook up to the write into the register. -/
def hook (around : Surroundings) : Except String (Option (Block 48)) := do
  let annotations ← readAnnotations fromStr around
  eventOf sha384 annotations

/-! ## The verifier's side -/

/-- The register predicted from a list of references, and their canonical form. -/
def cmdRtmr3 (digests : List String) : Except String (String × List String) := do
  let canonical ← digests.mapM canonicalImageDigest
  let rtmr3 := computeRtmr3Workloads sha384 canonical
  return (hexEncode rtmr3.bytes, canonical)

end

/-! ## The guest -/

/-- How the write into the register ends. -/
inductive Write where
  | extended
  | notExtended
  /-- The register is extended, and the hook learns of an error. -/
  | extendedWithError

/-- A container for which the hook is called. -/
structure Container where
  around : Surroundings
  write : Write

structure State where
  rtmr3 : Block 48
  /-- Containers whose hook has ended well, in any order. -/
  created : List Container
  started : List Container

inductive Action where
  | callHook (container : Container)
  | start (index : Nat)

/-- No container yet, behind a boot that leaves the register so. -/
def behindBoot (rtmr3 : Block 48) : State where
  rtmr3 := rtmr3
  created := []
  started := []

def initial : State :=
  behindBoot (Block.zero 48)

section

variable (fromStr : String → Except String Value)
variable (sha384 : Bytes → Block 48)

/-- The hook and its write; a container starts only behind a hook without error. -/
def callHook (state : State) (container : Container) : State :=
  match hook fromStr sha384 container.around with
  | .error _ => state
  | .ok none => { state with created := state.created ++ [container] }
  | .ok (some event) =>
      let extended := rtmrExtend sha384 state.rtmr3 event.bytes
      match container.write with
      | .extended =>
          { state with
            rtmr3 := extended
            created := state.created ++ [container] }
      | .notExtended => state
      | .extendedWithError => { state with rtmr3 := extended }

def step (state : State) : Action → Option State
  | .callHook container => some (callHook fromStr sha384 state container)
  | .start index =>
      state.created[index]?.map fun container =>
        { state with
          created := state.created.eraseIdx index
          started := state.started ++ [container] }

end

/-! ## Images -/

section

variable (fromStr : String → Except String Value)

/-- An annotation of the container as text, if they can be read. -/
def Container.annotationText (container : Container) (key : String) :
    Option String :=
  (readAnnotations fromStr container.around).toOption.bind fun annotations =>
    (annotations.get key).bind Value.asStr

/-- A container that declares itself a workload. -/
def Container.IsWorkload (container : Container) : Prop :=
  container.annotationText fromStr "io.kubernetes.cri.container-type" =
    some "container"

instance (container : Container) :
    Decidable (container.IsWorkload fromStr) :=
  inferInstanceAs (Decidable (_ = _))

/-- The image of a workload in its canonical form. -/
def Container.image (container : Container) : Option String :=
  if container.IsWorkload fromStr then
    (container.annotationText fromStr "io.kubernetes.cri.image-name").bind
      fun image => (canonicalImageDigest image).toOption
  else
    none

/-- The image by which an action extends the register. -/
def Action.measured : Action → Option String
  | callHook container =>
      match container.write with
      | .notExtended => none
      | .extended | .extendedWithError => container.image fromStr
  | start _ => none

/-- The images that extend the register in a run, in order. -/
def measuredImages (actions : List Action) : List String :=
  actions.filterMap (Action.measured fromStr)

end

section

variable {fromStr : String → Except String Value}
variable {sha384 : Bytes → Block 48}

theorem Container.annotationText_of_ok
    {container : Container} {annotations : Value}
    (read : readAnnotations fromStr container.around = .ok annotations)
    (key : String) :
    container.annotationText fromStr key =
      (annotations.get key).bind Value.asStr := by
  rw [Container.annotationText, read]
  rfl

theorem Container.image_of_not_isWorkload
    {container : Container} (other : ¬ container.IsWorkload fromStr) :
    container.image fromStr = none :=
  if_neg other

theorem Container.image_of_isWorkload
    {container : Container} (workload : container.IsWorkload fromStr) :
    container.image fromStr =
      (container.annotationText fromStr "io.kubernetes.cri.image-name").bind
        fun image => (canonicalImageDigest image).toOption :=
  if_pos workload

/-- An image is the canonical form of a reference. -/
theorem Container.canonical_of_image
    {container : Container} {image : String}
    (ofContainer : container.image fromStr = some image) :
    ∃ reference, canonicalImageDigest reference = .ok image := by
  rw [Container.image] at ofContainer
  split at ofContainer
  · rcases Option.bind_eq_some_iff.1 ofContainer with
      ⟨reference, -, accepted⟩
    refine ⟨reference, ?_⟩
    cases canonical : canonicalImageDigest reference with
    | error problem =>
        rw [canonical] at accepted
        cases accepted
    | ok found =>
        rw [canonical] at accepted
        cases accepted
        rfl
  · cases ofContainer

/-- A workload is measured by its image, or the hook fails. -/
theorem eventOf_workload
    {annotations : Value} {name : Option String}
    (declared :
      (annotations.get "io.kubernetes.cri.container-type").bind Value.asStr =
        some "container")
    (named :
      (annotations.get "io.kubernetes.cri.image-name").bind Value.asStr =
        name) :
    (∃ problem,
        eventOf sha384 annotations = .error problem ∧
          (name.bind fun image => (canonicalImageDigest image).toOption) =
            none) ∨
      ∃ image,
        eventOf sha384 annotations = .ok (some (sha384 (utf8Bytes image))) ∧
          (name.bind fun image => (canonicalImageDigest image).toOption) =
            some image := by
  rw [eventOf]
  dsimp only
  rw [if_neg (not_not.2 declared), named]
  cases name with
  | none => exact Or.inl ⟨_, rfl, rfl⟩
  | some reference =>
      rw [Option.bind_some]
      change
        (∃ problem, (workloadEventDigest sha384 reference >>= _) = _ ∧ _) ∨
          ∃ image, (workloadEventDigest sha384 reference >>= _) = _ ∧ _
      cases hooked : workloadEventDigest sha384 reference with
      | error problem =>
          left
          refine ⟨problem, rfl, ?_⟩
          cases canonical : canonicalImageDigest reference with
          | error other => rfl
          | ok image =>
              rw [(workloadEventDigest_eq_ok_iff sha384).2
                ⟨image, canonical, rfl⟩] at hooked
              cases hooked
      | ok event =>
          right
          rcases (workloadEventDigest_eq_ok_iff sha384).1 hooked with
            ⟨image, canonical, rfl⟩
          refine ⟨image, rfl, ?_⟩
          rw [canonical]
          rfl

variable (fromStr sha384) in
/-- The hook fails, or lets a container through, or measures a workload. -/
theorem hook_cases (container : Container) :
    (∃ problem,
        hook fromStr sha384 container.around = .error problem ∧
          container.image fromStr = none) ∨
      (hook fromStr sha384 container.around = .ok none ∧
          ¬ container.IsWorkload fromStr) ∨
        ∃ image,
          hook fromStr sha384 container.around =
              .ok (some (sha384 (utf8Bytes image))) ∧
            container.image fromStr = some image := by
  cases read : readAnnotations fromStr container.around with
  | error problem =>
      have other : ¬ container.IsWorkload fromStr := by
        rw [Container.IsWorkload, Container.annotationText, read]
        intro impossible
        cases impossible
      refine
        Or.inl ⟨problem, ?_, Container.image_of_not_isWorkload other⟩
      rw [hook, read]
      rfl
  | ok annotations =>
      have hooked :
          hook fromStr sha384 container.around =
            eventOf sha384 annotations := by
        rw [hook, read]
        rfl
      have text := Container.annotationText_of_ok read
      rw [hooked]
      by_cases workload : container.IsWorkload fromStr
      · rw [Container.image_of_isWorkload workload]
        rcases
          eventOf_workload ((text _).symm.trans workload)
            (text _).symm with
          failed | measured
        · exact Or.inl failed
        · exact Or.inr (Or.inr measured)
      · refine Or.inr (Or.inl ⟨?_, workload⟩)
        exact if_pos fun same => workload ((text _).trans same)

/-! ## Runs -/

section

variable (fromStr sha384)

/-- What holds of the register and the containers behind the measured images. -/
structure Accounted
    (booted : Block 48) (images : List String) (rtmr3 : Block 48)
    (containers : List Container) : Prop where
  register :
    rtmr3 = register sha384 extendMessage booted (images.map utf8Bytes)
  counted :
    List.Subperm (containers.filterMap (Container.image fromStr)) images
  measured :
    ∀ container ∈ containers,
      container.IsWorkload fromStr →
        (container.image fromStr).isSome = true

end

namespace Accounted

variable
    {booted rtmr3 : Block 48} {images : List String}
    {containers : List Container} {container : Container} {image : String}

theorem nil : Accounted fromStr sha384 booted [] booted [] where
  register := rfl
  counted := List.Subperm.refl []
  measured _ member := absurd member List.not_mem_nil

/-- The order of the containers does not count. -/
theorem perm
    (accounted : Accounted fromStr sha384 booted images rtmr3 containers)
    {others : List Container} (same : List.Perm others containers) :
    Accounted fromStr sha384 booted images rtmr3 others where
  register := accounted.register
  counted := (same.filterMap _).subperm.trans accounted.counted
  measured other member := accounted.measured other (same.mem_iff.1 member)

/-- The register is extended, and no container is let through. -/
theorem extend
    (accounted : Accounted fromStr sha384 booted images rtmr3 containers)
    (image : String) :
    Accounted fromStr sha384 booted (images ++ [image])
      (rtmrExtend sha384 rtmr3 (sha384 (utf8Bytes image)).bytes)
      containers where
  register := by
    rw [List.map_append, List.map_singleton, register_concat,
      ← accounted.register]
    rfl
  counted :=
    accounted.counted.trans (List.sublist_append_left images _).subperm
  measured := accounted.measured

/-- A container that is no workload is let through. -/
theorem cons_other
    (accounted : Accounted fromStr sha384 booted images rtmr3 containers)
    (other : ¬ container.IsWorkload fromStr) :
    Accounted fromStr sha384 booted images rtmr3 (container :: containers) where
  register := accounted.register
  counted := by
    rw [List.filterMap_cons_none (Container.image_of_not_isWorkload other)]
    exact accounted.counted
  measured :=
    List.forall_mem_cons.2
      ⟨fun workload => absurd workload other, accounted.measured⟩

/-- A workload is let through behind the extension by its image. -/
theorem cons
    (accounted : Accounted fromStr sha384 booted images rtmr3 containers)
    (ofContainer : container.image fromStr = some image) :
    Accounted fromStr sha384 booted (images ++ [image])
      (rtmrExtend sha384 rtmr3 (sha384 (utf8Bytes image)).bytes)
      (container :: containers) where
  register := (accounted.extend image).register
  counted := by
    rw [List.filterMap_cons_some ofContainer]
    exact
      ((List.subperm_cons image).2 accounted.counted).trans
        (List.perm_append_singleton image images).symm.subperm
  measured := by
    refine List.forall_mem_cons.2 ⟨fun _ => ?_, accounted.measured⟩
    rw [ofContainer]
    rfl

end Accounted

def State.containers (state : State) : List Container :=
  state.created ++ state.started

/-- The containers that are let through, with one more behind the created ones. -/
theorem perm_create (created started : List Container) (container : Container) :
    List.Perm (created ++ [container] ++ started)
      (container :: (created ++ started)) :=
  (List.perm_append_singleton container created).append_right started

/-- No workload is started but from the measured images. -/
theorem Accounted.started
    {booted : Block 48} {images : List String} {state : State}
    (accounted :
      Accounted fromStr sha384 booted images state.rtmr3 state.containers) :
    List.Subperm (state.started.filterMap (Container.image fromStr)) images ∧
      ∀ container ∈ state.started,
        container.IsWorkload fromStr →
          ∃ image ∈ images, container.image fromStr = some image := by
  have behind := List.sublist_append_right state.created state.started
  have counted := (behind.filterMap (Container.image fromStr)).subperm.trans
    accounted.counted
  refine ⟨counted, ?_⟩
  intro container started workload
  rcases
    Option.isSome_iff_exists.1
      (accounted.measured container (behind.subset started) workload) with
    ⟨image, ofContainer⟩
  exact
    ⟨image,
      counted.subset
        (List.mem_filterMap.2 ⟨container, started, ofContainer⟩),
      ofContainer⟩

theorem measured_callHook_of_none
    {container : Container} (noImage : container.image fromStr = none) :
    (Action.callHook container).measured fromStr = none := by
  rw [Action.measured, noImage]
  cases container.write <;> rfl

theorem measuredImages_concat_none
    {taken : List Action} {action : Action}
    (unmeasured : action.measured fromStr = none) :
    measuredImages fromStr (taken ++ [action]) =
      measuredImages fromStr taken := by
  rw [measuredImages, List.filterMap_append,
    List.filterMap_cons_none unmeasured, List.filterMap_nil, List.append_nil]
  rfl

theorem measuredImages_concat_some
    {taken : List Action} {action : Action} {image : String}
    (measured : action.measured fromStr = some image) :
    measuredImages fromStr (taken ++ [action]) =
      measuredImages fromStr taken ++ [image] := by
  rw [measuredImages, List.filterMap_append,
    List.filterMap_cons_some measured, List.filterMap_nil]
  rfl

theorem canonical_of_mem_measuredImages
    {actions : List Action} {image : String}
    (measured : image ∈ measuredImages fromStr actions) :
    ∃ reference, canonicalImageDigest reference = .ok image := by
  rcases List.mem_filterMap.1 measured with ⟨action, -, byAction⟩
  cases action with
  | callHook container =>
      rw [Action.measured] at byAction
      split at byAction
      · cases byAction
      · exact Container.canonical_of_image byAction
      · exact Container.canonical_of_image byAction
  | start index => cases byAction

/-- One call of the hook: the register and the containers stay in step. -/
theorem accounted_callHook
    {booted : Block 48} {taken : List Action} {state : State}
    (container : Container)
    (accounted :
      Accounted fromStr sha384 booted (measuredImages fromStr taken)
        state.rtmr3 state.containers) :
    Accounted fromStr sha384 booted
      (measuredImages fromStr (taken ++ [.callHook container]))
      (callHook fromStr sha384 state container).rtmr3
      (callHook fromStr sha384 state container).containers := by
  rcases hook_cases fromStr sha384 container with
    ⟨problem, failed, noImage⟩ | ⟨passed, other⟩ |
      ⟨image, measured, ofContainer⟩
  · rw [measuredImages_concat_none (measured_callHook_of_none noImage),
      callHook, failed]
    exact accounted
  · rw [measuredImages_concat_none
      (measured_callHook_of_none (Container.image_of_not_isWorkload other)),
      callHook, passed]
    exact (accounted.cons_other other).perm (perm_create _ _ _)
  · rw [callHook, measured]
    have imageOf : (Action.callHook container).measured fromStr =
        match container.write with
        | .notExtended => none
        | .extended | .extendedWithError => some image := by
      rw [Action.measured, ofContainer]
    cases write : container.write with
    | extended =>
        rw [write] at imageOf
        rw [measuredImages_concat_some imageOf]
        exact (accounted.cons ofContainer).perm (perm_create _ _ _)
    | notExtended =>
        rw [write] at imageOf
        rw [measuredImages_concat_none imageOf]
        exact accounted
    | extendedWithError =>
        rw [write] at imageOf
        rw [measuredImages_concat_some imageOf]
        exact accounted.extend image

/-- A start moves a container from one list to the other. -/
theorem perm_start
    {created started : List Container} {container : Container} {index : Nat}
    (found : created[index]? = some container) :
    List.Perm (created.eraseIdx index ++ (started ++ [container]))
      (created ++ started) := by
  rcases List.getElem?_eq_some_iff.1 found with ⟨inside, rfl⟩
  calc
    _ = created.eraseIdx index ++ started ++ [created[index]] :=
      (List.append_assoc _ _ _).symm
    List.Perm _ (created[index] :: (created.eraseIdx index ++ started)) :=
      List.perm_append_singleton _ _
    List.Perm _ (created ++ started) :=
      (List.getElem_cons_eraseIdx_perm inside).append_right started

/-- One step: the register and the containers stay in step. -/
theorem accounted_step
    {booted : Block 48} {taken : List Action} {action : Action}
    {before after : State}
    (accounted :
      Accounted fromStr sha384 booted (measuredImages fromStr taken)
        before.rtmr3 before.containers)
    (stepped : step fromStr sha384 before action = some after) :
    Accounted fromStr sha384 booted
      (measuredImages fromStr (taken ++ [action])) after.rtmr3
      after.containers := by
  cases action with
  | callHook container =>
      cases stepped
      exact accounted_callHook container accounted
  | start index =>
      rcases Option.map_eq_some_iff.1 stepped with ⟨container, found, rfl⟩
      rw [measuredImages_concat_none rfl]
      exact accounted.perm (perm_start found)

/-- Behind every run the register and the containers are in step. -/
theorem accounted_run
    {booted : Block 48} {actions : List Action} {state : State}
    (ran :
      run (step fromStr sha384) (behindBoot booted) actions = some state) :
    Accounted fromStr sha384 booted (measuredImages fromStr actions)
      state.rtmr3 state.containers :=
  run_history_invariant
    (fun taken state =>
      Accounted fromStr sha384 booted (measuredImages fromStr taken)
        state.rtmr3 state.containers)
    Accounted.nil
    (fun _ _ _ _ _ accounted stepped => accounted_step accounted stepped) ran

theorem computeRtmr3Workloads_eq (images : List String) :
    computeRtmr3Workloads sha384 images =
      register sha384 extendMessage (Block.zero 48) (images.map utf8Bytes) := by
  rw [← measureLog_map, List.map_map]
  rfl

theorem cmdRtmr3_eq_ok
    {digests : List String} {text : String} {images : List String}
    (predicted : cmdRtmr3 sha384 digests = .ok (text, images)) :
    digests.mapM canonicalImageDigest = .ok images ∧
      text = hexEncode (computeRtmr3Workloads sha384 images).bytes := by
  rcases bind_eq_ok.1 predicted with ⟨canonical, accepted, returned⟩
  cases returned
  exact ⟨accepted, rfl⟩

variable (sha384) in
/-- Everything hashed on the way to RTMR[3] behind some images. -/
def imageMessages (images : List String) : List Bytes :=
  logMessages sha384 extendMessage (Block.zero 48) (images.map utf8Bytes)

/--
Where the register is the predicted one, the predicted images were measured in
this order, and no workload runs but from them.
-/
theorem started_of_predicted
    {actions : List Action} {state : State}
    {digests images : List String}
    (ran : run (step fromStr sha384) initial actions = some state)
    (predicted :
      cmdRtmr3 sha384 digests = .ok (hexEncode state.rtmr3.bytes, images))
    (apart :
      TellsApart sha384 (Block.zero 48)
        {message |
          message ∈ imageMessages sha384 (measuredImages fromStr actions) ∨
            message ∈ imageMessages sha384 images}) :
    measuredImages fromStr actions = images ∧
      List.Subperm (state.started.filterMap (Container.image fromStr))
        images ∧
        ∀ container ∈ state.started,
          container.IsWorkload fromStr →
            ∃ image ∈ images, container.image fromStr = some image := by
  have accounted := accounted_run ran
  rcases cmdRtmr3_eq_ok predicted with ⟨-, same⟩
  have registers := Block.ext (hexEncode_injective same)
  rw [computeRtmr3Workloads_eq, accounted.register] at registers
  have messages :
      (measuredImages fromStr actions).map utf8Bytes =
        images.map utf8Bytes :=
    apart.register_injOn extendMessage_injective
      (fun _ member => Or.inl member) (fun _ member => Or.inr member) registers
  have measured : measuredImages fromStr actions = images :=
    List.map_injective_iff.2 utf8Bytes_injective messages
  exact ⟨measured, measured ▸ accounted.started⟩

end

/-! ## A pod of two containers -/

def sampleDigest : String := "sha256:" ++ String.ofList (List.replicate 64 'a')

/-- A state whose annotations declare a container of some type. -/
def sampleState (containerType : String) : Value :=
  .object
    [("annotations",
      .object
        [("io.kubernetes.cri.container-type", .string containerType),
          ("io.kubernetes.cri.image-name", .string ("app@" ++ sampleDigest))])]

def sampleText (containerType : String) : String :=
  "\x7b\"annotations\":\x7b\"io.kubernetes.cri.container-type\":\"" ++
    containerType ++ "\",\"io.kubernetes.cri.image-name\":\"app@" ++
      sampleDigest ++ "\"\x7d\x7d"

/-- The parser on the states of these containers. -/
def sampleFromStr (text : String) : Except String Value :=
  if text = sampleText "container" then
    .ok (sampleState "container")
  else if text = sampleText "sandbox" then
    .ok (sampleState "sandbox")
  else
    .error "expected value at line 1 column 1"

def sampleContainer (containerType : String) (write : Write) : Container where
  around :=
    { stdin := .ok (sampleText containerType)
      readToString := fun _ => .error "No such file or directory" }
  write := write

/-- The sandbox starts in between, and one extension is reported as failed. -/
def sampleActions : List Action :=
  [.callHook (sampleContainer "sandbox" .notExtended),
    .callHook (sampleContainer "container" .extendedWithError),
    .start 0,
    .callHook (sampleContainer "container" .extended),
    .start 0]

theorem started_of_predicted_sample :
    ∃ state,
      run (step sampleFromStr countBytes) initial sampleActions = some state ∧
        state.started.length = 2 ∧
          measuredImages sampleFromStr sampleActions =
              [sampleDigest, sampleDigest] ∧
            ∀ container ∈ state.started,
              container.IsWorkload sampleFromStr →
                ∃ image ∈ [sampleDigest, sampleDigest],
                  container.image sampleFromStr = some image := by
  have ends :
      (run (step sampleFromStr countBytes) initial sampleActions).map
          (fun state => (state.started.length, state.rtmr3)) =
        some
          (2, computeRtmr3Workloads countBytes [sampleDigest, sampleDigest]) := by
    decide +kernel
  rcases Option.map_eq_some_iff.1 ends with ⟨state, ran, same⟩
  rcases Prod.mk.inj same with ⟨both, register⟩
  have predicted :
      cmdRtmr3 countBytes ["app@" ++ sampleDigest, sampleDigest] =
        .ok
          (hexEncode state.rtmr3.bytes, [sampleDigest, sampleDigest]) := by
    rw [register]
    decide +kernel
  have result :=
    started_of_predicted ran predicted
      (tellsApart_of_forall (by decide +kernel))
  exact ⟨state, ran, both, result.1, result.2.2⟩

end Confos.Tdx.WorkloadHook
