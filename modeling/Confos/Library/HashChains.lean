import Mathlib.Data.Set.Function
import Mathlib.Logic.Function.Basic
import Mathlib.Data.List.Induction

/-!
# Hash chains

A measurement register is extended by hashing its old value together with the
measured item.  This module treats such a chain over an arbitrary hash and an
arbitrary message format.  If the format can be read back and the hash does not
collide on the messages of the two chains, then equal final values mean equal
item sequences, provided no message of either chain hashes to the start value.
-/

namespace Confos.Library.HashChains

variable {Message Digest Item : Type*}
variable (hash : Message → Digest)
variable (message : Digest → Item → Message)

/-- The value after extending `start` with every item in order. -/
def chain (start : Digest) (items : List Item) : Digest :=
  items.foldl (fun current item => hash (message current item)) start

/-- The messages hashed along the chain, in order. -/
def chainMessages (start : Digest) : List Item → List Message
  | [] => []
  | item :: rest =>
      message start item ::
        chainMessages (hash (message start item)) rest

@[simp]
theorem chain_nil (start : Digest) :
    chain hash message start [] = start :=
  rfl

@[simp]
theorem chain_cons (start : Digest) (item : Item) (rest : List Item) :
    chain hash message start (item :: rest) =
      chain hash message (hash (message start item)) rest :=
  rfl

@[simp]
theorem chain_concat (start : Digest) (items : List Item) (item : Item) :
    chain hash message start (items ++ [item]) =
      hash (message (chain hash message start items) item) := by
  simp [chain]

theorem chainMessages_append
    (start : Digest) (first second : List Item) :
    chainMessages hash message start (first ++ second) =
      chainMessages hash message start first ++
        chainMessages hash message
          (chain hash message start first) second := by
  induction first generalizing start with
  | nil => rfl
  | cons item rest induction =>
      simp [chainMessages, induction]

@[simp]
theorem chainMessages_concat
    (start : Digest) (items : List Item) (item : Item) :
    chainMessages hash message start (items ++ [item]) =
      chainMessages hash message start items ++
        [message (chain hash message start items) item] := by
  rw [chainMessages_append]
  rfl

variable {hash message}

/-- Equal digests come from equal messages where the hash does not collide. -/
theorem eq_of_map_hash_eq
    {left right : List Message}
    (noCollision :
      Set.InjOn hash {hashed | hashed ∈ left ∨ hashed ∈ right})
    (equal : left.map hash = right.map hash) : left = right := by
  induction left generalizing right with
  | nil => exact (List.map_eq_nil_iff.1 equal.symm).symm
  | cons first left induction =>
      cases right with
      | nil => cases equal
      | cons other right =>
          injection equal with sameDigest sameRest
          have sameFirst : first = other :=
            noCollision (Or.inl List.mem_cons_self)
              (Or.inr List.mem_cons_self) sameDigest
          have rest : left = right := by
            refine induction (noCollision.mono ?_) sameRest
            rintro hashed (inLeft | inRight)
            · exact Or.inl (List.mem_cons_of_mem _ inLeft)
            · exact Or.inr (List.mem_cons_of_mem _ inRight)
          rw [sameFirst, rest]

/-- A chain whose messages never hash to the start value returns to it only empty. -/
theorem chain_eq_start_iff
    {start : Digest} {items : List Item}
    (noStart :
      ∀ hashed ∈ chainMessages hash message start items,
        hash hashed ≠ start) :
    chain hash message start items = start ↔ items = [] := by
  constructor
  · intro returned
    cases items using List.reverseRecOn with
    | nil => rfl
    | append_singleton items item =>
        rw [chain_concat] at returned
        exact (noStart _ (by simp) returned).elim
  · rintro rfl
    rfl

/--
Equal ends of two chains come from equal item sequences: the last messages are
equal because the hash does not collide on them, and each message tells its
item and the value before it.
-/
theorem chain_injective
    {start : Digest} {left right : List Item}
    (readable : Function.Injective2 message)
    (noCollision :
      Set.InjOn hash
        {hashed |
          hashed ∈ chainMessages hash message start left ∨
            hashed ∈ chainMessages hash message start right})
    (leftNoStart :
      ∀ hashed ∈ chainMessages hash message start left,
        hash hashed ≠ start)
    (rightNoStart :
      ∀ hashed ∈ chainMessages hash message start right,
        hash hashed ≠ start)
    (equal :
      chain hash message start left = chain hash message start right) :
    left = right := by
  induction left using List.reverseRecOn generalizing right with
  | nil =>
      exact ((chain_eq_start_iff rightNoStart).1 equal.symm).symm
  | append_singleton left leftLast induction =>
      cases right using List.reverseRecOn with
      | nil =>
          exact (chain_eq_start_iff leftNoStart).1 equal
      | append_singleton right rightLast =>
          simp only [chain_concat] at equal
          have messagesEqual :=
            noCollision
              (show _ ∈ _ from Or.inl (by simp))
              (show _ ∈ _ from Or.inr (by simp))
              equal
          obtain ⟨before, lastEqual⟩ := readable messagesEqual
          have restEqual : left = right := by
            refine induction ?_ ?_ ?_ before
            · refine noCollision.mono ?_
              rintro hashed (inLeft | inRight)
              · exact Or.inl (by simp [inLeft])
              · exact Or.inr (by simp [inRight])
            · intro hashed member
              exact leftNoStart hashed (by simp [member])
            · intro hashed member
              exact rightNoStart hashed (by simp [member])
          rw [restEqual, lastEqual]

/-! ## Logs of hashed events -/

section

variable (hash : Message → Digest) (extend : Digest → Digest → Message)

/-- The value of a register behind a log of events, each one hashed first. -/
def register (start : Digest) (events : List Message) : Digest :=
  chain hash extend start (events.map hash)

/-- Everything hashed for a register: its events and its extends. -/
def logMessages (start : Digest) (events : List Message) : List Message :=
  events ++ chainMessages hash extend start (events.map hash)

/-- A hash that does not collide on some messages, and takes none of them to
the start value. -/
structure TellsApart (start : Digest) (known : Set Message) : Prop where
  injOn : Set.InjOn hash known
  leaves : ∀ hashed ∈ known, hash hashed ≠ start

end

section

variable {hash : Message → Digest} {extend : Digest → Digest → Message}
variable {start : Digest} {known : Set Message}

theorem register_concat (events : List Message) (event : Message) :
    register hash extend start (events ++ [event]) =
      hash (extend (register hash extend start events) (hash event)) := by
  rw [register, List.map_append, List.map_singleton, chain_concat]
  rfl

/-- A log is behind another one as if the register had started there. -/
theorem register_append (first second : List Message) :
    register hash extend start (first ++ second) =
      register hash extend (register hash extend start first) second := by
  rw [register, List.map_append, chain, List.foldl_append]
  rfl

/-- On finitely many messages it can be tried out. -/
theorem tellsApart_of_forall
    {first second : List Message}
    (each :
      ∀ left ∈ first ++ second,
        hash left ≠ start ∧
          ∀ right ∈ first ++ second, hash left = hash right → left = right) :
    TellsApart hash start {hashed | hashed ∈ first ∨ hashed ∈ second} where
  injOn := by
    intro left inLeft right inRight
    exact
      (each left (List.mem_append.2 inLeft)).2 right (List.mem_append.2 inRight)
  leaves hashed member := (each hashed (List.mem_append.2 member)).1

/-- Registers tell their logs, where the hash tells apart what they hash. -/
theorem TellsApart.register_injOn
    (apart : TellsApart hash start known)
    (readable : Function.Injective2 extend)
    {left right : List Message}
    (leftKnown : ∀ hashed ∈ logMessages hash extend start left, hashed ∈ known)
    (rightKnown :
      ∀ hashed ∈ logMessages hash extend start right, hashed ∈ known)
    (equal :
      register hash extend start left = register hash extend start right) :
    left = right := by
  have leftExtends :
      ∀ hashed ∈ chainMessages hash extend start (left.map hash),
        hashed ∈ known :=
    fun hashed member => leftKnown hashed (List.mem_append_right _ member)
  have rightExtends :
      ∀ hashed ∈ chainMessages hash extend start (right.map hash),
        hashed ∈ known :=
    fun hashed member => rightKnown hashed (List.mem_append_right _ member)
  have sameDigests : left.map hash = right.map hash := by
    refine
      chain_injective readable (apart.injOn.mono ?_)
        (fun hashed member => apart.leaves hashed (leftExtends hashed member))
        (fun hashed member => apart.leaves hashed (rightExtends hashed member))
        equal
    rintro hashed (inLeft | inRight)
    · exact leftExtends hashed inLeft
    · exact rightExtends hashed inRight
  refine eq_of_map_hash_eq (apart.injOn.mono ?_) sameDigests
  rintro hashed (inLeft | inRight)
  · exact leftKnown hashed (List.mem_append_left _ inLeft)
  · exact rightKnown hashed (List.mem_append_left _ inRight)

end

end Confos.Library.HashChains
