import Confos.Apt.VerifyCache
import Confos.Library.Fallible

/-!
# The files of a checked cache

A list is kept where a signed release gives its digest, and an archive where
an index of a pinned component does.  Every step deletes and reads only, so
what one step has checked stays checked until the end.
-/

namespace Confos.Apt.VouchedCache

open Confos.Apt.VerifyCache
open Confos.Library
open Confos.Library.ByteStrings
open Confos.Library.Effects
open Confos.Library.FileTrees
open Confos.Library.FileTrees.Tree

/-! ## What is vouched for -/

section

variable (tools : Tools) (arch : String) (sources : List (Name × List Source))

/-- A signed release of a source that is pinned for an image. -/
structure IsRelease (image : Name) (source : Source) (raw : Bytes)
    (hashes : List (String × String)) : Prop where
  pinned : ∃ pinned ∈ sources, pinned.1 = image ∧ source ∈ pinned.2
  fetched :
    tools.fetchAny source.bases (source.dists ++ "/InRelease") = some raw
  signed : signedRelease tools raw = .ok hashes

/-- A release of the image gives a list this digest, or is the list. -/
def GivesDigest (image : Name) (name digest : String) : Prop :=
  ∃ source raw hashes,
    IsRelease tools sources image source raw hashes ∧
      (name = source.listName "InRelease" ∧ digest = tools.sha256 raw ∨
        ∃ path, (path, digest) ∈ hashes ∧ name = source.listName path)

/-- A Packages index of a component that is pinned for an image. -/
def IsIndex (image : Name) (index : Bytes) : Prop :=
  ∃ source raw hashes component,
    IsRelease tools sources image source raw hashes ∧
      component ∈ source.components ∧
        (GivesDigest tools sources image
            (source.listName (packagesPath arch component))
            (tools.sha256 index) ∨
          ∃ compressed,
            (packagesPath arch component ++ ".xz", tools.sha256 compressed) ∈
                hashes ∧
              tools.decompress compressed = some index)

def IsDeb (name : String) : Prop :=
  ".deb".toList <:+ name.toList

/-- An archive file that a pinned index has the name and the digest of. -/
def Vouches (name digest : String) : Prop :=
  IsDeb name ∧
    ∃ image index debs,
      IsIndex tools arch sources image index ∧
        debsIn index = .ok debs ∧ (name, digest) ∈ debs

end

section

variable (links : Nat) (tools : Tools)

end

/-! ## Releases -/

section

variable {κ α : Type}

theorem mem_of_lookup
    [BEq κ] [LawfulBEq κ] {dict : List (κ × α)} {key : κ} {value : α}
    (found : dict.lookup key = some value) : (key, value) ∈ dict := by
  rcases List.lookup_eq_some_iff.1 found with ⟨front, back, rfl, -⟩
  exact List.mem_append_right front List.mem_cons_self

theorem mem_setItem
    [DecidableEq κ] {dict : List (κ × α)} {key : κ} {value : α}
    {item : κ × α}
    (member : item ∈ setItem dict key value) :
    item = (key, value) ∨ item ∈ dict := by
  rw [setItem] at member
  split at member
  · rcases List.mem_map.1 member with ⟨old, inside, same⟩
    split at same
    · exact Or.inl same.symm
    · exact Or.inr (same ▸ inside)
  · simpa [or_comm] using member

end

section

variable {tools : Tools} {arch : String} {sources : List (Name × List Source)}

/-- An index that is to be fetched is one of a pinned component. -/
structure IsPinned (tools : Tools) (arch : String)
    (sources : List (Name × List Source)) (package : Package) : Prop where
  release :
    ∃ source raw hashes component,
      IsRelease tools sources package.image source raw hashes ∧
        component ∈ source.components ∧
          package.name = source.listName (packagesPath arch component) ∧
            (packagesPath arch component ++ ".xz", package.digest) ∈ hashes

def AllPinned (tools : Tools) (arch : String)
    (sources : List (Name × List Source)) (packages : List Package) : Prop :=
  ∀ package ∈ packages, IsPinned tools arch sources package

def AllGiven (tools : Tools) (sources : List (Name × List Source))
    (image : Name) (lists : List (String × String)) : Prop :=
  ∀ item ∈ lists, GivesDigest tools sources image item.1 item.2

/-- What is expected is what the releases say. -/
structure IsTrue (tools : Tools) (arch : String)
    (sources : List (Name × List Source)) (expected : Expected) : Prop where
  known : ∀ entry ∈ expected.known, AllGiven tools sources entry.1 entry.2
  packages : AllPinned tools arch sources expected.packages

theorem IsTrue.of
    {expected : Expected} (isTrue : IsTrue tools arch sources expected)
    (image : Name) : AllGiven tools sources image (expected.of image) := by
  rw [Expected.of]
  cases found : expected.known.lookup image with
  | none => exact fun _ member => absurd member List.not_mem_nil
  | some lists => exact isTrue.known (image, lists) (mem_of_lookup found)

end

/-! ## What every step keeps -/

section

variable {α : Type} {links : Nat} {tools : Tools} {expected : Expected}
  {world after : World}

/-- The lists that have been verified have the digests that are expected. -/
def ListsTrue (links : Nat) (tools : Tools) (expected : Expected)
    (world : World) : Prop :=
  ∀ item ∈ world.lists, ∀ content,
    world.tree.readBytes links item.2 = some content →
      (item.1.2, tools.sha256 content) ∈ expected.of item.1.1

/-- Nothing but deletions since, and the verified lists are still right. -/
structure Kept (links : Nat) (tools : Tools) (expected : Expected)
    (restored : Tree) (world : World) : Prop where
  shrinks : Shrinks restored world.tree
  lists : ListsTrue links tools expected world

theorem Kept.delete
    {restored tree : Tree} (kept : Kept links tools expected restored world)
    (shrinks : Shrinks world.tree tree) :
    Kept links tools expected restored { world with tree } :=
  ⟨kept.shrinks.trans shrinks,
    fun item member content read =>
      kept.lists item member content (shrinks.readBytes read)⟩

variable {restored : Tree}

end

/-! ## What a step settles -/

section

variable {links : Nat} {tools : Tools} {expected : Expected}
  {world after : World} {tree left : Tree} {path : Path}

/-- A program that deletes and reads only. -/
def IsCareful (links : Nat) (tools : Tools) (expected : Expected) {α : Type}
    (program : Program α) : Prop :=
  ∀ restored, Preserves (Kept links tools expected restored) program

theorem IsCareful.kept
    {α : Type} {program : Program α} {value : α}
    (careful : IsCareful links tools expected program)
    (lists : ListsTrue links tools expected world)
    (ran : program world = .ok value after) :
    Kept links tools expected world.tree after :=
  (careful world.tree).of_ok ran ⟨shrinks_refl world.tree, lists⟩

variable {root : Path} {arch : String} {sources : List (Name × List Source)}

end

end Confos.Apt.VouchedCache
