import Confos.Apt.VouchedFiles

/-!
# What is left of a restored cache

A run that succeeds leaves archives and lists that a signed release of a
pinned source vouches for.  Where a signature or an index is bad, it has to
leave nothing; a link in the place of the package cache stays, and with it
everything that it leads to.
-/

namespace Confos.Apt.VouchedCache

open Confos.Apt.VerifyCache
open Confos.Library
open Confos.Library.ByteStrings
open Confos.Library.Effects
open Confos.Library.FileTrees
open Confos.Library.FileTrees.Tree

/-! ## The promise -/

section

variable (links : Nat) (root : Path) (tools : Tools) (arch : String)
  (sources : List (Name × List Source))

end

/-! ## Metadata caches -/

section

variable {links : Nat} {root : Path} {tree left : Tree}

theorem mem_listed
    (shrinks : Shrinks tree left) {directory : Path} {name : Name}
    (member : name ∈ (left.listdir links directory).getD []) :
    name ∈ (tree.listdir links directory).getD [] := by
  cases listed : left.listdir links directory with
  | none =>
      rw [listed] at member
      cases member
  | some names =>
      rw [listed] at member
      rcases shrinks.listdir listed with ⟨before, listedBefore, among⟩
      rw [listedBefore]
      exact among name member

end

/-! ## The whole run -/

section

variable {links : Nat} {root : Path} {tools : Tools} {arch : String}
  {sources : List (Name × List Source)} {world after : World} {tree : Tree}

end

/-! ## A linked package cache -/

end Confos.Apt.VouchedCache
