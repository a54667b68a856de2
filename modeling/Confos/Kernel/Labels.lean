import Confos.Kernel.Cache

/-!
# What a kernel build records of its inputs

The inputs of a build are hashed before its steps read them and once more at
its end, while someone may change them at any time.  The hashes that the
manifest records are those of the bytes that the steps have read exactly if no
edit is undone in between: no input reads the same at both ends and otherwise
when it is used.
-/

namespace Confos.Kernel.Labels

open Confos.Library.ByteStrings
open Confos.Library.Effects
open Confos.Kernel.Version
open Confos.Kernel.Worktree
open Confos.Kernel.Command
open Confos.Kernel.Readings
open Confos.Kernel.Cache
  (compile_eq_ok sampleHash sampleInputs sampleOutcomes)

/-! ## What is hashed -/

/-- The bytes behind a fingerprint, in the order they are read. -/
structure HashedInputs where
  required : Bytes
  hardening : Bytes
  confidential : Bytes
  signingCert : Bytes
  seed : Bytes
  dsdt : Bytes
  amlPatch : Bytes
  mrPatch : Bytes
  fragment : Option Bytes
  snapshot : Option Bytes
  toolsTree : List (String × Bytes)
deriving DecidableEq

/-- The contents of the files but the snapshot and the tools tree's. -/
def HashedInputs.contents (hashed : HashedInputs) : List Bytes :=
  [hashed.required, hashed.hardening, hashed.confidential,
    hashed.signingCert, hashed.seed, hashed.dsdt, hashed.amlPatch,
    hashed.mrPatch] ++ hashed.fragment.toList

section

variable (sha256 : Bytes → Block 32)

def HashedInputs.fingerprint (version : KernelVersion)
    (hashed : HashedInputs) : Fingerprint where
  linuxVersion := version.linuxVersion
  tarballSha256 := version.tarballSha256
  requiredConfigSha256 := hexHash sha256 hashed.required
  hardeningConfigSha256 := hexHash sha256 hashed.hardening
  confidentialConfigSha256 := hexHash sha256 hashed.confidential
  kernelExtraConfigSha256 := fragmentHash sha256 hashed.fragment
  snapshotConfigSha256 := fragmentHash sha256 hashed.snapshot
  moduleSigningCertSha256 := hexHash sha256 hashed.signingCert
  randstructSeedSha256 := hexHash sha256 hashed.seed
  trustedDsdtSha256 := hexHash sha256 hashed.dsdt
  trustedAmlPatchSha256 := hexHash sha256 hashed.amlPatch
  snpMrPatchSha256 := hexHash sha256 hashed.mrPatch
  toolsTreeDigest := hashFiles sha256 hashed.toolsTree

/-- What a build reads of its inputs: to hash them, to use them, and to hash
them again. -/
structure Seen where
  first : HashedInputs
  used : CompileInputs
  second : HashedInputs
deriving DecidableEq

/-- The bytes that a build tells apart by their hashes. -/
def Seen.contents (seen : Seen) : List Bytes :=
  seen.first.contents ++ seen.used.contents ++ seen.second.contents

end

/-! ## Reading leaves the output directories alone -/

section

variable {sha256 : Bytes → Block 32}

variable {world after : World} {args : KernelArgs}

end

/-! ## A build with a fragment changed for a moment -/

end Confos.Kernel.Labels
