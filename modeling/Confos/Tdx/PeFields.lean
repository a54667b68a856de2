import Confos.Library.Checks
import Confos.Tdx.Pe

/-!
# Fields of a PE image

Where the headers of a PE image stand and what they state, as functions of its
bytes.  A field that is not in the file is a field of no meaning here; the
functions that read one check it first.
-/

namespace Confos.Tdx.PeFields

open Confos.Library.ByteStrings
open Confos.Library.Checks
open Confos.Tdx.Pe

/-! ## Numbers -/

section

variable (data : Bytes)

/-- A little-endian number in the image. -/
def numberAt (offset size : Nat) : Nat :=
  ofLeBytes (slice data offset size)

theorem numberAt_lt (offset size : Nat) :
    numberAt data offset size < 256 ^ size :=
  ofLeBytes_slice_lt data offset size

/-! ## Headers -/

def peOffset : Nat :=
  numberAt data 0x3C 4

def coffOffset : Nat :=
  peOffset data + 4

def numberOfSections : Nat :=
  numberAt data (coffOffset data + 2) 2

def optHdrSize : Nat :=
  numberAt data (coffOffset data + 16) 2

def optHdrOffset : Nat :=
  coffOffset data + 20

def sectionTable : Nat :=
  optHdrOffset data + optHdrSize data

/-- Where the section header of this number stands. -/
def headerOffset (index : Nat) : Nat :=
  sectionTable data + index * 40

theorem peOffset_lt : peOffset data < 2 ^ 32 :=
  numberAt_lt data 0x3C 4

theorem numberOfSections_lt : numberOfSections data < 2 ^ 16 :=
  numberAt_lt data (coffOffset data + 2) 2

theorem optHdrSize_lt : optHdrSize data < 2 ^ 16 :=
  numberAt_lt data (coffOffset data + 16) 2

/-- A section header stands far below the end of an address space. -/
theorem headerOffset_lt {index : Nat} (known : index ≤ 2 ^ 16) :
    headerOffset data index < 2 ^ 33 := by
  have pe := peOffset_lt data
  have size := optHdrSize_lt data
  simp only [headerOffset, sectionTable, optHdrOffset, coffOffset]
  omega

end

/-! ## Reading -/

section

variable {data : Bytes} {size offset value : Nat}

theorem readLe_eq_ok :
    readLe size data offset = .ok value ↔
      offset + size ≤ data.length ∧ numberAt data offset size = value := by
  rw [readLe, numberAt]
  split
  · next short =>
      constructor
      · intro refused
        cases refused
      · rintro ⟨inside, -⟩
        exact absurd inside (not_le.2 short)
  · next inside =>
      constructor
      · intro read
        cases read
        exact ⟨not_lt.1 inside, rfl⟩
      · rintro ⟨-, rfl⟩
        rfl

/-- A read checks that its field is in the file. -/
theorem decides_readLe :
    Decides (ofResult (readLe size data offset))
      (offset + size ≤ data.length) (numberAt data offset size) := by
  by_cases inside : offset + size ≤ data.length
  · refine Or.inl ⟨inside, ?_⟩
    rw [readLe_eq_ok.2 ⟨inside, rfl⟩]
    rfl
  · refine Or.inr ⟨inside, ?_⟩
    rw [readLe, if_pos (not_le.1 inside)]
    exact ⟨_, rfl⟩

end

end Confos.Tdx.PeFields
