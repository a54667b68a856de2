import Confos.Tdx.Rtmr

/-!
# Sections of a PE image

`parseSections` walks the section table of a PE image and returns each section
with the `virtual_size` bytes at its raw offset.  An error keeps the outermost
context the source gives it.
-/

namespace Confos.Tdx.Pe

open Confos.Library.ByteStrings
open Confos.Tdx.Rtmr

def readLe (size : Nat) (data : Bytes) (offset : Nat) : Except String Nat :=
  if data.length < offset + size then
    .error s!"Read out of bounds at offset 0x{lowerHex 0 offset} (need {size} bytes, have {data.length})"
  else
    .ok (ofLeBytes (slice data offset size))

/-- Replace an error by the context the source attaches to it. -/
def withContext {α : Type} (context : String) (result : Except String α) :
    Except String α :=
  result.mapError fun _ => context

/-- A section name: at most eight bytes, NUL-padded, empty if not UTF-8. -/
def sectionName (nameBytes : Bytes) : String :=
  (utf8Text? (nameBytes.takeWhile (· ≠ 0))).getD ""

/-- The loop over the section table; it stops where the table leaves the file. -/
def parseSectionTable (data : Bytes) :
    Nat → Nat → List (String × Bytes) → Except String (List (String × Bytes))
  | 0, _, sections => .ok sections
  | remaining + 1, offset, sections =>
      if data.length < offset + 40 then
        .ok sections
      else do
        let name := sectionName (slice data offset 8)
        let vsize ← readLe 4 data (offset + 8)
        let start ← readLe 4 data (offset + 20)
        if data.length < start + vsize then
          throw s!"PE section '{name}' (offset 0x{lowerHex 0 start}, virtual_size 0x{lowerHex 0 vsize}) extends beyond file (0x{lowerHex 0 data.length})"
        else
          parseSectionTable data remaining (offset + 40)
            (sections ++ [(name, slice data start vsize)])

def parseSections (data : Bytes) : Except String (List (String × Bytes)) := do
  let peOffset ← withContext "Reading PE offset" (readLe 4 data 0x3C)
  if data.length < peOffset + 4 ∨
      slice data peOffset 4 ≠ [0x50, 0x45, 0, 0] then
    throw "Invalid PE signature"
  else
    let coffOffset := peOffset + 4
    let numSections ← readLe 2 data (coffOffset + 2)
    let optHdrSize ← readLe 2 data (coffOffset + 16)
    parseSectionTable data numSections (coffOffset + 20 + optHdrSize) []

end Confos.Tdx.Pe
