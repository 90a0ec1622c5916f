import Zimr.Spec.Website

/-!
# `normalize_path` (`general.c`)

The parts of the path are written into `normpath` one after the other, each over what may
be there of a part that `..` took off. `pathindcies` says where each part starts. Below is
what the function is for: a stack of segments.
-/

namespace Zimr

/-- `MAX_PATH_INDECIES`. -/
def maxPathIndecies : ℕ := 100

/-- A read of `pathindcies[ i ]`; `none` is outside the array. -/
def pathIndex (pathindcies : List ℕ) (i : ℕ) : Option ℕ :=
  if i < maxPathIndecies then some (pathindcies.getD i 0) else none

/-- `pathindcies[ i ] = v`. -/
def setPathIndex (pathindcies : List ℕ) (i v : ℕ) : Option (List ℕ) :=
  if i < maxPathIndecies then some (pathindcies.take i ++ v :: pathindcies.drop (i + 1)) else none

/-- Bytes put into a buffer, of which the list is what has been written. -/
def store (buf : List UInt8) (pos : ℕ) (bytes : List UInt8) : List UInt8 :=
  buf.take pos ++ bytes ++ buf.drop (pos + bytes.length)

/-- `is_part`, and `i` after the test. -/
def isPart (path : List UInt8) (n i : ℕ) : Bool × ℕ :=
  if n = 1 ∧ path.head? = some 46 then (false, i)
  else if n = 2 ∧ path.take 2 = [46, 46] then (false, i - 1)
  else if n = 0 ∧ i ≠ 0 then (false, i)
  else (true, i)

/-- The loop of `normalize_path`: the whole buffer at the end. `none` is an access outside of
`pathindcies`. C leaves open when `pathindcies[++i] = pathindcies[i-1] + n` counts up; here, as it is
meant, before `i-1` is read: the new part starts `n` bytes behind the old one. -/
def normalizeLoop : ℕ → List UInt8 → List ℕ → ℕ → List UInt8 → Option (List UInt8)
  | 0, normpath, _, _, _ => some normpath
  | fuel + 1, normpath, pathindcies, i, path => do
    let n := pathStart path
    let (part, i) := isPart path n i
    -- `ptr - path`
    let n := if (path.drop n).head? = some 47 then n + 1 else n
    let (normpath, pathindcies, i) ← (if part then do
      let at₀ ← pathIndex pathindcies i
      let normpath := store normpath at₀ (path.take n)
      let at₁ ← pathIndex pathindcies i
      let pathindcies ← setPathIndex pathindcies (i + 1) (at₁ + n)
      return (normpath, pathindcies, i + 1)
    else return (normpath, pathindcies, i))
    let at₂ ← pathIndex pathindcies i
    let normpath := store normpath at₂ [0]
    if path.drop n = [] ∨ i = maxPathIndecies then return normpath
    else normalizeLoop fuel normpath pathindcies i (path.drop n)

/-- `normalize_path`: `normpath` is what the buffer held, and its value what it holds
afterwards. -/
def normalizePath (normpath path : List UInt8) : Option (List UInt8) :=
  normalizeLoop ((cstr path).length + 1) (store normpath 0 [0]) (List.replicate maxPathIndecies 0) 0
    (cstr path)

/-! ## What it is for -/

/-- The segments of a path, each with the `/` that ends it. -/
def segments : List UInt8 → List (List UInt8)
  | [] => []
  | c :: s =>
    if c = 47 then [47] :: segments s
    else
      match segments s with
      | [] => [[c]]
      | seg :: segs => (c :: seg) :: segs

/-- The name of a segment. -/
def segName (seg : List UInt8) : List UInt8 := seg.takeWhile (· ≠ 47)

/-- What a segment does to the parts that are kept. -/
def keep (kept : List (List UInt8)) (seg : List UInt8) : List (List UInt8) :=
  if segName seg = [46] then kept
  else if segName seg = [46, 46] then kept.dropLast
  else if segName seg = [] ∧ kept ≠ [] then kept
  else kept ++ [seg]

/-- The parts kept of a path. -/
def keptParts (segs : List (List UInt8)) : List (List UInt8) := segs.foldl keep []

/-- The canonical path. -/
def canonicalPath (path : List UInt8) : List UInt8 := (keptParts (segments path)).flatten

/-- The number of parts kept never reaches `MAX_PATH_INDECIES`. -/
def Shallow (path : List UInt8) : Prop :=
  ∀ k, (keptParts ((segments path).take k)).length < maxPathIndecies

/-- What is left behind `off` bytes of the canonical path, as the segments of a path are taken
one after the other: a canonical path that does not come so far leaves what was there. -/
def leftBehind (off : ℕ) : List UInt8 → List (List UInt8) → List (List UInt8) → List UInt8
  | left, _, [] => left
  | left, kept, seg :: segs =>
    let kept := keep kept seg
    leftBehind off (if off ≤ kept.flatten.length then kept.flatten.drop off else left) kept segs

end Zimr
