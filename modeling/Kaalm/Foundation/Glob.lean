/-
  Foundation/Glob.lean --- `path.Match`.

  A pattern is cut at its stars into chunks; a chunk matches character by
  character, and a star skips characters other than `/`.  A malformed pattern is
  an error even where the match has already failed, which is why `matchChunk`
  goes on reading the chunk after the name has run out.
-/
import Mathlib.Data.List.Basic

namespace Kaalm.Foundation.Glob

/-- `ErrBadPattern`. -/
inductive Fault where
  | badPattern
  deriving DecidableEq, Repr

/-- The end of a chunk: the first star outside a class. -/
def cutChunk : Bool → List Char → List Char × List Char
  | _, [] => ([], [])
  | inrange, '\\' :: c :: rest =>
    let (chunk, more) := cutChunk inrange rest
    ('\\' :: c :: chunk, more)
  | _, ['\\'] => (['\\'], [])
  | inrange, c :: rest =>
    if c = '*' ∧ !inrange then ([], c :: rest)
    else
      let inrange := if c = '[' then true else if c = ']' then false else inrange
      let (chunk, more) := cutChunk inrange rest
      (c :: chunk, more)

def scanChunk (pattern : List Char) : Bool × List Char × List Char :=
  let trimmed := pattern.dropWhile (· = '*')
  let (chunk, rest) := cutChunk false trimmed
  (pattern.head? = some '*', chunk, rest)

def getEsc : List Char → Except Fault (Char × List Char)
  | [] => .error .badPattern
  | c :: rest =>
    if c = '-' ∨ c = ']' then .error .badPattern
    else
      match if c = '\\' then rest else c :: rest with
      | [] | [_] => .error .badPattern
      | r :: more => .ok (r, more)

/-- The ranges of a class up to its bracket: whether one of them has the
character. -/
def matchClass (r : Option Char) : Nat → Nat → Bool → List Char → Except Fault (Bool × List Char)
  | 0, _, _, _ => .error .badPattern
  | fuel + 1, nrange, found, chunk =>
    if chunk.head? = some ']' ∧ 0 < nrange then .ok (found, chunk.tail)
    else do
      let (lo, chunk) ← getEsc chunk
      let (hi, chunk) ← if chunk.head? = some '-' then getEsc chunk.tail else .ok (lo, chunk)
      -- a name that has run out is compared as the zero rune, and discarded
      let r := r.getD (Char.ofNat 0)
      matchClass (some r) fuel (nrange + 1) (found || (decide (lo ≤ r) && decide (r ≤ hi))) chunk

/-- `matchChunk`; the name is none once the match has failed. -/
def matchChunk : Nat → List Char → Option (List Char) → Except Fault (Option (List Char))
  | 0, _, _ => .error .badPattern
  | _ + 1, [], name => .ok name
  | fuel + 1, c :: chunk, name =>
    let name := if name = some [] then none else name
    if c = '[' then do
      let negated := chunk.head? = some '^'
      let (found, chunk) ← matchClass (name.bind List.head?) (chunk.length + 1) 0 false
        (if negated then chunk.tail else chunk)
      matchChunk fuel chunk (if found = negated then none else name.map List.tail)
    else if c = '?' then
      matchChunk fuel chunk ((name.filter fun s => s.head? ≠ some '/').map List.tail)
    else if c = '\\' then
      match chunk with
      | [] => .error .badPattern
      | c :: chunk => matchChunk fuel chunk ((name.filter fun s => s.head? = some c).map List.tail)
    else matchChunk fuel chunk ((name.filter fun s => s.head? = some c).map List.tail)

/-- A chunk at one place of the name; the last chunk has to use the name up. -/
def matchHere (chunk rest name : List Char) : Except Fault (Option (List Char)) := do
  let left ← matchChunk (chunk.length + 1) chunk (some name)
  return left.filter fun t => t = [] ∨ rest ≠ []

/-- The first place after a star, skipping characters other than `/`. -/
def matchSkipping (chunk rest : List Char) : List Char → Except Fault (Option (List Char))
  | [] => .ok none
  | c :: name =>
    if c = '/' then .ok none
    else do
      match ← matchHere chunk rest name with
      | some left => return some left
      | none => matchSkipping chunk rest name

/-- The rest of a pattern after a failed match is still checked. -/
def checkChunks : Nat → List Char → Except Fault Unit
  | 0, _ => .ok ()
  | fuel + 1, pattern =>
    if pattern = [] then .ok ()
    else do
      let (_, chunk, rest) := scanChunk pattern
      let _ ← matchChunk (chunk.length + 1) chunk (some [])
      checkChunks fuel rest

def matchChunks : Nat → List Char → List Char → Except Fault Bool
  | 0, _, _ => .error .badPattern
  | fuel + 1, pattern, name =>
    if pattern = [] then .ok (name = [])
    else
      let (star, chunk, rest) := scanChunk pattern
      if star ∧ chunk = [] then .ok ('/' ∉ name)
      else do
        let here ← matchHere chunk rest name
        let found ← match here with
          | some left => .ok (some left)
          | none => if star then matchSkipping chunk rest name else .ok none
        match found with
        | some left => matchChunks fuel rest left
        | none =>
          checkChunks (rest.length + 1) rest
          return false

def pathMatch (pattern name : String) : Except Fault Bool :=
  matchChunks (pattern.toList.length + 1) pattern.toList name.toList

/-- `path.Match` where an error counts as no match. -/
def matches? (pattern name : String) : Bool := pathMatch pattern name = .ok true

example : matches? "team-*" "team-a" = true := by decide +kernel
example : matches? "team-?[!x]" "team-a" = false := by decide +kernel
example : matches? "*-[a-c]*" "x-b-1" = true := by decide +kernel

end Kaalm.Foundation.Glob
