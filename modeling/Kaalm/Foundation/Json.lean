/-
  Foundation/Json.lean --- JSON text and the way Go reads it.

  THE TREE.  `Json` keeps what the text says: a number as it is written, the
  members of an object in their order and with their duplicates.

  THE TEXT.  `parse` is the grammar `encoding/json` checks before it decodes
  anything: the whole text is one value, nested at most `maxNestingDepth` deep,
  and half a surrogate pair reads as U+FFFD.

  TWO READERS.  `member?` is the exact reader: the last member under a name.
  `fieldOf` is how a member finds a struct field in Go: by its exact name, or else
  by a name that folds to the same letters.
-/
import Kaalm.Foundation.Text

namespace Kaalm.Foundation

inductive Json where
  | null
  | bool (b : Bool)
  | num (lit : String)
  | str (s : String)
  | arr (items : List Json)
  | obj (members : List (String × Json))
  deriving Inhabited

namespace Json

/-! ## Text -/

def maxNestingDepth : Nat := 10000

def isSpace (c : Char) : Bool := c = ' ' || c = '\t' || c = '\n' || c = '\r'

def skipSpace (cs : List Char) : List Char := cs.dropWhile isSpace

def readHex4 : List Char → Option (Nat × List Char)
  | a :: b :: c :: d :: rest => do
    let a ← hexDigit? a
    let b ← hexDigit? b
    let c ← hexDigit? c
    let d ← hexDigit? d
    return (((a * 16 + b) * 16 + c) * 16 + d, rest)
  | _ => none

/-- The character for half of a surrogate pair. -/
def replacementChar : Char := Char.ofNat 0xfffd

/-- `\u` and its digits; a surrogate pair is one character. -/
def readUnicode (cs : List Char) : Option (Char × List Char) := do
  let (u, rest) ← readHex4 cs
  if 0xd800 ≤ u ∧ u < 0xdc00 then
    match rest with
    | '\\' :: 'u' :: more =>
      let (v, rest') ← readHex4 more
      if 0xdc00 ≤ v ∧ v < 0xe000 then
        return (Char.ofNat (0x10000 + (u - 0xd800) * 0x400 + (v - 0xdc00)), rest')
      else return (replacementChar, rest)
    | _ => return (replacementChar, rest)
  else if 0xdc00 ≤ u ∧ u < 0xe000 then return (replacementChar, rest)
  else return (Char.ofNat u, rest)

/-- What follows a backslash. -/
def readEscape : List Char → Option (Char × List Char)
  | '"' :: rest => some ('"', rest)
  | '\\' :: rest => some ('\\', rest)
  | '/' :: rest => some ('/', rest)
  | 'b' :: rest => some (Char.ofNat 8, rest)
  | 'f' :: rest => some (Char.ofNat 12, rest)
  | 'n' :: rest => some ('\n', rest)
  | 'r' :: rest => some ('\r', rest)
  | 't' :: rest => some ('\t', rest)
  | 'u' :: rest => readUnicode rest
  | _ => none

def readString : Nat → List Char → List Char → Option (String × List Char)
  | 0, _, _ => none
  | _ + 1, _, [] => none
  | fuel + 1, acc, c :: rest =>
    if c = '"' then some (String.ofList acc.reverse, rest)
    else if c = '\\' then
      match readEscape rest with
      | none => none
      | some (c, rest) => readString fuel (c :: acc) rest
    else if c.toNat < 0x20 then none
    else readString fuel (c :: acc) rest

def readDigits (cs : List Char) : Option (List Char × List Char) :=
  let digits := cs.takeWhile Char.isDigit
  if digits = [] then none else some (digits, cs.dropWhile Char.isDigit)

def readWhole : List Char → Option (List Char × List Char)
  | '0' :: rest => some (['0'], rest)
  | cs => readDigits cs

def readFraction : List Char → Option (List Char × List Char)
  | '.' :: rest => (readDigits rest).map fun (digits, rest) => ('.' :: digits, rest)
  | cs => some ([], cs)

def readPower : List Char → Option (List Char × List Char)
  | c :: cs =>
    if c = 'e' ∨ c = 'E' then
      match cs with
      | '+' :: rest => (readDigits rest).map fun (digits, rest) => (c :: '+' :: digits, rest)
      | '-' :: rest => (readDigits rest).map fun (digits, rest) => (c :: '-' :: digits, rest)
      | rest => (readDigits rest).map fun (digits, rest) => (c :: digits, rest)
    else some ([], c :: cs)
  | [] => some ([], [])

def readNumber (cs : List Char) : Option (String × List Char) := do
  let (sign, cs) := match cs with
    | '-' :: rest => (['-'], rest)
    | cs => ([], cs)
  let (whole, cs) ← readWhole cs
  let (fraction, cs) ← readFraction cs
  let (power, cs) ← readPower cs
  return (String.ofList (sign ++ whole ++ fraction ++ power), cs)

mutual

/-- One value; `depth` is how deep it may still nest. -/
def readValue : Nat → Nat → List Char → Option (Json × List Char)
  | 0, _, _ => none
  | fuel + 1, depth, cs =>
    match skipSpace cs with
    | 'n' :: 'u' :: 'l' :: 'l' :: rest => some (.null, rest)
    | 't' :: 'r' :: 'u' :: 'e' :: rest => some (.bool true, rest)
    | 'f' :: 'a' :: 'l' :: 's' :: 'e' :: rest => some (.bool false, rest)
    | '"' :: rest => (readString (rest.length + 1) [] rest).map fun (s, rest) => (.str s, rest)
    | '[' :: rest =>
      if depth = 0 then none
      else
        match skipSpace rest with
        | ']' :: rest => some (.arr [], rest)
        | rest => (readItems fuel (depth - 1) rest).map fun (items, rest) => (.arr items, rest)
    | '{' :: rest =>
      if depth = 0 then none
      else
        match skipSpace rest with
        | '}' :: rest => some (.obj [], rest)
        | rest => (readMembers fuel (depth - 1) rest).map fun (ms, rest) => (.obj ms, rest)
    | rest => (readNumber rest).map fun (lit, rest) => (.num lit, rest)

def readItems : Nat → Nat → List Char → Option (List Json × List Char)
  | 0, _, _ => none
  | fuel + 1, depth, cs =>
    match readValue fuel depth cs with
    | none => none
    | some (item, rest) =>
      match skipSpace rest with
      | ',' :: rest => (readItems fuel depth rest).map fun (items, rest) => (item :: items, rest)
      | ']' :: rest => some ([item], rest)
      | _ => none

def readMembers : Nat → Nat → List Char → Option (List (String × Json) × List Char)
  | 0, _, _ => none
  | fuel + 1, depth, cs =>
    match skipSpace cs with
    | '"' :: rest =>
      match readString (rest.length + 1) [] rest with
      | none => none
      | some (name, rest) =>
        match skipSpace rest with
        | ':' :: rest =>
          match readValue fuel depth rest with
          | none => none
          | some (v, rest) =>
            match skipSpace rest with
            | ',' :: rest =>
              (readMembers fuel depth rest).map fun (ms, rest) => ((name, v) :: ms, rest)
            | '}' :: rest => some ([(name, v)], rest)
            | _ => none
        | _ => none
    | _ => none

end

def parse (text : String) : Option Json :=
  let cs := text.toList
  match readValue (2 * cs.length + 2) maxNestingDepth cs with
  | none => none
  | some (v, rest) => if skipSpace rest = [] then some v else none

/-! ## Reading by the exact name -/

def member? (name : String) : List (String × Json) → Option Json
  | [] => none
  | (k, v) :: rest => (member? name rest).or (if k = name then some v else none)

def members? : Json → Option (List (String × Json))
  | .obj ms => some ms
  | _ => none

theorem eq_obj {j : Json} {ms : List (String × Json)} (h : j.members? = some ms) : j = .obj ms := by
  cases j <;> cases h
  rfl

def string? : Json → Option String
  | .str s => some s
  | _ => none

/-! ## Struct fields in Go -/

/-- `foldRune`, on the characters that fold to an ASCII letter. -/
def foldRune (c : Char) : Char :=
  if 'A' ≤ c ∧ c ≤ 'Z' then Char.ofNat (c.toNat + 32)
  else if c = Char.ofNat 0x17f then 's'
  else if c = Char.ofNat 0x212a then 'k'
  else c

def foldName (name : String) : List Char := name.toList.map foldRune

def fieldOf (fields : List String) (name : String) : Option String :=
  if name ∈ fields then some name else fields.find? fun f => foldName f = foldName name

theorem mem_of_fieldOf {fields : List String} {f name : String}
    (h : fieldOf fields name = some f) : f ∈ fields := by
  unfold fieldOf at h
  split_ifs at h with hmem
  · exact Option.some.inj h ▸ hmem
  · exact List.mem_of_find?_eq_some h

/-- A member selects the field whose name folds to the same letters. -/
theorem fieldOf_eq_some_iff {fields : List String}
    (hfields : ∀ f ∈ fields, ∀ g ∈ fields, foldName f = foldName g → f = g) {f name : String}
    (hf : f ∈ fields) : fieldOf fields name = some f ↔ foldName name = foldName f := by
  unfold fieldOf
  constructor
  · intro h
    split_ifs at h with hmem
    · rw [Option.some.inj h]
    · exact (by simpa using List.find?_some h : foldName f = foldName name).symm
  · intro h
    split_ifs with hmem
    · rw [hfields name hmem f hf h]
    · have hsome : (fields.find? fun g => foldName g = foldName name).isSome = true :=
        List.find?_isSome.mpr ⟨f, hf, by simpa using h.symm⟩
      obtain ⟨g, hg⟩ := Option.isSome_iff_exists.mp hsome
      have hfold : foldName g = foldName name := by simpa using List.find?_some hg
      rw [hg, hfields g (List.mem_of_find?_eq_some hg) f hf (hfold.trans h)]

end Json

end Kaalm.Foundation
