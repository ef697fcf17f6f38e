/-
  Foundation/GoJson.lean --- values between Go and JSON.

  DECODING.  `encoding/json` decodes into the value that is there: null leaves a
  string, a number or a struct as it is and clears a pointer or a slice, a member
  that comes twice is decoded into what the first one left, and an array decodes
  into the slots of the slice it finds, also those past its length.  A value of the
  wrong type fails the whole decoding.

  ENCODING.  `render` is `json.Marshal` of a map: members in the order of their
  names, the last one of a name, and the characters Go escapes.
-/
import Kaalm.Foundation.Json
import Mathlib.Algebra.Ring.Nat

namespace Kaalm.Foundation.Json

variable {α : Type}

/-! ## Decoding -/

def intoString (old : String) : Json → Option String
  | .str s => some s
  | .null => some old
  | _ => none

/-- The value of a literal without fraction and exponent that fits 64 bits. -/
def int64? (lit : String) : Option Int :=
  let value (digits : List Char) : Option Nat :=
    if digits ≠ [] ∧ digits.all Char.isDigit then some (Nat.ofDigitChars 10 digits 0) else none
  match lit.toList with
  | '-' :: digits => (value digits).bind fun n => if n ≤ 2 ^ 63 then some (-n) else none
  | digits => (value digits).bind fun n => if n < 2 ^ 63 then some n else none

/-- Into an `int` or `int64`. -/
def intoInt (old : Int) : Json → Option Int
  | .num lit => int64? lit
  | .null => some old
  | _ => none

def intoPtr (zero : α) (into : α → Json → Option α) (old : Option α) : Json → Option (Option α)
  | .null => some none
  | v => (into (old.getD zero) v).map some

/-- A slice with what its array holds past its length. -/
structure Slice (α : Type) where
  items : List α
  spare : List α
  deriving DecidableEq, Repr

def Slice.nil : Slice α := ⟨[], []⟩

/-- The items of an array, each into the slot it finds. -/
def intoSlots (zero : α) (into : α → Json → Option α) : List α → List Json → Option (List α)
  | _, [] => some []
  | slots, v :: vs =>
    (into (slots.headD zero) v).bind fun x =>
      (intoSlots zero into slots.tail vs).map fun xs => x :: xs

def intoSlice (zero : α) (into : α → Json → Option α) (old : Slice α) : Json → Option (Slice α)
  | .null | .arr [] => some .nil
  | .arr vs =>
    (intoSlots zero into (old.items ++ old.spare) vs).map fun xs =>
      ⟨xs, (old.items ++ old.spare).drop vs.length⟩
  | _ => none

/-- The members of an object, each into the field it selects. -/
def intoFields (fields : List String) (field : α → String → Json → Option α) :
    α → List (String × Json) → Option α
  | x, [] => some x
  | x, (name, v) :: rest =>
    match fieldOf fields name with
    | none => intoFields fields field x rest
    | some f => (field x f v).bind fun x => intoFields fields field x rest

def intoStruct (fields : List String) (field : α → String → Json → Option α) (old : α) :
    Json → Option α
  | .obj members => intoFields fields field old members
  | .null => some old
  | _ => none

/-! ## Values of no declared type

A `map[string]any` is its members; a later one of a name replaces an earlier one. -/

/-- `map[string]any`. -/
abbrev Obj : Type := List (String × Json)

/-- `m[k] = v`. -/
def put (m : Obj) (k : String) (v : Json) : Obj := m ++ [(k, v)]

/-- `m[k]`: nil when it is missing. -/
def field (m : Obj) (k : String) : Json := (member? k m).getD .null

theorem member?_append (name : String) (m m' : Obj) :
    member? name (m ++ m') = (member? name m').or (member? name m) := by
  induction m with
  | nil => simp [member?]
  | cons kv m ih => rw [List.cons_append, member?, ih, member?, Option.or_assoc]

theorem member?_put_self (m : Obj) (k : String) (v : Json) : member? k (put m k v) = some v := by
  simp [put, member?_append, member?]

theorem member?_put_of_ne (m : Obj) {k k' : String} (v : Json) (h : k ≠ k') :
    member? k' (put m k v) = member? k' m := by
  simp [put, member?_append, member?, h]

theorem field_put_self (m : Obj) (k : String) (v : Json) : field (put m k v) k = v := by
  rw [field, member?_put_self, Option.getD_some]

theorem field_put_of_ne (m : Obj) {k k' : String} (v : Json) (h : k ≠ k') :
    field (put m k v) k' = field m k' := by
  rw [field, member?_put_of_ne m v h, field]

/-- `v.(map[string]any)`, the nil map when it is none. -/
def asObj : Json → Obj
  | .obj members => members
  | _ => []

/-- `v.([]any)`, the nil slice when it is none. -/
def asArr : Json → List Json
  | .arr items => items
  | _ => []

/-- A slice that was appended to: nil when nothing was. -/
def ofSlice (items : List Json) : Json := if items.isEmpty then .null else .arr items

def isStr (v : Json) (s : String) : Bool := v.string? = some s

/-! ## Encoding -/

def hexChar (n : Nat) : Char := "0123456789abcdef".toList.getD n '0'

def escapeChar (c : Char) : List Char :=
  if c = '"' then ['\\', '"']
  else if c = '\\' then ['\\', '\\']
  else if c = '\n' then ['\\', 'n']
  else if c = '\r' then ['\\', 'r']
  else if c = '\t' then ['\\', 't']
  else if c.toNat = 8 then ['\\', 'b']
  else if c.toNat = 12 then ['\\', 'f']
  else if c.toNat < 0x20 ∨ c = '<' ∨ c = '>' ∨ c = '&' ∨ c.toNat = 0x2028 ∨ c.toNat = 0x2029 then
    ['\\', 'u', hexChar (c.toNat / 4096), hexChar (c.toNat / 256 % 16), hexChar (c.toNat / 16 % 16),
      hexChar (c.toNat % 16)]
  else [c]

def renderString (s : String) : String :=
  "\"" ++ String.ofList (s.toList.flatMap escapeChar) ++ "\""

/-- A member in its place by name; a later one replaces an earlier one. -/
def insertMember (name text : String) : List (String × String) → List (String × String)
  | [] => [(name, text)]
  | (k, v) :: rest =>
    if name = k then (name, text) :: rest
    else if name < k then (name, text) :: (k, v) :: rest
    else (k, v) :: insertMember name text rest

mutual

/-- `json.Marshal`. -/
def render : Json → String
  | .null => "null"
  | .bool b => if b then "true" else "false"
  | .num lit => lit
  | .str s => renderString s
  | .arr items => "[" ++ ",".intercalate (renderItems items) ++ "]"
  | .obj members =>
    "\x7b" ++ ",".intercalate ((renderMembers members []).map fun (k, v) =>
      renderString k ++ ":" ++ v) ++ "\x7d"

def renderItems : List Json → List String
  | [] => []
  | v :: vs => render v :: renderItems vs

def renderMembers : List (String × Json) → List (String × String) → List (String × String)
  | [], sorted => sorted
  | (name, v) :: rest, sorted => renderMembers rest (insertMember name (render v) sorted)

end

end Kaalm.Foundation.Json
