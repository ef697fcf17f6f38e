/-
  Foundation/Header.lean --- `net/http` headers.

  A header maps canonical names to their values in order.  `get` reads the first
  value, `set` replaces all of them, and every access canonicalizes the name.
-/
import Kaalm.Foundation.GoMap

namespace Kaalm.Foundation

/-- A character of a header field name. -/
def isTokenChar (c : Char) : Bool := c.isAlphanum || "!#$%&'*+-.^_\x60|~".toList.contains c

/-- Upper case after a hyphen and at the start, lower case elsewhere. -/
def capitalize : Bool → List Char → List Char
  | _, [] => []
  | upper, c :: cs => (if upper then c.toUpper else c.toLower) :: capitalize (c = '-') cs

/-- `CanonicalMIMEHeaderKey`: a name with an invalid character stays as it is. -/
def canonicalHeaderKey (name : String) : String :=
  if name.toList.all isTokenChar then String.ofList (capitalize true name.toList) else name

abbrev Header : Type := GoMap String (List String)

namespace Header

def get (h : Header) (name : String) : String :=
  ((h.lookup (canonicalHeaderKey name)).bind List.head?).getD ""

def set (h : Header) (name value : String) : Header := h.insert (canonicalHeaderKey name) [value]

def del (h : Header) (name : String) : Header := h.erase (canonicalHeaderKey name)

theorem lookup_set (h : Header) (name value key : String) :
    (h.set name value).lookup key =
      if key = canonicalHeaderKey name then some [value] else h.lookup key :=
  GoMap.lookup_insert_eq h _ key _

theorem lookup_del (h : Header) (name key : String) :
    (h.del name).lookup key = if key = canonicalHeaderKey name then none else h.lookup key :=
  GoMap.lookup_erase_eq h _ key

theorem lookup_foldl_del (names : List String) (h : Header) (key : String) :
    (names.foldl del h).lookup key =
      if key ∈ names.map canonicalHeaderKey then none else h.lookup key := by
  induction names generalizing h with
  | nil => simp
  | cons name rest ih =>
    rw [List.foldl_cons, ih, lookup_del, List.map_cons]
    by_cases hkey : key = canonicalHeaderKey name
    · simp [hkey]
    · simp [hkey]

end Header

end Kaalm.Foundation
