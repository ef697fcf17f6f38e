/-
  Translate/Lossless.lean --- when a translated request says what it said.

  Source: src/internal/llmtranslate/translate.go.  Both formats are read into the same
  things: lines of text, images by their URL, tool calls, tool results with their text,
  and whatever else a message may have; a thinking block says nothing.  Texts are joined
  by newlines, so a text is its lines, and an empty line is none.  A message to a chat has
  its results first and its calls last, and drops what its role has no place for; a chat
  message keeps its order, and drops what messages have no place for.
-/
import Kaalm.Foundation.Shrinks
import Kaalm.Translate.Fields

namespace Kaalm.Translate

open Kaalm.Foundation Kaalm.Foundation.Json

/-! ## What is said -/

/-- Something that a message says; `α` is what the arguments of calls are compared in. -/
inductive Said (α : Type) where
  | line (cs : List Char)
  | image (url : String)
  | call (id name : Json) (arguments : α)
  /-- a result, with the number of its parts that are no text -/
  | result (id : Json) (text : String) (others : Nat)
  | other (raw : Json)

variable {α : Type}

/-- Results, then texts and images, then calls. -/
def Said.rank : Said α → Nat
  | .result _ _ _ => 0
  | .line _ | .image _ | .other _ => 1
  | .call _ _ _ => 2

section Message

variable {m : Json} {own calls : List (Said Value)}

end Message

variable {body out : Obj} {model : String} {maxOutputTokens : Int}

end Kaalm.Translate
