/-
  Foundation/Text.lean --- Go's text functions.
-/
import Mathlib.Data.List.Basic

namespace Kaalm.Foundation

def hexDigit? (c : Char) : Option Nat :=
  if '0' ≤ c ∧ c ≤ '9' then some (c.toNat - '0'.toNat)
  else if 'a' ≤ c ∧ c ≤ 'f' then some (c.toNat - 'a'.toNat + 10)
  else if 'A' ≤ c ∧ c ≤ 'F' then some (c.toNat - 'A'.toNat + 10)
  else none

namespace Text

def isSpace (c : Char) : Bool :=
  c.toNat ∈ [0x09, 0x0a, 0x0b, 0x0c, 0x0d, 0x20, 0x85, 0xa0, 0x1680, 0x2028, 0x2029, 0x202f, 0x205f,
    0x3000] || (0x2000 ≤ c.toNat && c.toNat ≤ 0x200a)

def trimSpace (s : String) : String :=
  String.ofList (((s.toList.dropWhile isSpace).reverse.dropWhile isSpace).reverse)

/-- `strings.CutPrefix`: what follows the start, if the text begins with it. -/
def cutStart (start s : String) : Option String :=
  if start.toList.isPrefixOf s.toList then some (String.ofList (s.toList.drop start.toList.length))
  else none

/-- The characters before the first `c` and those that follow it. -/
def cutAt (c : Char) (cs : List Char) : Option (List Char × List Char) :=
  if c ∈ cs then some (cs.takeWhile (· ≠ c), (cs.dropWhile (· ≠ c)).tail) else none

/-- `strings.Cut` at a character. -/
def cut (sep : Char) (s : String) : Option (String × String) :=
  (cutAt sep s.toList).map fun p => (String.ofList p.1, String.ofList p.2)

/-- Text without the separator, the separator and the rest are cut there. -/
theorem cutAt_append {c : Char} {before after : List Char} (h : c ∉ before) :
    cutAt c (before ++ c :: after) = some (before, after) := by
  have hbefore : ∀ x ∈ before, decide (x ≠ c) = true := by
    intro x hx
    exact decide_eq_true fun heq => h (heq ▸ hx)
  simp only [cutAt, List.mem_append, List.mem_cons, true_or, or_true, if_true,
    List.takeWhile_append_of_pos hbefore, List.dropWhile_append_of_pos hbefore]
  simp

theorem cut_append (sep : Char) (before after : String) (h : sep ∉ before.toList) :
    cut sep (before ++ String.ofList [sep] ++ after) = some (before, after) := by
  simp [cut, cutAt_append h]

/-- Two texts that agree agree on both sides of their first separator. -/
theorem eq_of_append_sep {α : Type*} {sep : α} {x x' y y' : List α} (hx : sep ∉ x) (hx' : sep ∉ x')
    (h : x ++ sep :: y = x' ++ sep :: y') : x = x' ∧ y = y' := by
  induction x generalizing x' with
  | nil =>
    cases x' with
    | nil => simpa using h
    | cons c x' => exact absurd (List.cons.inj h).1 (fun heq => hx' (heq ▸ List.mem_cons_self))
  | cons c x ih =>
    cases x' with
    | nil => exact absurd (List.cons.inj h).1 (fun heq => hx (heq ▸ List.mem_cons_self))
    | cons c' x' =>
      simp only [List.mem_cons, not_or, List.cons_append, List.cons.injEq] at hx hx' h
      obtain ⟨rfl, hrest⟩ := h
      simpa using ih hx.2 hx'.2 hrest

theorem eq_of_append_last_sep {α : Type*} {sep : α} {x x' y y' : List α} (hy : sep ∉ y)
    (hy' : sep ∉ y') (h : x ++ sep :: y = x' ++ sep :: y') : x = x' ∧ y = y' := by
  have hrev := congrArg List.reverse h
  simp only [List.reverse_append, List.reverse_cons, List.append_assoc,
    List.singleton_append] at hrev
  obtain ⟨hyy, hxx⟩ := eq_of_append_sep (by simpa using hy) (by simpa using hy') hrev
  exact ⟨List.reverse_injective hxx, List.reverse_injective hyy⟩

/-! ## Bytes -/

def utf8 (s : String) : List UInt8 := s.toList.flatMap String.utf8EncodeChar

theorem utf8_injective : Function.Injective utf8 := by
  intro s t h
  have hbytes : s.toByteArray = t.toByteArray := by
    rw [← String.utf8Encode_toList, ← String.utf8Encode_toList, List.utf8Encode, List.utf8Encode]
    exact congrArg List.toByteArray h
  exact String.toByteArray_inj.mp hbytes

/-- The byte of an ASCII character is in no other character. -/
theorem notMem_utf8EncodeChar {a c : Char} (ha : a.val.toNat < 128) (hne : c ≠ a) :
    UInt8.ofNat a.val.toNat ∉ String.utf8EncodeChar c := by
  intro hbyte
  have hval : c.val.toNat ≠ a.val.toNat := fun h => hne (Char.ext (UInt32.toNat_inj.mp h))
  have hdiff : ∀ m : Nat, m % 256 ≠ a.val.toNat → UInt8.ofNat a.val.toNat ≠ UInt8.ofNat m := by
    intro m hm heq
    have := congrArg UInt8.toNat heq
    rw [UInt8.toNat_ofNat', UInt8.toNat_ofNat'] at this
    omega
  unfold String.utf8EncodeChar at hbyte
  dsimp only at hbyte
  split_ifs at hbyte
  · simp only [List.mem_cons, List.not_mem_nil, or_false] at hbyte
    exact hdiff _ (by omega) hbyte
  · simp only [List.mem_cons, List.not_mem_nil, or_false] at hbyte
    rcases hbyte with hb | hb <;> exact hdiff _ (by omega) hb
  · simp only [List.mem_cons, List.not_mem_nil, or_false] at hbyte
    rcases hbyte with hb | hb | hb <;> exact hdiff _ (by omega) hb
  · simp only [List.mem_cons, List.not_mem_nil, or_false] at hbyte
    rcases hbyte with hb | hb | hb | hb <;> exact hdiff _ (by omega) hb

theorem zero_notMem_utf8 {s : String} (h : '\x00' ∉ s.toList) : 0 ∉ utf8 s := by
  intro hzero
  obtain ⟨c, hc, hbyte⟩ := List.mem_flatMap.mp hzero
  have hne : c ≠ '\x00' := fun heq => h (heq ▸ hc)
  exact notMem_utf8EncodeChar (by decide) hne hbyte

/-- The text with one character for each byte: a Go string that holds bytes. -/
def byteText (bytes : List UInt8) : String := String.ofList (bytes.map fun b => Char.ofNat b.toNat)

end Text

end Kaalm.Foundation
