/-
  Foundation/Base64.lean --- `encoding/base64`: the standard alphabet with padding,
  and the URL alphabet without; and `encoding/hex`.

  `decodeStd` is `StdEncoding.DecodeString`: line breaks are skipped, the padding
  has to be there and nothing may follow it, and the bits the last character has
  to spare are not looked at.  `decodeRawURL` is `RawURLEncoding.DecodeString`: no
  padding, the same in the rest.
-/
import Kaalm.Foundation.Text
import Mathlib.Tactic.Common

namespace Kaalm.Foundation.Base64

def sextet? (c : Char) : Option Nat :=
  if 'A' ≤ c ∧ c ≤ 'Z' then some (c.toNat - 'A'.toNat)
  else if 'a' ≤ c ∧ c ≤ 'z' then some (c.toNat - 'a'.toNat + 26)
  else if '0' ≤ c ∧ c ≤ '9' then some (c.toNat - '0'.toNat + 52)
  else if c = '+' then some 62
  else if c = '/' then some 63
  else none

def groupBytes (count : Nat) (a b c d : Nat) : List UInt8 :=
  let n := ((a * 64 + b) * 64 + c) * 64 + d
  [UInt8.ofNat (n / 65536), UInt8.ofNat (n / 256), UInt8.ofNat n].take count

/-- Groups of four characters; the last may be padded. -/
def decodeGroups : List Char → Option (List UInt8)
  | [] => some []
  | [a, b, '=', '='] => do
    return groupBytes 1 (← sextet? a) (← sextet? b) 0 0
  | [a, b, c, '='] => do
    return groupBytes 2 (← sextet? a) (← sextet? b) (← sextet? c) 0
  | a :: b :: c :: d :: rest => do
    let bytes := groupBytes 3 (← sextet? a) (← sextet? b) (← sextet? c) (← sextet? d)
    return bytes ++ (← decodeGroups rest)
  | _ => none

def decodeStd (s : String) : Option (List UInt8) :=
  decodeGroups (s.toList.filter fun c => c ≠ '\n' ∧ c ≠ '\r')

def decodeText (s : String) : Option String :=
  (decodeStd s).bind fun bytes => String.fromUTF8? ⟨bytes.toArray⟩

/-! ## The URL alphabet, unpadded -/

def urlSextet? (c : Char) : Option Nat :=
  if c = '-' then some 62
  else if c = '_' then some 63
  else if c = '+' ∨ c = '/' then none
  else sextet? c

def urlDigit (n : Nat) : Char :=
  if n < 26 then Char.ofNat ('A'.toNat + n)
  else if n < 52 then Char.ofNat ('a'.toNat + (n - 26))
  else if n < 62 then Char.ofNat ('0'.toNat + (n - 52))
  else if n = 62 then '-'
  else '_'

/-- Groups of four characters; the last may be short by one or two. -/
def decodeRawGroups : List Char → Option (List UInt8)
  | [] => some []
  | [a, b] => do
    return groupBytes 1 (← urlSextet? a) (← urlSextet? b) 0 0
  | [a, b, c] => do
    return groupBytes 2 (← urlSextet? a) (← urlSextet? b) (← urlSextet? c) 0
  | a :: b :: c :: d :: rest => do
    let bytes := groupBytes 3 (← urlSextet? a) (← urlSextet? b) (← urlSextet? c) (← urlSextet? d)
    return bytes ++ (← decodeRawGroups rest)
  | _ => none

def decodeRawURL (s : String) : Option (List UInt8) :=
  decodeRawGroups (s.toList.filter fun c => c ≠ '\n' ∧ c ≠ '\r')

/-- Groups of three bytes; the last may be short. -/
def encodeRawGroups : List UInt8 → List Char
  | [] => []
  | [a] => [urlDigit (a.toNat / 4), urlDigit (a.toNat % 4 * 16)]
  | [a, b] => [urlDigit (a.toNat / 4), urlDigit (a.toNat % 4 * 16 + b.toNat / 16),
      urlDigit (b.toNat % 16 * 4)]
  | a :: b :: c :: rest =>
    urlDigit (a.toNat / 4) :: urlDigit (a.toNat % 4 * 16 + b.toNat / 16) ::
      urlDigit (b.toNat % 16 * 4 + c.toNat / 64) :: urlDigit (c.toNat % 64) :: encodeRawGroups rest

def encodeRawURL (bytes : List UInt8) : String := String.ofList (encodeRawGroups bytes)

theorem urlSextet?_urlDigit {n : Nat} (h : n < 64) : urlSextet? (urlDigit n) = some n := by
  have hall : ∀ k : Fin 64, urlSextet? (urlDigit k) = some k.val := by decide
  exact hall ⟨n, h⟩

/-- Four characters of three bytes give the bytes back; two and three characters
are the same with the missing bytes zero. -/
theorem groupBytes_of_bytes (count : Nat) (a b c : UInt8) :
    groupBytes count (a.toNat / 4) (a.toNat % 4 * 16 + b.toNat / 16)
      (b.toNat % 16 * 4 + c.toNat / 64) (c.toNat % 64) = [a, b, c].take count := by
  have ha := a.toNat_lt
  have hb := b.toNat_lt
  have hc := c.toNat_lt
  have hsum : ((a.toNat / 4 * 64 + (a.toNat % 4 * 16 + b.toNat / 16)) * 64 +
      (b.toNat % 16 * 4 + c.toNat / 64)) * 64 + c.toNat % 64 =
      a.toNat * 65536 + b.toNat * 256 + c.toNat := by omega
  have hbytes : ∀ (x : UInt8) (m : Nat), m % 256 = x.toNat → UInt8.ofNat m = x := by
    intro x m hm
    apply UInt8.toNat_inj.mp
    exact hm
  unfold groupBytes
  simp only [hsum]
  rw [hbytes a _ (by omega), hbytes b _ (by omega), hbytes c _ (by omega)]

theorem decodeRawGroups_encodeRawGroups (bytes : List UInt8) :
    decodeRawGroups (encodeRawGroups bytes) = some bytes := by
  induction bytes using encodeRawGroups.induct with
  | case1 => rfl
  | case2 a =>
    have hgroup := groupBytes_of_bytes 1 a 0 0
    have ha := a.toNat_lt
    simp only [encodeRawGroups, decodeRawGroups,
      urlSextet?_urlDigit (show a.toNat / 4 < 64 by omega),
      urlSextet?_urlDigit (show a.toNat % 4 * 16 < 64 by omega)]
    simpa using hgroup
  | case3 a b =>
    have hgroup := groupBytes_of_bytes 2 a b 0
    have ha := a.toNat_lt
    have hb := b.toNat_lt
    simp only [encodeRawGroups, decodeRawGroups,
      urlSextet?_urlDigit (show a.toNat / 4 < 64 by omega),
      urlSextet?_urlDigit (show a.toNat % 4 * 16 + b.toNat / 16 < 64 by omega),
      urlSextet?_urlDigit (show b.toNat % 16 * 4 < 64 by omega)]
    simpa using hgroup
  | case4 a b c rest ih =>
    have hgroup := groupBytes_of_bytes 3 a b c
    have ha := a.toNat_lt
    have hb := b.toNat_lt
    have hc := c.toNat_lt
    simp only [encodeRawGroups, decodeRawGroups,
      urlSextet?_urlDigit (show a.toNat / 4 < 64 by omega),
      urlSextet?_urlDigit (show a.toNat % 4 * 16 + b.toNat / 16 < 64 by omega),
      urlSextet?_urlDigit (show b.toNat % 16 * 4 + c.toNat / 64 < 64 by omega),
      urlSextet?_urlDigit (show c.toNat % 64 < 64 by omega), ih]
    simp [hgroup]

theorem mem_encodeRawGroups {bytes : List UInt8} {c : Char} (h : c ∈ encodeRawGroups bytes) :
    ∃ n, c = urlDigit n := by
  induction bytes using encodeRawGroups.induct with
  | case1 => cases h
  | case2 | case3 => simp only [encodeRawGroups, List.mem_cons, List.not_mem_nil] at h; grind
  | case4 a b c rest ih => simp only [encodeRawGroups, List.mem_cons] at h; grind

theorem urlDigit_ne (n : Nat) : urlDigit n ≠ '.' ∧ urlDigit n ≠ '\n' ∧ urlDigit n ≠ '\r' := by
  by_cases h : n < 64
  · have hall : ∀ k : Fin 64, urlDigit k ≠ '.' ∧ urlDigit k ≠ '\n' ∧ urlDigit k ≠ '\r' := by decide
    exact hall ⟨n, h⟩
  · have : urlDigit n = '_' := by
      unfold urlDigit
      split_ifs <;> first | omega | rfl
    rw [this]
    decide

theorem dot_notMem_encodeRawURL (bytes : List UInt8) : '.' ∉ (encodeRawURL bytes).toList := by
  intro h
  obtain ⟨n, hn⟩ := mem_encodeRawGroups (by simpa [encodeRawURL] using h)
  exact (urlDigit_ne n).1 hn.symm

theorem decodeRawURL_encodeRawURL (bytes : List UInt8) :
    decodeRawURL (encodeRawURL bytes) = some bytes := by
  have hkeep : (encodeRawGroups bytes).filter (fun c => c ≠ '\n' ∧ c ≠ '\r') =
      encodeRawGroups bytes := by
    refine List.filter_eq_self.mpr fun c hc => ?_
    obtain ⟨n, rfl⟩ := mem_encodeRawGroups hc
    simp [urlDigit_ne n]
  rw [decodeRawURL, encodeRawURL, String.toList_ofList, hkeep, decodeRawGroups_encodeRawGroups]

end Kaalm.Foundation.Base64

namespace Kaalm.Foundation.Hex

def decodePairs : List Char → Option (List UInt8)
  | [] => some []
  | a :: b :: rest => do
    return UInt8.ofNat ((← hexDigit? a) * 16 + (← hexDigit? b)) :: (← decodePairs rest)
  | _ => none

/-- `hex.DecodeString`. -/
def decode (s : String) : Option (List UInt8) := decodePairs s.toList

end Kaalm.Foundation.Hex
