/-
  Foundation/LineScanner.lean --- lines read through a bounded buffer.

  Bytes arrive in reads of any size.  The scanner hands out what stands before a separator
  in its buffer; without one it reads on, as far as the buffer has room, and gives up when
  the buffer is full.  The relation `Scan` leaves the sizes of the reads open, and `scan_iff`
  says that they do not matter: a scan always ends, with the lines of the text up to the
  first that fills the buffer.
-/
import Mathlib.Data.List.Basic

namespace Kaalm.Foundation.LineScanner

variable {α β : Type} [DecidableEq α] [DecidableEq β]

/-- The lines of a text; a separator at its end begins no other line. -/
def lines (nl : α) (text : List α) : List (List α) :=
  if (text.splitOn nl).getLast? = some [] then (text.splitOn nl).dropLast else text.splitOn nl

/-- What a scan yields from what is buffered and what is still to come. -/
inductive Scan (nl : α) (limit : Nat) : List α → List α → List (List α) → Prop
  | line {l buffered rest : List α} {out : List (List α)} (hl : nl ∉ l)
      (hrest : Scan nl limit buffered rest out) :
      Scan nl limit (l ++ nl :: buffered) rest (l :: out)
  /-- a read, of any size within the room that is left -/
  | read {buffered piece rest : List α} {out : List (List α)} (hnl : nl ∉ buffered)
      (hpiece : piece ≠ []) (hroom : (buffered ++ piece).length ≤ limit)
      (hrest : Scan nl limit (buffered ++ piece) rest out) :
      Scan nl limit buffered (piece ++ rest) out
  /-- the buffer is full -/
  | tooLong {buffered rest : List α} (hnl : nl ∉ buffered) (hfull : limit ≤ buffered.length) :
      Scan nl limit buffered rest []
  /-- the text ends without a separator -/
  | last {buffered : List α} (hnl : nl ∉ buffered) (hne : buffered ≠ [])
      (hroom : buffered.length < limit) : Scan nl limit buffered [] [buffered]
  | eof : Scan nl limit [] [] []

section Lines

variable {nl : α} {l text : List α}

theorem lines_append_cons (hl : nl ∉ l) (text : List α) :
    lines nl (l ++ nl :: text) = l :: lines nl text := by
  have hne : text.splitOn nl ≠ [] := List.splitOn_ne_nil nl text
  obtain ⟨first, others, hsplit⟩ := List.exists_cons_of_ne_nil hne
  unfold lines
  rw [List.splitOn_append_cons_self_of_not_mem hl, hsplit, List.getLast?_cons_cons,
    List.dropLast_cons_cons]
  split_ifs <;> rfl

theorem lines_of_notMem (hl : nl ∉ l) : lines nl l = if l = [] then [] else [l] := by
  have hsplit : l.splitOn nl = [l] := by
    have h : ([nl].intercalate [l]).splitOn nl = [l] :=
      List.splitOn_intercalate nl (by simpa using hl) (by simp)
    simpa using h
  unfold lines
  rw [hsplit]
  by_cases hempty : l = [] <;> simp [hempty]

/-- The first line of a text goes on from what has been read of it. -/
theorem lines_append (hl : nl ∉ l) (hne : l ≠ []) (text : List α) :
    ∃ more out, lines nl (l ++ text) = (l ++ more) :: out := by
  by_cases hmem : nl ∈ text
  · obtain ⟨before, after, rfl, hbefore⟩ := List.eq_append_cons_of_mem hmem
    refine ⟨before, lines nl after, ?_⟩
    rw [← List.append_assoc, lines_append_cons (by simp [hl, hbefore])]
  · refine ⟨text, [], ?_⟩
    rw [lines_of_notMem (by simp [hl, hmem]), if_neg (by simp [hne])]

/-- Lines are found in the encoded text when only the separator is encoded as one. -/
theorem lines_flatMap {sep : β} {encode : β → List α} (hsep : encode sep = [nl])
    (hother : ∀ c, c ≠ sep → nl ∉ encode c) (hne : ∀ c, encode c ≠ []) (text : List β) :
    lines nl (text.flatMap encode) = (lines sep text).map (·.flatMap encode) := by
  have hclear : ∀ l : List β, sep ∉ l → nl ∉ l.flatMap encode := fun l hl h => by
    obtain ⟨c, hc, hin⟩ := List.mem_flatMap.mp h
    exact hother c (fun heq => hl (heq ▸ hc)) hin
  by_cases hmem : sep ∈ text
  · obtain ⟨before, after, rfl, hbefore⟩ := List.eq_append_cons_of_mem hmem
    rw [List.flatMap_append, List.flatMap_cons, hsep, List.singleton_append,
      lines_append_cons (hclear before hbefore), lines_append_cons hbefore, List.map_cons,
      lines_flatMap hsep hother hne after]
  · rw [lines_of_notMem (hclear text hmem), lines_of_notMem hmem]
    cases text with
    | nil => rfl
    | cons c rest => simp [hne c]
termination_by text.length

end Lines

section Scan

variable {nl : α} {limit : Nat} {buffered rest : List α} {out : List (List α)}

/-- A scan yields the lines up to the first that does not fit. -/
theorem Scan.eq_takeWhile (h : Scan nl limit buffered rest out) (hpos : 0 < limit)
    (hroom : buffered.length ≤ limit) :
    out = (lines nl (buffered ++ rest)).takeWhile (·.length < limit) := by
  induction h with
  | line hl hrest ih =>
    simp only [List.length_append, List.length_cons] at hroom
    rw [List.append_assoc, List.cons_append, lines_append_cons hl,
      List.takeWhile_cons_of_pos (by simp; omega), ih (by omega)]
  | read hnl hpiece hroom' hrest ih => rw [ih hroom', List.append_assoc]
  | @tooLong buffered rest hnl hfull =>
    have hne : buffered ≠ [] := List.ne_nil_of_length_pos (by omega)
    obtain ⟨more, others, hlines⟩ := lines_append hnl hne rest
    rw [hlines, List.takeWhile_cons_of_neg (by simp; omega)]
  | last hnl hne hshort =>
    rw [List.append_nil, lines_of_notMem hnl, if_neg hne, List.takeWhile_cons_of_pos (by simpa)]
    rfl
  | eof => rfl

theorem exists_scan (nl : α) (limit : Nat) (buffered rest : List α)
    (hroom : buffered.length ≤ limit) : ∃ out, Scan nl limit buffered rest out := by
  by_cases hmem : nl ∈ buffered
  · obtain ⟨l, more, heq, hl⟩ := List.eq_append_cons_of_mem hmem
    have hlen : more.length < buffered.length := by simp [heq]; omega
    obtain ⟨out, hout⟩ := exists_scan nl limit more rest (by omega)
    exact ⟨l :: out, heq ▸ .line hl hout⟩
  · by_cases hfull : limit ≤ buffered.length
    · exact ⟨[], .tooLong hmem hfull⟩
    · cases rest with
      | nil =>
        by_cases hempty : buffered = []
        · subst hempty
          exact ⟨[], .eof⟩
        · exact ⟨[buffered], .last hmem hempty (by omega)⟩
      | cons c rest =>
        have hroom' : (buffered ++ [c]).length ≤ limit := by simp; omega
        obtain ⟨out, hout⟩ := exists_scan nl limit (buffered ++ [c]) rest hroom'
        exact ⟨out, .read hmem (List.cons_ne_nil c []) hroom' hout⟩
termination_by 2 * rest.length + buffered.length
decreasing_by
  all_goals (simp; omega)

theorem scan_iff (hpos : 0 < limit) (hroom : buffered.length ≤ limit) :
    Scan nl limit buffered rest out ↔
      out = (lines nl (buffered ++ rest)).takeWhile (·.length < limit) := by
  refine ⟨fun h => h.eq_takeWhile hpos hroom, ?_⟩
  rintro rfl
  obtain ⟨out, hout⟩ := exists_scan nl limit buffered rest hroom
  rwa [hout.eq_takeWhile hpos hroom] at hout

end Scan

end Kaalm.Foundation.LineScanner
