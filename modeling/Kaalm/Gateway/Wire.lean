/-
  Gateway/Wire.lean --- a partial as text (`internal/gateway/budget.go`).

  A partial is the JSON text of one flat object: the period tag, the margin flag and the
  spend share one set of names.  The flag begins with an underscore, which no Kubernetes
  name does, but `period` is a name like any other: the loop of `MarshalJSON` writes a
  namespace of that name over the tag.  A partial comes back whole exactly if it has no
  spend under that name (`partial_round_trip_iff`).
-/
import Kaalm.Foundation.JsonText
import Kaalm.Gateway.Identity
import Kaalm.Gateway.Partials

namespace Kaalm.Gateway

open Kaalm.Foundation

/-- `json.Unmarshal` of a text into a `map[string]string`. -/
def RawValue.ofText (text : String) : RawValue :=
  match (Json.parse text).bind Json.intoStringMap with
  | none => .malformed
  | some flat => .object flat

/-- `json.Marshal` of a partial. -/
def BudgetPartial.text (p : BudgetPartial) : String := Json.renderStrings p.marshalJSON

/-- A key of a partial: a namespace, or a namespace and a workload. -/
def IsPartialKey (k : String) : Prop :=
  isDNSLabel k = true ∨ ∃ ns workload, isDNSLabel ns = true ∧ k = ns ++ "/" ++ workload

def TwoDecimals (v : ℚ) : Prop := (∃ z : ℤ, v = (z : ℚ) / 100) ∧ |v| < floatLimit

/-! ## Keys and values -/

theorem not_isFlag_of_isDNSLabel {ns : String} (h : isDNSLabel ns = true) (rest : String) :
    isFlag (ns ++ rest) = false := by
  simp only [isDNSLabel, Bool.and_eq_true, List.all_eq_true] at h
  cases hns : ns.toList with
  | nil =>
    rw [hns] at h
    exact absurd h.1.2 (by decide)
  | cons c cs =>
    have hc := h.1.1.2 c (by rw [hns]; exact List.mem_cons_self)
    have hne : c ≠ '_' := by
      rintro rfl
      revert hc
      decide
    rw [isFlag, String.toList_append, hns]
    simp [List.isPrefixOf, Ne.symm hne]

theorem IsPartialKey.not_isFlag {k : String} (h : IsPartialKey k) : isFlag k = false := by
  rcases h with h | ⟨ns, workload, hns, rfl⟩
  · simpa using not_isFlag_of_isDNSLabel h ""
  · rw [String.append_assoc]
    exact not_isFlag_of_isDNSLabel hns _

theorem TwoDecimals.parse {v : ℚ} (h : TwoDecimals v) : parseAmount (formatFixed2 v) = some v := by
  obtain ⟨⟨z, rfl⟩, hrange⟩ := h
  rw [parseAmount_formatFixed2_int, if_pos hrange]

/-! ## The flag -/

section Flag

variable {entries : List (Sigma fun _ : String => String)} {acc : ParsedPartial}

theorem parseField_marginExceeded (acc : ParsedPartial) (k v : String) :
    (parseField acc k v).marginExceeded =
      (acc.marginExceeded || decide (k = marginExceededField ∧ v = "true")) := by
  unfold parseField
  split_ifs with hperiod hflag hmargin
  · subst hperiod
    simp [marginExceededField]
  · simp [hmargin]
  · simp [hmargin]
  · have hne : k ≠ marginExceededField := by
      rintro rfl
      exact hflag (by decide)
    split <;> simp [hne]

theorem parseFields_marginExceeded :
    (entries.foldl (fun acc e => parseField acc e.1 e.2) acc).marginExceeded =
      (acc.marginExceeded || decide (⟨marginExceededField, "true"⟩ ∈ entries)) := by
  induction entries generalizing acc with
  | nil => simp
  | cons e rest ih =>
    obtain ⟨k, v⟩ := e
    rw [List.foldl_cons, ih, parseField_marginExceeded, Bool.or_assoc, ← Bool.decide_or]
    congr 2
    simp [List.mem_cons, eq_comm]

end Flag

/-! ## The round trip -/

section RoundTrip

variable {period : String} {marginExceeded : Bool} {m : GoMap String ℚ}

theorem mem_formatSpend {k : String} : k ∈ formatSpend m ↔ k ∈ m := by
  rw [← AList.lookup_isSome, ← AList.lookup_isSome, formatSpend, GoMap.lookup_mapValues,
    Option.isSome_map]

theorem parse_text (p : BudgetPartial) :
    ∃ r, parseBudgetPartial (.ofText p.text) = some r ∧
      r.period = (p.marshalJSON.lookup "period").getD "" ∧
      r.marginExceeded = decide (p.marshalJSON.lookup marginExceededField = some "true") ∧
      ∀ k, r.spend.lookup k =
        if isSpendKey k then (p.marshalJSON.lookup k).bind parseAmount else none := by
  obtain ⟨flat, hflat, hlookup⟩ := Json.intoStringMap_renderStrings p.marshalJSON
  obtain ⟨r, hr, hperiod, hspend⟩ := parsed_of_object flat
  have htext : RawValue.ofText p.text = .object flat := by
    rw [RawValue.ofText, BudgetPartial.text, hflat]
  refine ⟨r, htext ▸ hr, ?_, ?_, fun k => ?_⟩
  · rw [hperiod, hlookup]
  · obtain rfl := Option.some.inj hr
    rw [parseFields_marginExceeded, Bool.false_or, ← hlookup]
    exact decide_eq_decide.mpr AList.mem_lookup_iff.symm
  · rw [hspend, hlookup]

theorem lookup_marginExceededField {p : BudgetPartial} (h : marginExceededField ∉ p.spend) :
    p.marshalJSON.lookup marginExceededField = if p.marginExceeded then some "true" else none := by
  have hout : (GoMap.overlay (AList.singleton "period" p.period) p.spend).lookup
      marginExceededField = none := by
    rw [GoMap.lookup_overlay_eq, AList.lookup_eq_none.mpr h, Option.none_or,
      GoMap.lookup_singleton_eq, if_neg (by decide)]
  unfold BudgetPartial.marshalJSON
  split_ifs
  · rw [AList.lookup_insert]
  · exact hout

def ReadsBack (period : String) (marginExceeded : Bool) (m : GoMap String ℚ) : Prop :=
  ∃ r, parseBudgetPartial (.ofText (BudgetPartial.text ⟨period, formatSpend m, marginExceeded⟩)) =
      some r ∧ r.period = period ∧ r.marginExceeded = marginExceeded ∧
    ∀ k, r.spend.lookup k = m.lookup k

theorem not_readsBack_of_mem (h : "period" ∈ m) : ¬ReadsBack period marginExceeded m := by
  rintro ⟨r, hr, -, -, hsame⟩
  obtain ⟨r', hr', -, -, hspend⟩ := parse_text ⟨period, formatSpend m, marginExceeded⟩
  obtain rfl := Option.some.inj (hr.symm.trans hr')
  have hnone : m.lookup "period" = none := (hsame _).symm.trans (hspend _)
  exact AList.lookup_eq_none.mp hnone h

/-- A partial whose keys are Kubernetes names comes back whole exactly if it holds nothing
under the name of the tag. -/
theorem partial_round_trip_iff (period : String) (marginExceeded : Bool) (m : GoMap String ℚ)
    (hkeys : ∀ k ∈ m, IsPartialKey k) (hvalues : ∀ k v, m.lookup k = some v → TwoDecimals v) :
    ReadsBack period marginExceeded m ↔ "period" ∉ m := by
  refine ⟨fun hback hmem => not_readsBack_of_mem hmem hback, fun htag => ?_⟩
  obtain ⟨r, hr, hperiod, hmargin, hspend⟩ := parse_text ⟨period, formatSpend m, marginExceeded⟩
  have hflag : marginExceededField ∉ formatSpend m := fun hmem =>
    absurd (hkeys _ (mem_formatSpend.mp hmem)).not_isFlag (by decide)
  refine ⟨r, hr, ?_, ?_, fun k => ?_⟩
  · rw [hperiod, period_marshalJSON fun hmem => htag (mem_formatSpend.mp hmem)]
    rfl
  · rw [hmargin, lookup_marginExceededField hflag]
    cases marginExceeded <;> rfl
  · rw [hspend]
    split_ifs with hkey
    · rw [lookup_of_isSpendKey _ hkey, formatSpend, GoMap.lookup_mapValues]
      cases hk : m.lookup k with
      | none => rfl
      | some v => exact (hvalues k v hk).parse
    · symm
      refine AList.lookup_eq_none.mpr fun hmem => hkey ?_
      have hne : k ≠ "period" := fun heq => htag (heq ▸ hmem)
      simp [isSpendKey, hne, (hkeys k hmem).not_isFlag]

theorem partial_round_trip_iff_workload :
    ReadsBack "2026-11" true (AList.singleton "team/agent" (1250 / 100)) := by
  refine (partial_round_trip_iff _ _ _ (fun k hk => ?_) fun k v hkv => ?_).mpr (by decide)
  · obtain rfl : k = "team/agent" := List.mem_singleton.mp hk
    exact .inr ⟨"team", "agent", by decide, by decide⟩
  · obtain ⟨-, rfl⟩ : k = "team/agent" ∧ v = 1250 / 100 := by
      simpa using AList.mem_lookup_iff.mp hkv
    exact ⟨⟨1250, rfl⟩, by decide +kernel⟩

/-- A namespace of the name `period`, with two dollars. -/
theorem namespace_period_lost :
    isDNSLabel "period" = true ∧ TwoDecimals 2 ∧
      ¬ReadsBack "2026-11" false (AList.singleton "period" 2) :=
  ⟨by decide, ⟨⟨200, by norm_num⟩, by decide +kernel⟩,
    not_readsBack_of_mem (List.mem_singleton.mpr rfl)⟩

end RoundTrip

end Kaalm.Gateway
