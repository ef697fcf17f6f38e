/-
  Gateway/Partials.lean --- the partials replicas exchange
  (`internal/gateway/budget.go`).

  THE WIRE.  A replica publishes its counters under its Pod name in the budget
  ConfigMap: one flat JSON object of strings, the period tag beside the namespaces.
  A ConfigMap value is what `json.Unmarshal` into a `map[string]string` makes of it:
  that map, or an error.

  WHAT A VALUE CONTRIBUTES.  `currentSpend` is the spend a reader finds in a value
  for a namespace in a period: of a value rendered from whole-cent counters those
  counters, as long as no namespace takes the place of the period tag.
-/
import Kaalm.Gateway.Ledger

namespace Kaalm.Gateway

open Kaalm.Foundation

def canonicalKey : String := "_canonical"

def retiredKey : String := "_retired"

def marginExceededField : String := "_marginExceeded"

/-- `strings.HasPrefix(k, "_")`. -/
def isFlag (k : String) : Bool := ['_'].isPrefixOf k.toList

/-- A ConfigMap value under `json.Unmarshal` into a `map[string]string`. -/
inductive RawValue where
  | malformed
  | object (flat : GoMap String String)
  deriving DecidableEq

def RawValue.isText (raw : RawValue) (flat : GoMap String String) : Bool :=
  match raw with
  | .malformed => false
  | .object m => m.entries.isPerm flat.entries

structure BudgetPartial where
  period : String
  spend : GoMap String String
  marginExceeded : Bool
  deriving DecidableEq

/-- `MarshalJSON`: period and namespaces in one object. -/
def BudgetPartial.marshalJSON (p : BudgetPartial) : GoMap String String :=
  let out := GoMap.overlay (AList.singleton "period" p.period) p.spend
  if p.marginExceeded then out.insert marginExceededField "true" else out

/-- The results of `ParseBudgetPartial`. -/
structure ParsedPartial where
  period : String := ""
  spend : GoMap String ℚ := ∅
  marginExceeded : Bool := false

def parseField (acc : ParsedPartial) (k v : String) : ParsedPartial :=
  if k = "period" then { acc with period := v }
  else if isFlag k then
    if k = marginExceededField ∧ v = "true" then { acc with marginExceeded := true } else acc
  else
    match parseAmount v with
    | none => acc
    | some f => { acc with spend := acc.spend.insert k f }

def parseBudgetPartial : RawValue → Option ParsedPartial
  | .malformed => none
  | .object flat => some (flat.entries.foldl (fun acc e => parseField acc e.1 e.2) {})

def formatSpend (m : GoMap String ℚ) : GoMap String String := m.mapValues formatFixed2

def retiredPartial (period : String) (spend : GoMap String ℚ) : BudgetPartial :=
  ⟨period, formatSpend spend, false⟩

/-- `OwnPartial`: the counters as stored, without a rollover. -/
def BudgetLedger.ownPartial (b : BudgetLedger) (providerName : String) : Option BudgetPartial :=
  match b.providers.lookup providerName with
  | none => none
  | some l =>
    if l.own.entries = [] then none
    else some ⟨l.period, formatSpend l.own, l.marginRaised⟩

theorem ownPartial_eq_some {b : BudgetLedger} {n : String} {q : BudgetPartial}
    (h : b.ownPartial n = some q) :
    ∃ pl, b.providers.lookup n = some pl ∧ q.period = pl.period ∧ q.spend = formatSpend pl.own := by
  unfold BudgetLedger.ownPartial at h
  split at h
  · cases h
  · rename_i pl hpl
    split_ifs at h
    cases h
    exact ⟨pl, hpl, rfl, rfl⟩

/-- One iteration of `FoldPartials`. -/
def foldPartial (ownPodName currentPeriod : String) (peers : GoMap String ℚ) (key : String)
    (raw : RawValue) : GoMap String ℚ :=
  if key = ownPodName ∨ key = canonicalKey then peers
  else
    match parseBudgetPartial raw with
    | none => peers
    | some p => if p.period ≠ currentPeriod then peers else peers.addAll p.spend

/-- `FoldPartials`: every current-period partial except the caller's own. -/
def foldPartials (data : GoMap String RawValue) (ownPodName currentPeriod : String) :
    GoMap String ℚ :=
  data.entries.foldl (fun peers e => foldPartial ownPodName currentPeriod peers e.1 e.2) ∅

/-- One iteration over a `_canonical` value. -/
def canonicalField (canonical : GoMap String ℚ) (ns v : String) : GoMap String ℚ :=
  match parseAmount v with
  | some f => canonical.insert ns f
  | none => canonical

/-- The amounts of a `_canonical` value, as `SeedFromCanonical` reads them. -/
def canonicalSpend : RawValue → Option (GoMap String ℚ)
  | .malformed => none
  | .object flat => some (flat.entries.foldl (fun m e => canonicalField m e.1 e.2) ∅)

/-! ## Whole cents -/

/-- A number of cents, in USD.  No spend is negative, which the bounds on sums below
need. -/
def WholeCents (q : ℚ) : Prop := ∃ n : ℕ, q = (n : ℚ) / 100

theorem WholeCents.zero : WholeCents 0 := ⟨0, by simp⟩

variable {a : ℚ}

theorem WholeCents.add {b : ℚ} (ha : WholeCents a) (hb : WholeCents b) : WholeCents (a + b) := by
  obtain ⟨n, rfl⟩ := ha
  obtain ⟨m, rfl⟩ := hb
  exact ⟨n + m, by push_cast; ring⟩

theorem WholeCents.nonneg (ha : WholeCents a) : 0 ≤ a := by
  obtain ⟨n, rfl⟩ := ha
  positivity

theorem WholeCents.parse (ha : WholeCents a) :
    parseAmount (formatFixed2 a) = if a < floatLimit then some a else none := by
  obtain ⟨n, rfl⟩ := ha
  have hparse := parseAmount_formatFixed2_int n
  rwa [Int.cast_natCast, abs_of_nonneg (by positivity)] at hparse

/-! ## What a parse finds -/

/-- A key that `ParseBudgetPartial` reads as a namespace. -/
def isSpendKey (k : String) : Bool := k ≠ "period" && !isFlag k

section Parse

variable {entries : List (Sigma fun _ : String => String)} {acc : ParsedPartial}

theorem parseField_period (acc : ParsedPartial) (k v : String) :
    (parseField acc k v).period = if k = "period" then v else acc.period := by
  unfold parseField
  split_ifs <;> first | rfl | (split <;> rfl)

theorem parseField_lookup (acc : ParsedPartial) (k v ns : String) :
    (parseField acc k v).spend.lookup ns =
      if ns = k ∧ isSpendKey k then (parseAmount v).or (acc.spend.lookup ns)
      else acc.spend.lookup ns := by
  unfold parseField
  by_cases hperiod : k = "period"
  · simp [hperiod, isSpendKey]
  · by_cases hflag : isFlag k = true
    · simp only [if_neg hperiod, hflag, if_true, isSpendKey, Bool.not_true, Bool.and_false,
        Bool.false_eq_true, and_false, if_false]
      split <;> rfl
    · have hkey : isSpendKey k = true := by simp [isSpendKey, hperiod, hflag]
      simp only [if_neg hperiod, hflag, Bool.false_eq_true, if_false, hkey, and_true]
      cases hv : parseAmount v with
      | none => simp
      | some f =>
        simp only [Option.some_or]
        rw [GoMap.lookup_insert_eq]

theorem parseFields_period (hnodup : entries.NodupKeys) :
    (entries.foldl (fun acc e => parseField acc e.1 e.2) acc).period =
      (entries.dlookup "period").getD acc.period := by
  induction entries generalizing acc with
  | nil => rfl
  | cons e rest ih =>
    obtain ⟨k, v⟩ := e
    rw [List.nodupKeys_cons] at hnodup
    rw [List.foldl_cons, ih hnodup.2, parseField_period]
    by_cases h : k = "period"
    · subst h
      have hrest : rest.dlookup "period" = none := List.dlookup_eq_none.mpr hnodup.1
      simp [hrest]
    · rw [if_neg h, List.dlookup_cons_ne rest ⟨k, v⟩ (Ne.symm h)]

theorem parseFields_lookup (hnodup : entries.NodupKeys) (ns : String) :
    (entries.foldl (fun acc e => parseField acc e.1 e.2) acc).spend.lookup ns =
      if isSpendKey ns then ((entries.dlookup ns).bind parseAmount).or (acc.spend.lookup ns)
      else acc.spend.lookup ns := by
  induction entries generalizing acc with
  | nil => simp
  | cons e rest ih =>
    obtain ⟨k, v⟩ := e
    rw [List.nodupKeys_cons] at hnodup
    rw [List.foldl_cons, ih hnodup.2, parseField_lookup]
    by_cases h : ns = k
    · subst h
      have hrest : rest.dlookup ns = none := List.dlookup_eq_none.mpr hnodup.1
      by_cases hkey : isSpendKey ns = true <;> simp [hrest, hkey]
    · simp [h]

end Parse

theorem parsed_of_object (flat : GoMap String String) :
    ∃ p, parseBudgetPartial (.object flat) = some p ∧
      p.period = (flat.lookup "period").getD "" ∧
      ∀ ns, p.spend.lookup ns =
        if isSpendKey ns then (flat.lookup ns).bind parseAmount else none := by
  refine ⟨_, rfl, ?_, fun ns => ?_⟩
  · exact parseFields_period flat.nodupKeys
  · have hempty : (({} : ParsedPartial).spend).lookup ns = none := AList.lookup_empty ns
    rw [parseFields_lookup flat.nodupKeys, hempty, Option.or_none]
    rfl

theorem canonicalFields_lookup (entries : List (Sigma fun _ : String => String)) :
    ∀ m : GoMap String ℚ, entries.NodupKeys → ∀ ns,
      (entries.foldl (fun m e => canonicalField m e.1 e.2) m).lookup ns =
        ((entries.dlookup ns).bind parseAmount).or (m.lookup ns) := by
  induction entries with
  | nil => intro m _ ns; rfl
  | cons x rest ih =>
    intro m hnodup ns
    obtain ⟨k, v⟩ := x
    rw [List.nodupKeys_cons] at hnodup
    rw [List.foldl_cons, ih _ hnodup.2]
    by_cases hns : ns = k
    · subst hns
      rw [List.dlookup_eq_none.mpr hnodup.1, List.dlookup_cons_eq]
      cases hv : parseAmount v <;> simp [canonicalField, hv]
    · rw [List.dlookup_cons_ne rest ⟨k, v⟩ hns]
      cases hv : parseAmount v with
      | none => simp only [canonicalField, hv]
      | some f => simp only [canonicalField, hv, AList.lookup_insert_ne hns]

variable {m : GoMap String ℚ}

theorem canonicalSpend_of_isText {raw : RawValue} (htext : raw.isText (formatSpend m) = true) :
    ∃ c, canonicalSpend raw = some c ∧
      ∀ ns, c.lookup ns = (m.lookup ns).bind fun v => parseAmount (formatFixed2 v) := by
  cases raw with
  | malformed => cases htext
  | object flat =>
    refine ⟨_, rfl, fun ns => ?_⟩
    have hflat : flat.lookup ns = (formatSpend m).lookup ns :=
      AList.perm_lookup (List.isPerm_iff.mp htext)
    rw [canonicalFields_lookup flat.entries ∅ flat.nodupKeys ns, AList.lookup_empty, Option.or_none]
    show (flat.lookup ns).bind parseAmount = _
    rw [hflat, formatSpend, GoMap.lookup_mapValues, Option.bind_map]
    rfl

/-! ## What a value contributes -/

/-- The spend a reader in the period finds for a namespace. -/
def currentSpend (currentPeriod : String) (raw : RawValue) (ns : String) : ℚ :=
  match parseBudgetPartial raw with
  | none => 0
  | some p => if p.period = currentPeriod then p.spend.at0 ns else 0

theorem lookup_marshalJSON (p : BudgetPartial) {k : String} (hk : k ≠ marginExceededField) :
    p.marshalJSON.lookup k =
      (p.spend.lookup k).or (if k = "period" then some p.period else none) := by
  have hout : (GoMap.overlay (AList.singleton "period" p.period) p.spend).lookup k =
      (p.spend.lookup k).or (if k = "period" then some p.period else none) := by
    rw [GoMap.lookup_overlay_eq, GoMap.lookup_singleton_eq]
  unfold BudgetPartial.marshalJSON
  split
  · rw [GoMap.lookup_insert_eq, if_neg hk, hout]
  · exact hout

theorem lookup_of_isSpendKey (p : BudgetPartial) {k : String} (h : isSpendKey k = true) :
    p.marshalJSON.lookup k = p.spend.lookup k := by
  have hmargin : k ≠ marginExceededField := by
    rintro rfl
    exact absurd h (by decide)
  have hperiod : k ≠ "period" := by
    rintro rfl
    exact absurd h (by decide)
  rw [lookup_marshalJSON p hmargin, if_neg hperiod, Option.or_none]

variable {p : BudgetPartial}

theorem period_marshalJSON (h : "period" ∉ p.spend) :
    p.marshalJSON.lookup "period" = some p.period := by
  rw [lookup_marshalJSON p (by decide), AList.lookup_eq_none.mpr h]
  rfl

variable (P : String) (data : GoMap String RawValue)

/-- What a reader finds in a rendered value: the amounts, unless a namespace took
the place of the tag. -/
theorem currentSpend_marshalJSON (hspend : p.spend = formatSpend m) (ns : String) :
    currentSpend P (.object p.marshalJSON) ns =
      if isSpendKey ns ∧ ((p.marshalJSON.lookup "period").getD "") = P then
        ((m.lookup ns).bind fun v => parseAmount (formatFixed2 v)).getD 0
      else 0 := by
  obtain ⟨q, hq, hperiod, hlookup⟩ := parsed_of_object p.marshalJSON
  simp only [currentSpend, hq, hperiod, GoMap.at0, hlookup]
  by_cases hkey : isSpendKey ns = true
  · rw [lookup_of_isSpendKey p hkey, hspend, formatSpend, GoMap.lookup_mapValues, Option.bind_map]
    simp only [hkey, true_and, if_true]
    rfl
  · simp [hkey]

section Rendered

variable {P : String}

theorem amount_getD (hcents : ∀ ns, WholeCents (m.at0 ns)) (ns : String) :
    0 ≤ ((m.lookup ns).bind fun v => parseAmount (formatFixed2 v)).getD 0 ∧
      ((m.lookup ns).bind fun v => parseAmount (formatFixed2 v)).getD 0 ≤ m.at0 ns ∧
      WholeCents (((m.lookup ns).bind fun v => parseAmount (formatFixed2 v)).getD 0) := by
  have hcents' := hcents ns
  cases hm : m.lookup ns with
  | none => exact ⟨le_rfl, by simp [GoMap.at0, hm], .zero⟩
  | some v =>
    have hv : m.at0 ns = v := by simp [GoMap.at0, hm]
    rw [hv] at hcents' ⊢
    rw [Option.bind_some, hcents'.parse]
    split_ifs
    · exact ⟨hcents'.nonneg, le_rfl, hcents'⟩
    · exact ⟨le_rfl, hcents'.nonneg, .zero⟩

theorem amount_eq {ns : String} (hcents : WholeCents (m.at0 ns)) (hrange : m.at0 ns < floatLimit) :
    ((m.lookup ns).bind fun v => parseAmount (formatFixed2 v)) = m.lookup ns := by
  cases hm : m.lookup ns with
  | none => rfl
  | some v =>
    have hv : m.at0 ns = v := by simp [GoMap.at0, hm]
    rw [hv] at hcents hrange
    rw [Option.bind_some, hcents.parse, if_pos hrange]

theorem currentSpend_rendered (hspend : p.spend = formatSpend m)
    (hcents : ∀ ns, WholeCents (m.at0 ns)) (ns : String) :
    0 ≤ currentSpend P (.object p.marshalJSON) ns ∧
      currentSpend P (.object p.marshalJSON) ns ≤ m.at0 ns ∧
      WholeCents (currentSpend P (.object p.marshalJSON) ns) := by
  rw [currentSpend_marshalJSON P hspend]
  split_ifs
  · exact amount_getD hcents ns
  · exact ⟨le_rfl, (hcents ns).nonneg, .zero⟩

theorem currentSpend_rendered_eq (hspend : p.spend = formatSpend m)
    (hcents : ∀ ns, WholeCents (m.at0 ns)) (hrange : ∀ ns, m.at0 ns < floatLimit)
    (hkeys : ∀ ns ∈ m, isSpendKey ns = true) (hperiod : p.period = P) (ns : String) :
    currentSpend P (.object p.marshalJSON) ns = m.at0 ns := by
  have hmem : ∀ k, k ∈ p.spend → k ∈ m := by
    intro k hk
    rw [hspend, formatSpend] at hk
    rw [← AList.lookup_isSome] at hk ⊢
    rwa [GoMap.lookup_mapValues, Option.isSome_map] at hk
  have htag : p.marshalJSON.lookup "period" = some P := by
    rw [period_marshalJSON fun h => absurd (hkeys _ (hmem _ h)) (by decide), hperiod]
  rw [currentSpend_marshalJSON P hspend, htag, Option.getD_some, amount_eq (hcents ns) (hrange ns)]
  split_ifs with hkey
  · rfl
  · have hns : ns ∉ m := fun hns => hkey ⟨hkeys ns hns, rfl⟩
    rw [GoMap.at0, AList.lookup_eq_none.mpr hns]
    rfl

end Rendered

/-! ## Rounded amounts -/

theorem WholeCents.toCents {q : ℚ} (h : 0 ≤ q) : WholeCents (toCents q) := by
  have hround : 0 ≤ roundHalfEven (q * 100) := by
    have hmono := roundHalfEven_mono (mul_nonneg h (by norm_num : (0 : ℚ) ≤ 100))
    rwa [show roundHalfEven 0 = 0 from roundHalfEven_intCast 0] at hmono
  refine ⟨(roundHalfEven (q * 100)).toNat, ?_⟩
  have hcast : (((roundHalfEven (q * 100)).toNat : ℕ) : ℚ) = (roundHalfEven (q * 100) : ℚ) := by
    exact_mod_cast Int.toNat_of_nonneg hround
  rw [hcast]
  rfl

theorem at0_toCents (m : GoMap String ℚ) (ns : String) :
    (m.mapValues toCents).at0 ns = toCents (m.at0 ns) := by
  simp only [GoMap.at0, GoMap.lookup_mapValues]
  cases m.lookup ns with
  | none => exact toCents_zero.symm
  | some v => rfl

section Rounded

variable {P : String}

theorem formatSpend_toCents (hpos : ∀ ns, 0 ≤ m.at0 ns) :
    formatSpend m = formatSpend (m.mapValues toCents) := by
  refine AList.ext ?_
  show m.entries.map _ = (m.entries.map _).map _
  rw [List.map_map]
  refine List.map_congr_left fun e he => ?_
  have hval : m.at0 e.1 = e.2 := by
    rw [GoMap.at0, show m.lookup e.1 = some e.2 from List.mem_dlookup m.nodupKeys he]
    rfl
  have hnonneg := hpos e.1
  rw [hval] at hnonneg
  simp only [Function.comp_apply, formatFixed2_toCents hnonneg]

/-- Counters whose text a reader gets back: no namespace has the name of a field,
and no amount is negative or past the range. -/
structure Legible (m : GoMap String ℚ) : Prop where
  nonneg : ∀ ns, 0 ≤ m.at0 ns
  range : ∀ ns, toCents (m.at0 ns) < floatLimit
  keys : ∀ ns ∈ m, isSpendKey ns = true

theorem currentSpend_toCents (hspend : p.spend = formatSpend m) (hm : Legible m)
    (hperiod : p.period = P) (ns : String) :
    currentSpend P (.object p.marshalJSON) ns = toCents (m.at0 ns) := by
  rw [formatSpend_toCents hm.nonneg] at hspend
  rw [← at0_toCents]
  refine currentSpend_rendered_eq hspend (fun ns => ?_) (fun ns => ?_) (fun ns hns => ?_) hperiod ns
  · rw [at0_toCents]
    exact .toCents (hm.nonneg ns)
  · rw [at0_toCents]
    exact hm.range ns
  · refine hm.keys ns ?_
    rw [← AList.lookup_isSome] at hns ⊢
    rwa [GoMap.lookup_mapValues, Option.isSome_map] at hns

end Rounded

theorem formatFixed2_ne_periodKey (q : ℚ) (σ : PeriodScheme) (t : Time) :
    formatFixed2 q ≠ periodKey σ t := by
  have hpoint : '.' ∈ (formatFixed2 q).toList := by
    simp [formatFixed2]
  have hpad : ∀ (w : Nat) (x : Int), '.' ∉ padInt w x := by
    intro w x hmem
    have hnat : '.' ∉ padNat w x.natAbs := fun h =>
      absurd (isDigit_of_mem_padNat h) (by decide)
    unfold padInt at hmem
    split_ifs at hmem
    · rcases List.mem_cons.mp hmem with h | h
      · exact absurd h (by decide)
      · exact hnat h
    · exact hnat hmem
  intro heq
  rw [heq] at hpoint
  cases σ <;> simp [periodKey, hpad] at hpoint

/-- A value with the tag of another period contributes nothing, whatever namespaces
it has. -/
theorem currentSpend_other_period {P : String} (hspend : p.spend = formatSpend m)
    (hP : ∃ σ t, periodKey σ t = P) (hne : p.period ≠ P) (ns : String) :
    currentSpend P (.object p.marshalJSON) ns = 0 := by
  rw [currentSpend_marshalJSON P hspend, if_neg]
  rintro ⟨-, htag⟩
  rw [lookup_marshalJSON p (by decide), hspend, formatSpend, GoMap.lookup_mapValues] at htag
  cases hm : m.lookup "period" with
  | none =>
    rw [hm] at htag
    exact hne htag
  | some v =>
    rw [hm] at htag
    obtain ⟨σ, t, rfl⟩ := hP
    exact formatFixed2_ne_periodKey v σ t htag

theorem currentSpend_of_isText {raw : RawValue} {flat : GoMap String String}
    (h : raw.isText flat = true) (P ns : String) :
    currentSpend P raw ns = currentSpend P (.object flat) ns := by
  cases raw with
  | malformed => cases h
  | object m =>
    have hperm : m.entries.Perm flat.entries := List.isPerm_iff.mp h
    have hlookup : ∀ k, m.lookup k = flat.lookup k := fun k => AList.perm_lookup hperm
    obtain ⟨p, hp, hperiod, hspend⟩ := parsed_of_object m
    obtain ⟨q, hq, hperiod', hspend'⟩ := parsed_of_object flat
    simp only [currentSpend, hp, hq, hperiod, hperiod', GoMap.at0, hspend, hspend', hlookup]

/-! ## What a ConfigMap holds -/

/-- The spend all values but `_canonical` hold for a namespace. -/
def spendOn (P : String) (data : GoMap String RawValue) (ns : String) : ℚ :=
  data.sumOver fun k raw => if k = canonicalKey then 0 else currentSpend P raw ns

def spendAt (P : String) (data : GoMap String RawValue) (key ns : String) : ℚ :=
  (data.lookup key).elim 0 fun raw => currentSpend P raw ns

theorem foldPartial_at0 (own P : String) (peers : GoMap String ℚ) (key : String) (raw : RawValue)
    (ns : String) : (foldPartial own P peers key raw).at0 ns =
      peers.at0 ns + if key = own ∨ key = canonicalKey then 0 else currentSpend P raw ns := by
  unfold foldPartial currentSpend
  by_cases hkey : key = own ∨ key = canonicalKey
  · simp [hkey]
  · rw [if_neg hkey, if_neg hkey]
    cases parseBudgetPartial raw with
    | none => simp
    | some p => by_cases hp : p.period = P <;> simp [hp]

theorem foldPartials_at0 (own P ns : String) :
    (foldPartials data own P).at0 ns =
      data.sumOver fun k raw =>
        if k = own ∨ k = canonicalKey then 0 else currentSpend P raw ns := by
  have hfold : ∀ (entries : List (Sigma fun _ : String => RawValue)) (peers : GoMap String ℚ),
      (entries.foldl (fun peers e => foldPartial own P peers e.1 e.2) peers).at0 ns =
        peers.at0 ns + (entries.map fun e =>
          if e.1 = own ∨ e.1 = canonicalKey then 0 else currentSpend P e.2 ns).sum := by
    intro entries
    induction entries with
    | nil => intro peers; simp
    | cons e rest ih =>
      intro peers
      rw [List.foldl_cons, ih, foldPartial_at0, List.map_cons, List.sum_cons]
      ring
  rw [foldPartials, hfold, GoMap.at0_empty, zero_add]
  rfl

theorem spendAt_eq_sumOver (key ns : String) :
    spendAt P data key ns =
      data.sumOver fun k raw => if k = key then currentSpend P raw ns else 0 := by
  have hrest : GoMap.sumOver (data.erase key)
      (fun k raw => if k = key then currentSpend P raw ns else 0) = 0 := by
    refine List.sum_eq_zero fun q hq => ?_
    obtain ⟨e, he, rfl⟩ := List.mem_map.mp hq
    exact if_neg (AList.mem_erase.mp (List.mem_keys_of_mem he)).1
  rw [GoMap.sumOver_eq_add_erase _ _ key, hrest, add_zero, spendAt]
  cases data.lookup key <;> simp

theorem foldPartials_add_spendAt {own : String} (P ns : String) (hown : own ≠ canonicalKey) :
    (foldPartials data own P).at0 ns + spendAt P data own ns = spendOn P data ns := by
  rw [foldPartials_at0, spendAt_eq_sumOver, ← GoMap.sumOver_add, spendOn]
  refine GoMap.sumOver_congr fun k raw _ => ?_
  by_cases hk : k = own
  · simp [hk, hown]
  · simp [hk]

theorem spendOn_insert {key : String} (raw : RawValue) (ns : String) (hkey : key ≠ canonicalKey) :
    spendOn P (data.insert key raw) ns + spendAt P data key ns =
      spendOn P data ns + currentSpend P raw ns := by
  rw [spendOn, GoMap.sumOver_insert, if_neg hkey, spendOn,
    GoMap.sumOver_eq_add_erase data _ key, spendAt]
  cases data.lookup key with
  | none => simp; ring
  | some old => simp [hkey]; ring

end Kaalm.Gateway
