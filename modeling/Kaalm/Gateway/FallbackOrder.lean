/-
  Gateway/FallbackOrder.lean --- the fallback walk is a depth-first search.

  WHAT IS STATED.  The graph of a request has the providers as nodes, each with the
  model its edge leads to, and the fallback references as edges in declared order.  Its
  preorder (`Foundation/DepthFirst.lean`) knows nothing of attempts, budgets or depth.
  A walk takes the first candidates of that order; the answers decide only where it
  stops.

  HOW.  The walk is followed along the derivation of the preorder, once for any calls
  (`WalkView.Rule`): it ends with an answer, or has taken a slot for everything the
  derivation puts out, or has used up the depth.  Here the slots taken so far are
  exactly the candidates met (`Standing`); `Gateway/LlmRun.lean` uses the same rule for
  the slots a request holds.
-/
import Kaalm.Foundation.DepthFirst
import Kaalm.Gateway.Fallback

namespace Kaalm.Gateway

open Kaalm.Foundation Kaalm.Foundation.Graph Kaalm.Foundation.Prog Kaalm.Translate

/-! ## The graph of a request -/

def fallbackCandidates (s : Store) (refs : List FallbackReference) (parentModel : String) :
    List Candidate :=
  refs.filterMap fun ref =>
    (s.providerByName ref.name).map fun next => (next, mappedModel ref parentModel)

def fallbackGraph (s : Store) (w : Walk) : Foundation.Graph Candidate String where
  key cand := cand.1.name
  children cand := fallbackCandidates s cand.1.fallback cand.2
  eligible := w.Eligible

def walkNames (s : Store) (w : Walk) : Finset String :=
  insert w.primary.name (s.providers.map fun p => p.name).toFinset

theorem card_walkNames_le (s : Store) (w : Walk) :
    (walkNames s w).card ≤ s.providers.length + 1 := by
  refine (Finset.card_insert_le _ _).trans (Nat.add_le_add_right ?_ 1)
  simpa using List.toFinset_card_le (s.providers.map fun p => p.name)

variable {cand : Candidate}

theorem name_mem_of_mem_fallbackCandidates {s : Store} (w : Walk) {refs : List FallbackReference}
    {parentModel : String} (h : cand ∈ fallbackCandidates s refs parentModel) :
    cand.1.name ∈ walkNames s w := by
  obtain ⟨ref, _, hnext⟩ := List.mem_filterMap.mp h
  obtain ⟨next, hfound, rfl⟩ := Option.map_eq_some_iff.mp hnext
  have hmem : next ∈ s.providers := List.mem_of_find?_eq_some hfound
  exact Finset.mem_insert_of_mem (List.mem_toFinset.mpr (List.mem_map_of_mem hmem))

theorem exists_unique_order (s : Store) (w : Walk) (cand : Candidate)
    (hcand : cand.1.name ∈ walkNames s w) :
    ∃! order, ∃ seen, (fallbackGraph s w).Preorder [] [cand] order seen := by
  obtain ⟨order, seen, h⟩ := exists_preorder (g := fallbackGraph s w)
    (fun _ _ hy => name_mem_of_mem_fallbackCandidates w hy)
    (unmarked (walkNames s w) [] + 1) [] [cand] (Nat.lt_succ_self _)
    (fun x hx => by rw [List.mem_singleton.mp hx]; exact hcand)
  exact ⟨order, ⟨seen, h⟩, fun order' ⟨seen', h'⟩ => (h'.unique h).1⟩

/-! ## The loop over the references -/

section Nodes

variable {Op : Type} {Ans : Op → Type}

/-- `walkRefs` over the candidates the references lead to. -/
def walkNodes (visit : Provider → WalkState → Prog Op Ans Stuck Walked) :
    List Candidate → WalkState → Prog Op Ans Stuck Walked
  | [], st => pure (none, st)
  | cand :: rest, st => do
    let walked ← visit cand.1 (st.setModel cand.1.name cand.2)
    match walked with
    | (some res, st) => pure (some res, st)
    | (none, st) => walkNodes visit rest st

theorem walkNodes_cons_pass {visit : Provider → WalkState → Prog Op Ans Stuck Walked}
    {rest : List Candidate} {st st' : WalkState}
    (h : visit cand.1 (st.setModel cand.1.name cand.2) = pure (none, st')) :
    walkNodes visit (cand :: rest) st = walkNodes visit rest st' := by
  rw [walkNodes, h]
  rfl

theorem walkRefs_eq (s : Store) (visit : Provider → WalkState → Prog Op Ans Stuck Walked)
    (parentModel : String) (refs : List FallbackReference) (st : WalkState) :
    walkRefs s visit parentModel refs st =
      walkNodes visit (fallbackCandidates s refs parentModel) st := by
  induction refs generalizing st with
  | nil => rfl
  | cons ref refs ih =>
    rw [walkRefs]
    cases hfound : s.providerByName ref.name with
    | none => simpa [fallbackCandidates, hfound] using ih st
    | some next =>
      have hlist : fallbackCandidates s (ref :: refs) parentModel =
          (next, mappedModel ref parentModel) :: fallbackCandidates s refs parentModel := by
        simp [fallbackCandidates, hfound]
      rw [hlist, walkNodes]
      refine congrArg (visit next _ >>= ·) (funext fun walked => ?_)
      obtain ⟨_ | res, st⟩ := walked
      · exact ih st
      · rfl

end Nodes

/-! ## Models along the edges -/

/-- A candidate without a model name serves the request's own, which is then empty
too. -/
def Served (w : Walk) (cand : Candidate) : Prop := cand.2 = "" → w.modelID = ""

variable {w : Walk}

theorem candidateModel_insert (h : Served w cand) (st : WalkState) :
    w.candidateModel (st.setModel cand.1.name cand.2) cand.1 = cand.2 := by
  simp only [Walk.candidateModel, WalkState.setModel, AList.lookup_insert]
  split_ifs with hempty
  · rw [hempty, h hempty]
  · rfl

theorem staticallyIneligible_error (st : WalkState) (hserved : Served w cand)
    (hfresh : st.translated.lookup cand.1.name = none) (hno : ¬ w.Eligible cand) :
    ∃ reason, w.staticallyIneligible cand.1
      ((st.setModel cand.1.name cand.2).mark cand.1.name) = .error reason := by
  have hmodel : w.candidateModel ((st.setModel cand.1.name cand.2).mark cand.1.name) cand.1 =
      cand.2 := candidateModel_insert hserved st
  have hnone : ((st.setModel cand.1.name cand.2).mark cand.1.name).translated.lookup cand.1.name =
      none := hfresh
  obtain ⟨reason, hcheck, _⟩ | ⟨_, _, hyes, _⟩ := Walk.staticallyIneligible_spec hnone hmodel
  · exact ⟨reason, hcheck⟩
  · exact absurd hyes hno

theorem served_of_mem_fallbackCandidates {s : Store} {refs : List FallbackReference}
    {parent : Candidate} (hparent : Served w parent)
    (h : cand ∈ fallbackCandidates s refs parent.2) :
    Served w cand := by
  obtain ⟨ref, _, hnext⟩ := List.mem_filterMap.mp h
  obtain ⟨next, _, rfl⟩ := Option.map_eq_some_iff.mp hnext
  intro hempty
  refine hparent ?_
  simp only [mappedModel] at hempty
  cases hmap : ref.modelMap.lookup parent.2 with
  | none => simpa [hmap] using hempty
  | some mapped =>
    simp only [hmap] at hempty
    split_ifs at hempty with hmapped
    · exact hempty
    · exact absurd hempty hmapped

/-! ## A walk that has used up its depth -/

section Full

variable {Op : Type} {Ans : Op → Type} (calls : WalkCalls Op Ans) {s : Store} {st : WalkState}

theorem staticallyIneligible_ok {provider : Provider} {st' : WalkState}
    (h : w.staticallyIneligible provider st = .ok st') :
    ∃ translated, st' = { st with translated := translated } := by
  unfold Walk.staticallyIneligible at h
  dsimp only at h
  split_ifs at h
  · split at h <;> (cases h; exact ⟨_, rfl⟩)
  · split at h
    · cases h; exact ⟨_, rfl⟩
    · split at h
      · cases h
      · cases h; exact ⟨_, rfl⟩

theorem tryWithFallbacks_noDepth (fuel : Nat) (provider : Provider)
    (hfull : w.maxDepth ≤ st.attemptCount) :
    ∃ st', tryWithFallbacks calls s w (fuel + 1) provider st = pure (none, st') ∧
      st'.attemptCount = st.attemptCount := by
  by_cases hmet : provider.name ∈ st.visited
  · exact ⟨st, tryWithFallbacks_met fuel hmet, rfl⟩
  cases hcheck : w.staticallyIneligible provider (st.mark provider.name) with
  | error reason => exact ⟨_, tryWithFallbacks_ineligible fuel hmet hcheck, rfl⟩
  | ok st' =>
    obtain ⟨translated, rfl⟩ := staticallyIneligible_ok hcheck
    exact ⟨_, tryWithFallbacks_full fuel hmet hcheck hfull, rfl⟩

theorem walkNodes_full (fuel : Nat) (work : List Candidate) (hfull : w.maxDepth ≤ st.attemptCount) :
    ∃ st', walkNodes (tryWithFallbacks calls s w (fuel + 1)) work st = pure (none, st') ∧
      st'.attemptCount = st.attemptCount := by
  induction work generalizing st with
  | nil => exact ⟨st, rfl, rfl⟩
  | cons cand rest ih =>
    have hset : w.maxDepth ≤ (st.setModel cand.1.name cand.2).attemptCount := hfull
    obtain ⟨st₁, hvisit, hcount⟩ := tryWithFallbacks_noDepth calls (s := s) fuel cand.1 hset
    have hfull₁ : w.maxDepth ≤ st₁.attemptCount := by rw [hcount]; exact hset
    obtain ⟨st₂, hrest, hcount'⟩ := ih hfull₁
    exact ⟨st₂, (walkNodes_cons_pass hvisit).trans hrest, hcount'.trans hcount⟩

end Full

/-! ## The rule of a walk -/

/-- A candidate is asked with its model, and with its translation where it has one. -/
structure Ready (w : Walk) (st : WalkState) (cand : Candidate) : Prop where
  eligible : w.Eligible cand
  model : w.candidateModel st cand.1 = cand.2
  translated : ∀ inbound target, w.crosses cand.1 = some (inbound, target) → ∃ body,
    request inbound target w.parsed cand.2 (maxOutputTokensOf cand.1 cand.2) = .ok body ∧
      st.translated.lookup cand.1.name = some body

/-- What an attempt leaves of the state as it was. -/
structure Unmoved (st st' : WalkState) : Prop where
  count : st'.attemptCount = st.attemptCount
  visited : st'.visited = st.visited
  modelFor : st'.modelFor = st.modelFor
  translated : st'.translated = st.translated

/-- Only visited providers have a translation. -/
def Cached (st : WalkState) : Prop := ∀ name, name ∉ st.visited → st.translated.lookup name = none

section Unmoved

variable {st st' : WalkState}

theorem unmoved_observe (st : WalkState) (failClass : Option FailClass) :
    Unmoved st (failClass.elim st st.observe) := by
  cases failClass <;> exact ⟨rfl, rfl, rfl, rfl⟩

theorem Unmoved.candidateModel (h : Unmoved st st') (provider : Provider) :
    w.candidateModel st' provider = w.candidateModel st provider := by
  simp only [Walk.candidateModel, h.modelFor]

theorem Unmoved.cached (h : Unmoved st st') (hcached : Cached st) : Cached st' := by
  intro name hname
  rw [h.translated]
  exact hcached name (by rwa [h.visited] at hname)

end Unmoved

/-- What is known of a walk with these calls: `At done` while it is between candidates and
`done` are those that have taken a slot, `Ended res` once an attempt has ended it. -/
structure WalkView (Op : Type) (Ans : Op → Type) where
  At : List Candidate → Trace Op Ans Stuck → Prop
  Ended : ForwardResult → Trace Op Ans Stuck → Prop

namespace WalkView

variable {Op : Type} {Ans : Op → Type} (V : WalkView Op Ans) (C : Contract Op Ans Stuck)
  (calls : WalkCalls Op Ans)

/-- An attempt ends the walk, or the walk is at `next` once the slot is freed. -/
def Tries (st : WalkState) (cand : Candidate) (settle : Option Settle) (next : List Candidate) :
    Trace Op Ans Stuck → Prop :=
  Returns C (fun p tr => Unmoved st p.2 ∧
      if p.1.terminal then V.Ended { p.1 with settle := settle } tr
      else Returns C (fun _ => V.At next) (releaseSlot calls.release settle) tr)
    (calls.attempt st cand.1)

structure Rule (w : Walk) (order : List Candidate) : Prop where
  primary : ∀ st tr, [(w.primary, w.modelID)] <+: order → 1 ≤ w.maxDepth.toNat → V.At [] tr →
    Ready w st (w.primary, w.modelID) →
    V.Tries C calls st (w.primary, w.modelID) w.primarySettle [(w.primary, w.modelID)] tr
  other : ∀ done cand st tr, done ≠ [] → cand.1.name ≠ w.primary.name → done ++ [cand] <+: order →
    (done ++ [cand]).length ≤ w.maxDepth.toNat → V.At done tr → Ready w st cand →
    Returns C (fun p tr' => if (st.refused p.1).isSome then V.At (done ++ [cand]) tr'
      else V.Tries C calls st cand p.2 (done ++ [cand]) tr') (calls.admission cand.1) tr

/-- Where a walk is between candidates. -/
structure Stands (done : List Candidate) (st : WalkState) (tr : Trace Op Ans Stuck) : Prop where
  count : st.attemptCount = done.length
  place : V.At done tr

/-- How a part of a walk ends that puts out everything up to `done`. -/
def Outcome (w : Walk) (done : List Candidate) (seen : List String) (walked : Walked)
    (tr : Trace Op Ans Stuck) : Prop :=
  match walked with
  | (some res, _) => V.Ended res tr
  | (none, st) => V.Stands done st tr ∧ st.visited = seen ∧ Cached st ∨
      ∃ taken, V.Stands taken st tr ∧ w.maxDepth ≤ taken.length

variable {V C calls} {s : Store} {order done : List Candidate} {st : WalkState}
  {tr : Trace Op Ans Stuck}

theorem Stands.congr {st' : WalkState} (h : V.Stands done st tr)
    (hcount : st'.attemptCount = st.attemptCount) : V.Stands done st' tr :=
  ⟨hcount.trans h.count, h.place⟩

/-! ## Following the derivation -/

variable {visit : Provider → WalkState → Prog Op Ans Stuck Walked}

theorem walkChildren_eq (hmodel : w.candidateModel st cand.1 = cand.2) :
    walkChildren s w visit cand.1 st = walkNodes visit ((fallbackGraph s w).children cand) st := by
  rw [walkChildren, hmodel, walkRefs_eq]
  rfl

theorem attemptCandidate_returns {Q : Walked → Trace Op Ans Stuck → Prop} {next : List Candidate}
    {settle : Option Settle} (h : V.Tries C calls st cand settle next tr)
    (hmodel : w.candidateModel st cand.1 = cand.2)
    (hend : ∀ res st' tr', V.Ended res tr' → Q (some res, st') tr')
    (hdown : ∀ st' tr', V.At next tr' → Unmoved st st' →
      Returns C Q (walkNodes visit ((fallbackGraph s w).children cand) st') tr') :
    Returns C Q (attemptCandidate calls s w visit cand.1 st settle) tr := by
  refine Returns.bind ?_ h
  rintro ⟨res, st'⟩ tr' ⟨hsame, hres⟩
  dsimp only at hsame hres ⊢
  split_ifs at hres ⊢ with hterminal
  · exact hend _ _ _ hres
  · rw [walkChildren_eq ((hsame.candidateModel cand.1).trans hmodel)]
    exact Returns.bind (fun _ tr'' hat => hdown st' tr'' hat hsame) hres

variable (V C calls) in
/-- An admission leaves the walk at `next`, or with the attempt to make. -/
def Admits (st : WalkState) (cand : Candidate) (next : List Candidate) :
    Option WalkState × Option Settle → Trace Op Ans Stuck → Prop
  | (some st', _), tr => Unmoved st st' ∧ V.At next tr
  | (none, settle), tr => V.Tries C calls st cand settle next tr

theorem Rule.admitCandidate_returns (hrule : V.Rule C calls w order)
    (hfirst : done ++ [cand] <+: order) (hdepth : (done ++ [cand]).length ≤ w.maxDepth.toNat)
    (hcase : done = [] ∧ cand = (w.primary, w.modelID) ∨
      done ≠ [] ∧ cand.1.name ≠ w.primary.name)
    (hat : V.At done tr) (hready : Ready w st cand) :
    Returns C (V.Admits C calls st cand (done ++ [cand]))
      (admitCandidate calls w cand.1 st) tr := by
  unfold admitCandidate
  rcases hcase with ⟨rfl, rfl⟩ | ⟨hne, hname⟩
  · rw [if_pos rfl]
    exact hrule.primary st tr hfirst hdepth hat hready
  · rw [if_neg hname]
    refine Returns.bind ?_ (hrule.other done cand st tr hne hname hfirst hdepth hat hready)
    rintro ⟨d, settle⟩ tr' hM
    dsimp only at hM ⊢
    cases hrefused : st.refused d with
    | none => rwa [hrefused] at hM
    | some st' =>
      rw [hrefused] at hM
      unfold WalkState.refused at hrefused
      refine ⟨?_, hM⟩
      split_ifs at hrefused <;> cases hrefused <;> exact ⟨rfl, rfl, rfl, rfl⟩

variable {seen : List String}

/-- One candidate that is met for the first time and is eligible, when the walk below
it does what its derivation says. -/
theorem Rule.visit_returns (hrule : V.Rule C calls w order) {below : List Candidate} (fuel : Nat)
    (hnew : cand.1.name ∉ st.visited) (helig : w.Eligible cand)
    (hmodel : w.candidateModel st cand.1 = cand.2) (hcached : Cached st)
    (hfirst : done ++ [cand] <+: order)
    (hcase : done = [] ∧ cand = (w.primary, w.modelID) ∨
      done ≠ [] ∧ cand.1.name ≠ w.primary.name)
    (h : V.Stands done st tr)
    (hdown : ∀ st' tr', V.Stands (done ++ [cand]) st' tr' →
      st'.visited = cand.1.name :: st.visited → Cached st' →
      Returns C (V.Outcome w (done ++ cand :: below) seen)
        (walkNodes (tryWithFallbacks calls s w fuel) ((fallbackGraph s w).children cand) st') tr') :
    Returns C (V.Outcome w (done ++ cand :: below) seen)
      (tryWithFallbacks calls s w (fuel + 1) cand.1 st) tr := by
  have hfresh : (st.mark cand.1.name).translated.lookup cand.1.name = none := hcached _ hnew
  have hmarked : w.candidateModel (st.mark cand.1.name) cand.1 = cand.2 := hmodel
  obtain ⟨reason, _, hno⟩ | ⟨translated, hcheck, _, hkept⟩ :=
    Walk.staticallyIneligible_spec hfresh hmarked
  · exact absurd helig hno
  generalize hst₁ : { st.mark cand.1.name with translated := translated } = st₁ at hcheck
  have hcount₁ : st₁.attemptCount = st.attemptCount := by rw [← hst₁]; rfl
  have hvisited₁ : st₁.visited = cand.1.name :: st.visited := by rw [← hst₁]; rfl
  have hready : Ready w st₁.takeSlot cand := by rw [← hst₁]; exact ⟨helig, hmarked, hkept.own⟩
  have hcached₁ : Cached st₁.takeSlot := by
    intro name hname
    have hother : name ≠ cand.1.name ∧ name ∉ st.visited := by
      simpa [WalkState.takeSlot, hvisited₁] using hname
    rw [← hst₁]
    exact (hkept.others name hother.1).trans (hcached name hother.2)
  have hstand := h.congr hcount₁
  by_cases hroom : w.maxDepth ≤ st₁.attemptCount
  · rw [tryWithFallbacks_full fuel hnew hcheck hroom]
    exact .inr ⟨done, hstand, by rwa [hstand.count] at hroom⟩
  rw [tryWithFallbacks, if_neg hnew, hcheck]
  dsimp only
  rw [if_neg hroom]
  have hdepth : (done ++ [cand]).length ≤ w.maxDepth.toNat := by
    rw [hstand.count] at hroom
    simp only [List.length_append, List.length_singleton]
    omega
  -- below the candidate, from any state the attempt or the refusal leaves
  have hbelow : ∀ st' tr', V.At (done ++ [cand]) tr' → Unmoved st₁.takeSlot st' →
      Returns C (V.Outcome w (done ++ cand :: below) seen)
        (walkNodes (tryWithFallbacks calls s w fuel) ((fallbackGraph s w).children cand) st')
        tr' := fun st' tr' hat hsame =>
    hdown st' tr' ⟨hsame.count.trans (by simp [WalkState.takeSlot, hstand.count]), hat⟩
      (hsame.visited.trans hvisited₁) (hsame.cached hcached₁)
  refine Returns.bind ?_ (hrule.admitCandidate_returns hfirst hdepth hcase h.place hready)
  rintro ⟨_ | st₂, settle⟩ tr' hM
  · exact attemptCandidate_returns hM hready.model (fun _ _ _ hend => hend) hbelow
  · obtain ⟨hsame, hat⟩ := hM
    simp only [walkChildren_eq ((hsame.candidateModel cand.1).trans hready.model)]
    exact hbelow _ _ hat hsame

theorem Rule.walkNodes_returns (hrule : V.Rule C calls w order) {seen' : List String}
    {work out : List Candidate} (h : (fallbackGraph s w).Preorder seen work out seen') :
    ∀ (fuel : Nat) (done more : List Candidate) (st : WalkState) (tr : Trace Op Ans Stuck),
      done ++ out ++ more = order → done ≠ [] → w.primary.name ∈ seen →
      (∀ cand ∈ work, cand.1.name ∈ walkNames s w) → (∀ cand ∈ work, Served w cand) →
      unmarked (walkNames s w) seen < fuel → V.Stands done st tr → st.visited = seen → Cached st →
      Returns C (V.Outcome w (done ++ out) seen')
        (walkNodes (tryWithFallbacks calls s w fuel) work st) tr := by
  induction h with
  | nil seen =>
    intro fuel done more st tr _ _ _ _ _ _ hstand hvisited hcached
    rw [List.append_nil]
    exact .inl ⟨hstand, hvisited, hcached⟩
  | @met seen seen' cand work out hmet _ ih =>
    intro fuel done more st tr horder hne hroot hnames hserved hfuel hstand hvisited hcached
    obtain ⟨n, rfl⟩ : ∃ n, fuel = n + 1 := ⟨fuel - 1, by omega⟩
    rw [walkNodes_cons_pass (tryWithFallbacks_met n (by rw [← hvisited] at hmet; exact hmet))]
    exact ih (n + 1) done more _ _ horder hne hroot
      (fun c hc => hnames c (List.mem_cons_of_mem _ hc))
      (fun c hc => hserved c (List.mem_cons_of_mem _ hc)) hfuel (hstand.congr rfl) hvisited
      hcached
  | @skip seen seen' cand work out hnew hno _ ih =>
    intro fuel done more st tr horder hne hroot hnames hserved hfuel hstand hvisited hcached
    obtain ⟨n, rfl⟩ : ∃ n, fuel = n + 1 := ⟨fuel - 1, by omega⟩
    have hnotin : cand.1.name ∉ st.visited := by rw [hvisited]; exact hnew
    obtain ⟨reason, hcheck⟩ := staticallyIneligible_error st
      (hserved cand List.mem_cons_self) (hcached _ hnotin) hno
    rw [walkNodes_cons_pass (tryWithFallbacks_ineligible n hnotin hcheck)]
    have hless := unmarked_cons_lt (hnames cand List.mem_cons_self) hnew
    refine ih (n + 1) done more _ _ horder hne (List.mem_cons_of_mem _ hroot)
      (fun c hc => hnames c (List.mem_cons_of_mem _ hc))
      (fun c hc => hserved c (List.mem_cons_of_mem _ hc)) (hless.trans hfuel)
      (hstand.congr rfl) (congrArg _ hvisited) fun name hname => hcached name fun hmem => ?_
    exact hname (List.mem_cons_of_mem _ hmem)
  | @visit seen between seen' cand work below beside hnew hyes hdown _ down rest =>
    intro fuel done more st tr horder hne hroot hnames hserved hfuel hstand hvisited hcached
    obtain ⟨n, rfl⟩ : ∃ n, fuel = n + 1 := ⟨fuel - 1, by omega⟩
    have hserved₁ := hserved cand List.mem_cons_self
    have hless := unmarked_cons_lt (hnames cand List.mem_cons_self) hnew
    have horder₁ : (done ++ [cand]) ++ below ++ (beside ++ more) = order := by
      rw [← horder]; simp
    have horder₂ : (done ++ cand :: below) ++ beside ++ more = order := by
      rw [← horder]; simp
    have hnotin : cand.1.name ∉ st.visited := by rw [hvisited]; exact hnew
    have hother : cand.1.name ≠ w.primary.name := fun heq => hnew (by
      rw [← heq] at hroot; exact hroot)
    refine Returns.bind (Q := V.Outcome w (done ++ cand :: below) between) ?_
      (hrule.visit_returns n hnotin hyes (candidateModel_insert hserved₁ st) hcached
        ⟨below ++ (beside ++ more), by rw [← horder₁]; simp⟩ (.inr ⟨hne, hother⟩)
        (hstand.congr rfl) fun st' tr' hstand' hvisited' hcached' => ?_)
    swap
    · have := down n (done ++ [cand]) (beside ++ more) st' tr' horder₁ (by simp)
        (List.mem_cons_of_mem _ hroot) (fun c hc => name_mem_of_mem_fallbackCandidates w hc)
        (fun c hc => served_of_mem_fallbackCandidates hserved₁ hc)
        (hless.trans_le (Nat.lt_succ_iff.mp hfuel)) hstand'
        (by rw [hvisited']; exact congrArg _ hvisited) hcached'
      rwa [List.append_assoc, List.singleton_append] at this
    rintro ⟨_ | res, st'⟩ tr' hM
    swap
    · exact hM
    obtain ⟨hstand', hvisited', hcached'⟩ | ⟨taken, hstand', hfull⟩ := hM
    · have hfewer : unmarked (walkNames s w) between ≤
          unmarked (walkNames s w) (cand.1.name :: seen) := unmarked_anti hdown.subset
      have hgo := rest (n + 1) (done ++ cand :: below) more st' tr' horder₂ (by simp)
        (hdown.subset (List.mem_cons_of_mem _ hroot))
        (fun c hc => hnames c (List.mem_cons_of_mem _ hc))
        (fun c hc => hserved c (List.mem_cons_of_mem _ hc))
        (hfewer.trans_lt (hless.trans hfuel)) hstand' hvisited' hcached'
      rwa [List.append_assoc, List.cons_append] at hgo
    · have hdepth : w.maxDepth ≤ st'.attemptCount := by rw [hstand'.count]; exact hfull
      obtain ⟨st'', hpure, hcount⟩ := walkNodes_full calls (s := s) n work hdepth
      dsimp only
      rw [hpure]
      exact .inr ⟨taken, hstand'.congr hcount, hfull⟩

/-- Calls that follow the rule take the first candidates of the preorder until one ends the
walk. -/
theorem Rule.tryWithFallbacks_returns (hrule : V.Rule C calls w order)
    (h : (fallbackGraph s w).Preorder [] [(w.primary, w.modelID)] order seen) {fuel : Nat}
    (hfuel : (walkNames s w).card < fuel) (hstart : V.At [] tr) :
    Returns C (V.Outcome w order seen) (tryWithFallbacks calls s w fuel w.primary w.start) tr := by
  obtain ⟨n, rfl⟩ : ∃ n, fuel = n + 1 := ⟨fuel - 1, by omega⟩
  have hserved : Served w (w.primary, w.modelID) := id
  have hmodel : w.candidateModel w.start w.primary = w.modelID := candidateModel_insert hserved {}
  have hcached : Cached w.start := fun _ _ => rfl
  have hstand : V.Stands [] w.start tr := ⟨rfl, hstart⟩
  cases h with
  | met hmet _ => exact absurd hmet List.not_mem_nil
  | skip _ hno rest =>
    cases rest
    obtain ⟨reason, hcheck⟩ := staticallyIneligible_error {} hserved rfl hno
    have hpass : tryWithFallbacks calls s w (n + 1) w.primary w.start =
        pure (none, w.start.mark w.primary.name) :=
      tryWithFallbacks_ineligible n List.not_mem_nil hcheck
    rw [hpass]
    exact .inl ⟨hstand.congr rfl, rfl, fun _ _ => rfl⟩
  | @visit _ _ _ _ _ below _ hnew hyes hdown rest =>
    cases rest
    rw [List.append_nil] at hrule ⊢
    have hroot : w.primary.name ∈ walkNames s w := Finset.mem_insert_self _ _
    have hless := unmarked_cons_lt hroot hnew
    have hall : unmarked (walkNames s w) [] ≤ (walkNames s w).card :=
      Finset.card_filter_le _ _
    have hfirst : [] ++ [(w.primary, w.modelID)] <+: (w.primary, w.modelID) :: below := ⟨below, rfl⟩
    refine hrule.visit_returns n hnew hyes hmodel hcached hfirst (.inl ⟨rfl, rfl⟩) hstand ?_
    intro st' tr' hstand' hvisited' hcached'
    exact hrule.walkNodes_returns hdown n [(w.primary, w.modelID)] [] st' tr' (List.append_nil _)
      (by simp) List.mem_cons_self (fun c hc => name_mem_of_mem_fallbackCandidates w hc)
      (fun c hc => served_of_mem_fallbackCandidates hserved hc)
      (hless.trans_le (hall.trans (Nat.lt_succ_iff.mp hfuel))) hstand' hvisited' hcached'

end WalkView

/-! ## Walks with open answers -/

inductive WalkOp where
  | admission (provider : Provider)
  | release (settle : Settle)
  | attempt (provider : Provider) (model : String)

abbrev WalkOp.Ans : WalkOp → Type
  | .admission _ => BudgetDecision × Option Settle
  | .release _ => Unit
  | .attempt _ _ => ForwardResult

abbrev WalkTrace : Type := Trace WalkOp WalkOp.Ans Stuck

/-- A walk whose admissions and attempts are answered by anybody. -/
def openCalls (w : Walk) : WalkCalls WalkOp WalkOp.Ans where
  admission provider := Prog.perform (WalkOp.admission provider)
  release settle := Prog.perform (WalkOp.release settle)
  attempt st provider := do
    let res ← Prog.perform (WalkOp.attempt provider (w.candidateModel st provider))
    pure (res, res.failClass.elim st st.observe)

/-- The slot an operation takes: the admission of a candidate, and the attempt on the
primary, which is not admitted again. -/
def slotOf (w : Walk) : WalkOp → List String
  | .admission provider => [provider.name]
  | .attempt provider _ => if provider.name = w.primary.name then [provider.name] else []
  | .release _ => []

def slots (w : Walk) (tr : WalkTrace) : List String := tr.reverse.flatMap fun o => slotOf w o.op

def attemptOf : WalkOp → List Candidate
  | .attempt provider model => [(provider, model)]
  | _ => []

def attempts (tr : WalkTrace) : List Candidate := tr.reverse.flatMap fun o => attemptOf o.op

/-- The candidate whose admission an observation refuses. -/
def refusalOf : Obs WalkOp WalkOp.Ans Stuck → List String
  | ⟨.admission provider, .ok (d, _)⟩ => if refuses d then [provider.name] else []
  | _ => []

def refusals (tr : WalkTrace) : List String := tr.flatMap refusalOf

/-- Those of the candidates that were not refused. -/
def admitted (tr : WalkTrace) (done : List Candidate) : List Candidate :=
  done.filter fun cand => cand.1.name ∉ refusals tr

/-- The attempt that is being asked for, on a candidate whose slot is taken. -/
def pendingOf (w : Walk) : WalkOp → List Candidate
  | .attempt provider model => if provider.name = w.primary.name then [] else [(provider, model)]
  | _ => []

@[simp] theorem slots_cons (w : Walk) (o : Obs WalkOp WalkOp.Ans Stuck) (tr : WalkTrace) :
    slots w (o :: tr) = slots w tr ++ slotOf w o.op := by
  simp [slots]

@[simp] theorem attempts_cons (o : Obs WalkOp WalkOp.Ans Stuck) (tr : WalkTrace) :
    attempts (o :: tr) = attempts tr ++ attemptOf o.op := by
  simp [attempts]

@[simp] theorem refusals_cons (o : Obs WalkOp WalkOp.Ans Stuck) (tr : WalkTrace) :
    refusals (o :: tr) = refusalOf o ++ refusals tr := by
  simp [refusals]

theorem refusals_subset_slots (w : Walk) (tr : WalkTrace) : refusals tr ⊆ slots w tr := by
  induction tr with
  | nil => exact List.nil_subset _
  | cons o tr ih =>
    have hthis : refusalOf o ⊆ slotOf w o.op := by
      unfold refusalOf
      split
      · split_ifs <;> simp [slotOf]
      · exact List.nil_subset _
    rw [refusals_cons, slots_cons]
    exact List.append_subset.mpr ⟨List.Subset.trans hthis (List.subset_append_right _ _),
      List.Subset.trans ih (List.subset_append_left _ _)⟩

def ending : Obs WalkOp WalkOp.Ans Stuck → Option ForwardResult
  | ⟨.attempt _ _, .ok res⟩ => if res.terminal then some res else none
  | _ => none

def Quiet (tr : WalkTrace) : Prop := ∀ o ∈ tr, ending o = none

/-- The slots taken are a first part of the order within the depth, and the attempts, with the one
that is pending, are those of it that were not refused. -/
def Progress (w : Walk) (order : List Candidate) (tr : WalkTrace) (pending : List Candidate) :
    Prop :=
  ∃ done : List Candidate, done <+: order ∧ done.length ≤ w.maxDepth.toNat ∧
    slots w tr = done.map (fun cand => cand.1.name) ∧ attempts tr ++ pending = admitted tr done

/-- What holds whenever a walk asks for something. -/
def walkContract (w : Walk) (order : List Candidate) : Contract WalkOp WalkOp.Ans Stuck where
  answers o := ∃ a, o.ans = .ok a
  allows tr op := Quiet tr ∧ Progress w order tr (pendingOf w op)

theorem walkContract_infallible (w : Walk) (order : List Candidate) :
    (walkContract w order).Infallible :=
  fun _ _ h => by obtain ⟨a, ha⟩ := h; cases ha

/-! ## The place of a walk with open answers -/

section Standing

variable (w : Walk) (order : List Candidate)

/-- The slots taken so far are those of `done`, and the attempts those that were not refused. -/
structure Standing (done : List Candidate) (tr : WalkTrace) : Prop where
  first : done <+: order
  depth : done.length ≤ w.maxDepth.toNat
  taken : slots w tr = done.map fun cand => cand.1.name
  tried : attempts tr = admitted tr done
  quiet : Quiet tr

def openView : WalkView WalkOp WalkOp.Ans where
  At := Standing w order
  Ended res tr := Progress w order tr [] ∧ ∃ o before, tr = o :: before ∧ Quiet before ∧
    ∃ answer, ending o = some answer ∧ res = { answer with settle := res.settle }

variable {w order} {done : List Candidate} {tr : WalkTrace}

theorem Standing.progress (h : Standing w order done tr) : Progress w order tr [] :=
  ⟨done, h.first, h.depth, h.taken, (List.append_nil _).trans h.tried⟩

theorem Quiet.cons {o : Obs WalkOp WalkOp.Ans Stuck} (h : Quiet tr) (ho : ending o = none) :
    Quiet (o :: tr) :=
  List.forall_mem_cons.mpr ⟨ho, h⟩

theorem openView_tries {st : WalkState} {settle : Option Settle}
    (hfirst : done ++ [cand] <+: order) (hdepth : (done ++ [cand]).length ≤ w.maxDepth.toNat)
    (hmodel : w.candidateModel st cand.1 = cand.2)
    (hprogress : Progress w order tr (pendingOf w (.attempt cand.1 cand.2)))
    (htaken : slots w tr ++ slotOf w (.attempt cand.1 cand.2) =
      (done ++ [cand]).map fun cand => cand.1.name)
    (htried : attempts tr ++ [cand] = admitted tr (done ++ [cand])) (hquiet : Quiet tr) :
    (openView w order).Tries (walkContract w order) (openCalls w) st cand settle (done ++ [cand])
      tr := by
  have hC := walkContract_infallible w order
  obtain ⟨provider, model⟩ := cand
  dsimp only at hmodel
  subst hmodel
  refine Returns.perform_bind hC ⟨hquiet, hprogress⟩ fun res _ =>
    ⟨unmoved_observe st res.failClass, ?_⟩
  have hslots := (slots_cons w ⟨WalkOp.attempt provider (w.candidateModel st provider), .ok res⟩
    tr).trans htaken
  have hattempts := (attempts_cons
    ⟨WalkOp.attempt provider (w.candidateModel st provider), .ok res⟩ tr).trans htried
  split_ifs with hterminal
  · exact ⟨⟨_, hfirst, hdepth, hslots, (List.append_nil _).trans hattempts⟩, _, tr, rfl, hquiet,
      res, by simp [ending, hterminal], rfl⟩
  · have hstand : Standing w order _ _ :=
      ⟨hfirst, hdepth, hslots, hattempts, hquiet.cons (by simp [ending, hterminal])⟩
    cases settle with
    | none => exact hstand
    | some handle =>
      exact Returns.perform hC ⟨hstand.quiet, hstand.progress⟩ fun _ _ =>
        { hstand with
          taken := by simpa [slotOf] using hstand.taken
          tried := by simpa [attemptOf, admitted, refusalOf] using hstand.tried
          quiet := hstand.quiet.cons rfl }

theorem openView_rule (hnodup : (order.map fun cand => cand.1.name).Nodup) :
    (openView w order).Rule (walkContract w order) (openCalls w) w order where
  primary _ tr hfirst hdepth hat hready := by
    rw [← List.nil_append [(w.primary, w.modelID)]] at hfirst ⊢
    have hnone : refusals tr = [] := by
      have hsubset := refusals_subset_slots w tr
      rw [hat.taken] at hsubset
      exact List.subset_nil.mp hsubset
    refine openView_tries hfirst hdepth hready.model ?_ (by simp [slotOf, hat.taken])
      (by simp [admitted, hnone, hat.tried]) hat.quiet
    simpa [pendingOf] using hat.progress
  other done cand st tr _ hname hfirst hdepth hat hready := by
    refine Returns.perform (walkContract_infallible w order) ⟨hat.quiet, hat.progress⟩
      fun p _ => ?_
    have hnew : cand.1.name ∉ done.map fun cand => cand.1.name := by
      have hpart := hnodup.sublist (hfirst.sublist.map fun cand => cand.1.name)
      rw [List.map_append, List.nodup_append] at hpart
      intro hmem
      exact hpart.2.2 _ hmem _ (List.mem_singleton.mpr rfl) rfl
    have hfresh : cand.1.name ∉ refusals tr := fun hmem =>
      hnew (hat.taken ▸ refusals_subset_slots w tr hmem)
    have hslots : slots w (⟨WalkOp.admission cand.1, .ok p⟩ :: tr) =
        (done ++ [cand]).map fun cand => cand.1.name := by
      simp [slotOf, hat.taken]
    have hattempts : attempts (⟨WalkOp.admission cand.1, .ok p⟩ :: tr) = admitted tr done := by
      simp [attemptOf, hat.tried]
    have hquiet := hat.quiet.cons (o := ⟨WalkOp.admission cand.1, .ok p⟩) rfl
    rw [isSome_refused]
    split_ifs with hrefused
    · have hrefusals : refusals (⟨WalkOp.admission cand.1, .ok p⟩ :: tr) =
          cand.1.name :: refusals tr := by
        simp [refusalOf, hrefused]
      refine ⟨hfirst, hdepth, hslots, hattempts.trans ?_, hquiet⟩
      rw [admitted, admitted, hrefusals, List.filter_append]
      simp only [List.mem_cons, true_or, not_true_eq_false, decide_false, Bool.false_eq_true,
        not_false_eq_true, List.filter_cons_of_neg, List.filter_nil, List.append_nil]
      refine List.filter_congr fun c hc => ?_
      have hne : c.1.name ≠ cand.1.name := fun heq => hnew (List.mem_map.mpr ⟨c, hc, heq⟩)
      simp [hne]
    · have hrefusals : refusals (⟨WalkOp.admission cand.1, .ok p⟩ :: tr) = refusals tr := by
        simp [refusalOf, hrefused]
      have htried : attempts (⟨WalkOp.admission cand.1, .ok p⟩ :: tr) ++ [cand] =
          admitted (⟨WalkOp.admission cand.1, .ok p⟩ :: tr) (done ++ [cand]) := by
        rw [hattempts, admitted, admitted, hrefusals, List.filter_append]
        simp [hfresh]
      refine openView_tries hfirst hdepth hready.model ⟨_, hfirst, hdepth, hslots, ?_⟩
        (by rw [hslots]; simp [slotOf, hname]) htried hquiet
      simpa [pendingOf, hname] using htried

end Standing

/-! ## The walk and the order -/

/-- Where a walk is in its order, when it goes on and when it has ended: it asks for
something only while no attempt has ended it, it never gets stuck, it returns the result
that ended it, and without one it has taken every slot of the order that the depth
admits. -/
def Stops (w : Walk) (order : List Candidate) (tr : WalkTrace) :
    Prog WalkOp WalkOp.Ans Stuck Walked → Prop
  | .call _ _ => Quiet tr
  | .fail _ => False
  | .ret (some res, _) => ∃ o before, tr = o :: before ∧ Quiet before ∧
      ∃ answer, ending o = some answer ∧ res = { answer with settle := res.settle }
  | .ret (none, _) => Quiet tr ∧
      slots w tr = (order.take w.maxDepth.toNat).map fun cand => cand.1.name

def pending (w : Walk) : Prog WalkOp WalkOp.Ans Stuck Walked → List Candidate
  | .call op _ => pendingOf w op
  | _ => []

theorem Standing.slots_eq {order done : List Candidate} {tr : WalkTrace}
    (h : Standing w order done tr) (hall : done = order ∨ w.maxDepth ≤ done.length) :
    slots w tr = (order.take w.maxDepth.toNat).map fun cand => cand.1.name := by
  rw [h.taken]
  rcases hall with rfl | hfull
  · rw [List.take_of_length_le h.depth]
  · have hlength : done.length = w.maxDepth.toNat := by
      have := h.depth
      omega
    rw [← hlength, ← List.prefix_iff_eq_take.mp h.first]

/-- At most `MaxFallbackDepth` providers take a slot, each once, and they are the first
of the depth-first preorder of the eligible providers, in every run and at every point
of it; each of them whose admission was not refused is attempted, in that order, and nobody
else; the walk ends with the first answer that ends it. -/
theorem fallback_walk_follows_preorder (s : Store) (w : Walk) (extra : Nat) :
    ∃ order seen, (fallbackGraph s w).Preorder [] [(w.primary, w.modelID)] order seen ∧
      ∀ tr rest, Reach (fun o => ∃ a, o.ans = .ok a)
          (tryWithFallbacks (openCalls w) s w (s.providers.length + 2 + extra) w.primary w.start)
          tr rest →
        ∃ done, done <+: order ∧ (done.map fun cand => cand.1.name).Nodup ∧
          done.length ≤ w.maxDepth.toNat ∧ slots w tr = done.map (fun cand => cand.1.name) ∧
          attempts tr ++ pending w rest = done.filter (fun cand => cand.1.name ∉ refusals tr) ∧
          Stops w order tr rest := by
  have hroot : w.primary.name ∈ walkNames s w := Finset.mem_insert_self _ _
  obtain ⟨order, ⟨seen, horder⟩, _⟩ := exists_unique_order s w (w.primary, w.modelID) hroot
  refine ⟨order, seen, horder, fun tr rest hreach => ?_⟩
  have hfuel : (walkNames s w).card < s.providers.length + 2 + extra := by
    have := card_walkNames_le s w
    omega
  have hstart : Standing w order [] [] :=
    ⟨List.nil_prefix, Nat.zero_le _, rfl, rfl, fun _ ho => absurd ho List.not_mem_nil⟩
  have hrest := ((openView_rule horder.nodup).tryWithFallbacks_returns horder hfuel hstart).reach
    hreach
  -- what every point of a run shares, and what depends on what is left to do
  have hpoint : Progress w order tr (pending w rest) ∧ Stops w order tr rest := by
    cases rest with
    | fail e => exact hrest.elim
    | call op k => exact ⟨hrest.1.2, hrest.1.1⟩
    | ret walked =>
      obtain ⟨_ | res, st⟩ := walked
      · rcases hrest with ⟨⟨_, hstand⟩, _⟩ | ⟨taken, ⟨_, hstand⟩, hfull⟩
        · exact ⟨hstand.progress, hstand.quiet, hstand.slots_eq (.inl rfl)⟩
        · exact ⟨hstand.progress, hstand.quiet, hstand.slots_eq (.inr hfull)⟩
      · exact hrest
  obtain ⟨⟨done, hfirst, hdepth, htaken, htried⟩, hstops⟩ := hpoint
  exact ⟨done, hfirst, horder.nodup.sublist (hfirst.sublist.map _), hdepth, htaken, htried, hstops⟩

/-! A diamond whose last provider falls back to the first, with a name that no provider has. -/

def fallingBack (name : String) (refs : List String) : Provider where
  name := name
  budget := { period := .monthly, perNamespaceUSD := "10", policies := [], clusterUSD := none,
              enforcement := .soft, hard := none }
  type := .openai
  endpoint := "https://upstream/"
  allowedNamespaces := ["*"]
  models := [⟨"m", none, "1", "2"⟩]
  fallback := refs.map fun ref => ⟨ref, ∅⟩

def diamond : Store where
  providers := [fallingBack "a" ["gone", "b", "c"], fallingBack "b" ["d"], fallingBack "c" ["d"],
    fallingBack "d" ["a"]]
  toolProviders := []
  workload _ _ _ := none
  class_ _ := none

/-- Everybody fails and these are refused; the state is the attempts. -/
def failing (refused : List String) :
    (op : WalkOp) → List String → Except Stuck op.Ans × List String
  | .admission provider, log =>
    (.ok ({ action := if provider.name ∈ refused then some .block else none }, none), log)
  | .release _, log => (.ok (), log)
  | .attempt provider _, log => (.ok (.failed .connect), log ++ [provider.name])

/-- A request for `a`. -/
def diamondWalk (maxDepth : Int) : Walk where
  primary := fallingBack "a" ["gone", "b", "c"]
  ns := "team"
  workload := "agent/a"
  modelID := "m"
  maxDepth := maxDepth
  primarySettle := none
  parsed := []
  inboundFormat := some .openai

def diamondAttempts (maxDepth : Int) (refused : List String) : List String :=
  ((tryWithFallbacks (openCalls (diamondWalk maxDepth)) diamond (diamondWalk maxDepth) 6
    (diamondWalk maxDepth).primary (diamondWalk maxDepth).start).play (failing refused) []).2

/-- Each once and `d` below `b`; below a refused `b` too, until the depth is used up. -/
theorem fallback_walk_diamond :
    diamondAttempts 5 [] = ["a", "b", "d", "c"] ∧ diamondAttempts 3 ["b"] = ["a", "d"] ∧
      ∃ order seen, (fallbackGraph diamond (diamondWalk 5)).Preorder []
        [((diamondWalk 5).primary, "m")] order seen := by
  obtain ⟨order, seen, horder, -⟩ := fallback_walk_follows_preorder diamond (diamondWalk 5) 0
  exact ⟨by decide +kernel, by decide +kernel, order, seen, horder⟩

end Kaalm.Gateway
