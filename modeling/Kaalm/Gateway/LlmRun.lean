/-
  Gateway/LlmRun.lean --- the admission slots of an LLM request.

  What a request holds is read off its history: an admission that answered with a
  settle closure adds it, a call of the closure takes it away (`held`).  `llmContract`
  says what may be asked at which history; the handler keeps to it whatever the ledger,
  the limiter, the credential store, the upstreams and the caller's connection answer
  (`handleLLMProxy_returns`).  Of the ledger it is known that an answer is one that
  `admitRequest` gives in some state.  `Forwards`, what is known of a request that goes
  upstream, is part of the same contract; `Gateway/Forwarded.lean` reads it.
-/
import Kaalm.Gateway.BudgetCap
import Kaalm.Gateway.FallbackOrder
import Kaalm.Gateway.LedgerRun
import Kaalm.Gateway.LlmProxy

namespace Kaalm.Gateway

open Kaalm.Foundation Kaalm.Foundation.Graph Kaalm.Foundation.Json Kaalm.Foundation.Prog
open Kaalm.Translate

/-! ## Histories -/

abbrev LlmTrace : Type := Trace LlmOp LlmOp.Ans Stuck

/-- The settle closures a request has acquired and not called. -/
def held : LlmTrace → List Settle
  | [] => []
  | ⟨.admission _ _ _, .ok (_, some handle)⟩ :: tr => handle :: held tr
  | ⟨.settle handle _, _⟩ :: tr => (held tr).erase handle
  | _ :: tr => held tr

/-- The provider whose answer is being served: the one last sent to, if it answered
2xx. -/
def servedBy : LlmTrace → Option String
  | [] => none
  | ⟨.send provider _, .ok (.answered resp)⟩ :: _ =>
    if isSuccess resp.status then some provider.name else none
  | ⟨.send _ _, _⟩ :: _ => none
  | _ :: tr => servedBy tr

/-- Operations are answered, and admissions as the ledger answers them. -/
def llmAnswers : Obs LlmOp LlmOp.Ans Stuck → Prop
  | ⟨.admission provider ns workload, .ok (decision, handle)⟩ =>
    ∃ (b : BudgetLedger) (clock : Clock) (wall : Time),
      decision = (b.admitRequest provider.toModelProvider ns workload clock wall).decision ∧
        handle = (b.admitRequest provider.toModelProvider ns workload clock wall).settle
  | ⟨_, .ok _⟩ => True
  | ⟨_, .error _⟩ => False

theorem llmAnswers_admission {provider : Provider} {ns workload : String}
    {decision : BudgetDecision} {handle : Settle}
    (h : llmAnswers ⟨.admission provider ns workload, .ok (decision, some handle)⟩) :
    decision.admitted = true ∧ handle.providerName = provider.name := by
  obtain ⟨b, clock, wall, rfl, hsettle⟩ := h
  have hout := admit_outcome b provider.toModelProvider ns workload clock wall
  refine ⟨?_, (admit_belongsTo hsettle.symm).1⟩
  generalize b.admitRequest provider.toModelProvider ns workload clock wall = res at hsettle hout ⊢
  cases hout with
  | off | soft | refused | plain => cases hsettle
  | slotted _ _ _ hblock =>
    simpa [BudgetDecision.admitted, hblock] using
      decideBudget_flags provider.budget _ clock.t2 wall

/-! ## The contract -/

structure Built (w : Walk) (provider : Provider) (model inboundPath : String)
    (built : Obj × String) : Prop where
  eligible : w.Eligible (provider, model)
  crossing : ∀ inbound target, w.crosses provider = some (inbound, target) → ∃ body,
    request inbound target w.parsed model (maxOutputTokensOf provider model) = .ok body ∧
      built = ((adapterForProviderType provider.type).fixupRequestBody body, canonicalPath target)
  plain : w.crosses provider = none →
    built = (if model ≠ w.modelID then put w.parsed "model" (.str model) else w.parsed, inboundPath)

/-- A request that goes upstream is built for a candidate of the walk this request started,
with the credential just read. -/
structure Forwards (cfg : LlmConfig) (c : Caller) (r : LlmRequest) (provider : Provider)
    (req : UpstreamRequest) (tr : LlmTrace) : Prop where
  exists_built : ∃ adapter parsed providerName modelName primary modelID primarySettle model built
      credential,
    adapterForPath r.path = some adapter ∧
    readRequest cfg r = .ok (parsed, providerName, modelName) ∧
    Built (walkOf cfg c r adapter parsed primary modelID primarySettle) provider model r.path
      built ∧
    req = upstreamRequest r provider built.1 built.2 credential ∧
    tr.head? = some ⟨.credential provider, .ok (some credential)⟩

/-- What may be asked when. -/
def llmContract (forwards : Provider → UpstreamRequest → LlmTrace → Prop) :
    Contract LlmOp LlmOp.Ans Stuck where
  answers := llmAnswers
  allows tr
    | .send provider req =>
      (∀ handle ∈ held tr, handle.providerName = provider.name) ∧ forwards provider req tr
    | .settle handle cost => cost ≠ 0 → servedBy tr = some handle.providerName
    | .add provider _ _ cost => cost ≠ 0 → servedBy tr = some provider.name
    | .write _ => ∀ handle ∈ held tr, servedBy tr = some handle.providerName
    | _ => True

theorem llmContract_infallible (forwards : Provider → UpstreamRequest → LlmTrace → Prop) :
    (llmContract forwards).Infallible := by
  intro op e h
  cases op <;> exact h

variable {forwards : Provider → UpstreamRequest → LlmTrace → Prop} {tr : LlmTrace}

/-! ## Accounting -/

theorem settleZero_returns {settle : Option Settle} (h : held tr = [] ∨ held tr = settle.toList) :
    Returns (llmContract forwards) (fun _ tr' => held tr' = []) (settleZero settle) tr := by
  cases settle with
  | none => exact h.elim id id
  | some handle =>
    refine Returns.perform (llmContract_infallible forwards) (fun hne => absurd rfl hne) ?_
    intro _ _
    show (held tr).erase handle = []
    rcases h with h | h <;> simp [h]

variable {provider : Provider}

theorem settleUsage_returns {settle : Option Settle} {ns workload : String} {modelID : String}
    {usage : Usage} (hheld : held tr = settle.toList) (hserved : servedBy tr = some provider.name)
    (hown : ∀ handle ∈ settle, handle.providerName = provider.name) :
    Returns (llmContract forwards) (fun _ tr' => held tr' = [])
      (settleUsage provider ns workload modelID usage settle) tr := by
  cases settle with
  | none =>
    exact Returns.perform (llmContract_infallible forwards) (fun _ => hserved) fun _ _ => hheld
  | some handle =>
    refine Returns.perform (llmContract_infallible forwards) (fun _ => ?_) fun _ _ => ?_
    · rw [hserved, hown handle rfl]
    · show (held tr).erase handle = []
      simp [hheld]

/-! ## Streams -/

/-- A part of the relay of an answer: what is held and who serves stay. -/
def Relaying (tr tr' : LlmTrace) : Prop := held tr' = held tr ∧ servedBy tr' = servedBy tr

theorem writeLines_returns (lines : List String)
    (h : ∀ handle ∈ held tr, servedBy tr = some handle.providerName) :
    Returns (llmContract forwards) (fun _ tr' => Relaying tr tr') (writeLines lines) tr := by
  induction lines generalizing tr with
  | nil => exact ⟨rfl, rfl⟩
  | cons line rest ih =>
    refine Returns.perform_bind (llmContract_infallible forwards) h fun ok _ => ?_
    have hnext : ∀ handle ∈ held (⟨LlmOp.write line, .ok ok⟩ :: tr),
        servedBy (⟨LlmOp.write line, .ok ok⟩ :: tr) = some handle.providerName := h
    split_ifs
    · exact ih hnext
    · exact ⟨rfl, rfl⟩

theorem relayLines_returns (adapter : Adapter) (lines : List String) :
    ∀ (translator : Option Translator) (usage : Usage) {tr : LlmTrace},
      (∀ handle ∈ held tr, servedBy tr = some handle.providerName) →
      Returns (llmContract forwards) (fun _ tr' => Relaying tr tr')
        (relayLines adapter translator usage lines) tr := by
  induction lines with
  | nil =>
    intro translator usage tr h
    exact Returns.bind (fun _ _ hM => hM) (writeLines_returns _ h)
  | cons line rest ih =>
    intro translator usage tr h
    refine Returns.bind (fun ok tr' hM => ?_) (writeLines_returns _ h)
    split_ifs
    · refine (ih _ _ ?_).mono fun _ tr'' hM' => ⟨hM'.1.trans hM.1, hM'.2.trans hM.2⟩
      rw [hM.1, hM.2]
      exact h
    · exact hM

theorem newTranslator_returns (source target : Format) (model : String) :
    Returns (llmContract forwards) (fun _ tr' => Relaying tr tr')
      (newTranslator source target model) tr := by
  have hC := llmContract_infallible forwards
  cases source <;> cases target
  · exact ⟨rfl, rfl⟩
  · exact Returns.perform_bind hC trivial fun _ _ => Returns.perform_bind hC trivial fun _ _ =>
      ⟨rfl, rfl⟩
  · exact Returns.perform_bind hC trivial fun _ _ => ⟨rfl, rfl⟩
  · exact ⟨rfl, rfl⟩

theorem translatorFor_returns (crossing : Option (Format × Format)) (modelID : String) :
    Returns (llmContract forwards) (fun _ tr' => Relaying tr tr')
      (translatorFor crossing modelID) tr := by
  cases crossing with
  | none => exact ⟨rfl, rfl⟩
  | some formats => exact newTranslator_returns _ _ _

/-! ## The answer -/

theorem relayBuffered_returns (resp : UpstreamResponse) (provider : Provider)
    (crossing : Option (Format × Format)) (h : held tr = []) :
    Returns (llmContract forwards) (fun _ tr' => held tr' = [])
      (relayBuffered resp provider crossing) tr := by
  cases crossing with
  | none => exact h
  | some formats =>
    refine Returns.perform_bind (llmContract_infallible forwards) trivial fun nano _ => ?_
    split <;> exact h

/-- A result that can be relayed: its slot is the only one held, and is its candidate's,
which serves if it answered 2xx. -/
structure Relayable (res : ForwardResult) (tr : LlmTrace) : Prop where
  held_eq : held tr = res.settle.toList
  exists_answer : ∃ resp provider, res.resp = some resp ∧ res.chosen = some provider ∧
    (∀ handle ∈ res.settle, handle.providerName = provider.name) ∧
    (isSuccess resp.status = true → servedBy tr = some provider.name)

theorem writeAnswer_returns {res : ForwardResult} {resp : UpstreamResponse}
    (inboundFormat : Option Format) (ns workload modelID : String)
    (hheld : held tr = res.settle.toList)
    (hown : ∀ handle ∈ res.settle, handle.providerName = provider.name)
    (hserved : isSuccess resp.status = true → servedBy tr = some provider.name) :
    Returns (llmContract forwards) (fun _ tr' => held tr' = [])
      (writeAnswer res resp provider inboundFormat ns workload modelID) tr := by
  unfold writeAnswer
  split_ifs with hstatus hsse
  · exact Returns.bind (fun _ _ hM => hM) (settleZero_returns (.inr hheld))
  · have hserves : servedBy tr = some provider.name := hserved (by simpa using hstatus)
    have hall : ∀ handle ∈ held tr, servedBy tr = some handle.providerName := by
      intro handle hmem
      rw [hheld] at hmem
      rw [hserves, hown handle (Option.mem_toList.mp hmem)]
    refine Returns.bind (fun translator tr₁ h₁ => ?_) (translatorFor_returns _ _)
    refine Returns.bind (fun usage tr₂ h₂ => ?_)
      (relayLines_returns _ _ translator {} (by rw [h₁.1, h₁.2]; exact hall))
    have hheld₂ : held tr₂ = res.settle.toList := (h₂.1.trans h₁.1).trans hheld
    have hserves₂ : servedBy tr₂ = some provider.name := (h₂.2.trans h₁.2).trans hserves
    refine Returns.bind (Q := fun _ tr' => held tr' = []) (fun _ _ hM => ?_) ?_
    · exact hM
    · unfold settleStream
      split_ifs
      · exact settleZero_returns (.inr hheld₂)
      · exact settleUsage_returns hheld₂ hserves₂ hown
  · have hserves : servedBy tr = some provider.name := hserved (by simpa using hstatus)
    refine Returns.bind (Q := fun _ tr' => held tr' = []) (fun _ _ hM => ?_) ?_
    · exact relayBuffered_returns _ _ _ hM
    · unfold settleBuffered
      split
      · exact settleUsage_returns hheld hserves hown
      · exact settleZero_returns (.inr hheld)

theorem writeWalkResult_returns {res : ForwardResult} (w : Walk) (h : Relayable res tr) :
    Returns (llmContract forwards) (fun _ tr' => held tr' = []) (writeWalkResult res w) tr := by
  obtain ⟨resp, provider, hresp, hchosen, hown, hserved⟩ := h.exists_answer
  unfold writeWalkResult
  rw [hresp, hchosen]
  exact writeAnswer_returns _ _ _ _ h.held_eq hown hserved

/-! ## One attempt -/

/-- What an attempt leaves: nothing acquired, and a result that ends the walk has its answer. -/
structure Attempted (provider : Provider) (tr : LlmTrace) (fr : ForwardResult) (tr' : LlmTrace) :
    Prop where
  held_eq : held tr' = held tr
  answered : fr.terminal = true → ∃ resp, fr.resp = some resp ∧ fr.chosen = some provider ∧
    (isSuccess resp.status = true → servedBy tr' = some provider.name)

theorem not_terminal_failed (failClass : FailClass) :
    (ForwardResult.failed failClass).terminal ≠ true := by
  simp [ForwardResult.failed, ForwardResult.terminal]

theorem forwardOnce_returns {r : LlmRequest} {body : Obj} {path : String}
    (hheld : ∀ handle ∈ held tr, handle.providerName = provider.name)
    (hforwards : ∀ credential, forwards provider (upstreamRequest r provider body path credential)
      (⟨.credential provider, .ok (some credential)⟩ :: tr)) :
    Returns (llmContract forwards) (Attempted provider tr)
      (forwardOnce r provider body path) tr := by
  have hC := llmContract_infallible forwards
  refine Returns.perform_bind hC trivial fun credential _ => ?_
  cases credential with
  | none => exact ⟨rfl, fun h => absurd h (not_terminal_failed _)⟩
  | some credential =>
    refine Returns.perform_bind hC ⟨hheld, hforwards credential⟩ fun outcome _ => ?_
    refine ⟨rfl, fun hterminal => ?_⟩
    cases outcome with
    | failed deadline => exact absurd hterminal (not_terminal_failed _)
    | answered resp =>
      simp only [forwardOutcome] at hterminal ⊢
      split_ifs at hterminal ⊢ with hcut
      · exact absurd hterminal (not_terminal_failed _)
      · exact ⟨resp, rfl, rfl, fun hok => if_pos hok⟩

/-! ## The walk -/

theorem candidateRequest_built {w : Walk} {st : WalkState} {cand : Candidate} (path : String)
    (h : Ready w st cand) : Built w cand.1 cand.2 path (candidateRequest w st cand.1 path) where
  eligible := h.eligible
  crossing inbound target hc := by
    obtain ⟨body, hbody, hlookup⟩ := h.translated inbound target hc
    exact ⟨body, hbody, by simp [candidateRequest, hc, hlookup]⟩
  plain hc := by simp [candidateRequest, hc, h.model]

theorem not_admitted_of_refused {st st' : WalkState} {d : BudgetDecision}
    (h : st.refused d = some st') : ¬ d.admitted = true := by
  unfold WalkState.refused at h
  split_ifs at h with hunavailable hthrottled hblock
  · simp [BudgetDecision.admitted, hunavailable]
  · simp [BudgetDecision.admitted, hthrottled]
  · simp [BudgetDecision.admitted, hblock]

/-- The slots of a walk: the primary's until it is tried, none between the others, and the
candidate's own with a result that ends the walk. -/
def slotView (w : Walk) : WalkView LlmOp LlmOp.Ans where
  At done tr := held tr = if done = [] then w.primarySettle.toList else []
  Ended := Relayable

section Walking

variable {r : LlmRequest} {w : Walk}
  (hforwards : ∀ provider model built credential tr, Built w provider model r.path built →
    forwards provider (upstreamRequest r provider built.1 built.2 credential)
      (⟨.credential provider, .ok (some credential)⟩ :: tr))

include hforwards

theorem slotView_tries {st : WalkState} {cand : Candidate} {settle : Option Settle}
    {next : List Candidate} (hheld : held tr = settle.toList)
    (hown : ∀ handle ∈ settle, handle.providerName = cand.1.name) (hready : Ready w st cand)
    (hnext : next ≠ []) :
    (slotView w).Tries (llmContract forwards) (llmCalls r w) st cand settle next tr := by
  refine Returns.bind (fun fr tr' hM => ?_) (forwardOnce_returns (fun handle hmem => ?_)
    fun credential => hforwards cand.1 _ _ credential tr (candidateRequest_built r.path hready))
  · refine ⟨unmoved_observe st fr.failClass, ?_⟩
    have hheld' : held tr' = settle.toList := hM.held_eq.trans hheld
    split_ifs with hterminal
    · obtain ⟨resp, hresp, hchosen, hserved⟩ := hM.answered hterminal
      exact ⟨hheld', resp, cand.1, hresp, hchosen, hown, hserved⟩
    · exact (settleZero_returns (.inr hheld')).mono fun _ _ hnone =>
        hnone.trans (if_neg hnext).symm
  · rw [hheld] at hmem
    exact hown handle (Option.mem_toList.mp hmem)

theorem slotView_rule (order : List Candidate)
    (hsettle : ∀ handle ∈ w.primarySettle, handle.providerName = w.primary.name) :
    (slotView w).Rule (llmContract forwards) (llmCalls r w) w order where
  primary _ _ _ _ hat hready := slotView_tries hforwards hat hsettle hready (List.cons_ne_nil _ _)
  other done cand st tr hne _ _ _ hat hready := by
    have hheld : held tr = [] := hat.trans (if_neg hne)
    have hnext : done ++ [cand] ≠ [] := by simp
    refine Returns.perform (llmContract_infallible forwards) trivial ?_
    rintro ⟨d, settle⟩ hans
    have hheld' : held (⟨LlmOp.admission cand.1 w.ns w.workload, .ok (d, settle)⟩ :: tr) =
        settle.toList := by
      cases settle with
      | none => exact hheld
      | some handle => exact congrArg (handle :: ·) hheld
    split_ifs with hrefused
    · -- the ledger gives no slot with a refusal
      obtain ⟨st', hst'⟩ := Option.isSome_iff_exists.mp hrefused
      cases settle with
      | none => exact hheld'.trans (if_neg hnext).symm
      | some handle => exact absurd (llmAnswers_admission hans).1 (not_admitted_of_refused hst')
    · refine slotView_tries hforwards hheld' (fun handle hmem => ?_) hready hnext
      subst hmem
      exact (llmAnswers_admission hans).2

end Walking

/-! ## The handler -/

variable {s : Store} {cfg : LlmConfig} {c : Caller} {r : LlmRequest}

theorem forwardAdmitted_returns {w : Walk} (hforwards : ∀ provider model built credential tr,
      Built w provider model r.path built →
      forwards provider (upstreamRequest r provider built.1 built.2 credential)
        (⟨.credential provider, .ok (some credential)⟩ :: tr))
    (hsettle : ∀ handle ∈ w.primarySettle, handle.providerName = w.primary.name)
    (hheld : held tr = w.primarySettle.toList) :
    Returns (llmContract forwards)
      (fun _ tr' => held tr' = [] ∨ held tr' = w.primarySettle.toList)
      (forwardAdmitted s r w) tr := by
  have hroot : w.primary.name ∈ walkNames s w := Finset.mem_insert_self _ _
  obtain ⟨order, ⟨seen, horder⟩, _⟩ := exists_unique_order s w (w.primary, w.modelID) hroot
  refine Returns.bind ?_ ((slotView_rule hforwards order hsettle).tryWithFallbacks_returns horder
    (Nat.lt_succ_of_le (card_walkNames_le s w)) hheld)
  rintro ⟨_ | res, st⟩ tr' hM
  · have hplace : ∃ done, (slotView w).At done tr' := by
      rcases hM with ⟨hstand, _⟩ | ⟨taken, hstand, _⟩
      · exact ⟨_, hstand.place⟩
      · exact ⟨_, hstand.place⟩
    obtain ⟨done, hat⟩ := hplace
    by_cases hdone : done = []
    · exact .inr (hat.trans (if_pos hdone))
    · exact .inl (hat.trans (if_neg hdone))
  · exact (writeWalkResult_returns w hM).mono fun _ _ hnone => .inl hnone

/-- The handler keeps to the contract, and every slot it acquired is settled when it returns. -/
theorem handleLLMProxy_returns :
    Returns (llmContract (Forwards cfg c r)) (fun _ tr => held tr = [])
      (handleLLMProxy s cfg c r) [] := by
  unfold handleLLMProxy
  split
  · rfl
  rename_i adapter hadapter
  split
  · rfl
  rename_i parsed providerName modelName hread
  split
  · rfl
  rename_i provider hroute
  refine Returns.perform_bind (llmContract_infallible _) trivial ?_
  rintro ⟨decision, primarySettle⟩ hans
  have hheld : held [⟨LlmOp.admission provider c.ns (workloadKey c),
    .ok (decision, primarySettle)⟩] =
      primarySettle.toList := by
    cases primarySettle <;> rfl
  refine Returns.bind (Q := fun _ tr' => held tr' = [] ∨ held tr' = primarySettle.toList)
    (fun reply tr' hM => ?_) ?_
  · exact Returns.bind (fun _ _ hnone => hnone) (settleZero_returns hM)
  unfold proxyAdmitted
  split
  · exact .inr hheld
  rename_i modelID _
  refine Returns.perform_bind (llmContract_infallible _) trivial fun ok _ => ?_
  split_ifs
  · refine forwardAdmitted_returns
      (w := walkOf cfg c r adapter parsed provider modelID primarySettle) ?_ ?_ hheld
    · intro cand model built credential tr hbuilt
      exact ⟨adapter, parsed, providerName, modelName, provider, modelID, primarySettle, model,
        built,
        credential, hadapter, hread, hbuilt, rfl, rfl⟩
    · intro handle hmem
      subst hmem
      exact (llmAnswers_admission hans).2
  · exact .inr hheld

/-! ## Slots -/

/-- What a request may do with the slots it holds, by what it does next. -/
def SlotRule (tr : LlmTrace) : LlmProg Reply → Prop
  -- a call to a candidate is about to be in flight
  | .call (.send provider _) _ => ∀ handle ∈ held tr, handle.providerName = provider.name
  -- and still is while its stream is relayed
  | .call (.write _) _ => ∀ handle ∈ held tr, servedBy tr = some handle.providerName
  | .call (.settle handle cost) _ => cost ≠ 0 → servedBy tr = some handle.providerName
  | .call (.add provider _ _ cost) _ => cost ≠ 0 → servedBy tr = some provider.name
  | .call _ _ => True
  | .ret _ => held tr = []
  | .fail _ => False

/-- At every point of every request: while a call is in flight only the slots of the provider
that is called are held, a cost is settled only for the provider that served, and when the
handler returns nothing is held. -/
theorem request_slots_settled {s : Store} {cfg : LlmConfig} {c : Caller} {r : LlmRequest}
    {tr : LlmTrace} {rest : LlmProg Reply}
    (h : Reach llmAnswers (handleLLMProxy s cfg c r) tr rest) : SlotRule tr rest := by
  have hrest := handleLLMProxy_returns.reach h
  cases rest with
  | ret | fail => exact hrest
  | call op k =>
    obtain ⟨hop, _⟩ := hrest
    cases op with
    | send provider req => exact hop.1
    | write | settle | add => exact hop
    | admission _ _ _ | allow _ _ _ | credential _ | unixNano => trivial

/-- A provider with a monthly hard budget of 10 USD a namespace. -/
def cappedProvider (type : ProviderType) : Provider :=
  { tenDollars [⟨100, .block, none⟩] with
    type := type
    endpoint := "https://upstream/"
    allowedNamespaces := ["*"]
    models := [⟨"m", some 4096, "1", "2"⟩]
    fallback := [] }

def cappedStore (type : ProviderType) : Store where
  providers := [cappedProvider type]
  toolProviders := []
  workload _ _ _ := none
  class_ _ := none

theorem canonical_empty : ∀ name ∈ (∅ : Header).keys, canonicalHeaderKey name = name := by
  simp

def plainRequest (path body : String) : LlmRequest where
  method := "POST"
  path := path
  header := ∅
  body := .ok body
  canonical := canonical_empty

/-- Everybody answers: the ledger of a namespace that has spent 9.50 USD, and an upstream that
says nothing. -/
def promptAnswers : (op : LlmOp) → Except Stuck op.Ans
  | .admission provider ns workload =>
    let res := (spentState provider.toModelProvider ns (19 / 2) 0).admitRequest
      provider.toModelProvider ns workload (.still 0) 0
    .ok (res.decision, res.settle)
  | .settle _ _ => .ok ()
  | .add _ _ _ _ => .ok ()
  | .allow _ _ _ => .ok true
  | .credential _ => .ok (some "key")
  | .send _ _ => .ok (.answered ⟨200, ∅, "", false⟩)
  | .write _ => .ok true
  | .unixNano => .ok 0

theorem llmAnswers_prompt (op : LlmOp) : llmAnswers ⟨op, promptAnswers op⟩ := by
  cases op with
  | admission provider ns workload => exact ⟨_, _, _, rfl, rfl⟩
  | _ => trivial

def cappedSteps (type : ProviderType) (path body : String) (n : Nat) : LlmTrace × LlmProg Reply :=
  (handleLLMProxy (cappedStore type) ⟨3, 4096⟩ ⟨"team", none⟩ (plainRequest path body)).follow
    promptAnswers n []

theorem reach_cappedSteps (type : ProviderType) (path body : String) (n : Nat) :
    Reach llmAnswers
      (handleLLMProxy (cappedStore type) ⟨3, 4096⟩ ⟨"team", none⟩ (plainRequest path body))
      (cappedSteps type path body n).1 (cappedSteps type path body n).2 :=
  .follow promptAnswers llmAnswers_prompt n .start

/-- Requests near the ceiling when their call goes out, with the slot of one of them. -/
theorem request_slots_settled_capped :
    (held (cappedSteps .openai "/v1/chat/completions"
        "\x7b\"model\":\"openai/m\"\x7d" 3).1).map (·.providerName) = ["openai"] ∧
      ∀ body, SlotRule (cappedSteps .openai "/v1/chat/completions" body 3).1
        (cappedSteps .openai "/v1/chat/completions" body 3).2 :=
  ⟨by decide +kernel, fun body =>
    request_slots_settled (reach_cappedSteps .openai "/v1/chat/completions" body 3)⟩

end Kaalm.Gateway
