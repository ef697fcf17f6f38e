/-
  Controller/PendingCap.lean --- the cap on a channel's pending records
  (`handleAsyncAccept` and `CountPending` of `internal/gateway/async.go`).

  An accept counts the records of the channel and creates its own in a second call, so
  accepts that count together are not seen by each other.  `records_le_cap` bounds what
  that costs, over every interleaving of the handshake's system: each replica's `M`
  requests, its `N` replicas and the reconciler's deletions.
-/
import Kaalm.Controller.ChannelSweep

namespace Kaalm.Controller

open Kaalm.Foundation Kaalm.Foundation.Prog

variable {N M : Nat}

/-- The channel a request was given has the configured cap. -/
def readCap (cap : Int) : ChannelObs N → Bool
  | ⟨.channelByPath _, .ok (some ch)⟩ => ch.maxPending = cap
  | _ => true

/-- The API calls of requests succeed, for a channel with the configured cap. -/
def capServed (cap : Int) (σ : ChannelState N M) : ChannelEvent N M → Bool
  | .exec (.request i k) .ok => (σ.passes (.request i k)).all (·.trace.all (readCap cap))
  | .exec (.request _ _) (.accepted _) => true
  | .exec (.request _ _) _ => false
  | _ => true

theorem obeys_step {σ σ' : ChannelState N M} {e : ChannelEvent N M}
    (h : PoolSpec.Obeys channelContract σ) (hst : (channelSystem N M).step σ e = some σ') :
    PoolSpec.Obeys channelContract σ' :=
  h.step (handshake_proof N M).safe (fun _ w _ _ _ _ _ _ => by
    cases w with
    | reconciler | request => trivial) hst

/-! ## Accepts under way -/

def counted : Option (Pass (ChannelOp N) ChannelAns ApiError) → Bool
  | some ⟨_, .call .now _⟩ | some ⟨_, .call (.createRecord _) _⟩ => true
  | _ => false

def between (σ : ChannelState N M) : Finset (Fin N × Fin M) :=
  {w | counted (σ.passes (.request w.1 w.2)) = true}

/-- The records, with those still to come. -/
def due (σ : ChannelState N M) : Nat := σ.world.records.length + (between σ).card

theorem mem_between {σ : ChannelState N M} {w : Fin N × Fin M} :
    w ∈ between σ ↔ counted (σ.passes (.request w.1 w.2)) = true := by
  simp [between]

variable {σ σ' : ChannelState N M} {s' : ChannelWorld N}
  {next : Option (Pass (ChannelOp N) ChannelAns ApiError)}

theorem between_update {w : ChannelWorker N M}
    (h : w ≠ .reconciler → counted next = true → counted (σ.passes w) = true) :
    between ⟨s', Function.update σ.passes w next⟩ ⊆ between σ := by
  intro v hv
  rw [mem_between] at hv ⊢
  dsimp only at hv
  by_cases hw : ChannelWorker.request v.1 v.2 = w
  · rw [hw, Function.update_self] at hv
    exact hw ▸ h (hw ▸ nofun) hv
  · rwa [Function.update_of_ne hw] at hv

theorem due_update {w : ChannelWorker N M} (hrecords : s'.records.length ≤ σ.world.records.length)
    (h : w ≠ .reconciler → counted next = true → counted (σ.passes w) = true) :
    due ⟨s', Function.update σ.passes w next⟩ ≤ due σ :=
  Nat.add_le_add hrecords (Finset.card_le_card (between_update h))

variable {i : Fin N} {k : Fin M}

theorem due_created (hrecords : s'.records.length ≤ σ.world.records.length + 1)
    (hnext : counted next = false) (hold : counted (σ.passes (.request i k)) = true) :
    due ⟨s', Function.update σ.passes (.request i k) next⟩ ≤ due σ := by
  have hcard : (between ⟨s', Function.update σ.passes (.request i k) next⟩).card <
      (between σ).card := by
    refine Finset.card_lt_card ((Finset.ssubset_iff_of_subset (between_update ?_)).mpr
      ⟨(i, k), mem_between.mpr hold, fun hmem => ?_⟩)
    · intro _ h
      cases hnext.symm.trans h
    · have hself := mem_between.mp hmem
      dsimp only at hself
      rw [Function.update_self, hnext] at hself
      cases hself
  show s'.records.length + _ ≤ σ.world.records.length + _
  omega

theorem ChannelEffect.records_length {s : ChannelWorld N} {o : ChannelObs N}
    (h : ChannelEffect s o s') (hop : ∀ e, o.op ≠ .createRecord e) :
    s'.records.length ≤ s.records.length := by
  cases h with
  | deleted id r => exact List.length_filter_le _ _
  | created e r => exact absurd rfl (hop e)
  | _ => exact Nat.le_refl _

/-- A request goes on to create its record after a count that lets it through, or
after it has looked at the clock. -/
theorem of_counted {tr : ChannelHistory N} {p : ChannelProg N Unit}
    (hsafe : Safe (channelContract (.request i k)) finished p tr)
    (h : counted (PoolSpec.pending tr p) = true) :
    Admitted tr ∨ ∃ now rest, tr = ⟨.now, now⟩ :: rest := by
  cases p with
  | ret | fail => cases h
  | call op rest =>
    cases op with
    | now => exact .inl hsafe.1
    | createRecord e => exact .inr hsafe.1.2
    | _ => cases h

theorem due_request {c : ChannelChoice} {cap : Int} {tr : ChannelHistory N} {op : ChannelOp N}
    {r : Except ApiError (ChannelAns op)}
    {rest : Except ApiError (ChannelAns op) → ChannelProg N Unit}
    (hpass : σ.passes (.request i k) = some ⟨tr, .call op rest⟩)
    (hresult : executeChannel op c σ.world = some (r, s'))
    (hserved : capServed cap σ (.exec (.request i k) c) = true)
    (hsafe : Safe (channelContract (.request i k)) finished (rest r) (⟨op, r⟩ :: tr))
    (hnext : next = PoolSpec.pending (⟨op, r⟩ :: tr) (rest r)) :
    due ⟨s', Function.update σ.passes (.request i k) next⟩ ≤ due σ ∨
      (due ⟨s', Function.update σ.passes (.request i k) next⟩ : Int) ≤ cap - 1 + N * M := by
  have hlength := ChannelEffect.records_length (executeChannel_effect hresult)
  have hafter := fun h : counted next = true => of_counted hsafe (hnext ▸ h)
  cases op with
  | now => exact .inl (due_update (hlength nofun) fun _ _ => by rw [hpass]; rfl)
  | createRecord e =>
    refine .inl (due_created ?_ ?_ (by rw [hpass]; rfl))
    · cases executeChannel_effect hresult with
      | skip => exact Nat.le_succ _
      | created => exact Nat.le_refl _
    · refine Bool.eq_false_iff.mpr fun h => ?_
      obtain ⟨_, _, _, _, heq, _⟩ | ⟨_, _, heq⟩ := hafter h <;> cases heq
  | countPending =>
    cases hcounted : counted next with
    | false => exact .inl (due_update (hlength nofun) fun _ h => by cases hcounted.symm.trans h)
    | true =>
      -- the request goes on, so its count has let it through
      obtain ⟨j, ch, _, _, heq, hread, hroom⟩ | ⟨_, _, heq⟩ := hafter hcounted
      · cases heq
        cases c with
        | ok =>
          cases hresult
          simp only [capServed, hpass, Option.all_some, List.all_eq_true] at hserved
          have hcap : ch.maxPending = cap := of_decide_eq_true (hserved _ hread)
          have hcount := hcap ▸ hroom _ rfl
          have hcard : (between ⟨σ.world, Function.update σ.passes (.request i k) next⟩).card ≤
              N * M := by
            simpa using Finset.card_le_univ
              (between ⟨σ.world, Function.update σ.passes (.request i k) next⟩)
          right
          push_cast [due]
          omega
        | failed | lost => cases hserved
        | _ => cases hresult
      · cases heq
  | _ =>
    refine .inl (due_update (hlength nofun) fun _ h => ?_)
    obtain ⟨_, _, _, _, heq, _⟩ | ⟨_, _, heq⟩ := hafter h <;> cases heq

theorem due_step {cap : Int} {e : ChannelEvent N M}
    (hσ : PoolSpec.Obeys channelContract σ)
    (hserved : capServed cap σ e = true) (hst : (channelSystem N M).step σ e = some σ') :
    due σ' ≤ due σ ∨ (due σ' : Int) ≤ cap - 1 + N * M := by
  cases e with
  | start w =>
    simp only [PoolSpec.step] at hst
    split at hst
    · cases hst
      refine .inl (due_update (Nat.le_refl _) fun hw h => ?_)
      cases w with
      | reconciler => exact absurd rfl hw
      | request i k => cases h
    · cases hst
  | crash w =>
    cases hst
    exact .inl (due_update (Nat.le_refl _) fun _ h => by cases h)
  | env e =>
    obtain ⟨s', hs', rfl⟩ := Option.map_eq_some_iff.mp hst
    exact .inl (Nat.add_le_add_right (congrArg _ (channelEnv_frame hs').1).le _)
  | exec w c =>
    simp only [PoolSpec.step] at hst
    split at hst
    · next tr op rest hpass =>
      obtain ⟨⟨r, s'⟩, hresult, rfl⟩ := Option.map_eq_some_iff.mp hst
      obtain ⟨hallow, hsafe⟩ := hσ w _ hpass
      cases w with
      | reconciler =>
        refine .inl (due_update (ChannelEffect.records_length (executeChannel_effect hresult) ?_)
          fun h => absurd rfl h)
        rintro e rfl
        exact hallow
      | request i k => exact due_request hpass hresult hserved (hsafe r trivial) rfl
    · cases hst

/-- In every run whose accepts are served, the records of a channel exceed neither what there was
nor the cap by more than the accepts that can be under way beside the counting one. -/
theorem records_le_cap (cap : Int) (s : ChannelWorld N) {es : List (ChannelEvent N M)}
    {σ : ChannelState N M} (hrun : Run (channelSystem N M).step
      (fun σ e => capServed cap σ e = true) (PoolSpec.idle s) es σ) :
    (σ.world.records.length : Int) ≤ max (s.records.length : Int) (cap - 1 + N * M) := by
  have hidle : due (PoolSpec.idle s : ChannelState N M) = s.records.length := by
    simp [due, between, counted, PoolSpec.idle]
  have hdue := hrun.invariant (I := fun σ => PoolSpec.Obeys channelContract σ ∧
      (due σ : Int) ≤ max (s.records.length : Int) (cap - 1 + N * M))
    (fun σ e σ' h hserved hst => ⟨obeys_step h.1 hst, by
      rcases due_step h.1 hserved hst with hle | hle
      · exact (Int.ofNat_le.mpr hle).trans h.2
      · exact hle.trans (le_max_right _ _)⟩)
    ⟨nofun, hidle ▸ le_max_left _ _⟩
  exact (Int.ofNat_le.mpr (Nat.le_add_right _ _)).trans hdue.2

/-! ## Two accepts at once -/

/-- The cap is set to 2, one more than there is, and both replicas start. -/
def cappedEvents : List (ChannelEvent 2 1) :=
  [.env (.edit 2), .env (.start replica₀), .env (.start replica₁)]

/-- A request on each replica, step by step beside the other. -/
def burstEvents : List (ChannelEvent 2 1) :=
  [.start (.request replica₀ ⟨0, Nat.one_pos⟩), .start (.request replica₁ ⟨0, Nat.one_pos⟩)] ++
    (List.replicate 5 [.exec (.request replica₀ ⟨0, Nat.one_pos⟩) .ok,
      .exec (.request replica₁ ⟨0, Nat.one_pos⟩) .ok]).flatten

theorem records_le_cap_burst :
    ((channelAfter (capServed 2) (cappedEvents ++ burstEvents)).world.records.length : Int) ≤
      max (openWorld.records.length : Int) (2 - 1 + 2 * 1) :=
  records_le_cap 2 openWorld (run_getD (by decide +kernel))

/-- Two accepts count one record each, below the cap of two, and create two more. -/
theorem burst_exceeds_cap :
    Run (channelSystem 2 1).step (fun σ e => capServed 2 σ e = true) (PoolSpec.idle openWorld)
      (cappedEvents ++ burstEvents) (channelAfter (capServed 2) (cappedEvents ++ burstEvents)) ∧
    openWorld.records.length ≤ 2 ∧
    (channelAfter (capServed 2) (cappedEvents ++ burstEvents)).world.records.length = 3 :=
  ⟨run_getD (by decide +kernel), by decide, by decide +kernel⟩

end Kaalm.Controller
