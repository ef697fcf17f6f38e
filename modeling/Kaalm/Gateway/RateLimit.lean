/-
  Gateway/RateLimit.lean --- the request ceilings (`internal/gateway/ratelimit.go`).

  One limit is a ceiling for the whole cluster.  Every replica keeps a token
  bucket per key, sized by the limit over the number of replicas it sees at the
  call, so both the capacity and the rate of a bucket change from call to call.

  WHAT CARRIES THE BOUND.  Within a window, what one replica has let through plus
  what its bucket still holds never exceeds one share for the first call and one
  share for each minute since the window began (`Metered`).  The shares of n
  replicas that each count at least n of them add up to the limit.
-/
import Kaalm.Foundation.GoMap
import Kaalm.Foundation.Text
import Mathlib.Algebra.BigOperators.Fin
import Mathlib.Data.Rat.Floor

namespace Kaalm.Gateway

open Kaalm.Foundation

/-! ## Time -/

/-- `t.Sub(u)`: the difference, saturated at the ends of a 64-bit duration. -/
def sinceClamped (t u : Int) : Int := max (-(2 ^ 63)) (min (2 ^ 63 - 1) (t - u))

/-- `Minutes()` of a duration in nanoseconds. -/
def minutes (d : Int) : ℚ := (d : ℚ) / 60000000000

theorem minutes_add (d e : Int) : minutes (d + e) = minutes d + minutes e := by
  simp [minutes, add_div]

variable {d : Int}

theorem minutes_le_minutes {e : Int} (h : d ≤ e) : minutes d ≤ minutes e := by
  unfold minutes
  gcongr

theorem minutes_nonneg (h : 0 ≤ d) : 0 ≤ minutes d := by
  simpa [minutes] using minutes_le_minutes h

theorem minutes_pos : 0 < minutes d ↔ 0 < d := by
  simp [minutes]

variable {t u : Int}

theorem sinceClamped_le (h : u ≤ t) : sinceClamped t u ≤ t - u := by
  unfold sinceClamped
  omega

theorem le_of_sinceClamped_le (hd : d < 2 ^ 63 - 1) (h : sinceClamped t u ≤ d) :
    t ≤ u + d := by
  unfold sinceClamped at h
  omega

theorem sinceClamped_pos : 0 < sinceClamped t u ↔ u < t := by
  unfold sinceClamped
  omega

/-! ## The limiter -/

structure TokenBucket where
  tokens : ℚ
  lastRefill : Int
  perMinute : ℚ
  deriving DecidableEq, Repr

/-- The part of `allow` that works on the bucket of the key. -/
def TokenBucket.draw (b : TokenBucket) (perReplica : ℚ) (now : Int) : TokenBucket × Bool :=
  let elapsed := minutes (sinceClamped now b.lastRefill)
  let b := if elapsed > 0 then
      { b with tokens := b.tokens + elapsed * perReplica, lastRefill := now }
    else b
  let b := { b with perMinute := perReplica }
  let b := if b.tokens > perReplica then { b with tokens := perReplica } else b
  if b.tokens ≥ 1 then ({ b with tokens := b.tokens - 1 }, true) else (b, false)

/-- `RateLimiter`: the replica count and the clock are read at each call. -/
structure RateLimiter where
  buckets : GoMap String TokenBucket

def RateLimiter.new : RateLimiter := ⟨∅⟩

/-- The replica count of the running gateway: one when the Pods cannot be listed
or none is. -/
def liveReplicas : Option Nat → Int
  | some (n + 1) => n + 1
  | _ => 1

def perReplica (limit replicas : Int) : ℚ := (limit : ℚ) / ((max 1 replicas : Int) : ℚ)

namespace RateLimiter

def allow (r : RateLimiter) (limit : Int) (key : String) (replicas now : Int) :
    RateLimiter × Bool :=
  if limit ≤ 0 then (r, true)
  else
    let share := perReplica limit replicas
    let b := (r.buckets.lookup key).getD ⟨share, now, share⟩
    let (b, ok) := b.draw share now
    (⟨r.buckets.insert key b⟩, ok)

end RateLimiter

/-- A call of the limiter, with what it reads of the provider. -/
inductive RateCall where
  /-- `Allow` -/
  | request (requestsPerMinute : Int) (ns model : String)
  /-- `AllowTool` -/
  | tool (requestsPerMinute : Int) (ns name : String)
  deriving DecidableEq, Repr

/-- The bucket a call draws from.  A model's bucket names no provider: providers
that offer a model of one name share it. -/
def RateCall.key : RateCall → String
  | .request _ ns model => ns ++ "/" ++ model
  | .tool _ ns name => "mcp:" ++ ns ++ "/" ++ name

def RateCall.limit : RateCall → Int
  | .request limit _ _ => limit
  | .tool limit _ _ => limit

/-! ## One draw -/

namespace TokenBucket

variable {b : TokenBucket} {share : ℚ} {now : Int}

theorem draw_spec (share : ℚ) (hclock : b.lastRefill ≤ now) :
    (b.draw share now).1.lastRefill = now ∧
      (b.draw share now).1.tokens + (if (b.draw share now).2 then 1 else 0) =
        min (b.tokens + minutes (sinceClamped now b.lastRefill) * share) share := by
  by_cases hpos : 0 < minutes (sinceClamped now b.lastRefill)
  · simp only [draw, gt_iff_lt, hpos, if_true, min_def]
    split_ifs <;> simp_all <;> linarith
  · have hnow : b.lastRefill = now := by
      rw [minutes_pos, sinceClamped_pos] at hpos
      omega
    have hzero : minutes (sinceClamped now b.lastRefill) = 0 := by
      rw [hnow]
      simp [sinceClamped, minutes]
    simp only [draw, gt_iff_lt, hzero, lt_irrefl, if_false, zero_mul, add_zero, min_def]
    split_ifs <;> simp_all <;> linarith

theorem draw_nonneg (now : Int) (hshare : 0 ≤ share) (htokens : 0 ≤ b.tokens) :
    0 ≤ (b.draw share now).1.tokens := by
  have hadd : 0 < minutes (sinceClamped now b.lastRefill) →
      0 ≤ b.tokens + minutes (sinceClamped now b.lastRefill) * share :=
    fun h => add_nonneg htokens (mul_nonneg h.le hshare)
  simp only [draw, gt_iff_lt]
  split_ifs <;> simp_all

theorem draw_snd_iff (hclock : b.lastRefill ≤ now) (hshare : 0 ≤ share) (htokens : 0 ≤ b.tokens) :
    (b.draw share now).2 = true ↔
      1 ≤ min (b.tokens + minutes (sinceClamped now b.lastRefill) * share) share := by
  rw [← (draw_spec share hclock).2]
  have hleft := draw_nonneg now hshare htokens
  have hshort : (b.draw share now).2 = false → (b.draw share now).1.tokens < 1 := by
    simp only [draw, ge_iff_le]
    split_ifs <;> simp_all
  cases hok : (b.draw share now).2 with
  | true => simpa using hleft
  | false => simpa using hshort hok

end TokenBucket

/-! ## The fleet -/

/-- One call somewhere in the cluster: the replica that takes it, the replica
count it sees and its clock reading. -/
structure FleetCall (n : Nat) where
  replica : Fin n
  call : RateCall
  replicas : Int
  now : Int
  deriving DecidableEq, Repr

abbrev Fleet (n : Nat) : Type := Fin n → RateLimiter

namespace Fleet

variable {n : Nat}

def step (f : Fleet n) (c : FleetCall n) : Fleet n × Bool :=
  let (r, ok) := (f c.replica).allow c.call.limit c.call.key c.replicas c.now
  (Function.update f c.replica r, ok)

/-- The calls with their answers, in the order in which they take the lock. -/
def serve (f : Fleet n) : List (FleetCall n) → List (FleetCall n × Bool)
  | [] => []
  | c :: rest => (c, (f.step c).2) :: (f.step c).1.serve rest

end Fleet

/-- The answered call let a request of the bucket through in the window of `T`
minutes from `start`. -/
def allowedIn {n : Nat} (key : String) (start : Int) (T : ℚ) (e : FleetCall n × Bool) : Bool :=
  e.2 && decide (e.1.call.key = key) && decide (start ≤ e.1.now) &&
    decide (minutes (e.1.now - start) ≤ T)

/-- Each replica's clock does not run backwards. -/
def ClocksForward {n : Nat} (calls : List (FleetCall n)) : Prop :=
  calls.Pairwise fun a b => a.replica = b.replica → a.now ≤ b.now

instance {n : Nat} (calls : List (FleetCall n)) : Decidable (ClocksForward calls) :=
  inferInstanceAs (Decidable (calls.Pairwise _))

/-! ## One replica in a window -/

section Window

variable (cap : ℚ) (start : Int) (T : ℚ)

/-- A bucket that has let `count` requests through in the window so far. -/
structure Metered (b : TokenBucket) (count : Nat) : Prop where
  nonneg : 0 ≤ b.tokens
  spent : (count : ℚ) ≤ cap * (1 + T)
  left : count ≠ 0 → count + b.tokens ≤ cap * (1 + minutes (b.lastRefill - start))

variable {cap start T}

variable {count : Nat} {share : ℚ}

/-- A draw at `now` lets through no more than the time since the window began pays
for, once the window has seen a request. -/
theorem Metered.draw_le {b : TokenBucket} {now : Int} (h : Metered cap start T b count)
    (hshare : 0 ≤ share) (hcap : share ≤ cap) (hclock : b.lastRefill ≤ now)
    (hseen : count ≠ 0 ∨ start ≤ now) :
    count + ((b.draw share now).1.tokens + if (b.draw share now).2 then 1 else 0) ≤
      cap * (1 + minutes (now - start)) := by
  rw [(TokenBucket.draw_spec share hclock).2]
  by_cases hzero : count = 0
  · have hwait : 0 ≤ cap * minutes (now - start) :=
      mul_nonneg (hshare.trans hcap) (minutes_nonneg (by omega))
    calc (count : ℚ) + min (b.tokens + minutes (sinceClamped now b.lastRefill) * share) share
        ≤ 0 + share := by rw [hzero, Nat.cast_zero]; gcongr; exact min_le_right _ _
      _ ≤ cap * (1 + minutes (now - start)) := by linarith
  · have hpour : minutes (sinceClamped now b.lastRefill) * share ≤
        minutes (now - b.lastRefill) * cap :=
      mul_le_mul (minutes_le_minutes (sinceClamped_le hclock)) hcap hshare
        (minutes_nonneg (by omega))
    have hsplit : minutes (now - start) =
        minutes (b.lastRefill - start) + minutes (now - b.lastRefill) := by
      rw [← minutes_add]
      congr 1
      omega
    have hleft := h.left hzero
    calc (count : ℚ) + min (b.tokens + minutes (sinceClamped now b.lastRefill) * share) share
        ≤ count + (b.tokens + minutes (sinceClamped now b.lastRefill) * share) := by
          gcongr
          exact min_le_left _ _
      _ ≤ cap * (1 + minutes (now - start)) := by rw [hsplit]; linarith

theorem Metered.draw {b : TokenBucket} {now : Int} (h : Metered cap start T b count)
    (hshare : 0 ≤ share) (hcap : share ≤ cap) (hclock : b.lastRefill ≤ now) :
    Metered cap start T (b.draw share now).1
      (count + if (b.draw share now).2 = true ∧ start ≤ now ∧ minutes (now - start) ≤ T
        then 1 else 0) := by
  have hlast := (TokenBucket.draw_spec share hclock).1
  have hnonneg := TokenBucket.draw_nonneg now hshare h.nonneg
  have hle := h.draw_le hshare hcap hclock
  split_ifs with hin
  · obtain ⟨hok, hstart, hend⟩ := hin
    have hpaid := hle (.inr hstart)
    rw [hok, if_pos rfl] at hpaid
    have hwindow : cap * (1 + minutes (now - start)) ≤ cap * (1 + T) := by
      have : 0 ≤ cap := hshare.trans hcap
      gcongr
    refine ⟨hnonneg, ?_, fun _ => ?_⟩
    · push_cast
      linarith
    · rw [hlast]
      push_cast
      linarith
  · refine ⟨hnonneg, h.spent, fun hne => ?_⟩
    rw [hlast, add_zero]
    have hpaid := hle (.inl hne)
    have hone : (0 : ℚ) ≤ if (b.draw share now).2 then 1 else 0 := by positivity
    linarith

/-- The replica before its first call of the key, or its bucket. -/
def MeteredAt (cap : ℚ) (start : Int) (T : ℚ) (found : Option TokenBucket) (count : Nat) : Prop :=
  match found with
  | none => count = 0
  | some b => Metered cap start T b count

theorem MeteredAt.getD {found : Option TokenBucket} (now : Int)
    (h : MeteredAt cap start T found count) (hshare : 0 ≤ share) (hcap : share ≤ cap) (hT : 0 ≤ T) :
    Metered cap start T (found.getD ⟨share, now, share⟩) count := by
  cases found with
  | some b => exact h
  | none =>
    have hzero : count = 0 := h
    subst hzero
    refine ⟨hshare, ?_, fun hne => absurd rfl hne⟩
    have : 0 ≤ cap * (1 + T) := mul_nonneg (hshare.trans hcap) (by linarith)
    simpa using this

end Window

/-! ## Runs -/

section Runs

variable {n : Nat} {limit : Int} {key : String} {start : Int} {T : ℚ} {i : Fin n}

theorem perReplica_nonneg {replicas : Int} (hlimit : 1 ≤ limit) :
    0 ≤ perReplica limit replicas := by
  unfold perReplica
  positivity

theorem perReplica_le {replicas : Int} (hn : 0 < n) (hlimit : 1 ≤ limit)
    (hcount : (n : Int) ≤ replicas) : perReplica limit replicas ≤ (limit : ℚ) / n := by
  unfold perReplica
  have hle : (n : ℚ) ≤ ((max 1 replicas : Int) : ℚ) := by
    exact_mod_cast hcount.trans (le_max_right 1 replicas)
  gcongr

def Fleet.bucket (f : Fleet n) (i : Fin n) (key : String) : Option TokenBucket :=
  (f i).buckets.lookup key

theorem Fleet.bucket_step_of_ne (f : Fleet n) (c : FleetCall n)
    (h : ¬ (c.replica = i ∧ c.call.key = key)) : (f.step c).1.bucket i key = f.bucket i key := by
  unfold bucket step RateLimiter.allow
  by_cases hi : i = c.replica
  · subst hi
    have hkey : key ≠ c.call.key := fun hk => h ⟨rfl, hk.symm⟩
    split_ifs <;> simp [AList.lookup_insert_ne hkey]
  · simp [Function.update_of_ne hi]

theorem Fleet.step_eq_draw (f : Fleet n) (c : FleetCall n) (hlimit : 1 ≤ c.call.limit) :
    let share := perReplica c.call.limit c.replicas
    let b := ((f.bucket c.replica c.call.key).getD ⟨share, c.now, share⟩).draw share c.now
    (f.step c).1.bucket c.replica c.call.key = some b.1 ∧ (f.step c).2 = b.2 := by
  have hpos : ¬ c.call.limit ≤ 0 := by omega
  simp [bucket, step, RateLimiter.allow, hpos]

def allowedBy (i : Fin n) (key : String) (start : Int) (T : ℚ) (e : FleetCall n × Bool) : Bool :=
  decide (e.1.replica = i) && allowedIn key start T e

theorem Fleet.countP_allowedBy_le (hn : 0 < n) (hlimit : 1 ≤ limit) (hT : 0 ≤ T)
    (calls : List (FleetCall n)) :
    ∀ (f : Fleet n) (count : Nat), ClocksForward calls →
      (∀ c ∈ calls, (n : Int) ≤ c.replicas) →
      (∀ c ∈ calls, c.call.key = key → c.call.limit = limit) →
      (∀ b, f.bucket i key = some b → ∀ c ∈ calls, c.replica = i → b.lastRefill ≤ c.now) →
      MeteredAt ((limit : ℚ) / n) start T (f.bucket i key) count →
      ((count + (f.serve calls).countP (allowedBy i key start T) : Nat) : ℚ) ≤
        (limit : ℚ) / n * (1 + T) := by
  have hcap : (0 : ℚ) ≤ (limit : ℚ) / n := by
    positivity
  induction calls with
  | nil =>
    intro f count _ _ _ _ hmet
    simpa [serve] using (hmet.getD 0 le_rfl hcap hT).spent
  | cons c rest ih =>
    intro f count hclocks hseen hlimits hlast hmet
    obtain ⟨hfirst, hrest⟩ := List.pairwise_cons.mp hclocks
    have hih := fun f' count' hlast' hmet' => ih f' count' hrest
      (fun c hc => hseen c (List.mem_cons_of_mem _ hc))
      (fun c hc => hlimits c (List.mem_cons_of_mem _ hc)) hlast' hmet'
    rw [serve, List.countP_cons]
    by_cases hmine : c.replica = i ∧ c.call.key = key
    · obtain ⟨rfl, rfl⟩ := hmine
      have hl := hlimits c List.mem_cons_self rfl
      obtain ⟨hbucket, hok⟩ := f.step_eq_draw c (by omega)
      rw [hl] at hbucket hok
      set share := perReplica limit c.replicas
      have hclock : ((f.bucket c.replica c.call.key).getD ⟨share, c.now, share⟩).lastRefill ≤
          c.now := by
        cases hfound : f.bucket c.replica c.call.key with
        | none => exact le_rfl
        | some b => exact hlast b hfound c List.mem_cons_self rfl
      have hdraw := (hmet.getD c.now (perReplica_nonneg hlimit)
        (perReplica_le hn hlimit (hseen c List.mem_cons_self)) hT).draw (perReplica_nonneg hlimit)
        (perReplica_le hn hlimit (hseen c List.mem_cons_self)) hclock
      have hnow := (TokenBucket.draw_spec share hclock).1
      have hnext := hih (f.step c).1 _ (fun b hb c' hc' hrep => ?_) (by rw [hbucket]; exact hdraw)
      · rw [← hok] at hnext
        refine le_trans (le_of_eq ?_) hnext
        rw [add_assoc, add_comm (List.countP _ _)]
        simp [allowedBy, allowedIn, and_assoc]
      · -- the bucket was last refilled by this very call
        rw [hbucket, Option.some_inj] at hb
        subst hb
        rw [hnow]
        exact hfirst c' hc' hrep.symm
    · have hsame := f.bucket_step_of_ne c hmine
      have hskip : allowedBy i key start T (c, (f.step c).2) = false := by
        simp only [allowedBy, allowedIn]
        grind
      rw [hskip]
      refine hih _ count ?_ (by rwa [hsame])
      rw [hsame]
      exact fun b hb c hc => hlast b hb c (List.mem_cons_of_mem _ hc)

theorem countP_allowedIn (trace : List (FleetCall n × Bool)) :
    trace.countP (allowedIn key start T) =
      ∑ i : Fin n, trace.countP (allowedBy i key start T) := by
  induction trace with
  | nil => simp
  | cons e rest ih =>
    have hone : (∑ i : Fin n, if allowedBy i key start T e = true then 1 else 0) =
        if allowedIn key start T e = true then 1 else 0 := by
      by_cases he : allowedIn key start T e = true <;> simp [allowedBy, he]
    simp only [List.countP_cons, Finset.sum_add_distrib, hone, ih]

/-- In every window of `T` minutes the replicas together let at most
`limit * (1 + T)` requests of a bucket through, whatever they see of each other
and whatever else they are asked, as long as each sees at least all of them. -/
theorem Fleet.allowed_le (calls : List (FleetCall n)) (hn : 1 ≤ n) (hlimit : 1 ≤ limit)
    (hT : 0 ≤ T) (hclocks : ClocksForward calls) (hseen : ∀ c ∈ calls, (n : Int) ≤ c.replicas)
    (hlimits : ∀ c ∈ calls, c.call.key = key → c.call.limit = limit) :
    (((serve (fun _ => .new) calls).countP (allowedIn key start T) : Nat) : ℚ) ≤
      limit * (1 + T) := by
  have hone (i : Fin n) :
      (((serve (fun _ => .new) calls).countP (allowedBy i key start T) : Nat) : ℚ) ≤
        (limit : ℚ) / n * (1 + T) := by
    have hnone : bucket (fun _ => .new) i key = none := AList.lookup_empty key
    have hle : ((0 + (serve (fun _ => .new) calls).countP (allowedBy i key start T) : Nat) : ℚ) ≤
        (limit : ℚ) / n * (1 + T) :=
      countP_allowedBy_le hn hlimit hT calls (fun _ => .new) 0 hclocks hseen hlimits
        (by simp [hnone]) (by rw [hnone]; rfl)
    simpa using hle
  rw [countP_allowedIn, Nat.cast_sum]
  calc ∑ i : Fin n, (((serve (fun _ => .new) calls).countP (allowedBy i key start T) : Nat) : ℚ)
      ≤ ∑ _i : Fin n, (limit : ℚ) / n * (1 + T) := Finset.sum_le_sum fun i _ => hone i
    _ = limit * (1 + T) := by
        rw [Finset.sum_const, Finset.card_univ, Fintype.card_fin, nsmul_eq_mul]
        field_simp

/-- Two replicas under a limit of four: a scale-up seen by one of them, a tool call
between, and half a minute. -/
def twoReplicas : List (FleetCall 2) :=
  [⟨0, .request 4 "team" "m", 2, 0⟩, ⟨1, .request 4 "team" "m", 2, 5⟩,
    ⟨0, .tool 1 "team" "m", 2, 5⟩, ⟨0, .request 4 "team" "m", 3, 10⟩,
    ⟨1, .request 4 "team" "m", 2, 30000000000⟩, ⟨1, .request 4 "team" "m", 2, 30000000000⟩]

theorem Fleet.allowed_le_twoReplicas :
    (((serve (fun _ => .new) twoReplicas).countP (allowedIn "team/m" 0 (1 / 2)) : Nat) : ℚ) ≤
      (4 : Int) * (1 + 1 / 2) :=
  Fleet.allowed_le twoReplicas (by decide) (by decide) (by norm_num) (by decide) (by decide)
    (by decide)

end Runs

/-! ## One limiter -/

/-- A call of one replica's limiter for a ModelProvider or a ToolProvider. -/
structure LimiterCall where
  provider : String
  call : RateCall
  replicas : Int
  now : Int
  deriving DecidableEq, Repr

/-- An `Allow` for the ModelProvider. -/
def LimiterCall.isOf (provider : String) (c : LimiterCall) : Bool :=
  match c.call with
  | .request _ _ _ => c.provider = provider
  | .tool _ _ _ => false

def RateCall.ns : RateCall → String
  | .request _ ns _ => ns
  | .tool _ ns _ => ns

/-- Both draw from the bucket of one model of a namespace. -/
def RateCall.contends : RateCall → RateCall → Bool
  | .request limit ns model, .request limit' ns' model' =>
    ns = ns' && model = model' && decide (0 < limit ∧ 0 < limit')
  | _, _ => false

/-- No other ModelProvider draws from a bucket that the provider draws from. -/
def keepsApart (provider : String) (calls : List LimiterCall) : Bool :=
  calls.all fun c => c.isOf provider ||
    calls.all fun a => !a.isOf provider || !c.call.contends a.call

namespace RateLimiter

def step (r : RateLimiter) (c : LimiterCall) : RateLimiter × Bool :=
  r.allow c.call.limit c.call.key c.replicas c.now

/-- The limiter after the calls, in the order in which they take the lock. -/
def after (r : RateLimiter) (calls : List LimiterCall) : RateLimiter :=
  calls.foldl (fun r c => (r.step c).1) r

/-- What `Allow` answers to the calls for the provider. -/
def answersTo (provider : String) : RateLimiter → List LimiterCall → List Bool
  | _, [] => []
  | r, c :: rest =>
    let answers := answersTo provider (r.step c).1 rest
    if c.isOf provider then (r.step c).2 :: answers else answers

def Solvent (r : RateLimiter) : Prop := ∀ key b, r.buckets.lookup key = some b → 0 ≤ b.tokens

variable {r r' : RateLimiter} {c : LimiterCall} {provider : String}

theorem step_of_nonpos (h : c.call.limit ≤ 0) : r.step c = (r, true) := if_pos h

theorem step_of_pos (h : 0 < c.call.limit) :
    let share := perReplica c.call.limit c.replicas
    let b := ((r.buckets.lookup c.call.key).getD ⟨share, c.now, share⟩).draw share c.now
    r.step c = (⟨r.buckets.insert c.call.key b.1⟩, b.2) := if_neg (by omega)

theorem Solvent.getD (h : r.Solvent) {limit : Int} (hlimit : 1 ≤ limit) (replicas : Int)
    (key : String) (now : Int) : 0 ≤ ((r.buckets.lookup key).getD
      ⟨perReplica limit replicas, now, perReplica limit replicas⟩).tokens := by
  cases hb : r.buckets.lookup key with
  | none => exact perReplica_nonneg hlimit
  | some b => exact h key b hb

theorem Solvent.step (h : r.Solvent) (c : LimiterCall) : (r.step c).1.Solvent := by
  rcases le_or_gt c.call.limit 0 with hlimit | hlimit
  · rwa [step_of_nonpos hlimit]
  · rw [step_of_pos hlimit]
    intro key b hb
    by_cases hk : key = c.call.key
    · subst hk
      rw [AList.lookup_insert, Option.some.injEq] at hb
      rw [← hb]
      exact TokenBucket.draw_nonneg _ (perReplica_nonneg hlimit) (h.getD hlimit _ _ _)
    · rw [AList.lookup_insert_ne hk] at hb
      exact h key b hb

theorem solvent_after (calls : List LimiterCall) : (new.after calls).Solvent := by
  suffices hall : ∀ r : RateLimiter, r.Solvent → (r.after calls).Solvent from
    hall new fun _ _ hb => by cases hb
  induction calls with
  | nil => exact fun _ h => h
  | cons c rest ih => exact fun r h => ih _ (h.step c)

theorem one_le_perReplica {limit replicas : Int} (hreplicas : 1 ≤ replicas) :
    1 ≤ perReplica limit replicas ↔ replicas ≤ limit := by
  rw [perReplica, max_eq_right hreplicas, one_le_div (by exact_mod_cast hreplicas)]
  exact_mod_cast Iff.rfl

/-- Whatever the limiter was asked before, an idle caller is let through after some
time exactly if the limit is at least the number of replicas: below that a bucket
never holds a whole token. -/
theorem idle_caller_allowed_iff (calls : List LimiterCall) {limit replicas : Int}
    (hlimit : 1 ≤ limit) (hreplicas : 1 ≤ replicas) (key : String) :
    (∃ t₀ : Int, ∀ now, t₀ ≤ now →
      ((new.after calls).allow limit key replicas now).2 = true) ↔ replicas ≤ limit := by
  have hshare : 0 ≤ perReplica limit replicas := perReplica_nonneg hlimit
  have hsolvent := (solvent_after calls).getD hlimit replicas key
  rw [← one_le_perReplica hreplicas]
  simp only [allow, if_neg (show ¬limit ≤ 0 by omega)]
  cases hb : (new.after calls).buckets.lookup key with
  | none =>
    simp only [hb, Option.getD_none] at hsolvent ⊢
    have hfresh : ∀ now, (TokenBucket.draw ⟨perReplica limit replicas, now,
        perReplica limit replicas⟩ (perReplica limit replicas) now).2 = true ↔
        1 ≤ perReplica limit replicas := fun now => by
      rw [TokenBucket.draw_snd_iff le_rfl hshare hshare]
      simp [sinceClamped, minutes]
    simp only [hfresh]
    exact ⟨fun ⟨t₀, h⟩ => h t₀ le_rfl, fun h => ⟨0, fun _ _ => h⟩⟩
  | some b =>
    simp only [hb, Option.getD_some] at hsolvent ⊢
    have htokens := hsolvent 0
    refine ⟨fun ⟨t₀, h⟩ => ?_, fun h => ⟨b.lastRefill + 60000000000, fun now hnow => ?_⟩⟩
    · have hall := (TokenBucket.draw_snd_iff (le_max_right t₀ b.lastRefill) hshare htokens).mp
        (h _ (le_max_left _ _))
      exact (le_min_iff.mp hall).2
    · rw [TokenBucket.draw_snd_iff (by omega) hshare htokens, le_min_iff]
      refine ⟨?_, h⟩
      -- one minute fills the bucket
      have hminute : 1 ≤ minutes (sinceClamped now b.lastRefill) := by
        have hle : 60000000000 ≤ sinceClamped now b.lastRefill := by
          unfold sinceClamped
          omega
        simpa [minutes] using minutes_le_minutes hle
      nlinarith [mul_le_mul_of_nonneg_right hminute hshare]

theorem idle_caller_allowed_three :
    ∃ t₀ : Int, ∀ now, t₀ ≤ now →
      ((new.after [⟨"a", .request 3 "team" "m", 2, 0⟩]).allow 3 "team/m" (liveReplicas (some 3))
        now).2 = true :=
  (idle_caller_allowed_iff _ (by decide) (by decide) "team/m").mpr (by decide)

/-- One request a minute with two replicas: no call is ever let through. -/
theorem limit_below_replicas_starves :
    ¬∃ t₀ : Int, ∀ now, t₀ ≤ now →
      (new.allow 1 "team/m" (liveReplicas (some 2)) now).2 = true := by
  rintro ⟨t₀, h⟩
  have hfirst := h t₀ le_rfl
  norm_num [allow, new, liveReplicas, perReplica, TokenBucket.draw, sinceClamped,
    minutes] at hfirst

/-! ### Other providers -/

/-- The bucket of a model in a namespace is that of no other model or namespace and of
no tool. -/
theorem contends_of_key {c a : RateCall} (hc : '/' ∉ c.ns.toList ∧ ':' ∉ c.ns.toList)
    (ha : '/' ∉ a.ns.toList ∧ ':' ∉ a.ns.toList) (hlimit : 0 < c.limit) (hlimit' : 0 < a.limit)
    (hrequest : ∃ limit ns model, a = .request limit ns model) (hkey : c.key = a.key) :
    c.contends a = true := by
  obtain ⟨limit', ns', model', rfl⟩ := hrequest
  have hlist := congrArg String.toList hkey
  cases c with
  | request limit ns model =>
    simp only [RateCall.key, String.toList_append, List.append_assoc] at hlist
    obtain ⟨hns, hmodel⟩ := Text.eq_of_append_sep hc.1 ha.1 hlist
    obtain rfl : ns = ns' := String.toList_inj.mp hns
    obtain rfl := String.toList_inj.mp hmodel
    have hboth : 0 < limit ∧ 0 < limit' := ⟨hlimit, hlimit'⟩
    simpa [RateCall.contends] using hboth
  | tool limit ns name =>
    simp only [RateCall.key, String.toList_append, List.append_assoc] at hlist
    have hslash : '/' ∉ "mcp:".toList ++ ns.toList := by
      simpa [RateCall.ns] using hc.1
    have hcut : ("mcp:".toList ++ ns.toList) ++ '/' :: name.toList =
        ns'.toList ++ '/' :: model'.toList := by simpa using hlist
    obtain ⟨hns, -⟩ := Text.eq_of_append_sep hslash ha.1 hcut
    exact absurd (hns ▸ by simp) ha.2

theorem answersTo_filter (shared : String → Prop) (calls : List LimiterCall)
    (hmine : ∀ c ∈ calls, c.isOf provider = true → 0 < c.call.limit → shared c.call.key)
    (hother : ∀ c ∈ calls, c.isOf provider = false → 0 < c.call.limit → ¬shared c.call.key)
    (r r' : RateLimiter) (hagree : ∀ k, shared k → r.buckets.lookup k = r'.buckets.lookup k) :
    r.answersTo provider calls = r'.answersTo provider (calls.filter (·.isOf provider)) := by
  induction calls generalizing r r' with
  | nil => rfl
  | cons c rest ih =>
    have ih := ih (fun c hc => hmine c (.tail _ hc)) (fun c hc => hother c (.tail _ hc))
    cases hc : c.isOf provider with
    | true =>
      rw [List.filter_cons_of_pos hc]
      simp only [answersTo, hc, if_true]
      rcases le_or_gt c.call.limit 0 with hlimit | hlimit
      · rw [step_of_nonpos hlimit, step_of_nonpos hlimit, ih r r' hagree]
      · have hsame := hagree _ (hmine c List.mem_cons_self hc hlimit)
        rw [step_of_pos hlimit, step_of_pos hlimit, hsame, ih _ _ fun k hk => ?_]
        by_cases hkey : k = c.call.key
        · rw [hkey, AList.lookup_insert, AList.lookup_insert]
        · rw [AList.lookup_insert_ne hkey, AList.lookup_insert_ne hkey, hagree k hk]
    | false =>
      rw [List.filter_cons_of_neg (by simp [hc])]
      simp only [answersTo, hc, Bool.false_eq_true, if_false]
      rcases le_or_gt c.call.limit 0 with hlimit | hlimit
      · rw [step_of_nonpos hlimit, ih r r' hagree]
      · rw [step_of_pos hlimit]
        refine ih _ _ fun k hk => ?_
        have hkey : k ≠ c.call.key := fun h =>
          hother c List.mem_cons_self hc hlimit (h ▸ hk)
        rw [AList.lookup_insert_ne hkey, hagree k hk]

theorem answersTo_of_keepsApart {calls : List LimiterCall}
    (hns : ∀ c ∈ calls, '/' ∉ c.call.ns.toList ∧ ':' ∉ c.call.ns.toList)
    (hapart : keepsApart provider calls = true) :
    new.answersTo provider calls = new.answersTo provider (calls.filter (·.isOf provider)) := by
  refine answersTo_filter
    (fun k => ∃ a ∈ calls, a.isOf provider = true ∧ 0 < a.call.limit ∧ a.call.key = k)
    calls (fun c hc hmine hlimit => ⟨c, hc, hmine, hlimit, rfl⟩) ?_ new new fun _ _ => rfl
  rintro c hc hother hlimit ⟨a, ha, hmine, hlimit', hkey⟩
  have hrequest : ∃ limit ns model, a.call = .request limit ns model := by
    unfold LimiterCall.isOf at hmine
    split at hmine
    · exact ⟨_, _, _, ‹_›⟩
    · cases hmine
  have hclash := contends_of_key (hns c hc) (hns a ha) hlimit hlimit' hrequest hkey.symm
  simp only [keepsApart, List.all_eq_true] at hapart
  simpa [hother, hmine, hclash] using
    List.all_eq_true.mp ((Bool.or_eq_true _ _).mp (hapart c hc) |>.resolve_left
      (by simp [hother])) a ha

/-- Two runs with the same calls for a provider answer them alike, whatever the calls
for other providers are, as long as in neither run another ModelProvider is asked for a
model of the same name in the same namespace. -/
theorem providers_do_not_interfere {calls calls' : List LimiterCall}
    (hns : ∀ c ∈ calls ++ calls', '/' ∉ c.call.ns.toList ∧ ':' ∉ c.call.ns.toList)
    (hsame : calls.filter (·.isOf provider) = calls'.filter (·.isOf provider))
    (hapart : keepsApart provider calls = true) (hapart' : keepsApart provider calls' = true) :
    new.answersTo provider calls = new.answersTo provider calls' := by
  rw [answersTo_of_keepsApart (fun c hc => hns c (List.mem_append_left _ hc)) hapart, hsame,
    ← answersTo_of_keepsApart (fun c hc => hns c (List.mem_append_right _ hc)) hapart']

/-- Two requests for a provider with a limit of one, with a call for another provider and
a tool call between them. -/
def betweenCalls (model : String) : List LimiterCall :=
  [⟨"a", .request 1 "team" "m", 1, 0⟩, ⟨"b", .request 120 "team" model, 1, 1000000000⟩,
    ⟨"b", .tool 5 "team" "m", 1, 1000000000⟩, ⟨"a", .request 1 "team" "m", 1, 1000000000⟩]

theorem providers_do_not_interfere_otherModel :
    new.answersTo "a" (betweenCalls "n") =
      new.answersTo "a" ((betweenCalls "n").filter (·.isOf "a")) :=
  providers_do_not_interfere (by decide +kernel) (by decide +kernel) (by decide +kernel)
    (by decide +kernel)

/-- A call for another provider of a model of the same name pours its own limit into
the bucket: the second request, denied without it, is let through. -/
theorem same_model_interferes :
    (betweenCalls "m").filter (·.isOf "a") =
        ((betweenCalls "m").filter (·.isOf "a")).filter (·.isOf "a") ∧
      new.answersTo "a" ((betweenCalls "m").filter (·.isOf "a")) = [true, false] ∧
      new.answersTo "a" (betweenCalls "m") = [true, true] :=
  ⟨by decide +kernel, by decide +kernel, by decide +kernel⟩

end RateLimiter

end Kaalm.Gateway
