/-
  Runtime/Messages.lean --- the message endpoint of an agent process.

  Source: src/agentruntime/agent.go (`messageHandler`).  A delivery is checked,
  looked up in the redelivery window, handed to the Handler and remembered.  Lookup
  and remembering each take the store's lock and the Handler runs between them, so
  deliveries interleave at these points.  The Handler returns any reply, an error, or
  panics, whenever it likes.  Deliveries arrive at any moment with any id: the
  gateway's schedule (src/internal/gateway/user.go, `deliverToAgent`) is one such
  sequence.

  THE INVARIANT.  For an id that was not evicted, at most one delivery is being
  handled, none is while a reply is cached, and the cached reply is the only one it
  is answered with (`Once`), unless a second delivery passes the lookup while the
  first is being handled.
-/
import Kaalm.Runtime.Store
import Kaalm.Foundation.Run

namespace Kaalm.Runtime

open Kaalm.Foundation

/-- The message a delivery carries; only the id matters to the endpoint. -/
structure Envelope (Payload : Type) where
  messageID : String
  payload : Payload
  deriving DecidableEq, Repr

/-- A request to the endpoint: the DNS names of each peer certificate, when the
connection is TLS, and the envelope its body decodes to. -/
structure Request (Payload : Type) where
  peerCertificates : Option (List (List String))
  envelope : Option (Envelope Payload)
  deriving DecidableEq, Repr

def gatewaySANLocal : String := "kaalm-gateway.kaalm-system.svc.cluster.local"

def gatewaySANShort : String := "kaalm-gateway.kaalm-system.svc"

def gatewaySANMatches (dnsNames : List String) : Bool :=
  dnsNames.any fun san => san == gatewaySANLocal || san == gatewaySANShort

inductive Answer (Reply : Type) where
  | ok (reply : Reply)
  | error (status : Nat) (text : String)
  deriving DecidableEq, Repr

inductive Phase (Reply : Type) where
  /-- decoded, not yet looked up -/
  | received
  /-- the Handler is running -/
  | handling
  /-- the Handler returned; the reply is not yet remembered -/
  | handled (reply : Reply)
  /-- about to write a 200 -/
  | replying (reply : Reply)
  | answered (answer : Answer Reply)
  /-- the Handler panicked and the connection was dropped -/
  | aborted
  deriving DecidableEq, Repr

/-- What a Handler's run ends with. -/
inductive Outcome (Reply : Type) where
  | reply (r : Reply)
  | error (text : String)
  | panic
  deriving DecidableEq, Repr

/-- One delivery with its place in the endpoint. -/
structure Delivery (Payload Reply : Type) where
  env : Envelope Payload
  phase : Phase Reply
  deriving DecidableEq, Repr

/-- An agent process.  `refused` holds the answers given before an envelope was
read; `returned` and `evicted` record the Handler's successful returns and the ids
that left the window. -/
structure Process (Payload Reply : Type) where
  store : PersistedState Reply
  deliveries : List (Delivery Payload Reply)
  refused : List (Answer Reply)
  returned : List (String × Reply)
  evicted : List String
  deriving DecidableEq

inductive Event (Payload Reply : Type) where
  | arrive (req : Request Payload)
  | recall_ (i : Nat)
  | return_ (i : Nat) (outcome : Outcome Reply)
  | remember (i : Nat)
  | write (i : Nat)
  | setKV (key raw : String)
  | deleteKV (key : String)
  deriving DecidableEq, Repr

namespace Process

variable {Payload Reply : Type}

def start (store : PersistedState Reply) : Process Payload Reply := ⟨store, [], [], [], []⟩

def setPhase (s : Process Payload Reply) (i : Nat) (d : Delivery Payload Reply)
    (phase : Phase Reply) : Process Payload Reply :=
  { s with deliveries := s.deliveries.set i { d with phase := phase } }

/-- The checks before the lookup: who calls, and whether the body is an envelope. -/
def arrive (s : Process Payload Reply) (req : Request Payload) : Process Payload Reply :=
  let refuse (status : Nat) (text : String) :=
    { s with refused := s.refused ++ [.error status text] }
  match req.peerCertificates with
  | none | some [] => refuse 401 "client certificate required"
  | some (cert :: _) =>
    if !gatewaySANMatches cert then refuse 403 "gateway identity required"
    else
      match req.envelope with
      | none => refuse 400 "invalid message envelope"
      | some env => { s with deliveries := s.deliveries ++ [⟨env, .received⟩] }

/-- The lookup; an envelope without an id skips it. -/
def recallStep (s : Process Payload Reply) (i : Nat) (d : Delivery Payload Reply) :
    Process Payload Reply :=
  if d.env.messageID = "" then s.setPhase i d .handling
  else
    let looked := s.store.recall_ d.env.messageID
    match looked.2 with
    | some cached => { s.setPhase i d (.replying cached) with store := looked.1 }
    | none => { s.setPhase i d .handling with store := looked.1 }

def returnStep (s : Process Payload Reply) (i : Nat) (d : Delivery Payload Reply) :
    Outcome Reply → Process Payload Reply
  | .reply r =>
    { s.setPhase i d (.handled r) with returned := s.returned ++ [(d.env.messageID, r)] }
  | .error _ => s.setPhase i d (.answered (.error 500 "handler error"))
  | .panic => s.setPhase i d .aborted

def rememberStep (s : Process Payload Reply) (i : Nat) (d : Delivery Payload Reply)
    (resp : Reply) : Process Payload Reply :=
  if d.env.messageID = "" then s.setPhase i d (.replying resp)
  else
    { s.setPhase i d (.replying resp) with
      store := s.store.remember d.env.messageID resp dedupBufferSize
      evicted := s.evicted ++ s.store.evictedBy d.env.messageID dedupBufferSize }

/-- The step function; an event that finds no delivery at its point is not enabled. -/
def step (s : Process Payload Reply) : Event Payload Reply → Option (Process Payload Reply)
  | .arrive req => some (s.arrive req)
  | .recall_ i =>
    match s.deliveries[i]? with
    | some ⟨env, .received⟩ => some (s.recallStep i ⟨env, .received⟩)
    | _ => none
  | .return_ i outcome =>
    match s.deliveries[i]? with
    | some ⟨env, .handling⟩ => some (s.returnStep i ⟨env, .handling⟩ outcome)
    | _ => none
  | .remember i =>
    match s.deliveries[i]? with
    | some ⟨env, .handled r⟩ => some (s.rememberStep i ⟨env, .handled r⟩ r)
    | _ => none
  | .write i =>
    match s.deliveries[i]? with
    | some ⟨env, .replying r⟩ =>
      some (s.setPhase i ⟨env, .replying r⟩ (.answered (.ok r)))
    | _ => none
  | .setKV key raw => some { s with store := s.store.setKV key raw }
  | .deleteKV key => some { s with store := s.store.deleteKV key }

/-! ## What the process shows of one id -/

def phaseOf (s : Process Payload Reply) (id : String) (i : Nat) : Option (Phase Reply) :=
  (s.deliveries[i]?).bind fun d => if d.env.messageID = id then some d.phase else none

def returnedFor (s : Process Payload Reply) (id : String) : List Reply :=
  (s.returned.filter fun x => x.1 = id).map (·.2)

end Process

/-- Between the lookup that missed and the remembering. -/
def Phase.beingHandled {Reply : Type} : Phase Reply → Bool
  | .handling | .handled _ => true
  | .received | .replying _ | .answered _ | .aborted => false

def Phase.reply? {Reply : Type} : Phase Reply → Option Reply
  | .replying r | .answered (.ok r) => some r
  | .received | .handling | .handled _ | .answered (.error _ _) | .aborted => none

/-- All that one id can tell two processes apart by. -/
structure View (Reply : Type) where
  phase : Nat → Option (Phase Reply)
  cached : Option Reply
  returned : List Reply

namespace View

variable {Reply : Type}

def move (v : View Reply) (i : Nat) (p : Phase Reply) : View Reply :=
  { v with phase := Function.update v.phase i (some p) }

/-- The protocol of one id, in which no delivery passes the lookup while another is
being handled. -/
inductive Step : View Reply → View Reply → Prop
  | quiet (v : View Reply) : Step v v
  | arrive (v : View Reply) (i : Nat) : v.phase i = none → Step v (v.move i .received)
  | miss (v : View Reply) (i : Nat) : v.cached = none →
      (∀ j p, v.phase j = some p → p.beingHandled = false) → Step v (v.move i .handling)
  | hit (v : View Reply) (i : Nat) (r : Reply) : v.phase i = some .received →
      v.cached = some r → Step v (v.move i (.replying r))
  | return_ (v : View Reply) (i : Nat) (r : Reply) : v.phase i = some .handling →
      Step v { v.move i (.handled r) with returned := v.returned ++ [r] }
  | fail (v : View Reply) (i : Nat) (p : Phase Reply) : v.phase i = some .handling →
      p.beingHandled = false → p.reply? = none → Step v (v.move i p)
  | remember (v : View Reply) (i : Nat) (r : Reply) : v.phase i = some (.handled r) →
      Step v { v.move i (.replying r) with cached := some r }
  | write (v : View Reply) (i : Nat) (r : Reply) : v.phase i = some (.replying r) →
      Step v (v.move i (.answered (.ok r)))

/-- An id that is handled once: a successful return is about to be remembered, or the
reply is cached. -/
structure Once (v : View Reply) : Prop where
  alone : ∀ i j p q, v.phase i = some p → v.phase j = some q → p.beingHandled = true →
    q.beingHandled = true → i = j
  idle : v.cached ≠ none → ∀ i p, v.phase i = some p → p.beingHandled = false
  answered : ∀ i p, v.phase i = some p → ∀ r, p.reply? = some r → v.cached = some r
  returned : v.returned.length ≤ 1
  kept : v.returned ≠ [] → v.cached ≠ none ∨ ∃ i r, v.phase i = some (.handled r)

variable {v : View Reply}

theorem phase_move {i j : Nat} {p q : Phase Reply} (h : (v.move i p).phase j = some q) :
    j = i ∧ q = p ∨ j ≠ i ∧ v.phase j = some q := by
  change Function.update v.phase i (some p) j = some q at h
  by_cases hj : j = i
  · subst hj
    rw [Function.update_self] at h
    exact .inl ⟨rfl, (Option.some.inj h).symm⟩
  · rw [Function.update_of_ne hj] at h
    exact .inr ⟨hj, h⟩

theorem forall_phase_move {i : Nat} {p : Phase Reply} {P : Nat → Phase Reply → Prop} (hp : P i p)
    (hrest : ∀ j q, v.phase j = some q → j ≠ i → P j q) :
    ∀ j q, (v.move i p).phase j = some q → P j q := by
  intro j q hq
  obtain ⟨rfl, rfl⟩ | ⟨hne, hq⟩ := phase_move hq
  · exact hp
  · exact hrest j q hq hne

/-- A delivery that is not being handled moves on to what the cache says, or to
nothing. -/
theorem Once.move (h : Once v) {i : Nat} {p : Phase Reply} (hidle : p.beingHandled = false)
    (hreply : ∀ r, p.reply? = some r → v.cached = some r)
    (hold : ∀ r, v.phase i ≠ some (.handled r)) : Once (v.move i p) where
  alone j k q q' hq hq' hb hb' := by
    obtain ⟨-, rfl⟩ | ⟨-, hq⟩ := phase_move hq
    · cases hidle.symm.trans hb
    obtain ⟨-, rfl⟩ | ⟨-, hq'⟩ := phase_move hq'
    · cases hidle.symm.trans hb'
    exact h.alone j k q q' hq hq' hb hb'
  idle hc := forall_phase_move hidle fun j q hq _ => h.idle hc j q hq
  answered := forall_phase_move hreply fun j q hq _ => h.answered j q hq
  returned := h.returned
  kept hne := by
    refine (h.kept hne).imp_right fun ⟨j, r, hj⟩ => ⟨j, r, ?_⟩
    have hne : j ≠ i := by
      rintro rfl
      exact hold r hj
    exact (Function.update_of_ne hne _ _).trans hj

theorem Step.once {v' : View Reply} (h : Step v v') (hv : Once v) : Once v' := by
  cases h with
  | quiet => exact hv
  | arrive i hnone =>
    exact hv.move rfl (fun r hr => by cases hr) fun r hr => by cases hnone.symm.trans hr
  | hit i r hi hc =>
    exact hv.move rfl (fun r' hr => hc.trans hr) fun r' hr => by cases hi.symm.trans hr
  | fail i p hi hidle hnone =>
    exact hv.move hidle (fun r hr => by cases hnone.symm.trans hr)
      fun r hr => by cases hi.symm.trans hr
  | write i r hi =>
    exact hv.move rfl (hv.answered i (.replying r) hi) fun r' hr => by cases hi.symm.trans hr
  | miss i hc hidle =>
    have hall : ∀ j q, (v.move i .handling).phase j = some q → q.beingHandled = true → j = i :=
      forall_phase_move (fun _ => rfl) fun j q hq _ hb => by cases (hidle j q hq).symm.trans hb
    refine ⟨fun j k p q hp hq hb hb' => (hall j p hp hb).trans (hall k q hq hb').symm,
      fun h => absurd hc h, forall_phase_move (fun r hr => by cases hr)
        fun j q hq _ => hv.answered j q hq, hv.returned, fun hne => ?_⟩
    rcases hv.kept hne with h | ⟨j, r, hj⟩
    · exact absurd hc h
    · cases hidle j _ hj
  | return_ i r hi =>
    have hc : v.cached = none := by
      by_contra hne
      cases hv.idle hne i _ hi
    -- a Handler that has returned before would be this one
    have hnil : v.returned = [] := by
      by_contra hne
      rcases hv.kept hne with h | ⟨j, r', hj⟩
      · exact h hc
      · obtain rfl := hv.alone i j _ _ hi hj rfl rfl
        cases hi.symm.trans hj
    have hall : ∀ j q, (v.move i (.handled r)).phase j = some q → q.beingHandled = true → j = i :=
      forall_phase_move (fun _ => rfl) fun j q hq _ hb => hv.alone j i q _ hq hi hb rfl
    exact ⟨fun j k p q hp hq hb hb' => (hall j p hp hb).trans (hall k q hq hb').symm,
      fun h => absurd hc h, forall_phase_move (fun r hr => by cases hr)
        fun j q hq _ => hv.answered j q hq, by simp [hnil],
      fun _ => .inr ⟨i, r, Function.update_self ..⟩⟩
  | remember i r hi =>
    have hidle : ∀ j q, (v.move i (.replying r)).phase j = some q → q.beingHandled = false :=
      forall_phase_move rfl fun j q hq hne =>
        Bool.eq_false_iff.mpr fun hb => hne (hv.alone j i q _ hq hi hb rfl)
    refine ⟨fun j k p q hp _ hb _ => (Bool.false_ne_true ((hidle j p hp).symm.trans hb)).elim,
      fun _ => hidle, forall_phase_move (fun r' hr => hr) fun j q hq _ r' hr => ?_, hv.returned,
      fun _ => .inl (Option.some_ne_none r)⟩
    -- nothing was answered while this one was being handled
    have hcached : v.cached ≠ none := fun hc => by cases hc.symm.trans (hv.answered j q hq r' hr)
    cases hv.idle hcached i _ hi

end View

namespace Process

variable {Payload Reply : Type}

def view (s : Process Payload Reply) (id : String) : View Reply :=
  ⟨s.phaseOf id, s.store.dedup.lookup id, s.returnedFor id⟩

/-- No other delivery of the id is being handled when a delivery is looked up. -/
def recallsAlone (s : Process Payload Reply) : Event Payload Reply → Bool
  | .recall_ i =>
    (s.deliveries[i]?).all fun d => d.env.messageID = "" ||
      s.deliveries.all fun d' => d'.env.messageID ≠ d.env.messageID || !d'.phase.beingHandled
  | _ => true

variable {d : Delivery Payload Reply} {i : Nat}

theorem phaseOf_setPhase (s : Process Payload Reply) (id : String) (p : Phase Reply)
    (hd : s.deliveries[i]? = some d) :
    (s.setPhase i d p).phaseOf id =
      if d.env.messageID = id then Function.update (s.phaseOf id) i (some p)
      else s.phaseOf id := by
  have hlt : i < s.deliveries.length := (List.getElem?_eq_some_iff.mp hd).1
  funext j
  by_cases hj : j = i
  · subst hj
    have hset : (s.setPhase j d p).deliveries[j]? = some { d with phase := p } := by
      simp [setPhase, List.getElem?_set_self hlt]
    unfold phaseOf
    rw [hset]
    by_cases hid : d.env.messageID = id
    · simp [hid]
    · simp [hid, hd]
  · have hset : (s.setPhase i d p).deliveries[j]? = s.deliveries[j]? := by
      simp [setPhase, List.getElem?_set_ne (Ne.symm hj)]
    have hsame : (s.setPhase i d p).phaseOf id j = s.phaseOf id j := by
      unfold phaseOf
      rw [hset]
    rw [hsame]
    split
    · rw [Function.update_of_ne hj]
    · rfl

theorem view_setPhase (s : Process Payload Reply) (p : Phase Reply)
    (hd : s.deliveries[i]? = some d) :
    (s.setPhase i d p).view d.env.messageID = (s.view d.env.messageID).move i p := by
  simp only [view, View.move, phaseOf_setPhase s _ p hd, if_pos]
  rfl

variable {id : String}

theorem view_setPhase_of_ne (s : Process Payload Reply) (p : Phase Reply)
    (hd : s.deliveries[i]? = some d) (hid : d.env.messageID ≠ id) :
    (s.setPhase i d p).view id = s.view id := by
  simp only [view, phaseOf_setPhase s _ p hd, if_neg hid]
  rfl

variable {s : Process Payload Reply}

theorem view_phase (hd : s.deliveries[i]? = some d) :
    (s.view d.env.messageID).phase i = some d.phase := by
  simp [view, phaseOf, hd]

theorem phaseOf_append (s : Process Payload Reply) (d : Delivery Payload Reply) (id : String) :
    phaseOf { s with deliveries := s.deliveries ++ [d] } id =
      if d.env.messageID = id then
        Function.update (s.phaseOf id) s.deliveries.length (some d.phase)
      else s.phaseOf id := by
  funext j
  simp only [phaseOf]
  rcases Nat.lt_trichotomy j s.deliveries.length with hlt | rfl | hgt
  · rw [List.getElem?_append_left hlt]
    split
    · rw [Function.update_of_ne (Nat.ne_of_lt hlt), phaseOf]
    · rw [phaseOf]
  · split
    · next hid => simp [hid]
    · next hid => simp [phaseOf, hid]
  · have hlong : (s.deliveries ++ [d]).length ≤ j := by
      rw [List.length_append]
      exact hgt
    rw [List.getElem?_eq_none hlong]
    split
    · rw [Function.update_of_ne (Nat.ne_of_gt hgt), phaseOf,
        List.getElem?_eq_none (Nat.le_of_lt hgt)]
    · rw [phaseOf, List.getElem?_eq_none (Nat.le_of_lt hgt)]

theorem view_append (s : Process Payload Reply) (env : Envelope Payload) (id : String) :
    View.Step (s.view id)
      (view { s with deliveries := s.deliveries ++ [⟨env, .received⟩] } id) := by
  have hphase := phaseOf_append s ⟨env, .received⟩ id
  by_cases hid : env.messageID = id
  · rw [if_pos hid] at hphase
    convert View.Step.arrive (s.view id) s.deliveries.length (by simp [view, phaseOf]) using 1
    exact congrArg (View.mk · _ _) hphase
  · rw [if_neg hid] at hphase
    convert View.Step.quiet (s.view id) using 1
    exact congrArg (View.mk · _ _) hphase

theorem view_arrive (s : Process Payload Reply) (req : Request Payload) (id : String) :
    View.Step (s.view id) ((s.arrive req).view id) := by
  unfold arrive
  split
  · exact .quiet _
  · exact .quiet _
  · split
    · exact .quiet _
    · split
      · exact .quiet _
      · exact view_append s _ id

theorem idle_of_recallsAlone (hd : s.deliveries[i]? = some d) (hid : d.env.messageID ≠ "")
    (hg : s.recallsAlone (.recall_ i) = true) :
    ∀ j p, (s.view d.env.messageID).phase j = some p → p.beingHandled = false := by
  intro j p hp
  simp only [recallsAlone, hd, Option.all_some, Bool.or_eq_true, decide_eq_true_eq,
    hid, false_or, List.all_eq_true, Bool.not_eq_true'] at hg
  obtain ⟨d', hd', hmatch⟩ := Option.bind_eq_some_iff.mp hp
  split_ifs at hmatch with hsame
  cases hmatch
  exact (hg d' (List.mem_of_getElem? hd')).resolve_left fun hne => hne hsame

variable {env : Envelope Payload}

theorem view_recallStep (hd : s.deliveries[i]? = some ⟨env, .received⟩)
    (hg : s.recallsAlone (.recall_ i) = true) (hid : id ≠ "") :
    View.Step (s.view id) ((s.recallStep i ⟨env, .received⟩).view id) := by
  have hstore : ∀ (p : Phase Reply), view { s.setPhase i ⟨env, .received⟩ p with
      store := (s.store.recall_ env.messageID).1 } id =
        (s.setPhase i ⟨env, .received⟩ p).view id := by
    intro p
    simp only [view, PersistedState.recall_dedup]
    rfl
  have hlook := s.store.recall_snd env.messageID
  unfold recallStep
  by_cases hsame : env.messageID = id
  · subst hsame
    rw [if_neg hid]
    dsimp only
    split
    · next cached hcached =>
      rw [hstore, view_setPhase s _ hd]
      exact .hit _ i cached (view_phase hd) (hlook.symm.trans hcached)
    · next hnone =>
      rw [hstore, view_setPhase s _ hd]
      exact .miss _ i (hlook.symm.trans hnone) (idle_of_recallsAlone hd hid hg)
  · have hquiet : ∀ p, (s.setPhase i ⟨env, .received⟩ p).view id = s.view id :=
      fun p => view_setPhase_of_ne s p hd hsame
    split_ifs
    · rw [hquiet]
      exact .quiet _
    · dsimp only
      split <;> rw [hstore, hquiet] <;> exact .quiet _

theorem view_returnStep (hd : s.deliveries[i]? = some ⟨env, .handling⟩) (outcome : Outcome Reply)
    (id : String) :
    View.Step (s.view id) ((s.returnStep i ⟨env, .handling⟩ outcome).view id) := by
  by_cases hsame : env.messageID = id
  · subst hsame
    have hmove := fun p => view_setPhase s (d := ⟨env, .handling⟩) p hd
    cases outcome with
    | reply r =>
      convert View.Step.return_ _ i r (view_phase hd) using 1
      rw [← hmove]
      refine congrArg (View.mk _ _) ?_
      simp [returnStep, view, returnedFor, setPhase]
    | error text | panic =>
      rw [returnStep, hmove]
      exact .fail _ i _ (view_phase hd) rfl rfl
  · have hquiet := fun p => view_setPhase_of_ne s (d := ⟨env, .handling⟩) p hd hsame
    have hview : (s.returnStep i ⟨env, .handling⟩ outcome).view id = s.view id := by
      cases outcome with
      | reply r =>
        rw [← hquiet (.handled r)]
        refine congrArg (View.mk _ _) ?_
        simp [returnStep, returnedFor, setPhase, hsame]
      | error | panic => exact hquiet _
    rw [hview]
    exact .quiet _

theorem view_rememberStep {r : Reply} (hd : s.deliveries[i]? = some ⟨env, .handled r⟩)
    (hid : id ≠ "") (hev : id ∉ (s.rememberStep i ⟨env, .handled r⟩ r).evicted) :
    id ∉ s.evicted ∧
      View.Step (s.view id) ((s.rememberStep i ⟨env, .handled r⟩ r).view id) := by
  unfold rememberStep at hev ⊢
  by_cases hempty : env.messageID = ""
  · rw [if_pos hempty] at hev ⊢
    refine ⟨hev, ?_⟩
    rw [view_setPhase_of_ne s _ hd fun h => hid (h.symm.trans hempty)]
    exact .quiet _
  · rw [if_neg hempty] at hev ⊢
    obtain ⟨hold, hnew⟩ := not_or.mp (fun h => hev (List.mem_append.mpr h))
    refine ⟨hold, ?_⟩
    have hlook := s.store.lookup_remember env.messageID r dedupBufferSize id
    rw [if_neg hnew, GoMap.lookup_insert_eq] at hlook
    by_cases hsame : env.messageID = id
    · subst hsame
      rw [if_pos rfl] at hlook
      convert View.Step.remember _ i r (view_phase hd) using 1
      rw [← view_setPhase s _ hd]
      exact congrArg (View.mk _ · _) hlook
    · rw [if_neg (Ne.symm hsame)] at hlook
      have hview := view_setPhase_of_ne s (d := ⟨env, .handled r⟩) (.replying r) hd hsame
      convert View.Step.quiet _ using 1
      rw [← hview]
      exact congrArg (View.mk _ · _) hlook

/-- Every step of the process is a step of the protocol of each id that stays in
the window. -/
theorem step_view {s' : Process Payload Reply} {e : Event Payload Reply}
    (hg : s.recallsAlone e = true) (h : s.step e = some s') (hid : id ≠ "")
    (hev : id ∉ s'.evicted) :
    id ∉ s.evicted ∧ View.Step (s.view id) (s'.view id) := by
  cases e with
  | arrive req =>
    cases h
    refine ⟨?_, view_arrive s req id⟩
    unfold arrive at hev
    split at hev
    · exact hev
    · exact hev
    · split at hev
      · exact hev
      · split at hev <;> exact hev
  | recall_ i =>
    simp only [step] at h
    split at h
    · next env hd =>
      cases h
      refine ⟨?_, view_recallStep hd hg hid⟩
      unfold recallStep at hev
      split at hev
      · exact hev
      · dsimp only at hev
        split at hev <;> exact hev
    · cases h
  | return_ i outcome =>
    simp only [step] at h
    split at h
    · next env hd =>
      cases h
      refine ⟨?_, view_returnStep hd outcome id⟩
      cases outcome <;> exact hev
    · cases h
  | remember i =>
    simp only [step] at h
    split at h
    · next env r hd =>
      cases h
      exact view_rememberStep hd hid hev
    · cases h
  | write i =>
    simp only [step] at h
    split at h
    · next env r hd =>
      cases h
      refine ⟨hev, ?_⟩
      by_cases hsame : env.messageID = id
      · subst hsame
        rw [view_setPhase s _ hd]
        exact .write _ i r (view_phase hd)
      · rw [view_setPhase_of_ne s _ hd hsame]
        exact .quiet _
    · cases h
  | setKV key raw | deleteKV key =>
    cases h
    exact ⟨hev, .quiet _⟩

def repliesTo (s : Process Payload Reply) (id : String) : List Reply :=
  s.deliveries.filterMap fun d => if d.env.messageID = id then d.phase.reply? else none

theorem mem_repliesTo {r : Reply} (h : r ∈ s.repliesTo id) :
    ∃ i p, (s.view id).phase i = some p ∧ p.reply? = some r := by
  obtain ⟨d, hd, hr⟩ := List.mem_filterMap.mp h
  split_ifs at hr with hid
  obtain ⟨i, hi⟩ := List.getElem?_of_mem hd
  exact ⟨i, d.phase, hid ▸ view_phase hi, hr⟩

theorem once_start (store : PersistedState Reply) (id : String) :
    View.Once ((start store : Process Payload Reply).view id) where
  alone i j p q hp := by cases hp
  idle _ i p hp := by cases hp
  answered i p hp := by cases hp
  returned := Nat.zero_le 1
  kept hne := absurd rfl hne

/-- Redelivery: in every run in which no delivery is looked up while another of its
id is being handled, every id that stays in the window is handled to a successful
return at most once, and all its 200 answers carry one reply. -/
theorem handled_at_most_once {store : PersistedState Reply}
    {es : List (Event Payload Reply)} {s : Process Payload Reply}
    (hrun : Run step (fun s e => s.recallsAlone e = true) (start store) es s)
    {id : String} (hid : id ≠ "") (hev : id ∉ s.evicted) :
    (s.returnedFor id).length ≤ 1 ∧ ∀ r ∈ s.repliesTo id, ∀ r' ∈ s.repliesTo id, r = r' := by
  have honce : id ∉ s.evicted → View.Once (s.view id) := by
    refine hrun.invariant (I := fun s => id ∉ s.evicted → View.Once (s.view id)) ?_
      fun _ => once_start store id
    intro s e s' ih hg hstep hev
    obtain ⟨hbefore, hview⟩ := step_view hg hstep hid hev
    exact hview.once (ih hbefore)
  refine ⟨(honce hev).returned, fun r hr r' hr' => ?_⟩
  obtain ⟨i, p, hp, hpr⟩ := mem_repliesTo hr
  obtain ⟨j, q, hq, hqr⟩ := mem_repliesTo hr'
  exact Option.some.inj (((honce hev).answered i p hp r hpr).symm.trans
    ((honce hev).answered j q hq r' hqr))

/-- A delivery of the gateway with the id `m`. -/
def delivery : Event Unit String := .arrive ⟨some [[gatewaySANShort]], some ⟨"m", ()⟩⟩

def retryAfterAnswer : List (Event Unit String) :=
  [delivery, .recall_ 0, .return_ 0 (.reply "first"), .remember 0, .write 0,
    delivery, .recall_ 1, .write 1]

theorem handled_at_most_once_retry :
    ∃ s : Process Unit String,
      Run step (fun s e => s.recallsAlone e = true) (start .empty) retryAfterAnswer s ∧
      s.repliesTo "m" = ["first", "first"] ∧ (s.returnedFor "m").length ≤ 1 := by
  have hexec : exec (guarded recallsAlone step) (start .empty) retryAfterAnswer =
      some ((exec (guarded recallsAlone step) (start .empty) retryAfterAnswer).getD
        (start .empty)) := exec_eq_some_getD _ (by decide +kernel)
  have hrun := run_of_exec_guarded hexec
  have hid : "m" ≠ "" := by decide
  exact ⟨_, hrun, by decide +kernel, (handled_at_most_once hrun hid (by decide +kernel)).1⟩

def retryWhileHandling : List (Event Unit String) :=
  [delivery, .recall_ 0, delivery, .recall_ 1, .return_ 0 (.reply "first"),
    .return_ 1 (.reply "second"), .remember 0, .write 0, .remember 1, .write 1]

/-- Both deliveries of the id are handled, and they are answered differently. -/
theorem handled_twice :
    ∃ s : Process Unit String, exec step (start .empty) retryWhileHandling = some s ∧
      s.evicted = [] ∧ s.returnedFor "m" = ["first", "second"] ∧
      s.repliesTo "m" = ["first", "second"] := by
  refine ⟨_, exec_eq_some_getD (start .empty) (by decide +kernel), ?_⟩
  decide +kernel

end Process

end Kaalm.Runtime
