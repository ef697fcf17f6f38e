/-
  Controller/ChannelSweep.lean --- when the sweep of a deleted channel is final.

  THE ARGUMENT.  Terminating is for good: a status write over a channel that is
  being deleted writes Terminating, and a write over an older version is refused.
  So a replica whose copy is Terminating refuses every later request.  If, when the
  sweep lists the records, every replica has got that far, no request is past the gate
  and the list misses nothing, then nothing is created any more.

  WHAT THE CODE DOES NOT WAIT FOR.  The annotation is the word of one replica: the
  others may still serve an older version, a request that passed the gate before may
  create its record after the sweep, and the list comes from a cache.
-/
import Kaalm.Controller.ChannelDelete
import Kaalm.Controller.Effects
import Kaalm.Foundation.VersionLog

namespace Kaalm.Controller

open Kaalm.Foundation
open Kaalm.Gateway (Time ChannelPhase asyncTTL)
open Prog (Safe)

variable {N M : Nat}

/-! ## Histories -/

abbrev ChannelObs (N : Nat) : Type := Obs (ChannelOp N) ChannelAns ApiError

/-- The write gate refuses a request that sees this. -/
def gateClosed : Option ChannelObject → Bool
  | none => true
  | some ch => ch.phase = some .terminating

def passedGate (tr : ChannelHistory N) : Bool :=
  tr.any fun
    | ⟨.channelByPath _, .ok x⟩ => !gateClosed x
    | _ => false

/-- What a sweep has listed and not yet deleted. -/
def unswept : ChannelHistory N → Option (List RecordConfigMap)
  | [] => none
  | ⟨.listRecords true, .ok rs⟩ :: _ => some rs
  | ⟨.deleteRecord id, .ok _⟩ :: tr => (unswept tr).map (·.filter (·.requestID ≠ id))
  | ⟨.deleteRecord id, .error .notFound⟩ :: tr =>
    (unswept tr).map (·.filter (·.requestID ≠ id))
  | _ :: tr => unswept tr

/-- The versions of the channel a pass knows to have been stored: the one it read,
and the one its status write made of it. -/
inductive KnownChannel (tr : ChannelHistory N) : ChannelObject → Prop
  | read (b : ChannelObject) (h : ⟨.getChannel, .ok b⟩ ∈ tr) : KnownChannel tr b
  | written (b u : ChannelObject) (rv : Nat) (h : ⟨.getChannel, .ok b⟩ ∈ tr)
      (hwrite : ⟨.updateStatus u, .ok rv⟩ ∈ tr) (hrv : u.rv = b.rv) :
      KnownChannel tr { b with phase := u.phase, rv := rv }

/-- A status write over the version `b`: Terminating on a channel that is being
deleted, and on no other. -/
structure MayReport (b u : ChannelObject) : Prop where
  rv : u.rv = b.rv
  deleted : u.phase = some .terminating → b.deletionTimestamp.isSome = true ∨ b.phase = u.phase
  stays : b.deletionTimestamp.isSome = true → u.phase = some .terminating

def reconcilerAllows (tr : ChannelHistory N) : ChannelOp N → Prop
  | .getChannel => tr = []
  | .updateStatus u => ∃ b, KnownChannel tr b ∧ MayReport b u
  | .update u => u.finalizer = true ∨ unswept tr = some []
  | .listRecords true => ∃ b, KnownChannel tr b ∧ b.phase = some .terminating
  | .listRecords false => True
  | .deleteRecord _ => True
  | .assess => True
  | .now => True
  | _ => False

/-- The last answer is a count that lets an accept of the channel through. -/
def Admitted (tr : ChannelHistory N) : Prop :=
  ∃ i ch count rest, tr = ⟨.countPending, count⟩ :: rest ∧
    ⟨.channelByPath i, .ok (some ch)⟩ ∈ rest ∧ ∀ n : Nat, count = .ok n → (n : Int) < ch.maxPending

def requestAllows (tr : ChannelHistory N) : ChannelOp N → Prop
  | .channelByPath _ => True
  | .accepts => True
  | .countPending => True
  | .now => Admitted tr
  | .createRecord _ => passedGate tr = true ∧ ∃ now rest, tr = ⟨.now, now⟩ :: rest
  | _ => False

def channelContract : ChannelWorker N M → Contract (ChannelOp N) ChannelAns ApiError
  | .reconciler => ⟨fun _ => True, reconcilerAllows⟩
  | .request _ _ => ⟨fun _ => True, requestAllows⟩

section Programs

variable {tr tr' : ChannelHistory N} {ch b : ChannelObject}

theorem KnownChannel.mono (hg : tr ⊆ tr') (h : KnownChannel tr b) : KnownChannel tr' b := by
  cases h with
  | read b h => exact .read b (hg h)
  | written b u rv h hwrite hrv => exact .written b u rv (hg h) (hg hwrite) hrv

/-- Nothing is asked of what a pass leaves behind. -/
def finished {α : Type} : α → ChannelHistory N → Prop := fun _ _ => True

theorem safe_deleteRecords (rs : List RecordConfigMap) (tr : ChannelHistory N) :
    Safe (channelContract (M := M) .reconciler) (fun _ tr' => ∀ left, unswept tr = some left →
      (∀ r ∈ left, r ∈ rs) → unswept tr' = some []) (deleteRecords rs) tr := by
  induction rs generalizing tr with
  | nil =>
    intro left hleft hsub
    rw [hleft]
    exact congrArg some (List.eq_nil_iff_forall_not_mem.mpr fun r hr => by cases hsub r hr)
  | cons r rs ih =>
    -- deleting a record, or finding it gone, takes it off what is left
    have hnext : ∀ o : ChannelObs N,
        unswept (o :: tr) = (unswept tr).map (·.filter (·.requestID ≠ r.requestID)) →
        Safe (channelContract (M := M) .reconciler) (fun _ tr' => ∀ left, unswept tr = some left →
          (∀ x ∈ left, x ∈ r :: rs) → unswept tr' = some []) (deleteRecords rs) (o :: tr) := by
      intro o ho
      refine (ih (o :: tr)).mono fun _ tr' h left hleft hsub => ?_
      refine h (left.filter (·.requestID ≠ r.requestID)) (by rw [ho, hleft]; rfl) fun x hx => ?_
      obtain ⟨hmem, hne⟩ := List.mem_filter.mp hx
      rcases List.mem_cons.mp (hsub x hmem) with rfl | hrest
      · simp at hne
      · exact hrest
    refine Safe.attempt_bind trivial fun res _ => ?_
    cases res with
    | ok _ => exact hnext _ rfl
    | error e =>
      cases e with
      | notFound => exact hnext _ rfl
      | alreadyExists | conflict | other => trivial

theorem safe_prune (sweepAll : Bool) (hallow : reconcilerAllows tr (.listRecords sweepAll)) :
    Safe (channelContract (M := M) .reconciler)
      (fun _ tr' => sweepAll = true → unswept tr' = some [])
      (pruneAsyncConfigMaps sweepAll) tr := by
  refine Safe.perform_bind hallow fun records _ => Safe.perform_bind trivial fun now _ => ?_
  refine (safe_deleteRecords _ _).mono fun _ tr' h hall => ?_
  subst hall
  exact h records rfl fun r hr => List.mem_filter.mpr ⟨hr, rfl⟩

theorem safe_sweepAndRelease (hb : KnownChannel tr b) (hphase : b.phase = some .terminating) :
    Safe (channelContract (M := M) .reconciler) finished (sweepAndRelease ch) tr := by
  refine Safe.bind (safe_prune true ⟨b, hb, hphase⟩) fun _ tr' hswept => ?_
  exact Safe.perform_bind (.inr (hswept rfl)) fun _ _ => trivial

theorem safe_reconcileChannelDelete (hread : ⟨.getChannel, .ok ch⟩ ∈ tr)
    (hdel : ch.deletionTimestamp.isSome = true) :
    Safe (channelContract (M := M) .reconciler) finished (reconcileChannelDelete ch) tr := by
  simp only [reconcileChannelDelete]
  split
  · -- whichever way, the version after the first step is Terminating
    refine Safe.bind (Q := fun _ tr' => ∃ b, KnownChannel tr' b ∧ b.phase = some .terminating)
      ?_ fun ch' tr' hb => ?_
    · simp only [announceTerminating]
      split
      · rename_i hphase
        exact ⟨ch, .read ch hread, hphase⟩
      · refine Safe.perform_bind ⟨ch, .read ch hread, rfl, fun _ => .inl hdel, fun _ => rfl⟩
          fun rv _ => ?_
        exact ⟨_, .written ch _ rv (.tail _ hread) (.head _) rfl, rfl⟩
    · obtain ⟨b, hb, hphase⟩ := hb
      split
      · exact safe_sweepAndRelease hb hphase
      · refine Safe.perform_bind trivial fun now _ => ?_
        split
        · trivial
        · exact safe_sweepAndRelease (hb.mono (List.subset_cons_self _ _)) hphase
  · trivial

theorem mayReport_phase (found : Assessment) (hdel : ch.deletionTimestamp = none) :
    MayReport ch { ch with phase := found.phase ch.phase } where
  rv := rfl
  deleted h := by
    have hreduced : ∀ d, reducePhase d ≠ .terminating := by decide
    cases found with
    | systemNamespace => exact .inr rfl
    | agentNotFound => cases h
    | invalid d | valid d => exact absurd (Option.some.inj h) (hreduced d)
  stays h := by
    rw [hdel] at h
    cases h

theorem safe_reportChannel (hread : ⟨.getChannel, .ok ch⟩ ∈ tr)
    (hdel : ch.deletionTimestamp = none) :
    Safe (channelContract (M := M) .reconciler) finished (reportChannel ch) tr := by
  refine Safe.perform_bind trivial fun found _ => ?_
  have hlast : ∀ tr' : ChannelHistory N, tr ⊆ tr' → Safe (channelContract (M := M) .reconciler)
      finished (updateChannelStatus { ch with phase := found.phase ch.phase } >>= fun _ => pure ())
      tr' := by
    intro tr' hg
    refine Safe.bind (Q := finished) (Safe.perform_bind
      ⟨ch, .read ch (hg hread), mayReport_phase found hdel⟩ fun _ _ => trivial) fun _ _ _ => trivial
  refine Safe.bind (Q := fun _ tr' => tr ⊆ tr') ?_ fun _ tr' hg => hlast tr' hg
  cases found with
  | valid d =>
    exact (safe_prune false trivial).grows.mono fun _ tr' h =>
      fun _ hx => h.2.subset (.tail _ hx)
  | systemNamespace | agentNotFound | invalid => exact List.subset_cons_self _ _

theorem safe_reconcileChannel :
    Safe (channelContract (N := N) (M := M) .reconciler) finished reconcileChannel [] := by
  refine Safe.attempt_bind rfl fun r _ => ?_
  cases r with
  | error e => cases e <;> trivial
  | ok ch =>
    dsimp only
    split
    · rename_i hdel
      exact safe_reconcileChannelDelete (.head _) hdel
    · rename_i hdel
      split
      · exact safe_reportChannel (.head _) (by simpa using hdel)
      · exact Safe.perform_bind (.inl rfl) fun _ _ => trivial

/-! ## The intake -/

theorem passedGate_cons (o : ChannelObs N) (h : passedGate tr = true) :
    passedGate (o :: tr) = true := by
  simp only [passedGate, List.any_cons, Bool.or_eq_true]
  exact .inr h

theorem safe_createPlaceholder {i : Fin N} {k : Fin M} (h : passedGate tr = true)
    (hadmitted : Admitted tr) :
    Safe (channelContract (.request i k)) finished createPlaceholder tr :=
  Safe.perform_bind hadmitted fun _ _ =>
    Safe.attempt_bind ⟨passedGate_cons _ h, _, _, rfl⟩ fun _ _ => trivial

theorem safe_intake (i : Fin N) (k : Fin M) :
    Safe (channelContract (.request i k)) finished (intake i) [] := by
  refine Safe.attempt_bind trivial fun r _ => ?_
  cases r with
  | error e => trivial
  | ok x =>
    cases x with
    | none => trivial
    | some ch =>
      dsimp only
      split
      · trivial
      · rename_i hopen
        have hpassed : passedGate [(⟨.channelByPath i, .ok (some ch)⟩ : ChannelObs N)] = true := by
          simp [passedGate, gateClosed, hopen]
        refine Safe.perform_bind trivial fun through _ => ?_
        split
        · refine Safe.attempt_bind trivial fun count _ => ?_
          have hplace := fun hroom => safe_createPlaceholder (i := i) (k := k)
            (passedGate_cons ⟨.countPending, count⟩
              (passedGate_cons ⟨.accepts, .ok through⟩ hpassed))
            ⟨i, ch, count, _, rfl, .tail _ (.head _), hroom⟩
          cases count with
          | error e => exact hplace fun n h => by cases h
          | ok n =>
            dsimp only
            split
            · trivial
            · next hroom => exact hplace fun m h => by cases h; exact not_le.mp hroom
        · trivial

end Programs

/-! ## Everything one operation can do -/

def ChannelWorld.addRecord (s : ChannelWorld N) (expires : Time) : ChannelWorld N :=
  { s.putRecords (⟨s.nextRequest, some expires⟩ :: s.records) with
    nextRequest := s.nextRequest + 1 }

/-- What an answer without an effect says about the store. -/
def Truthful (s : ChannelWorld N) : ChannelObs N → Prop
  | ⟨.getChannel, .ok b⟩ => s.channel = some b ∨ b ∈ s.versions
  | ⟨.updateStatus _, .ok _⟩ => False
  | ⟨.listRecords true, .ok _⟩ => False
  | ⟨.deleteRecord _, .ok _⟩ => False
  | ⟨.deleteRecord id, .error .notFound⟩ => ∀ r ∈ s.records, r.requestID ≠ id
  | ⟨.channelByPath i, .ok x⟩ => x = (s.replicas i).view
  | _ => True

/-- An operation, its answer, and the store after it. -/
inductive ChannelEffect (s : ChannelWorld N) : ChannelObs N → ChannelWorld N → Prop
  | skip (o : ChannelObs N) (h : Truthful s o) : ChannelEffect s o s
  | status (u cur : ChannelObject) (r : Except ApiError Nat) (hcur : s.channel = some cur)
      (hrv : cur.rv = u.rv) (hr : ∀ rv, r = .ok rv → rv = s.revision + 1) :
      ChannelEffect s ⟨.updateStatus u, r⟩ (s.writeStatus u cur)
  | finalizer (u cur : ChannelObject) (r : Except ApiError Nat) (hcur : s.channel = some cur) :
      ChannelEffect s ⟨.update u, r⟩ (s.writeFinalizer u cur)
  | listed (sweepAll : Bool) (rs : List RecordConfigMap) :
      ChannelEffect s ⟨.listRecords sweepAll, .ok rs⟩ (s.listed sweepAll)
  | deleted (id : Nat) (r : Except ApiError Unit) :
      ChannelEffect s ⟨.deleteRecord id, r⟩ (s.putRecords (s.records.filter (·.requestID ≠ id)))
  | created (expires : Time) (r : Except ApiError Unit) :
      ChannelEffect s ⟨.createRecord expires, r⟩ (s.addRecord expires)

section Effects

variable {s s' : ChannelWorld N} {op : ChannelOp N} {c : ChannelChoice}

theorem apply_effect_channel (op : ChannelOp N) (s : ChannelWorld N) :
    ChannelEffect s ⟨op, (s.apply op).1⟩ (s.apply op).2 ∧
      ((∀ b, op ≠ .listRecords b) → ChannelEffect s ⟨op, .error .other⟩ (s.apply op).2) := by
  cases op with
  | getChannel =>
    simp only [ChannelWorld.apply]
    cases hch : s.channel with
    | none => exact ⟨.skip _ trivial, fun _ => .skip _ trivial⟩
    | some ch => exact ⟨.skip _ (.inl hch), fun _ => .skip _ trivial⟩
  | updateStatus u =>
    simp only [ChannelWorld.apply, ChannelWorld.checked]
    cases hch : s.channel with
    | none => exact ⟨.skip _ trivial, fun _ => .skip _ trivial⟩
    | some cur =>
      dsimp only
      split
      · next hrv =>
        exact ⟨.status u cur _ hch hrv fun rv h => (Except.ok.inj h).symm,
          fun _ => .status u cur _ hch hrv fun rv h => by cases h⟩
      · exact ⟨.skip _ trivial, fun _ => .skip _ trivial⟩
  | update u =>
    simp only [ChannelWorld.apply, ChannelWorld.checked]
    cases hch : s.channel with
    | none => exact ⟨.skip _ trivial, fun _ => .skip _ trivial⟩
    | some cur =>
      dsimp only
      split
      · exact ⟨.finalizer u cur _ hch, fun _ => .finalizer u cur _ hch⟩
      · exact ⟨.skip _ trivial, fun _ => .skip _ trivial⟩
  | listRecords b => exact ⟨.listed b _, fun h => absurd rfl (h b)⟩
  | deleteRecord id =>
    simp only [ChannelWorld.apply]
    split
    · exact ⟨.deleted id _, fun _ => .deleted id _⟩
    · next hany =>
      refine ⟨.skip _ fun r hr hid => hany ?_, fun _ => .skip _ trivial⟩
      exact List.any_eq_true.mpr ⟨r, hr, decide_eq_true hid⟩
  | createRecord e => exact ⟨.created e _, fun _ => .created e _⟩
  | channelByPath i => exact ⟨.skip _ rfl, fun _ => .skip _ trivial⟩
  | assess | now | accepts | countPending => exact ⟨.skip _ trivial, fun _ => .skip _ trivial⟩

theorem executeChannel_effect {r : Except ApiError (ChannelAns op)}
    (h : executeChannel op c s = some (r, s')) : ChannelEffect s ⟨op, r⟩ s' := by
  -- a failure with no particular error says nothing
  have hfail : ∀ op : ChannelOp N, Truthful s ⟨op, .error .other⟩ := by
    intro op
    cases op with
    | listRecords b => cases b <;> trivial
    | _ => trivial
  unfold executeChannel at h
  split at h
  · have heff := (apply_effect_channel op s).1
    rw [Option.some.inj h] at heff
    exact heff
  · cases h; exact .skip _ (hfail _)
  · split at h
    · next hget => cases h; exact .skip _ (.inr (List.mem_of_getElem? hget))
    · cases h; exact .skip _ trivial
  · cases h; exact .listed _ _
  · cases h; exact .skip _ trivial
  · cases h; exact .skip _ trivial
  · cases h; exact .skip _ (hfail _)
  · next hlist =>
    cases h
    exact (apply_effect_channel _ s).2 fun b hb => hlist b hb
  · cases h

end Effects

/-! ## The invariant -/

/-- A closed gate stays closed from one version to a later one. -/
def Follows (x y : Option ChannelObject) : Prop := gateClosed x = true → gateClosed y = true

/-- The versions of the channel, the replicas' watches, and what a sweep under the
condition leaves. -/
structure Handshake (s : ChannelWorld N) : Prop where
  log : VersionLog (fun ch : ChannelObject => ch.rv) s.revision s.versions
  stored : ∀ ch, s.channel = some ch → ch ∈ s.versions
  deleted : ∀ ch ∈ s.versions, ch.phase = some .terminating → ch.deletionTimestamp.isSome = true
  forGood : ∀ ch ∈ s.versions, ch.phase = some .terminating → gateClosed s.channel = true
  watch : ∀ i, (s.replicas i).up = true →
    ((s.replicas i).view :: ((s.replicas i).queue ++ [s.channel])).Pairwise Follows
  down : ∀ i, (s.replicas i).up = false → (s.replicas i).view = none ∧ (s.replicas i).queue = []
  swept : s.swept = true →
    gateClosed s.channel = true ∧ ∀ i, gateClosed (s.replicas i).view = true
  released : s.released = true → s.swept = true ∧ s.records = []

namespace Handshake

variable {s s' : ChannelWorld N}

theorem pairwise_push {x y new : Option ChannelObject} {queue : List (Option ChannelObject)}
    (h : (x :: (queue ++ [y])).Pairwise Follows) (hnew : Follows y new) :
    (x :: ((queue ++ [new]) ++ [new])).Pairwise Follows := by
  rw [← List.cons_append] at h
  obtain ⟨hpre, -, hlast⟩ := List.pairwise_append.mp h
  have hpush : ((x :: queue) ++ [new, new]).Pairwise Follows := by
    refine List.pairwise_append.mpr ⟨hpre, ?_, fun z hz n hn => ?_⟩
    · simp [Follows]
    · obtain rfl : n = new := by simpa using hn
      exact fun hc => hnew (hlast z hz y (List.mem_singleton_self y) hc)
  simpa using hpush

/-- A new version: stamped, Terminating only when deleted, and closed if the last
one was. -/
theorem put (h : Handshake s) {new : Option ChannelObject}
    (hrv : ∀ ch, new = some ch → ch.rv = s.revision + 1)
    (hdel : ∀ ch, new = some ch → ch.phase = some .terminating →
      ch.deletionTimestamp.isSome = true)
    (hfollows : Follows s.channel new) : Handshake (s.put new) where
  log := h.log.push (Nat.le_succ _) fun ch hch => .inr ⟨hrv ch hch, Nat.le_refl _⟩
  stored ch hch := List.mem_append_left _ (Option.mem_toList.mpr hch)
  deleted ch hch := by
    rcases List.mem_append.mp hch with hnew | hold
    · exact hdel ch (Option.mem_toList.mp hnew)
    · exact h.deleted ch hold
  forGood ch hch hphase := by
    rcases List.mem_append.mp hch with hnew | hold
    · rw [Option.mem_toList.mp hnew]
      exact decide_eq_true hphase
    · exact hfollows (h.forGood ch hold hphase)
  watch i hup := by
    simp only [ChannelWorld.put] at hup ⊢
    split at hup
    · next hi =>
      rw [if_pos hi]
      exact pairwise_push (h.watch i hi) hfollows
    · next hi => exact absurd hup hi
  down i hup := by
    simp only [ChannelWorld.put] at hup ⊢
    split at hup
    · next hi => cases hup.symm.trans hi
    · next hi =>
      rw [if_neg hi]
      exact h.down i hup
  swept hs := by
    obtain ⟨hstored, hviews⟩ := h.swept hs
    refine ⟨hfollows hstored, fun i => ?_⟩
    simp only [ChannelWorld.put]
    split <;> exact hviews i
  released hrel := h.released hrel

theorem setReplica (h : Handshake s) (i : Fin N) {r : GatewayReplica}
    (hwatch : r.up = true → (r.view :: (r.queue ++ [s.channel])).Pairwise Follows)
    (hdown : r.up = false → r.view = none ∧ r.queue = [])
    (hclosed : s.swept = true → gateClosed r.view = true) : Handshake (s.setReplica i r) where
  log := h.log
  stored := h.stored
  deleted := h.deleted
  forGood := h.forGood
  watch := (Function.forall_update_iff s.replicas fun _ r =>
    r.up = true → (r.view :: (r.queue ++ [s.channel])).Pairwise Follows).mpr
      ⟨hwatch, fun j _ => h.watch j⟩
  down := (Function.forall_update_iff s.replicas fun _ r =>
    r.up = false → r.view = none ∧ r.queue = []).mpr ⟨hdown, fun j _ => h.down j⟩
  swept hs := ⟨(h.swept hs).1, (Function.forall_update_iff s.replicas fun _ r =>
    gateClosed r.view = true).mpr ⟨hclosed hs, fun j _ => (h.swept hs).2 j⟩⟩
  released := h.released

theorem records (h : Handshake s) {rs : List RecordConfigMap}
    {history : List (List RecordConfigMap)}
    {next : Nat} {swept : Bool}
    (hswept : swept = true → gateClosed s.channel = true ∧
      ∀ i, gateClosed (s.replicas i).view = true)
    (hrel : s.released = true → swept = true ∧ rs = []) :
    Handshake { s with
      records := rs, recordHistory := history, nextRequest := next, swept := swept } :=
  { h with swept := hswept, released := hrel }

/-! ## The environment -/

theorem putSame (h : Handshake s) {cur ch : ChannelObject} (hcur : s.channel = some cur)
    (hrv : ch.rv = s.revision + 1) (hphase : ch.phase = cur.phase)
    (hdel : cur.deletionTimestamp.isSome = true → ch.deletionTimestamp.isSome = true)
    (deleted finalizer : Bool) : Handshake (s.put (unlessReleased deleted finalizer ch)) := by
  refine h.put (fun x hx => ?_) (fun x hx hterm => ?_) fun hclosed => ?_
  · rw [eq_of_unlessReleased hx]
    exact hrv
  · rw [eq_of_unlessReleased hx] at hterm ⊢
    exact hdel (h.deleted cur (h.stored cur hcur) (hphase ▸ hterm))
  · rw [hcur] at hclosed
    unfold unlessReleased
    split
    · rfl
    · exact decide_eq_true (hphase.trans (of_decide_eq_true hclosed))

theorem putPresent (h : Handshake s) {cur ch : ChannelObject} (hcur : s.channel = some cur)
    (hrv : ch.rv = s.revision + 1) (hphase : ch.phase = cur.phase)
    (hdel : cur.deletionTimestamp.isSome = true → ch.deletionTimestamp.isSome = true) :
    Handshake (s.put (some ch)) :=
  h.putSame hcur hrv hphase hdel false true

theorem annotate (h : Handshake s) : Handshake s.annotate := by
  unfold ChannelWorld.annotate
  cases hch : s.channel with
  | none => exact h
  | some cur => exact h.putPresent hch rfl rfl id

theorem setNotices (h : Handshake s) (i : Fin N) (n : Nat) :
    Handshake (s.setReplica i { s.replicas i with notices := n }) :=
  h.setReplica i (h.watch i) (h.down i) fun hs => (h.swept hs).2 i

theorem env (h : Handshake s) {e : ChannelEnvEvent N} (he : channelEnv s e = some s') :
    Handshake s' := by
  cases e with
  | tick d =>
    cases he
    exact { h with }
  | delete =>
    obtain ⟨cur, hcur, rfl⟩ := Option.map_eq_some_iff.mp he
    refine h.putSame hcur ?_ ?_ (fun _ => ?_) true cur.finalizer
    · rfl
    · rfl
    · cases cur.deletionTimestamp <;> rfl
  | edit n =>
    obtain ⟨cur, hcur, rfl⟩ := Option.map_eq_some_iff.mp he
    exact h.putPresent hcur rfl rfl id
  | start i =>
    simp only [channelEnv] at he
    split_ifs at he
    cases he
    refine h.setReplica i (fun _ => ?_) (fun hx => by cases hx) fun hs => (h.swept hs).1
    simp [Follows]
  | stop i =>
    cases he
    exact h.setReplica i (fun hx => by cases hx) (fun _ => ⟨rfl, rfl⟩) fun _ => rfl
  | deliver i =>
    simp only [channelEnv] at he
    split at he
    · cases he
    · next x rest hq =>
      cases he
      have hup : (s.replicas i).up = true := by
        cases hx : (s.replicas i).up with
        | true => rfl
        | false => cases hq.symm.trans (h.down i hx).2
      have hw := h.watch i hup
      rw [hq] at hw
      refine h.setReplica i (fun _ => hw.of_cons) (fun hx => ?_) fun hs => ?_
      · cases hup.symm.trans hx
      · exact (List.pairwise_cons.mp hw).1 x (.head _) ((h.swept hs).2 i)
  | confirm i =>
    simp only [channelEnv] at he
    split_ifs at he
    cases he
    exact (h.setNotices i _).annotate
  | giveUp i =>
    simp only [channelEnv] at he
    split_ifs at he
    cases he
    exact h.setNotices i _

end Handshake

/-! ## What workers know -/

/-- What a pass knows: the versions it has seen were stored, and no record is left
but those its sweep has still to delete. -/
structure PassKnows (tr : ChannelHistory N) (s : ChannelWorld N) : Prop where
  known : ∀ b, KnownChannel tr b → b ∈ s.versions
  left : ∀ rs, unswept tr = some rs →
    s.swept = true ∧ ∀ r ∈ s.records, ∃ x ∈ rs, x.requestID = r.requestID

/-- What a worker knows; a request under way during a sweep has not passed the
gate. -/
def ChannelKnows : ChannelWorker N M → ChannelHistory N → ChannelWorld N → Prop
  | .reconciler, tr, s => PassKnows tr s
  | .request _ _, tr, s => s.swept = true → passedGate tr = false

section Steps

variable {s s' : ChannelWorld N} {tr : ChannelHistory N} {o : ChannelObs N}

theorem ChannelEffect.versions (h : ChannelEffect s o s') : s.versions ⊆ s'.versions := by
  cases h with
  | status | finalizer => exact List.subset_append_right _ _
  | _ => exact List.Subset.refl _

theorem ChannelEffect.records (h : ChannelEffect s o s') (hop : ∀ e, o.op ≠ .createRecord e) :
    ∀ r ∈ s'.records, r ∈ s.records := by
  cases h with
  | deleted id r => exact fun x hx => (List.mem_filter.mp hx).1
  | created e r => exact absurd rfl (hop e)
  | _ => exact fun x hx => hx

theorem ChannelEffect.swept (h : ChannelEffect s o s') :
    s'.swept = s.swept ∨ ∃ rs, o = ⟨.listRecords true, .ok rs⟩ := by
  cases h with
  | listed sweepAll rs =>
    cases sweepAll with
    | true => exact .inr ⟨rs, rfl⟩
    | false => exact .inl (Bool.or_false _)
  | _ => exact .inl rfl

theorem Handshake.exec (h : Handshake s) (hknows : PassKnows tr s)
    (hallow : reconcilerAllows tr o.op) (heff : ChannelEffect s o s')
    (hclosed : ∀ rs, o = ⟨.listRecords true, .ok rs⟩ →
      ∀ i, gateClosed (s.replicas i).view = true) : Handshake s' := by
  cases heff with
  | skip o htrue => exact h
  | status u cur r hcur hrv hr =>
    obtain ⟨b, hb, hmay⟩ := hallow
    obtain rfl : cur = b :=
      h.log.unique cur (h.stored cur hcur) b (hknows.known b hb) (hrv.trans hmay.rv)
    have hmem := h.stored cur hcur
    refine h.put (fun ch hch => ?_) (fun ch hch hterm => ?_) fun hold => ?_
    · cases hch; rfl
    · cases hch
      rcases hmay.deleted hterm with hdel | hphase
      · exact hdel
      · exact h.deleted cur hmem (hphase.trans hterm)
    · rw [hcur] at hold
      exact decide_eq_true (hmay.stays (h.deleted cur hmem (of_decide_eq_true hold)))
  | finalizer u cur r hcur =>
    have hput : Handshake (s.put (unlessReleased cur.deletionTimestamp.isSome u.finalizer
        { cur with finalizer := u.finalizer, rv := s.revision + 1 })) := by
      refine h.putSame hcur ?_ ?_ ?_ _ _
      · rfl
      · rfl
      · exact id
    refine { hput with released := fun hrel => ?_ }
    rcases Bool.or_eq_true_iff.mp hrel with hold | hnew
    · exact h.released hold
    · rcases hallow with hkeep | hleft
      · rw [hkeep, Bool.not_true, Bool.and_false] at hnew
        cases hnew
      · obtain ⟨hswept, hrecords⟩ := hknows.left [] hleft
        refine ⟨hswept, List.eq_nil_iff_forall_not_mem.mpr fun x hx => ?_⟩
        obtain ⟨y, hy, -⟩ := hrecords x hx
        cases hy
  | listed sweepAll rs =>
    cases sweepAll with
    | false =>
      refine h.records (fun hx => h.swept ?_) fun hrel => ?_
      · simpa [ChannelWorld.listed] using hx
      · obtain ⟨hswept, hrecords⟩ := h.released hrel
        exact ⟨by simpa [ChannelWorld.listed] using hswept, hrecords⟩
    | true =>
      obtain ⟨b, hb, hterm⟩ := hallow
      refine h.records (fun _ => ⟨h.forGood b (hknows.known b hb) hterm, hclosed rs rfl⟩)
        fun hrel => ⟨Bool.or_true _, (h.released hrel).2⟩
  | deleted id r =>
    refine h.records h.swept fun hrel => ?_
    obtain ⟨hswept, hrecords⟩ := h.released hrel
    exact ⟨hswept, by rw [hrecords]; rfl⟩
  | created e r => exact False.elim hallow

/-! ## A step of the reconciler -/

theorem unswept_cons (o : ChannelObs N) (tr : ChannelHistory N) :
    (∃ rs, o = ⟨.listRecords true, .ok rs⟩) ∨
    (∃ id, o.op = .deleteRecord id ∧ (∀ s s', ChannelEffect s o s' →
        ∀ r ∈ s'.records, r.requestID ≠ id) ∧
      unswept (o :: tr) = (unswept tr).map (·.filter (·.requestID ≠ id))) ∨
    unswept (o :: tr) = unswept tr := by
  have hgone : ∀ (id : Nat) (r : Except ApiError Unit), r = .ok () ∨ r = .error .notFound →
      ∀ s s' : ChannelWorld N, ChannelEffect s ⟨.deleteRecord id, r⟩ s' →
        ∀ x ∈ s'.records, x.requestID ≠ id := by
    intro id r hr s s' heff x hx
    cases heff with
    | skip o htrue =>
      rcases hr with rfl | rfl
      · exact False.elim htrue
      · exact htrue x hx
    | deleted id r => exact of_decide_eq_true (List.mem_filter.mp hx).2
  obtain ⟨op, r⟩ := o
  cases op with
  | listRecords b =>
    cases b with
    | true =>
      cases r with
      | ok rs => exact .inl ⟨rs, rfl⟩
      | error e => exact .inr (.inr rfl)
    | false => exact .inr (.inr rfl)
  | deleteRecord id =>
    cases r with
    | ok u => exact .inr (.inl ⟨id, rfl, hgone id _ (.inl rfl), rfl⟩)
    | error e =>
      cases e with
      | notFound => exact .inr (.inl ⟨id, rfl, hgone id _ (.inr rfl), rfl⟩)
      | alreadyExists | conflict | other => exact .inr (.inr rfl)
  | _ => exact .inr (.inr rfl)

theorem PassKnows.known_cons (h : PassKnows tr s) (hinv : Handshake s)
    (hallow : reconcilerAllows tr o.op) (heff : ChannelEffect s o s') {b : ChannelObject}
    (hb : KnownChannel (o :: tr) b) : b ∈ s'.versions := by
  have hread : ∀ b, (⟨.getChannel, .ok b⟩ : ChannelObs N) ∈ o :: tr → b ∈ s.versions := by
    intro b hm
    rcases List.mem_cons.mp hm with rfl | hold
    · cases heff with
      | skip o htrue =>
        rcases htrue with hcur | hmem
        · exact hinv.stored b hcur
        · exact hmem
    · exact h.known b (.read b hold)
  cases hb with
  | read b hm => exact heff.versions (hread b hm)
  | written b u rv hm hwrite hrv =>
    rcases List.mem_cons.mp hwrite with rfl | hold
    · cases heff with
      | skip o htrue => exact False.elim htrue
      | status u cur r hcur hcurrv hr =>
        obtain rfl : cur = b :=
          hinv.log.unique cur (hinv.stored cur hcur) b (hread b hm) (hcurrv.trans hrv)
        rw [hr rv rfl]
        exact List.mem_append_left _ (Option.mem_toList.mpr rfl)
    · rcases List.mem_cons.mp hm with rfl | hm'
      · have hnil : tr = [] := hallow
        rw [hnil] at hold
        cases hold
      · exact heff.versions (h.known _ (.written b u rv hm' hold hrv))

theorem PassKnows.cons (h : PassKnows tr s) (hinv : Handshake s)
    (hallow : reconcilerAllows tr o.op) (heff : ChannelEffect s o s')
    (hall : ∀ rs, o = ⟨.listRecords true, .ok rs⟩ →
      ∀ r ∈ s.records, ∃ x ∈ rs, x.requestID = r.requestID) : PassKnows (o :: tr) s' where
  known _ hb := h.known_cons hinv hallow heff hb
  left rs hrs := by
    have hcreate : ∀ e, o.op ≠ .createRecord e := by
      intro e he
      rw [he] at hallow
      exact hallow
    have hkeep : s.swept = true → s'.swept = true := by
      intro hs
      rcases heff.swept with hsame | ⟨rs', rfl⟩
      · rw [hsame]; exact hs
      · cases heff with
        | skip o htrue => exact False.elim htrue
        | listed b rs' => exact Bool.or_true _
    rcases unswept_cons o tr with ⟨rs', rfl⟩ | ⟨id, -, hgone, hmap⟩ | hsame
    · obtain rfl : rs' = rs := Option.some.inj hrs
      cases heff with
      | skip o htrue => exact False.elim htrue
      | listed b rs' => exact ⟨Bool.or_true _, hall rs' rfl⟩
    · rw [hmap] at hrs
      obtain ⟨old, hold, rfl⟩ := Option.map_eq_some_iff.mp hrs
      obtain ⟨hswept, hleft⟩ := h.left old hold
      refine ⟨hkeep hswept, fun r hr => ?_⟩
      obtain ⟨x, hx, hid⟩ := hleft r (heff.records hcreate r hr)
      refine ⟨x, List.mem_filter.mpr ⟨hx, decide_eq_true ?_⟩, hid⟩
      rw [hid]
      exact hgone s s' heff r hr
    · rw [hsame] at hrs
      obtain ⟨hswept, hleft⟩ := h.left rs hrs
      exact ⟨hkeep hswept, fun r hr => hleft r (heff.records hcreate r hr)⟩

/-! ## A step of a request -/

theorem Handshake.request (h : Handshake s) (hknows : s.swept = true → passedGate tr = false)
    (hallow : requestAllows tr o.op) (heff : ChannelEffect s o s') :
    Handshake s' ∧ s'.swept = s.swept ∧ s'.versions = s.versions ∧
      (s.swept = true → s'.records = s.records) := by
  cases heff with
  | skip o htrue => exact ⟨h, rfl, rfl, fun _ => rfl⟩
  | created e r =>
    have hnot : ¬s.swept = true := fun hs => by cases (hknows hs).symm.trans hallow.1
    refine ⟨h.records h.swept fun hrel => absurd (h.released hrel).1 hnot, rfl, rfl,
      fun hs => absurd hs hnot⟩
  | status | finalizer => exact False.elim hallow
  | listed b rs => cases b <;> exact False.elim hallow
  | deleted id r => exact False.elim hallow

theorem passedGate_request (h : Handshake s) (hknows : s.swept = true → passedGate tr = false)
    (hallow : requestAllows tr o.op) (heff : ChannelEffect s o s') (hs : s.swept = true) :
    passedGate (o :: tr) = false := by
  obtain ⟨op, r⟩ := o
  have hold := hknows hs
  simp only [passedGate, List.any_cons, Bool.or_eq_false_iff]
  refine ⟨?_, hold⟩
  cases op with
  | channelByPath i =>
    cases r with
    | error e => rfl
    | ok x =>
      cases heff with
      | skip o htrue =>
        have hview : x = (s.replicas i).view := htrue
        rw [hview]
        simp only [(h.swept hs).2 i, Bool.not_true]
  | _ => rfl

end Steps

/-! ## The condition -/

abbrev ChannelState (N M : Nat) : Type :=
  Pool (ChannelWorld N) (ChannelWorker N M) (ChannelOp N) ChannelAns ApiError

abbrev ChannelEvent (N M : Nat) : Type :=
  PoolEvent (ChannelWorker N M) ChannelChoice (ChannelEnvEvent N)

/-- A request that may still create a record. -/
def inside : Option (Pass (ChannelOp N) ChannelAns ApiError) → Bool
  | none => false
  | some x => passedGate x.trace

/-- Every replica refuses requests for the channel, and none is past the gate. -/
def gatesClosed (σ : ChannelState N M) : Bool :=
  decide (∀ i, gateClosed (σ.world.replicas i).view = true) &&
    decide (∀ i k, inside (σ.passes (.request i k)) = false)

/-- If the step answers the list of a sweep, the gates are closed and the answer
misses no stored record. -/
def sweepReady (σ : ChannelState N M) : ChannelEvent N M → Bool
  | .exec .reconciler c =>
    match σ.passes .reconciler with
    | some ⟨_, .call (.listRecords true) _⟩ =>
      match c with
      | .ok => gatesClosed σ
      | .listed lag =>
        gatesClosed σ && σ.world.records.all fun r =>
          (σ.world.recordsAt lag).any fun x => x.requestID = r.requestID
      | _ => true
    | _ => true
  | _ => true

theorem gatesClosed_iff {σ : ChannelState N M} :
    gatesClosed σ = true ↔ (∀ i, gateClosed (σ.world.replicas i).view = true) ∧
      ∀ i k, inside (σ.passes (.request i k)) = false := by
  simp only [gatesClosed, Bool.and_eq_true, decide_eq_true_eq]

theorem ready_of_performs {σ : ChannelState N M} {c : ChannelChoice} {tr : ChannelHistory N}
    {rs : List RecordConfigMap} {s' : ChannelWorld N}
    (hp : (channelSystem N M).Performs σ .reconciler c tr (.listRecords true) (.ok rs) s')
    (hguard : sweepReady σ (.exec .reconciler c) = true) :
    gatesClosed σ = true ∧ ∀ r ∈ σ.world.records, ∃ x ∈ rs, x.requestID = r.requestID := by
  obtain ⟨k, hpass⟩ := hp.pass
  have hresult : executeChannel (.listRecords true) c σ.world = some (.ok rs, s') := hp.result
  simp only [sweepReady, hpass] at hguard
  cases c with
  | ok =>
    cases hresult
    exact ⟨hguard, fun r hr => ⟨r, hr, rfl⟩⟩
  | listed lag =>
    cases hresult
    obtain ⟨hclosed, hall⟩ := Bool.and_eq_true_iff.mp hguard
    refine ⟨hclosed, fun r hr => ?_⟩
    obtain ⟨x, hx, hid⟩ := List.any_eq_true.mp (List.all_eq_true.mp hall r hr)
    exact ⟨x, hx, of_decide_eq_true hid⟩
  | failed | lost | cached | assessed | accepted => cases hresult

theorem channelEnv_frame {s s' : ChannelWorld N} {e : ChannelEnvEvent N}
    (h : channelEnv s e = some s') :
    s'.records = s.records ∧ s'.swept = s.swept ∧ s.versions ⊆ s'.versions := by
  have hput : ∀ (t : ChannelWorld N) (new : Option ChannelObject),
      (t.put new).records = t.records ∧ (t.put new).swept = t.swept ∧
        t.versions ⊆ (t.put new).versions :=
    fun t new => ⟨rfl, rfl, List.subset_append_right _ _⟩
  have hsame : ∀ t : ChannelWorld N, t.records = t.records ∧ t.swept = t.swept ∧
      t.versions ⊆ t.versions := fun t => ⟨rfl, rfl, List.Subset.refl _⟩
  cases e with
  | tick d => cases h; exact hsame s
  | delete | edit => obtain ⟨cur, -, rfl⟩ := Option.map_eq_some_iff.mp h; exact hput s _
  | stop i => cases h; exact hsame s
  | start i | giveUp i =>
    simp only [channelEnv] at h
    split_ifs at h
    cases h
    exact hsame s
  | deliver i =>
    simp only [channelEnv] at h
    split at h
    · cases h
    · cases h; exact hsame s
  | confirm i =>
    simp only [channelEnv] at h
    split_ifs at h
    cases h
    unfold ChannelWorld.annotate
    split
    · exact hsame s
    · exact hput (s.setReplica i _) _

theorem handshake_proof (N M : Nat) :
    (channelSystem N M).Proof channelContract Handshake ChannelKnows
      (fun σ e => sweepReady σ e = true) where
  safe w := by
    cases w with
    | reconciler => exact safe_reconcileChannel
    | request i k => exact safe_intake i k
  start w s _ := by
    cases w with
    | reconciler =>
      refine ⟨fun b hb => ?_, fun rs hrs => by cases hrs⟩
      cases hb with
      | read b hm | written b u rv hm => cases hm
    | request i k => exact fun _ => rfl
  answers σ w c tr op r s' _ _ := by
    cases w with
    | reconciler | request => trivial
  exec σ w c tr op r s' hinv hknows hguard hallow hp := by
    have heff := executeChannel_effect hp.result
    cases w with
    | reconciler =>
      have hready : ∀ rs, (⟨op, r⟩ : ChannelObs N) = ⟨.listRecords true, .ok rs⟩ →
          gatesClosed σ = true ∧
            ∀ x ∈ σ.world.records, ∃ y ∈ rs, y.requestID = x.requestID := by
        rintro rs heq
        cases heq
        exact ready_of_performs hp hguard
      have hmay : reconcilerAllows tr (⟨op, r⟩ : ChannelObs N).op := hallow
      refine ⟨hinv.exec hknows hmay heff fun rs h => (gatesClosed_iff.mp (hready rs h).1).1,
        PassKnows.cons hknows hinv hmay heff fun rs h => (hready rs h).2,
        fun w' x hne hx hknows' => ?_⟩
      cases w' with
      | reconciler => exact absurd rfl hne
      | request i k =>
        intro hs
        rcases heff.swept with hsame | ⟨rs, h⟩
        · exact hknows' (hsame ▸ hs)
        · have hout := (gatesClosed_iff.mp (hready rs h).1).2 i k
          rw [hx] at hout
          exact hout
    | request i k =>
      have hmay : requestAllows tr (⟨op, r⟩ : ChannelObs N).op := hallow
      obtain ⟨hinv', hswept, hversions, hrecords⟩ := hinv.request hknows hmay heff
      refine ⟨hinv', fun hs => passedGate_request hinv hknows hmay heff (hswept ▸ hs),
        fun w' x _ _ hknows' => ?_⟩
      cases w' with
      | reconciler =>
        refine ⟨fun b hb => hversions ▸ PassKnows.known hknows' b hb, fun rs hrs => ?_⟩
        obtain ⟨hs, hleft⟩ := PassKnows.left hknows' rs hrs
        exact ⟨hswept ▸ hs, hrecords hs ▸ hleft⟩
      | request i' k' => exact fun hs => hknows' (hswept ▸ hs)
  env σ e s' hinv _ he := by
    obtain ⟨hrecords, hswept, hversions⟩ := channelEnv_frame he
    refine ⟨hinv.env he, fun w x _ hknows => ?_⟩
    cases w with
    | reconciler =>
      refine ⟨fun b hb => hversions (PassKnows.known hknows b hb), fun rs hrs => ?_⟩
      obtain ⟨hs, hleft⟩ := PassKnows.left hknows rs hrs
      exact ⟨hswept ▸ hs, hrecords ▸ hleft⟩
    | request i k => exact fun hs => hknows (hswept ▸ hs)

/-- A channel before its deletion: stored once, with every replica down and any
records. -/
structure ChannelWorld.Initial (s : ChannelWorld N) : Prop where
  versions : s.versions = s.channel.toList
  rv : ∀ ch, s.channel = some ch → ch.rv ≤ s.revision
  phase : ∀ ch, s.channel = some ch → ch.phase = some .terminating →
    ch.deletionTimestamp.isSome = true
  replicas : ∀ i, s.replicas i = ⟨false, none, [], 0⟩
  swept : s.swept = false
  released : s.released = false

theorem ChannelWorld.Initial.handshake {s : ChannelWorld N} (h : s.Initial) : Handshake s where
  log := by rw [h.versions]; exact VersionLog.start h.rv
  stored ch hch := by rw [h.versions]; exact Option.mem_toList.mpr hch
  deleted ch hch := h.phase ch (Option.mem_toList.mp (h.versions ▸ hch))
  forGood ch hch hterm := by
    rw [h.versions] at hch
    rw [Option.mem_toList.mp hch]
    exact decide_eq_true hterm
  watch i hup := by rw [h.replicas i] at hup; cases hup
  down i _ := by rw [h.replicas i]; exact ⟨rfl, rfl⟩
  swept hs := by rw [h.swept] at hs; cases hs
  released hr := by rw [h.released] at hr; cases hr

/-- In every run whose sweeps list with the gates closed and miss nothing, there is
no record of the channel in any state after its finalizer was removed. -/
theorem no_record_after_release {s₀ : ChannelWorld N} (hinit : s₀.Initial)
    {es : List (ChannelEvent N M)} {σ : ChannelState N M}
    (hrun : Run (channelSystem N M).step (fun σ e => sweepReady σ e = true) (PoolSpec.idle s₀) es σ)
    (hreleased : σ.world.released = true) : σ.world.records = [] := by
  have hsound := (handshake_proof N M).run hrun (PoolSpec.sound_idle hinit.handshake)
  exact (hsound.inv.released hreleased).2

/-! ## Two replicas -/

def openChannel : ChannelObject := ⟨1, true, none, some .active, false, 0⟩

/-- The channel with one record, and two replicas that are down. -/
def openWorld : ChannelWorld 2 where
  channel := some openChannel
  replicas _ := ⟨false, none, [], 0⟩
  records := [⟨0, some asyncTTL⟩]
  nextRequest := 1
  revision := 1
  clock := 0
  versions := [openChannel]
  recordHistory := []
  swept := false
  released := false

theorem initial_openWorld : openWorld.Initial where
  versions := rfl
  rv ch hch := by cases hch; exact Nat.le_refl 1
  phase ch hch hterm := by cases hch; cases hterm
  replicas _ := rfl
  swept := rfl
  released := rfl

/-- The state an execution leads to whose steps all pass a check. -/
def channelAfter (check : ChannelState 2 1 → ChannelEvent 2 1 → Bool)
    (es : List (ChannelEvent 2 1)) : ChannelState 2 1 :=
  (exec (guarded check (channelSystem 2 1).step) (PoolSpec.idle openWorld) es).getD
    (PoolSpec.idle openWorld)

def replica₀ : Fin 2 := ⟨0, Nat.two_pos⟩

def replica₁ : Fin 2 := ⟨1, Nat.one_lt_two⟩

/-- Both replicas start, the channel is deleted, a pass announces Terminating, and
the first replica sees it and patches the annotation. -/
def announcedEvents : List (ChannelEvent 2 1) :=
  [.env (.start replica₀), .env (.start replica₁), .env .delete, .start .reconciler] ++
    List.replicate 3 (.exec .reconciler .ok) ++
    [.env (.deliver replica₀), .env (.deliver replica₀), .env (.confirm replica₀)]

/-- A pass that finds the annotation: read, list, clock, one record, finalizer. -/
def releaseEvents : List (ChannelEvent 2 1) :=
  .start .reconciler :: List.replicate 5 (.exec .reconciler .ok)

/-- The second replica sees Terminating before the release. -/
def closedEvents : List (ChannelEvent 2 1) :=
  announcedEvents ++ [.env (.deliver replica₁), .env (.deliver replica₁)] ++ releaseEvents

theorem no_record_after_release_both :
    (channelAfter sweepReady closedEvents).world.released = true ∧
      (channelAfter sweepReady closedEvents).world.records = [] := by
  have hreleased : (channelAfter sweepReady closedEvents).world.released = true := by
    decide +kernel
  exact ⟨hreleased, no_record_after_release initial_openWorld
    (run_getD (by decide +kernel)) hreleased⟩

/-- Less than the disconnect timeout has passed. -/
def beforeTimeout (σ : ChannelState 2 1) (_ : ChannelEvent 2 1) : Bool :=
  σ.world.clock < disconnectTimeout

/-- The second replica, which still serves the version from before the deletion,
accepts a request. -/
def lateEvents : List (ChannelEvent 2 1) :=
  .start (.request replica₁ ⟨0, Nat.one_pos⟩) ::
    List.replicate 5 (.exec (.request replica₁ ⟨0, Nat.one_pos⟩) .ok)

/-- On the annotation of one replica the finalizer goes, and the channel with it; the
other replica then creates a record that nothing sweeps. -/
theorem record_created_after_release :
    openWorld.Initial ∧
    Run (channelSystem 2 1).step (fun σ e => beforeTimeout σ e = true) (PoolSpec.idle openWorld)
      (announcedEvents ++ releaseEvents ++ lateEvents)
      (channelAfter beforeTimeout (announcedEvents ++ releaseEvents ++ lateEvents)) ∧
    (channelAfter beforeTimeout announcedEvents).world.channel.any (·.disconnected) = true ∧
    (channelAfter beforeTimeout (announcedEvents ++ releaseEvents)).world.released = true ∧
    (channelAfter beforeTimeout (announcedEvents ++ releaseEvents)).world.channel = none ∧
    (channelAfter beforeTimeout (announcedEvents ++ releaseEvents)).world.records = [] ∧
    (channelAfter beforeTimeout (announcedEvents ++ releaseEvents ++ lateEvents)).world.records =
      [⟨1, some asyncTTL⟩] := by
  refine ⟨initial_openWorld, run_getD (by decide +kernel), ?_⟩
  decide +kernel

end Kaalm.Controller
