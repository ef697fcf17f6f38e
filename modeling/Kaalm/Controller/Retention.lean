/-
  Controller/Retention.lean --- a retained volume outlives its Agent.

  THE PATH.  A pass over an Agent that is being deleted asks the class what to do
  with the volume, strips the owner reference when the class says Retain, and only
  then takes its finalizer away.  Afterwards the garbage collector removes
  whatever still names the Agent as its owner.

  WHAT CAN GO WRONG.  A class read that fails counts as Delete, a class read that
  lags may say Delete, and a volume read that lags may miss the volume or its owner.
  Any other error ends the pass before the finalizer goes, and a finalizer write over
  an older version is refused.
-/
import Kaalm.Controller.Wake

namespace Kaalm.Controller

open Kaalm.Foundation

def Unowned (key : NamespacedName) (s : Cluster) : Prop :=
  ∀ pvc, s.children .persistentVolumeClaim (volumeKey key) = some pvc →
    pvc.owner ≠ some (agentWorkload key)

def saysRetain (key : NamespacedName) (s : Cluster) : Bool :=
  match s.agents key with
  | none => true
  | some a =>
    match s.classes a.spec.agentClassRef with
    | none => false
    | some cls => cls.pvcRetention = "Retain"

/-- The pass read an agent whose deletion was requested. -/
def sawDeletion (tr : History) : Bool :=
  tr.any fun
    | ⟨.getAgent _, .ok a⟩ => a.deletionTimestamp.isSome
    | _ => false

/-- A state of the system behind the cache, one worker per workload. -/
abbrev CachedState : Type := Pool Watched Workload Op Ans ApiError

abbrev CachedEvent : Type := PoolEvent Workload CacheChoice EnvEvent

def classUnread : Op → Choice → Bool
  | .getClass _, .failed | .getClass _, .lost => true
  | _, _ => false

/-- If the step is a read of a pass that deletes the agent, it answers what is
stored, and if it is the class read, it does not fail. -/
def deletionReads (key : NamespacedName) (σ : CachedState) : CachedEvent → Bool
  | .exec w (.live c) =>
    if w = agentWorkload key then
      match σ.passes w with
      | some ⟨tr, .call op _⟩ =>
        !sawDeletion tr || (!lags σ.world.cluster op c && !classUnread op c)
      | _ => true
    else true
  | _ => true

def retentionTold (key : NamespacedName) (σ : CachedState) (e : CachedEvent) : Bool :=
  saysRetain key σ.world.cluster && deletionReads key σ e

/-! ## Nobody gives the volume back -/

variable {cfg : Config} {key : NamespacedName} {s s' : Cluster} {w : Workload} {tr : History}
  {op : Op} {e : EnvEvent}

theorem Unowned.exec (h : Unowned key s) (heff : Effect s op s')
    (hallow : (contract cfg w).allows tr op)
    (hw : w ≠ agentWorkload key ∨ ¬SawSelf w tr) : Unowned key s' := by
  intro pvc hpvc
  rcases heff.child .persistentVolumeClaim (volumeKey key) with
    hsame | ⟨val, owner, rfl, -, hnew⟩ | ⟨obj, cur, rfl, -, -, hnew⟩
  · exact h pvc (hsame.symm.trans hpvc)
  · obtain ⟨rfl, hmay⟩ := allows_create hallow
    cases hnew.symm.trans hpvc
    rcases hw with hne | hself
    · exact fun hx => hne (Option.some.inj hx)
    · exact absurd hmay hself
  · have hmay := allows_update hallow
    cases hnew.symm.trans hpvc
    rw [hmay.2]
    exact fun hx => by cases hx

theorem Unowned.env (h : Unowned key s) (heff : EnvEffect s e s') : Unowned key s' := by
  intro pvc hpvc
  rcases heff.child .persistentVolumeClaim (volumeKey key) (by decide) with
    hsame | ⟨c, w, -, -, -, hnone⟩
  · exact h pvc (hsame.symm.trans hpvc)
  · cases hnone.symm.trans hpvc

theorem unowned_of_released {r : Except ApiError (Ans op)} {c : Choice}
    (hex : execute op c s = some (r, s')) (hlags : lags s op c = false)
    (hallow : (contract cfg w).allows tr op)
    (hnew : Released key (⟨op, r⟩ :: tr)) (hold : ¬Released key tr) : Unowned key s' := by
  intro pvc hpvc
  rcases hnew with ⟨cur, howner, hm⟩ | hm | ⟨obj, hm⟩
  · rcases List.mem_cons.mp hm with heq | hm
    · cases heq
      obtain ⟨rfl, v, -, -, hcur⟩ := execute_get_ok hex
      cases (hcur hlags).symm.trans hpvc
      exact howner
    · exact absurd (.inl ⟨cur, howner, hm⟩) hold
  · rcases List.mem_cons.mp hm with heq | hm
    · cases heq
      obtain ⟨hnone, rfl⟩ := execute_get_notFound hex hlags
      cases hnone.symm.trans hpvc
    · exact absurd (.inr (.inl hm)) hold
  · rcases List.mem_cons.mp hm with heq | hm
    · cases heq
      rw [execute_update hex, putChild_self] at hpvc
      cases hpvc
      have hmay := allows_update hallow
      rw [hmay.2]
      exact fun hx => by cases hx
    · exact absurd (.inr (.inr ⟨obj, hm⟩)) hold

/-! ## What a deletion pass knows -/

/-- A deletion pass that takes the volume for released is right, and was told to
retain it as long as the agent it read is the stored one. -/
structure Settles (key : NamespacedName) (w : Workload) (tr : History) (s : Watched) : Prop where
  released : w = agentWorkload key → sawDeletion tr = true → ¬SawSelf w tr → Released key tr →
    Unowned key s.cluster
  told : w = agentWorkload key → sawDeletion tr = true → ∀ b r, KnownVersion key tr b →
    ⟨.getClass b.spec.agentClassRef, r⟩ ∈ tr → s.cluster.agents key = some b → asksRetain r = true

variable {s₀ : Cluster} {s s' : Watched} {w' : Workload} {o : Observed} {b : Agent}

theorem Settles.other (h : Settles key w tr s) (hver : Versioned s₀ s)
    (hknows : Recollects w tr s) (hvolume : Unowned key s.cluster → Unowned key s'.cluster)
    (hnew : ∀ a, s'.cluster.agents key = some a → NewVersion s.cluster s'.cluster key a) :
    Settles key w tr s' where
  released hw hdel hself hrel := hvolume (h.released hw hdel hself hrel)
  told hw hdel b r hb hm hcur := by
    subst hw
    exact h.told rfl hdel b r hb hm (hver.stored_before (hnew b hcur) (hknows b hb))

theorem Served.unowned (hs : Served s o s') (h : Unowned key s.cluster)
    (hallow : (contract cfg w).allows tr o.op)
    (hw : w ≠ agentWorkload key ∨ ¬SawSelf w tr) : Unowned key s'.cluster := by
  cases hs with
  | live hx => exact h.exec (execute_effect hx) hallow hw
  | cached | unseen => exact h

/-- A version known after an operation that is not the first read: known before, or
the stored one as the pass's status write left it. -/
theorem known_before (hver : Versioned s₀ s) (hknows : Recollects (agentWorkload key) tr s)
    (hs : Served s o s') (hread : ∀ a, o ≠ ⟨.getAgent key, .ok a⟩)
    (hb : KnownVersion key (o :: tr) b) (hcur : s'.cluster.agents key = some b) :
    ∃ b', KnownVersion key tr b' ∧ b'.spec = b.spec ∧ s.cluster.agents key = some b' := by
  have htail : ∀ a, (⟨.getAgent key, .ok a⟩ : Observed) ∈ o :: tr →
      ⟨.getAgent key, .ok a⟩ ∈ tr := by
    intro a hm
    rcases List.mem_cons.mp hm with heq | hm
    · exact absurd heq.symm (hread a)
    · exact hm
  have hsame : KnownVersion key tr b →
      ∃ b', KnownVersion key tr b' ∧ b'.spec = b.spec ∧ s.cluster.agents key = some b' :=
    fun hb => ⟨b, hb, rfl, hver.stored_before (hs.newVersion hcur) (hknows b hb)⟩
  cases hb with
  | read b hm => exact hsame (.read b (htail b hm))
  | written b₀ u rv hm hwrite hkey hrv =>
    rcases List.mem_cons.mp hwrite with rfl | hold
    · have hb₀ : KnownVersion key tr b₀ := .read b₀ (htail b₀ hm)
      cases hs with
      | live hx =>
        obtain ⟨cur, hstored, hcurrv, -⟩ := execute_updateAgentStatus hx
        rw [hkey] at hstored
        obtain rfl : cur = b₀ := hver.eq_of_rv hstored (hknows b₀ hb₀) (hcurrv.trans hrv)
        exact ⟨cur, hb₀, rfl, hstored⟩
    · exact hsame (.written b₀ u rv (htail b₀ hm) hold hkey hrv)

theorem sawDeletion_cons (hread : ∀ a, o ≠ ⟨.getAgent key, .ok a⟩)
    (hallow : (contract cfg (agentWorkload key)).allows tr o.op)
    (h : sawDeletion (o :: tr) = true) : sawDeletion tr = true := by
  simp only [sawDeletion, List.any_cons, Bool.or_eq_true] at h
  rcases h with hhead | htail
  · obtain ⟨op, r⟩ := o
    cases op with
    | getAgent k =>
      cases r with
      | ok a =>
        obtain rfl : key = k := congrArg Workload.key (allows_getAgent hallow).1
        exact absurd rfl (hread a)
      | error e => cases hhead
    | _ => cases hhead
  · exact htail

section Deletion

variable {σ : CachedState} {c : CacheChoice} {r : Except ApiError (Ans op)}
  (hguard : retentionTold key σ (.exec (agentWorkload key) c) = true)
  (hp : (cachedSystem cfg id).Performs σ (agentWorkload key) c tr op r s')
include hguard hp

theorem reads_of_told {live : Choice} (hc : c = .live live) (hdel : sawDeletion tr = true) :
    lags σ.world.cluster op live = false ∧ classUnread op live = false := by
  subst hc
  obtain ⟨-, hreads⟩ := (Bool.and_eq_true _ _).mp hguard
  obtain ⟨k, hpass⟩ := hp.pass
  simpa only [deletionReads, if_true, hpass, hdel, Bool.not_true, Bool.false_or,
    Bool.and_eq_true, Bool.not_eq_true'] using hreads

theorem Settles.released_cons (h : Settles key (agentWorkload key) tr σ.world)
    (hallow : (contract cfg (agentWorkload key)).allows tr op)
    (hdel : sawDeletion (⟨op, r⟩ :: tr) = true)
    (hself : ¬SawSelf (agentWorkload key) (⟨op, r⟩ :: tr))
    (hrel : Released key (⟨op, r⟩ :: tr)) : Unowned key s'.cluster := by
  have hs := served_of_executeCached hp.result
  have hself' : ¬SawSelf (agentWorkload key) tr :=
    fun hx => hself (hx.mono (List.subset_cons_self _ tr))
  -- a pass that has just read its agent has released nothing
  have hread : ∀ a, (⟨op, r⟩ : Observed) ≠ ⟨.getAgent key, .ok a⟩ := by
    rintro a heq
    cases heq
    rw [(allows_getAgent hallow).2] at hrel
    simp [Released] at hrel
  have hdel' := sawDeletion_cons hread hallow hdel
  by_cases hold : Released key tr
  · exact hs.unowned (h.released rfl hdel' hself' hold) hallow (.inr hself')
  · cases c with
    | live live =>
      obtain ⟨⟨r', t⟩, hx, heq⟩ := Option.map_eq_some_iff.mp hp.result
      cases heq
      exact unowned_of_released hx (reads_of_told hguard hp rfl hdel').1 hallow hrel hold
    | cached lag =>
      cases op with
      | getAgent k => exact absurd (by simpa [Released] using hrel) hold
      | _ => cases hp.result

end Deletion

theorem asksRetain_of_told {σ : CachedState} {c : CacheChoice} {name : String}
    {r : Except ApiError AgentClass}
    (hguard : retentionTold key σ (.exec (agentWorkload key) c) = true)
    (hp : (cachedSystem cfg id).Performs σ (agentWorkload key) c tr (.getClass name) r s')
    (hdel : sawDeletion tr = true) (hb : σ.world.cluster.agents key = some b)
    (hname : b.spec.agentClassRef = name) : asksRetain r = true := by
  cases c with
  | cached lag => cases hp.result
  | live c =>
    obtain ⟨hlags, hanswered⟩ := reads_of_told hguard hp rfl hdel
    obtain ⟨hretain, -⟩ := (Bool.and_eq_true _ _).mp hguard
    obtain ⟨⟨r', t⟩, hx, heq⟩ := Option.map_eq_some_iff.mp hp.result
    cases heq
    obtain ⟨-, ⟨-, hfailed⟩ | ⟨v, -, -, hstored⟩⟩ := execute_cached hx rfl
    · rcases hfailed with rfl | rfl <;> cases hanswered
    · -- the answer is the stored class, which says Retain
      obtain rfl := Option.some.inj (hstored hlags)
      simp only [saysRetain, hb, hname] at hretain
      cases hcls : σ.world.cluster.classes name with
      | none =>
        rw [hcls] at hretain
        cases hretain
      | some cls =>
        rw [hcls] at hretain
        exact hretain

theorem Settles.told_cons {σ : CachedState} {c : CacheChoice} {r : Except ApiError (Ans op)}
    (h : Settles key (agentWorkload key) tr σ.world) (hver : Versioned s₀ σ.world)
    (hknows : Recollects (agentWorkload key) tr σ.world)
    (hguard : retentionTold key σ (.exec (agentWorkload key) c) = true)
    (hallow : (contract cfg (agentWorkload key)).allows tr op)
    (hp : (cachedSystem cfg id).Performs σ (agentWorkload key) c tr op r s')
    (hdel : sawDeletion (⟨op, r⟩ :: tr) = true) {r' : Except ApiError AgentClass}
    (hb : KnownVersion key (⟨op, r⟩ :: tr) b)
    (hm : ⟨.getClass b.spec.agentClassRef, r'⟩ ∈ (⟨op, r⟩ : Observed) :: tr)
    (hcur : s'.cluster.agents key = some b) : asksRetain r' = true := by
  have hs := served_of_executeCached hp.result
  -- the read of the agent comes before every class read
  have hread : ∀ a, (⟨op, r⟩ : Observed) ≠ ⟨.getAgent key, .ok a⟩ := by
    rintro a heq
    cases heq
    rw [(allows_getAgent hallow).2] at hm
    cases List.mem_singleton.mp hm
  have hdel' := sawDeletion_cons hread hallow hdel
  obtain ⟨b', hb', hspec, hstored⟩ := known_before hver hknows hs hread hb hcur
  rw [← hspec] at hm
  rcases List.mem_cons.mp hm with heq | hold
  · cases heq
    exact asksRetain_of_told hguard hp hdel' hstored rfl
  · exact h.told rfl hdel' b' r' hb' hold hstored

/-- In runs that meet the condition, deletion passes know what they conclude. -/
theorem retention_proof (cfg : Config) (s₀ : Cluster) (key : NamespacedName) :
    (cachedSystem cfg id).Proof (fun w => contract cfg (id w)) (Versioned s₀)
      (fun w tr s => Recollects (id w) tr s ∧ Settles key w tr s)
      (fun σ e => retentionTold key σ e = true) := by
  refine (cached_proof cfg id s₀).learn (fun _ _ _ => trivial) ?_ ?_ ?_
  · intro w s _
    exact ⟨fun _ hdel => (by cases hdel), fun _ hdel => by cases hdel⟩
  · intro σ w c tr op r s' hver hknows hsettles hguard hallow hp
    have hs := served_of_executeCached hp.result
    refine ⟨⟨fun hw hdel hself hrel => ?_, fun hw hdel b r' hb hm hcur => ?_⟩,
      fun w' x hne _ hknows' hsettles' => ?_⟩
    · subst hw
      exact hsettles.released_cons hguard hp hallow hdel hself hrel
    · subst hw
      exact hsettles.told_cons hver hknows hguard hallow hp hdel hb hm hcur
    · by_cases hw' : w' = agentWorkload key
      · subst hw'
        exact hsettles'.other hver hknows' (fun h => hs.unowned h hallow (.inl hne.symm))
          fun a ha => hs.newVersion ha
      · exact ⟨fun hx => absurd hx hw', fun hx => absurd hx hw'⟩
  · intro σ e s' hver _ he w x _ hknows hsettles
    obtain ⟨t, ht, rfl⟩ := Option.map_eq_some_iff.mp he
    have heff := envStep_effect ht
    exact hsettles.other hver hknows (fun h => h.env heff) fun a ha => heff.newVersion ha

/-! ## The finalizer -/

variable {a a' : Agent}

theorem AgentMove.finalizer_gone {x : Option Agent} (h : AgentMove key tr a x)
    (hfin : a.finalizer = true) (hgone : ∀ a', x = some a' → a'.finalizer = false) :
    KnownVersion key tr a ∧ ¬SawSelf (agentWorkload key) tr ∧ VolumeSettled key tr a := by
  cases h with
  | keep => cases hfin.symm.trans (hgone a rfl)
  | status u rv hknown hmay =>
    have hlost := hgone _ rfl
    cases hfin.symm.trans hlost
  | metadata u rv hknown hmay =>
    rcases hmay.finalizer with hkeep | ⟨hself, hsettled⟩
    · have hlost := hgone _ (unlessReleased_held _ _ hkeep)
      cases hkeep.symm.trans hlost
    · exact ⟨hknown, hself, hsettled⟩

theorem sawDeletion_of_known (hknown : KnownVersion key tr a) (hfin : a.finalizer = true)
    (hself : ¬SawSelf (agentWorkload key) tr) : sawDeletion tr = true := by
  have hread : ∀ b : Agent, ⟨.getAgent key, .ok b⟩ ∈ tr → b.finalizer = true →
      sawDeletion tr = true := by
    intro b hm hb
    refine List.any_eq_true.mpr ⟨_, hm, ?_⟩
    cases hdel : b.deletionTimestamp with
    | none => exact absurd ⟨b, hm, hb, hdel⟩ hself
    | some t => simp only [hdel, Option.isSome_some]
  cases hknown with
  | read a hm => exact hread a hm hfin
  | written b u rv hm hwrite hkey hrv => exact hread b hm hfin

/-- In every run in which the Agent's class says Retain and a pass that deletes the
Agent reads the class, and class and volume as they are stored, the finalizer goes
only in a state where the volume does not name the Agent as its owner. -/
theorem finalizer_removed_once_released (cfg : Config) {s₀ : Cluster} (hkeyed : Keyed s₀)
    {key : NamespacedName} {es : List CachedEvent} {σ σ' : CachedState} {e : CachedEvent}
    {a : Agent}
    (hrun : Run (cachedSystem cfg id).step (fun σ e => retentionTold key σ e = true)
      (PoolSpec.idle (Watched.start s₀)) es σ)
    (hstep : (cachedSystem cfg id).step σ e = some σ')
    (hstored : σ.world.cluster.agents key = some a) (hfin : a.finalizer = true)
    (hgone : ∀ a', σ'.world.cluster.agents key = some a' → a'.finalizer = false) :
    Unowned key σ.world.cluster ∧ Unowned key σ'.world.cluster := by
  have hsound := (retention_proof cfg s₀ key).run hrun
    (PoolSpec.sound_idle hkeyed.versioned)
  have hkept : σ'.world.cluster.agents key = some a → False :=
    fun hx => by cases hfin.symm.trans (hgone a hx)
  rcases (cachedSystem cfg id).step_world hstep with
    hsame | ⟨w, c, tr, op, r, rfl, hp⟩ | ⟨x, rfl, hx⟩
  · exact (hkept (by rw [hsame]; exact hstored)).elim
  · have hs := served_of_executeCached hp.result
    obtain ⟨hallow, hknows, hsettles⟩ := hsound.admits hp
    rcases agent_after_exec hsound.inv hknows hallow hs hstored with hsame | ⟨hw, hmove⟩
    · exact (hkept hsame).elim
    · obtain rfl : w = agentWorkload key := hw
      obtain ⟨hknown, hself, hsettled⟩ := hmove.finalizer_gone hfin hgone
      have hunowned : Unowned key σ.world.cluster := by
        have hdel := sawDeletion_of_known hknown hfin hself
        rcases hsettled with ⟨r', hnot, hm⟩ | hrel
        · cases hnot.symm.trans (hsettles.told rfl hdel a r' hknown hm hstored)
        · exact hsettles.released rfl hdel hself hrel
      exact ⟨hunowned, hs.unowned hunowned hallow (.inr hself)⟩
  · obtain ⟨t, ht, hworld⟩ := Option.map_eq_some_iff.mp hx
    obtain ⟨a', ha', hfin'⟩ := (envStep_effect ht).agent_held hstored hfin
    rw [← hworld] at hgone
    cases hfin'.symm.trans (hgone a' ha')

/-! ## An Agent with a retained volume -/

def keeperKey : NamespacedName := ⟨"team", "keeper"⟩

def keeper : Agent :=
  { plainAgent keeperKey with
    finalizer := true
    deletionTimestamp := some 0
    status := { (plainAgent keeperKey).status with phase := .terminating } }

/-- Its class retains volumes, and its volume is its own. -/
def keeperCluster : Cluster :=
  { plainCluster [keeper] [] with
    classes := fun _ => some { plainClass with pvcRetention := "Retain" }
    children := fun κ k =>
      match κ with
      | .persistentVolumeClaim =>
        if k = volumeKey keeperKey then some ⟨(), some (agentWorkload keeperKey), 1⟩ else none
      | _ => none }

theorem keyed_keeperCluster : Keyed keeperCluster := by
  have h : Keyed (plainCluster [keeper] []) := keyed_plainCluster (by simp [keeper, plainAgent])
  exact ⟨h.taskKey, h.agentKey, h.agentRv⟩

def keeperIdle : CachedState := PoolSpec.idle (Watched.start keeperCluster)

/-- The deletion pass up to the write of the finalizer: the agent, the Pods, the
class, the volume, its release. -/
def releasingEvents : List CachedEvent :=
  .start (agentWorkload keeperKey) :: List.replicate 5 (.exec (agentWorkload keeperKey) (.live .ok))

def finalizerWrite : CachedEvent := .exec (agentWorkload keeperKey) (.live .ok)

/-- Where that pass leads under the condition. -/
def releasing : CachedState :=
  (exec (guarded (retentionTold keeperKey) (cachedSystem plainConfig id).step) keeperIdle
    releasingEvents).getD keeperIdle

theorem finalizer_removed_once_released_keeper :
    (cachedAfter releasing [finalizerWrite]).world.cluster.agents keeperKey = none ∧
      Unowned keeperKey (cachedAfter releasing [finalizerWrite]).world.cluster := by
  have hrun : Run (cachedSystem plainConfig id).step
      (fun σ e => retentionTold keeperKey σ e = true) keeperIdle releasingEvents releasing :=
    run_getD (by decide +kernel)
  have hlast : exec (cachedSystem plainConfig id).step releasing [finalizerWrite] =
      some (cachedAfter releasing [finalizerWrite]) := exec_eq_some_getD _ (by decide +kernel)
  have hbefore : (releasing.world.cluster.agents keeperKey).any (·.finalizer) = true := by
    decide +kernel
  obtain ⟨a, ha, hfin⟩ := (Option.any_eq_true _ _).mp hbefore
  have hgone : (cachedAfter releasing [finalizerWrite]).world.cluster.agents keeperKey = none := by
    decide +kernel
  refine ⟨hgone, (finalizer_removed_once_released plainConfig keyed_keeperCluster hrun
    ((exec_singleton _ _ _).symm.trans hlast) ha hfin fun a' ha' => ?_).2⟩
  cases hgone.symm.trans ha'

/-- The class read of the deletion pass fails. -/
def unreadableEvents : List CachedEvent :=
  .start (agentWorkload keeperKey) ::
    List.replicate 2 (.exec (agentWorkload keeperKey) (.live .ok)) ++
    [.exec (agentWorkload keeperKey) (.live .failed)]

/-- Where that leads, with the class saying Retain all the time. -/
def unreadable : CachedState :=
  (exec (guarded (fun σ _ => saysRetain keeperKey σ.world.cluster)
    (cachedSystem plainConfig id).step) keeperIdle unreadableEvents).getD keeperIdle

/-- The finalizer goes, and the garbage collector takes the volume. -/
def collectVolume : CachedEvent := .env (.collect .persistentVolumeClaim (volumeKey keeperKey))

theorem retained_volume_collected :
    Keyed keeperCluster ∧
    Run (cachedSystem plainConfig id).step
      (fun σ _ => saysRetain keeperKey σ.world.cluster = true) keeperIdle unreadableEvents
      unreadable ∧
    (unreadable.world.cluster.agents keeperKey).any (·.finalizer) = true ∧
    (cachedAfter unreadable [finalizerWrite]).world.cluster.agents keeperKey = none ∧
    ¬Unowned keeperKey (cachedAfter unreadable [finalizerWrite]).world.cluster ∧
    (cachedAfter unreadable [finalizerWrite, collectVolume]).world.cluster.children
      .persistentVolumeClaim (volumeKey keeperKey) = none := by
  refine ⟨keyed_keeperCluster, run_getD (by decide +kernel),
    by decide +kernel, by decide +kernel, fun hunowned => ?_, by decide +kernel⟩
  have howned : ((cachedAfter unreadable [finalizerWrite]).world.cluster.children
      .persistentVolumeClaim (volumeKey keeperKey)).any
        (fun pvc => pvc.owner = some (agentWorkload keeperKey)) = true := by decide +kernel
  obtain ⟨pvc, hpvc, howner⟩ := (Option.any_eq_true _ _).mp howned
  exact hunowned pvc hpvc (of_decide_eq_true howner)

end Kaalm.Controller
