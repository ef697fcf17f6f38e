/-
  Controller/Migrated.lean --- storage migration tells the truth.

  WHAT CARRIES IT.  While a kind is being rewritten, every object of it that is not at
  the storage version is still ahead of the pass: in the rest of its page or in what
  the continue token holds (`Sound`).  Writes of others only add objects at the storage
  version.  `PassInv` compares a pass with the cluster it started on.

  WHAT A FAILED PASS LEAVES.  The status patch is the last call of a kind.  When it is
  applied and its answer is lost, the pass fails at a CRD that is trimmed
  (`lostTrim_changes_storedVersions`); there is no other way.
-/
import Kaalm.Controller.StorageMigration

namespace Kaalm.Controller

open Kaalm.Foundation

namespace StorageMigration

variable {c c' : Cluster} {k k' : Kind} {todo : List Kind} {key : ObjectKey}
  {keys : List ObjectKey}

/-! ## The API server -/

theorem storesAt_iff {crd : CRD} {version : String} :
    storesAt crd version = true ↔ crd.storageVersion = version := by
  obtain ⟨v, hv⟩ := Option.isSome_iff_exists.mp crd.hasStorage
  simp [storesAt, CRD.storageVersion, hv]

/-- Every object of the kind that is not at the storage version is in the list. -/
def Covers (c : Cluster) (k : Kind) (keys : List ObjectKey) : Prop :=
  ∀ key obj, (c.objects k).lookup key = some obj → obj.version ≠ storageVersion → key ∈ keys

theorem covers_keys (c : Cluster) (k : Kind) : Covers c k (c.objects k).keys :=
  fun _ _ hlookup _ => AList.mem_keys.mp (AList.lookup_isSome.mp (by rw [hlookup]; rfl))

def AllMoved (c : Cluster) (k : Kind) : Prop :=
  ∀ key obj, (c.objects k).lookup key = some obj → obj.version = storageVersion

theorem allMoved_of_covers_nil (h : Covers c k []) : AllMoved c k :=
  fun key obj hlookup => not_not.mp fun hne => List.not_mem_nil (h key obj hlookup hne)

namespace Cluster

theorem objects_write_self (c : Cluster) (k : Kind) (key : ObjectKey) :
    (c.write k key).objects k =
      (c.objects k).insert key ⟨(c.crds k).storageVersion, c.revision + 1⟩ :=
  Function.update_self ..

theorem objects_write_of_ne (c : Cluster) (key : ObjectKey) (h : k' ≠ k) :
    (c.write k key).objects k' = c.objects k' := Function.update_of_ne h ..

theorem lookup_write (c : Cluster) (k k' : Kind) (key key' : ObjectKey) :
    ((c.write k key).objects k').lookup key' =
      if k' = k ∧ key' = key then some ⟨(c.crds k).storageVersion, c.revision + 1⟩
      else (c.objects k').lookup key' := by
  rcases eq_or_ne k' k with rfl | hkind
  · rw [objects_write_self, GoMap.lookup_insert_eq]
    simp only [true_and]
  · rw [objects_write_of_ne c key hkind, if_neg fun hsame => hkind hsame.1]

theorem lookup_delete (c : Cluster) (k k' : Kind) (key key' : ObjectKey) :
    ((c.delete k key).objects k').lookup key' =
      if k' = k ∧ key' = key then none else (c.objects k').lookup key' := by
  unfold delete
  dsimp only
  rcases eq_or_ne k' k with rfl | hkind
  · rw [Function.update_self, GoMap.lookup_erase_eq]
    simp only [true_and]
  · rw [Function.update_of_ne hkind, if_neg fun hsame => hkind hsame.1]

theorem crds_trim_self (c : Cluster) (k : Kind) :
    (c.trim k).crds k = { c.crds k with storedVersions := [storageVersion] } :=
  Function.update_self ..

theorem crds_trim_of_ne (c : Cluster) (h : k' ≠ k) :
    (c.trim k).crds k' = c.crds k' := Function.update_of_ne h ..

theorem rewrite_cases (h : c.rewrite k key = some c') :
    ∃ obj, (c.objects k).lookup key = some obj ∧
      (c' = c ∧ obj.version = (c.crds k).storageVersion ∨ c' = c.write k key) := by
  obtain ⟨obj, hobj, hc'⟩ := Option.map_eq_some_iff.mp h
  refine ⟨obj, hobj, ?_⟩
  split_ifs at hc' with hversion
  · exact .inl ⟨hc'.symm, hversion⟩
  · exact .inr hc'.symm

theorem keys_length_rewrite (h : c.rewrite k key = some c') (k' : Kind) :
    (c'.objects k').keys.length = (c.objects k').keys.length := by
  obtain ⟨obj, hobj, ⟨rfl, -⟩ | rfl⟩ := rewrite_cases h
  · rfl
  · have hmem : key ∈ c.objects k := AList.lookup_isSome.mp (by rw [hobj]; rfl)
    rcases eq_or_ne k' k with rfl | hkind
    · rw [objects_write_self, GoMap.length_keys_insert_of_mem _ _ hmem]
    · rw [objects_write_of_ne c key hkind]

theorem mem_rewrite (h : c.rewrite k key = some c') {key' : ObjectKey}
    (hmem : key' ∈ c.objects k') : key' ∈ c'.objects k' := by
  obtain ⟨obj, -, ⟨rfl, -⟩ | rfl⟩ := rewrite_cases h
  · exact hmem
  · rw [← AList.lookup_isSome, lookup_write]
    split_ifs
    · rfl
    · exact AList.lookup_isSome.mpr hmem

end Cluster

/-- The CRDs stay, and nothing leaves the storage version. -/
structure Tolerates (c c' : Cluster) : Prop where
  crds : c'.crds = c.crds
  covers : ∀ k keys, storesAt (c.crds k) storageVersion = true → Covers c k keys → Covers c' k keys

theorem tolerates_write (c : Cluster) (k : Kind) (key : ObjectKey) :
    Tolerates c (c.write k key) := by
  refine ⟨rfl, fun k' keys hstores h key' obj hlookup hne => ?_⟩
  rw [Cluster.lookup_write] at hlookup
  split_ifs at hlookup with hsame
  · obtain ⟨rfl, -⟩ := hsame
    cases hlookup
    exact absurd (storesAt_iff.mp hstores) hne
  · exact h key' obj hlookup hne

theorem tolerates_delete (c : Cluster) (k : Kind) (key : ObjectKey) :
    Tolerates c (c.delete k key) := by
  refine ⟨rfl, fun k' keys _ h key' obj hlookup hne => ?_⟩
  rw [Cluster.lookup_delete] at hlookup
  split_ifs at hlookup
  exact h key' obj hlookup hne

theorem tolerates_rewrite (h : c.rewrite k key = some c') : Tolerates c c' := by
  obtain ⟨_, -, ⟨rfl, -⟩ | rfl⟩ := Cluster.rewrite_cases h
  · exact ⟨rfl, fun _ _ _ h => h⟩
  · exact tolerates_write c k key

theorem Covers.rewrite (h : Covers c k (key :: keys))
    (hstores : storesAt (c.crds k) storageVersion = true) (hrewrite : c.rewrite k key = some c') :
    Covers c' k keys := by
  obtain ⟨found, hfound, hcases⟩ := Cluster.rewrite_cases hrewrite
  have hversion := storesAt_iff.mp hstores
  intro key' obj hlookup hne
  have hkey : key' ≠ key := by
    rintro rfl
    rcases hcases with ⟨rfl, hat⟩ | rfl
    · rw [hfound] at hlookup
      cases hlookup
      exact hne (hat.trans hversion)
    · rw [Cluster.lookup_write, if_pos ⟨rfl, rfl⟩] at hlookup
      cases hlookup
      exact hne hversion
  have hbefore : (c.objects k).lookup key' = some obj := by
    rcases hcases with ⟨rfl, -⟩ | rfl
    · exact hlookup
    · rwa [Cluster.lookup_write, if_neg fun hsame => hkey hsame.2] at hlookup
  exact (List.mem_cons.mp (h key' obj hbefore hne)).resolve_left hkey

/-! ## What a call does -/

namespace Phase

/-- The kinds a pass has not finished, the one it is at first. -/
def unfinished : Phase → List Kind
  | reading k todo | listing k todo _ | rewriting k todo _ _ _ | trimming k todo => k :: todo
  | failed k _ => [k]
  | done => []

/-- The kind that is being rewritten, and the objects that are ahead once they were listed. -/
def pending : Phase → Option (Kind × Option (List ObjectKey))
  | listing k _ token => some (k, token)
  | rewriting k _ key page token => some (k, some (key :: page ++ token.getD []))
  | trimming k _ => some (k, some [])
  | reading _ _ | done | failed _ _ => none

def token : Phase → Option (List ObjectKey)
  | listing _ _ token | rewriting _ _ _ _ token => token
  | reading _ _ | trimming _ _ | done | failed _ _ => none

end Phase

variable {page : List ObjectKey} {token : Option (List ObjectKey)}

@[simp] theorem pending_nextKind (todo : List Kind) : (nextKind todo).pending = none := by
  cases todo <;> rfl

@[simp] theorem unfinished_nextKind (todo : List Kind) : (nextKind todo).unfinished = todo := by
  cases todo <;> rfl

@[simp] theorem pending_nextObject :
    (nextObject k todo page token).pending = some (k, some (page ++ token.getD [])) := by
  cases page <;> cases token <;> rfl

@[simp] theorem unfinished_nextObject : (nextObject k todo page token).unfinished = k :: todo := by
  cases page <;> cases token <;> rfl

theorem listPage_append (limit : Nat) (snapshot : List ObjectKey) :
    (listPage limit snapshot).1 ++ (listPage limit snapshot).2.getD [] = snapshot := by
  unfold listPage
  split_ifs with hrest
  · rw [Option.getD_none, ← hrest, List.take_append_drop]
  · rw [Option.getD_some, List.take_append_drop]

inductive CallEffect (pageSize : Int) : Migration → Outcome → Migration → Prop
  | read (c : Cluster) (k : Kind) (todo : List Kind) :
      CallEffect pageSize ⟨c, .reading k todo⟩ .ok ⟨c, afterRead (c.crds k) k todo⟩
  | list (c : Cluster) (k : Kind) (todo : List Kind) (token : Option (List ObjectKey)) :
      CallEffect pageSize ⟨c, .listing k todo token⟩ .ok
        ⟨c, nextObject k todo (listPage (pageLimit pageSize) (token.getD (c.objects k).keys)).1
          (listPage (pageLimit pageSize) (token.getD (c.objects k).keys)).2⟩
  | rewrite {c c' : Cluster} {k : Kind} (todo : List Kind) {key : ObjectKey}
      (page : List ObjectKey) (token : Option (List ObjectKey)) (h : c.rewrite k key = some c') :
      CallEffect pageSize ⟨c, .rewriting k todo key page token⟩ .ok
        ⟨c', nextObject k todo page token⟩
  | trim (c : Cluster) (k : Kind) (todo : List Kind) :
      CallEffect pageSize ⟨c, .trimming k todo⟩ .ok ⟨c.trim k, nextKind todo⟩
  | fail (c : Cluster) {phase : Phase} {k : Kind} (err text : String)
      (h : k ∈ phase.unfinished) :
      CallEffect pageSize ⟨c, phase⟩ (.error err) ⟨c, .failed k text⟩
  | lost {c c' : Cluster} {k : Kind} (todo : List Kind) {key : ObjectKey} (page : List ObjectKey)
      (token : Option (List ObjectKey)) (err text : String) (h : c.rewrite k key = some c') :
      CallEffect pageSize ⟨c, .rewriting k todo key page token⟩ (.lost err) ⟨c', .failed k text⟩
  | lostTrim (c : Cluster) (k : Kind) (todo : List Kind) (err text : String) :
      CallEffect pageSize ⟨c, .trimming k todo⟩ (.lost err) ⟨c.trim k, .failed k text⟩

variable {outcome : Outcome} {pageSize : Int} {s s' : Migration}

theorem call_effect (h : call pageSize s outcome = some s') : CallEffect pageSize s outcome s' := by
  obtain ⟨c, phase⟩ := s
  cases phase with
  | reading k todo =>
    cases outcome <;> cases h
    · exact .read c k todo
    · exact .fail c _ _ List.mem_cons_self
  | listing k todo token =>
    cases outcome <;> cases h
    · exact .list c k todo token
    · exact .fail c _ _ List.mem_cons_self
  | rewriting k todo key page token =>
    cases outcome with
    | ok =>
      obtain ⟨c', hc', rfl⟩ := Option.map_eq_some_iff.mp h
      exact .rewrite todo page token hc'
    | error err =>
      cases h
      exact .fail c _ _ List.mem_cons_self
    | lost err =>
      obtain ⟨c', hc', rfl⟩ := Option.map_eq_some_iff.mp h
      exact .lost todo page token _ _ hc'
  | trimming k todo =>
    cases outcome <;> cases h
    · exact .trim c k todo
    · exact .fail c _ _ List.mem_cons_self
    · exact .lostTrim c k todo _ _
  | done | failed => cases outcome <;> cases h

variable {e : Event}

theorem step_cases (h : step pageSize s e = some s') :
    (∃ outcome, e = .call outcome ∧ call pageSize s outcome = some s') ∨
      (e = .restart ∧ s' = s.restarted) ∨
      ∃ c', s' = { s with cluster := c' } ∧ Tolerates s.cluster c' := by
  cases e with
  | call outcome => exact .inl ⟨outcome, rfl, h⟩
  | restart => exact .inr (.inl ⟨rfl, (Option.some.inj h).symm⟩)
  | create k key | update k key =>
    simp only [step] at h
    split_ifs at h
    exact .inr (.inr ⟨_, (Option.some.inj h).symm, tolerates_write _ k key⟩)
  | delete k key => exact .inr (.inr ⟨_, (Option.some.inj h).symm, tolerates_delete _ k key⟩)

/-! ## Nothing falls behind -/

/-- The kind that is being rewritten has the storage version, and what is not there yet is
ahead. -/
def Sound (s : Migration) : Prop :=
  ∀ k pending, s.phase.pending = some (k, pending) →
    storesAt (s.cluster.crds k) storageVersion = true ∧ ∀ keys ∈ pending, Covers s.cluster k keys

theorem sound_of_pending_none (h : s.phase.pending = none) : Sound s := by
  intro k pending hpending
  rw [h] at hpending
  cases hpending

theorem sound_of_pending {ahead : Option (List ObjectKey)} (h : s.phase.pending = some (k, ahead))
    (hstores : storesAt (s.cluster.crds k) storageVersion = true)
    (hcovers : ∀ keys ∈ ahead, Covers s.cluster k keys) : Sound s := by
  intro k' pending hpending
  rw [h] at hpending
  cases hpending
  exact ⟨hstores, hcovers⟩

theorem sound_afterRead (c : Cluster) (k : Kind) (todo : List Kind) :
    Sound ⟨c, afterRead (c.crds k) k todo⟩ := by
  unfold afterRead
  split_ifs with hmigrated hstores
  · exact sound_of_pending_none (pending_nextKind todo)
  · exact sound_of_pending_none rfl
  · exact sound_of_pending rfl (by simpa using hstores) fun keys hkeys => by cases hkeys

theorem sound_call (hs : Sound s) (h : call pageSize s outcome = some s') : Sound s' := by
  cases call_effect h with
  | read c k todo => exact sound_afterRead c k todo
  | list c k todo token =>
    obtain ⟨hstores, hcovers⟩ := hs k token rfl
    refine sound_of_pending pending_nextObject hstores fun keys hkeys => ?_
    rw [listPage_append] at hkeys
    cases hkeys
    cases token with
    | none => exact covers_keys c k
    | some rest => exact hcovers rest rfl
  | rewrite todo page token hrewrite =>
    obtain ⟨hstores, hcovers⟩ := hs _ _ rfl
    refine sound_of_pending pending_nextObject ((tolerates_rewrite hrewrite).crds ▸ hstores)
      fun keys hkeys => ?_
    cases hkeys
    exact (hcovers _ rfl).rewrite hstores hrewrite
  | trim c k todo => exact sound_of_pending_none (pending_nextKind todo)
  | fail | lost | lostTrim => exact sound_of_pending_none rfl

theorem sound_step (hs : Sound s) (h : step pageSize s e = some s') : Sound s' := by
  obtain ⟨outcome, -, hcall⟩ | ⟨-, rfl⟩ | ⟨c', rfl, hc'⟩ := step_cases h
  · exact sound_call hs hcall
  · exact sound_of_pending_none (pending_nextKind kinds)
  · intro k' pending hpending
    obtain ⟨hstores, hcovers⟩ := hs k' pending hpending
    exact ⟨hc'.crds ▸ hstores, fun keys hkeys => hc'.covers k' keys hstores (hcovers keys hkeys)⟩

/-! ## A pass and the cluster it started on -/

/-- The kind is migrated: it was, or all its objects are at the storage version. -/
def Finished (before c : Cluster) (k : Kind) : Prop :=
  migrated (c.crds k).storedVersions = true ∧
    (migrated (before.crds k).storedVersions = true ∨
      storesAt (c.crds k) storageVersion = true ∧ AllMoved c k)

/-- Kinds that are not finished keep their `storedVersions`; a pass that has not failed has
finished the others. -/
structure PassInv (before : Cluster) (s : Migration) : Prop where
  versions : ∀ k, (s.cluster.crds k).versions = (before.crds k).versions
  nodup : s.phase.unfinished.Nodup
  kept : ∀ k ∈ s.phase.unfinished,
    (s.cluster.crds k).storedVersions = (before.crds k).storedVersions
  finished : (∀ k err, s.phase ≠ .failed k err) →
    ∀ k, k ∉ s.phase.unfinished → Finished before s.cluster k

theorem passInv_restarted (s : Migration) : PassInv s.cluster s.restarted where
  versions _ := rfl
  nodup := show kinds.Nodup by decide
  kept _ _ := rfl
  finished _ k hk := absurd (show k ∈ kinds by cases k <;> decide) hk

variable {before : Cluster}

theorem PassInv.objects (h : PassInv before s) (hc' : Tolerates s.cluster c') :
    PassInv before { s with cluster := c' } where
  versions k := by
    rw [← h.versions k]
    exact congrArg (fun crds => (crds k).versions) hc'.crds
  nodup := h.nodup
  kept k hk := by
    rw [← h.kept k hk]
    exact congrArg (fun crds => (crds k).storedVersions) hc'.crds
  finished hfailed k hk := by
    obtain ⟨hmigrated, hwhy⟩ := h.finished hfailed k hk
    unfold Finished
    rw [hc'.crds]
    refine ⟨hmigrated, hwhy.imp id fun ⟨hstores, hall⟩ => ⟨hstores, allMoved_of_covers_nil ?_⟩⟩
    exact hc'.covers k [] hstores fun key obj hlookup hne => absurd (hall key obj hlookup) hne

theorem PassInv.sameKinds (h : PassInv before s) {phase : Phase}
    (hsame : phase.unfinished = s.phase.unfinished) (hs : ∀ k err, s.phase ≠ .failed k err) :
    PassInv before { s with phase := phase } where
  versions := h.versions
  nodup := by rw [hsame]; exact h.nodup
  kept k hk := h.kept k (hsame ▸ hk)
  finished _ k hk := h.finished hs k fun hmem => hk (by rw [hsame]; exact hmem)

theorem PassInv.fail (h : PassInv before s) (hk : k ∈ s.phase.unfinished) (text : String) :
    PassInv before { s with phase := .failed k text } where
  versions := h.versions
  nodup := List.nodup_singleton k
  kept k' hk' := by
    obtain rfl := List.mem_singleton.mp hk'
    exact h.kept _ hk
  finished hfailed := absurd rfl (hfailed k text)

theorem PassInv.nextKind (h : PassInv before s) (hphase : s.phase.unfinished = k :: todo)
    (hrunning : ∀ k err, s.phase ≠ .failed k err) (hobjects : c'.objects = s.cluster.objects)
    (hversions : (c'.crds k).versions = (s.cluster.crds k).versions)
    (hother : ∀ k' ≠ k, c'.crds k' = s.cluster.crds k') (hk : Finished before c' k) :
    PassInv before ⟨c', nextKind todo⟩ := by
  obtain ⟨hfresh, hnodup⟩ := List.nodup_cons.mp (hphase ▸ h.nodup)
  refine ⟨fun k' => ?_, by rwa [unfinished_nextKind], fun k' hk' => ?_, fun _ k' hk' => ?_⟩
  · rw [← h.versions k']
    rcases eq_or_ne k' k with rfl | hne
    · exact hversions
    · rw [hother k' hne]
  · rw [unfinished_nextKind] at hk'
    rw [hother k' fun heq => hfresh (heq ▸ hk')]
    exact h.kept k' (by simp [hphase, hk'])
  · rw [unfinished_nextKind] at hk'
    rcases eq_or_ne k' k with rfl | hne
    · exact hk
    · have hfinished := h.finished hrunning k' (by simp [hphase, hne, hk'])
      unfold Finished AllMoved at hfinished ⊢
      rwa [hother k' hne, hobjects]

theorem passInv_read (h : PassInv before ⟨c, .reading k todo⟩) :
    PassInv before ⟨c, afterRead (c.crds k) k todo⟩ := by
  have hrunning : ∀ k' err, Phase.reading k todo ≠ .failed k' err := nofun
  unfold afterRead
  split_ifs with hmigrated hstores
  · have hkept := h.kept k List.mem_cons_self
    exact h.nextKind rfl hrunning rfl rfl (fun _ _ => rfl) ⟨hmigrated, .inl (hkept ▸ hmigrated)⟩
  · exact h.fail List.mem_cons_self _
  · exact h.sameKinds rfl hrunning

theorem passInv_trim (hs : Sound ⟨c, .trimming k todo⟩) (h : PassInv before ⟨c, .trimming k todo⟩) :
    PassInv before ⟨c.trim k, nextKind todo⟩ := by
  obtain ⟨hstores, hcovers⟩ := hs k (some []) rfl
  refine h.nextKind rfl nofun rfl (by rw [c.crds_trim_self])
    (fun k' hne => c.crds_trim_of_ne hne) ?_
  unfold Finished
  rw [c.crds_trim_self]
  exact ⟨rfl, .inr ⟨hstores, allMoved_of_covers_nil (hcovers [] rfl)⟩⟩

/-- The status patch is applied and its answer is lost. -/
def lostTrim (s : Migration) (e : Event) : Bool :=
  match s.phase, e with
  | .trimming _ _, .call (.lost _) => true
  | _, _ => false

/-- A step of a pass that loses no answer to a status patch. -/
def withinPass (s : Migration) (e : Event) : Prop := e ≠ .restart ∧ lostTrim s e = false

theorem passInv_step (hs : Sound s) (h : PassInv before s) (he : withinPass s e)
    (hstep : step pageSize s e = some s') :
    PassInv before s' := by
  obtain ⟨outcome, rfl, hcall⟩ | ⟨rfl, -⟩ | ⟨c', rfl, hc'⟩ := step_cases hstep
  · cases call_effect hcall with
    | read c k todo => exact passInv_read h
    | list c k todo token => exact h.sameKinds unfinished_nextObject nofun
    | rewrite todo page token hrewrite =>
      exact (h.sameKinds unfinished_nextObject nofun).objects (tolerates_rewrite hrewrite)
    | trim c k todo => exact passInv_trim hs h
    | fail c err text hk => exact h.fail hk text
    | lost todo page token err text hrewrite =>
      exact (h.fail List.mem_cons_self text).objects (tolerates_rewrite hrewrite)
    | lostTrim => cases he.2
  · exact absurd rfl he.1
  · exact h.objects hc'

/-! ## A pass whose calls succeed -/

/-- What holds of a pass that nobody disturbs: the objects ahead exist, a token holds some, and the
only failure is the refusal. -/
structure Undisturbed (s : Migration) : Prop where
  present : ∀ k keys, s.phase.pending = some (k, some keys) →
    ∀ key ∈ keys, key ∈ s.cluster.objects k
  more : ∀ rest ∈ s.phase.token, rest ≠ []
  refused : ∀ k err, s.phase = .failed k err →
    migrated (s.cluster.crds k).storedVersions = false ∧
      storesAt (s.cluster.crds k) storageVersion = false

section Work

variable (c : Cluster)

/-- The calls that some kinds may take. -/
def load (todo : List Kind) : Nat := (todo.map fun k => 2 * (c.objects k).keys.length + 4).sum

/-- A bound on the calls that are left. -/
def work (s : Migration) : Nat :=
  match s.phase with
  | .reading k todo => load s.cluster (k :: todo)
  | .listing k todo none => 2 * (s.cluster.objects k).keys.length + 3 + load s.cluster todo
  | .listing _ todo (some rest) => 2 * rest.length + 2 + load s.cluster todo
  | .rewriting _ todo _ page token =>
    2 * (page.length + (token.getD []).length) + 3 + load s.cluster todo
  | .trimming _ todo => 1 + load s.cluster todo
  | .done | .failed _ _ => 0

theorem load_cons (k : Kind) (todo : List Kind) :
    load c (k :: todo) = 2 * (c.objects k).keys.length + 4 + load c todo := by
  simp [load]

theorem work_nextKind (todo : List Kind) : work ⟨c, nextKind todo⟩ = load c todo := by
  cases todo <;> rfl

theorem work_nextObject_le (k : Kind) (todo : List Kind) (page : List ObjectKey)
    (token : Option (List ObjectKey)) :
    work ⟨c, nextObject k todo page token⟩ ≤
      2 * (page.length + (token.getD []).length) + 2 + load c todo := by
  cases page with
  | nil =>
    cases token with
    | none =>
      show 1 + load c todo ≤ _
      omega
    | some rest =>
      show 2 * rest.length + 2 + load c todo ≤ _
      simp
  | cons key page =>
    show 2 * (page.length + (token.getD []).length) + 3 + load c todo ≤ _
    simp only [List.length_cons]
    omega

end Work

theorem undisturbed_nextKind (c : Cluster) (todo : List Kind) : Undisturbed ⟨c, nextKind todo⟩ where
  present k keys hpending := by
    rw [pending_nextKind] at hpending
    cases hpending
  more rest hrest := by cases todo <;> cases hrest
  refused k err hphase := by cases todo <;> cases hphase

theorem undisturbed_nextObject
    (hpresent : ∀ key ∈ page ++ token.getD [], key ∈ c.objects k)
    (hmore : ∀ rest ∈ token, rest ≠ []) : Undisturbed ⟨c, nextObject k todo page token⟩ where
  present k' keys hpending := by
    rw [pending_nextObject] at hpending
    cases hpending
    exact hpresent
  more rest hrest := hmore rest (by cases page <;> cases token <;> exact hrest)
  refused k' err hphase := by cases page <;> cases token <;> cases hphase

theorem undisturbed_afterRead (c : Cluster) (k : Kind) (todo : List Kind) :
    Undisturbed ⟨c, afterRead (c.crds k) k todo⟩ ∧
      work ⟨c, afterRead (c.crds k) k todo⟩ < load c (k :: todo) := by
  rw [load_cons]
  unfold afterRead
  split_ifs with hmigrated hstores
  · refine ⟨undisturbed_nextKind c todo, ?_⟩
    rw [work_nextKind]
    omega
  · refine ⟨⟨fun _ _ h => (by cases h), fun _ h => (by cases h), fun k' err h => ?_⟩, ?_⟩
    · cases h
      exact ⟨by simpa using hmigrated, by simpa using hstores⟩
    · show 0 < _
      omega
  · refine ⟨⟨fun _ _ h => (by cases h), fun _ h => (by cases h), fun _ _ h => (by cases h)⟩, ?_⟩
    show 2 * (c.objects k).keys.length + 3 + load c todo < _
    omega

theorem pageLimit_pos (pageSize : Int) : 0 < pageLimit pageSize := by
  unfold pageLimit
  split_ifs <;> omega

theorem listPage_more (limit : Nat) (snapshot : List ObjectKey) :
    ∀ rest ∈ (listPage limit snapshot).2, rest ≠ [] := by
  intro rest hrest
  unfold listPage at hrest
  split_ifs at hrest with hdrop
  · cases hrest
  · cases hrest
    exact hdrop

theorem work_nextPage_lt (c : Cluster) (k : Kind) (todo : List Kind) {limit : Nat}
    (hlimit : 0 < limit)
    {rest : List ObjectKey} (hrest : rest ≠ []) :
    work ⟨c, nextObject k todo (listPage limit rest).1 (listPage limit rest).2⟩ <
      2 * rest.length + 2 + load c todo := by
  have hsplit := congrArg List.length (listPage_append limit rest)
  rw [List.length_append] at hsplit
  cases hpage : (listPage limit rest).1 with
  | nil =>
    have htake : rest.take limit = [] := hpage
    rcases List.take_eq_nil_iff.mp htake with hzero | hnil
    · omega
    · exact absurd hnil hrest
  | cons key page =>
    rw [hpage, List.length_cons] at hsplit
    show 2 * (page.length + ((listPage limit rest).2.getD []).length) + 3 + load c todo < _
    omega

theorem undisturbed_call (pageSize : Int) (h : Undisturbed s) :
    (s.phase = .done ∨ ∃ k err, s.phase = .failed k err) ∨
      ∃ s', step pageSize s (.call .ok) = some s' ∧ Undisturbed s' ∧ work s' < work s := by
  obtain ⟨c, phase⟩ := s
  cases phase with
  | done => exact .inl (.inl rfl)
  | failed k err => exact .inl (.inr ⟨k, err, rfl⟩)
  | reading k todo => exact .inr ⟨_, rfl, undisturbed_afterRead c k todo⟩
  | listing k todo token =>
    refine .inr ⟨_, rfl, undisturbed_nextObject ?_ (listPage_more _ _), ?_⟩
    · rw [listPage_append]
      cases token with
      | none => exact fun key hkey => AList.mem_keys.mpr hkey
      | some rest => exact h.present k rest rfl
    · cases token with
      | none =>
        have hsplit := congrArg List.length
          (listPage_append (pageLimit pageSize) (c.objects k).keys)
        rw [List.length_append] at hsplit
        have hle := work_nextObject_le c k todo
          (listPage (pageLimit pageSize) (c.objects k).keys).1
          (listPage (pageLimit pageSize) (c.objects k).keys).2
        show _ < 2 * (c.objects k).keys.length + 3 + load c todo
        exact lt_of_le_of_lt hle (by omega)
      | some rest =>
        exact work_nextPage_lt c k todo (pageLimit_pos pageSize) (h.more rest rfl)
  | rewriting k todo key page token =>
    have hkey : key ∈ c.objects k := h.present k _ rfl key List.mem_cons_self
    obtain ⟨obj, hobj⟩ := Option.isSome_iff_exists.mp (AList.lookup_isSome.mpr hkey)
    obtain ⟨c', hc'⟩ : ∃ c', c.rewrite k key = some c' := by
      rw [Cluster.rewrite, hobj]
      exact ⟨_, rfl⟩
    refine .inr ⟨⟨c', nextObject k todo page token⟩, ?_, undisturbed_nextObject ?_ ?_, ?_⟩
    · show (c.rewrite k key).map _ = _
      rw [hc']
      rfl
    · intro key' hkey'
      exact Cluster.mem_rewrite hc' (h.present k _ rfl key' (List.mem_cons_of_mem key hkey'))
    · exact h.more
    · have hle := work_nextObject_le c' k todo page token
      rw [show load c' todo = load c todo by simp [load, Cluster.keys_length_rewrite hc']] at hle
      show _ < 2 * (page.length + (token.getD []).length) + 3 + load c todo
      exact lt_of_le_of_lt hle (by omega)
  | trimming k todo =>
    refine .inr ⟨_, rfl, undisturbed_nextKind (c.trim k) todo, ?_⟩
    rw [work_nextKind]
    show load c todo < 1 + load c todo
    omega

/-! ## The migration -/

/-- A pass is over and every kind is finished, or it was refused at a CRD that stores its objects at
another version. -/
def Settled (before : Cluster) (s : Migration) : Prop :=
  (s.phase = .done ∧ ∀ k, Finished before s.cluster k) ∨
    ∃ k err, s.phase = .failed k err ∧ migrated (before.crds k).storedVersions = false ∧
      storesAt (before.crds k) storageVersion = false

structure Calm (before : Cluster) (s : Migration) : Prop where
  sound : Sound s
  pass : PassInv before s
  undisturbed : Undisturbed s

theorem calm_call (pageSize : Int) (h : Calm before s) :
    (s.phase = .done ∨ ∃ k err, s.phase = .failed k err) ∨
      ∃ s', step pageSize s (.call .ok) = some s' ∧ Calm before s' ∧ work s' < work s := by
  rcases undisturbed_call pageSize h.undisturbed with hend | ⟨next, hnext, hcalm, hless⟩
  · exact .inl hend
  · refine .inr ⟨next, hnext, ⟨sound_step h.sound hnext, ?_, hcalm⟩, hless⟩
    refine passInv_step h.sound h.pass ⟨(by rintro ⟨⟩), ?_⟩ hnext
    unfold lostTrim
    cases s.phase <;> rfl

theorem exists_settled (pageSize : Int) (s : Migration) :
    ∃ n s', exec (step pageSize) s.restarted (List.replicate n (.call .ok)) = some s' ∧
      Settled s.cluster s' := by
  have hstart : Calm s.cluster s.restarted := ⟨sound_of_pending_none (pending_nextKind kinds),
    passInv_restarted s, undisturbed_nextKind s.cluster kinds⟩
  obtain ⟨n, s', hexec, hcalm, hend⟩ := exists_exec_of_decreasing (I := Calm s.cluster)
    (P := fun s' => s'.phase = .done ∨ ∃ k err, s'.phase = .failed k err)
    (Event.call .ok) work (fun _ hmid => calm_call pageSize hmid) s.restarted hstart
  refine ⟨n, s', hexec, ?_⟩
  rcases hend with hdone | ⟨k, err, hfailed⟩
  · refine .inl ⟨hdone, fun k => hcalm.pass.finished (fun k' err heq => ?_) k ?_⟩
    · rw [hdone] at heq
      cases heq
    · rw [hdone]
      exact List.not_mem_nil
  · obtain ⟨hmigrated, hstores⟩ := hcalm.undisturbed.refused k err hfailed
    have hkept := hcalm.pass.kept k (by rw [hfailed]; exact List.mem_singleton_self k)
    refine .inr ⟨k, err, hfailed, by rw [← hkept]; exact hmigrated, ?_⟩
    rwa [storesAt, hcalm.pass.versions k] at hstores

theorem trimmed_of_step (h : step pageSize s e = some s')
    (hbefore : migrated (s.cluster.crds k).storedVersions = false)
    (hafter : migrated (s'.cluster.crds k).storedVersions = true) :
    ∃ todo, s.phase = .trimming k todo ∧ s'.cluster = s.cluster.trim k := by
  have hsame : s'.cluster.crds ≠ s.cluster.crds := by
    intro heq
    rw [heq, hbefore] at hafter
    cases hafter
  obtain ⟨outcome, -, hcall⟩ | ⟨-, rfl⟩ | ⟨c', rfl, hc'⟩ := step_cases h
  · cases call_effect hcall with
    | read | list | fail => exact absurd rfl hsame
    | rewrite todo page token hrewrite | lost todo page token err text hrewrite =>
      exact absurd (tolerates_rewrite hrewrite).crds hsame
    | trim c k' todo | lostTrim c k' todo =>
      rcases eq_or_ne k k' with rfl | hne
      · exact ⟨todo, rfl, rfl⟩
      · rw [c.crds_trim_of_ne hne, hbefore] at hafter
        cases hafter
  · exact absurd rfl hsame
  · exact absurd hc'.crds hsame

/-- Every CRD is migrated, and the pass is where it stays so. -/
structure Idle (s : Migration) : Prop where
  migrated : ∀ k, migrated (s.cluster.crds k).storedVersions = true
  pending : s.phase.pending = none

theorem idle_call (hs : Idle s) (h : call pageSize s outcome = some s') :
    s'.cluster = s.cluster ∧ Idle s' := by
  have hpending := hs.pending
  cases call_effect h with
  | read c k todo =>
    have hnext : afterRead (c.crds k) k todo = nextKind todo := if_pos (hs.migrated k)
    rw [hnext]
    exact ⟨rfl, hs.migrated, pending_nextKind todo⟩
  | list | rewrite | trim | lost | lostTrim => cases hpending
  | fail c err text hk => exact ⟨rfl, hs.migrated, rfl⟩

theorem idle_step (hs : Idle s) (h : step pageSize s e = some s') : Idle s' := by
  obtain ⟨outcome, -, hcall⟩ | ⟨-, rfl⟩ | ⟨c', rfl, hc'⟩ := step_cases h
  · exact (idle_call hs hcall).2
  · exact ⟨hs.migrated, pending_nextKind kinds⟩
  · exact ⟨hc'.crds ▸ hs.migrated, hs.pending⟩

/-- What a start of the migrator in some state comes to, whoever else writes and whichever calls
fail. -/
structure Truthful (pageSize : Int) (s : Migration) : Prop where
  /-- `storedVersions` is trimmed only where that is so -/
  trims : ∀ e s' k, step pageSize s e = some s' →
    migrated (s.cluster.crds k).storedVersions = false →
    migrated (s'.cluster.crds k).storedVersions = true →
    storesAt (s'.cluster.crds k) storageVersion = true ∧ AllMoved s'.cluster k
  /-- a pass that fails at a CRD leaves it, unless it lost the answer to the status patch -/
  fails : ∀ es s' k err, Run (step pageSize) withinPass s.restarted es s' →
    s'.phase = .failed k err →
    (s'.cluster.crds k).storedVersions = (s.cluster.crds k).storedVersions
  /-- a pass whose calls succeed migrates, unless it is refused -/
  migrates : ∃ n s', exec (step pageSize) s.restarted (List.replicate n (.call .ok)) = some s' ∧
    Settled s.cluster s'
  /-- a pass over a migrated cluster writes nothing -/
  idles : (∀ k, migrated (s.cluster.crds k).storedVersions = true) →
    ∀ es s' outcome s'', Run (step pageSize) anyStep s.restarted es s' →
      step pageSize s' (.call outcome) = some s'' → s''.cluster = s'.cluster

/-- In every state that any number of passes reach, over any objects, with any page size, any
failed calls and any writes of others. -/
theorem storage_migration_truthful (pageSize : Int) (cluster : Cluster) {es : List Event}
    {s : Migration} (h : Run (step pageSize) anyStep (boot cluster) es s) :
    Truthful pageSize s where
  trims e s' k hstep hbefore hafter := by
    have hsound : Sound s := h.invariant (fun _ _ _ hs _ hst => sound_step hs hst)
      (sound_of_pending_none (pending_nextKind kinds))
    obtain ⟨todo, hphase, hcluster⟩ := trimmed_of_step hstep hbefore hafter
    obtain ⟨hstores, hcovers⟩ := hsound k (some []) (by rw [hphase]; rfl)
    rw [hcluster, s.cluster.crds_trim_self]
    exact ⟨hstores, allMoved_of_covers_nil (hcovers [] rfl)⟩
  fails es' s' k err hrun hfailed := by
    have hpass := hrun.invariant (I := fun s' => Sound s' ∧ PassInv s.cluster s')
      (fun _ _ _ hs he hst => ⟨sound_step hs.1 hst, passInv_step hs.1 hs.2 he hst⟩)
      ⟨sound_of_pending_none (pending_nextKind kinds), passInv_restarted s⟩
    exact hpass.2.kept k (by rw [hfailed]; exact List.mem_singleton_self k)
  migrates := exists_settled pageSize s
  idles hall es' s' outcome s'' hrun hcall := by
    have hidle : Idle s' := hrun.invariant (fun _ _ _ hs _ hst => idle_step hs hst)
      ⟨hall, pending_nextKind kinds⟩
    exact (idle_call hidle hcall).1

/-- CRDs after an upgrade, with one Agent still at the version before. -/
def upgraded : Cluster where
  crds _ := ⟨[⟨"v1alpha1", false⟩, ⟨"v1beta1", true⟩], ["v1alpha1", "v1beta1"], rfl⟩
  objects
    | .agent => AList.insert ("team", "a") ⟨"v1alpha1", 1⟩ ∅
    | _ => ∅
  revision := 1

/-- A pass that trims the first CRD and fails at the second. -/
theorem storage_migration_truthful_upgraded :
    ∃ s, exec (step 1) (boot upgraded)
        [.call .ok, .call .ok, .call .ok, .call (.error "timeout")] = some s ∧
      s.phase = .failed .modelProvider "modelproviders.kaalm.io: get CRD: timeout" ∧
      Truthful 1 s := by
  have hexec : exec (step 1) (boot upgraded)
      [.call .ok, .call .ok, .call .ok, .call (.error "timeout")] = some _ := rfl
  exact ⟨_, hexec, rfl, storage_migration_truthful 1 upgraded
    (run_of_exec_guard (fun _ _ _ => trivial) hexec)⟩

/-- The first pass after the upgrade trims the first CRD, loses the answer and fails there. -/
theorem lostTrim_changes_storedVersions :
    ∃ s, exec (step 1) (boot upgraded) [.call .ok, .call .ok, .call (.lost "timeout")] = some s ∧
      s.phase = .failed .agentClass "agentclasses.kaalm.io: trim storedVersions: timeout" ∧
      ((boot upgraded).cluster.crds .agentClass).storedVersions = ["v1alpha1", "v1beta1"] ∧
      (s.cluster.crds .agentClass).storedVersions = ["v1beta1"] :=
  ⟨_, rfl, rfl, rfl, rfl⟩

end StorageMigration

end Kaalm.Controller
