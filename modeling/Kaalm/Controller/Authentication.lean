/-
  Controller/Authentication.lean --- whom a workload's Pod authenticates as.

  A Pod mounts the Secret `{name}-tls`, and both reconcilers create the
  Certificate behind it only when it is missing.  So the Secret a Pod mounts is
  one of a workload with the Pod's namespace and name, and of the right kind
  unless an Agent and an AgentTask share that name: the one whose pass came first
  has its certificate in both Pods.
-/
import Kaalm.Controller.Lineage
import Kaalm.Gateway.Identity

namespace Kaalm.Controller

open Kaalm.Foundation
open Kaalm.Gateway (Identity parseWorkloadSAN dnsLabels dotFree parse_desiredCertificate
  parse_desiredTaskCertificate isServiceCert isControllerCert isConsoleCert ns_eq_of_serviceName)

def Workload.identity (w : Workload) : Identity := ⟨w.key.ns, w.key.name, w.kind⟩

variable {w : Workload}

theorem parse_certificateFor (h : dotFree w.key) :
    parseWorkloadSAN (certificateFor w).dnsNames = .ok w.identity := by
  cases w with
  | agent => exact parse_desiredCertificate h
  | agentTask => exact parse_desiredTaskCertificate h

/-- `isGatewayCert` of the activator: the same test as the gateway's. -/
def isGatewayCert (dnsNames : List String) (operatorNamespace : String) : Bool :=
  isServiceCert dnsNames "kaalm-gateway" operatorNamespace

theorem ns_eq_of_isServiceCert {service operatorNamespace : String} (h : dotFree w.key)
    (hservice : '.' ∉ service.toList)
    (hcert : isServiceCert (certificateFor w).dnsNames service operatorNamespace = true) :
    w.key.ns = operatorNamespace := by
  obtain ⟨san, hmem, hsan⟩ := List.any_eq_true.mp hcert
  obtain ⟨tail', htail', rfl⟩ : ∃ tail' ∈ [".svc.cluster.local", ".svc", "", ".task.kaalm.io"],
      san = w.key.name ++ "." ++ w.key.ns ++ tail' := by
    cases w with
    | agent =>
      simp only [certificateFor, desiredCertificate, List.mem_cons, List.not_mem_nil,
        or_false] at hmem
      rcases hmem with rfl | rfl | rfl
      · exact ⟨_, by simp, rfl⟩
      · exact ⟨_, by simp, rfl⟩
      · exact ⟨"", by simp, String.append_empty.symm⟩
    | agentTask =>
      refine ⟨".task.kaalm.io", by simp, (List.mem_singleton.mp hmem).trans ?_⟩
      rw [taskSANSuffix, String.append_assoc]
      rfl
  simp only [Bool.or_eq_true, decide_eq_true_eq] at hsan
  rcases hsan with heq | heq
  · exact ns_eq_of_serviceName h hservice (by simp) htail' heq
  · exact ns_eq_of_serviceName h hservice (by simp) htail' heq

/-- For every workload whose name and namespace have no dot: its certificate is
read back as that workload and as no other, and passes a service's test only in
the operator's namespace. -/
theorem certificate_unambiguous (w : Workload) (h : dotFree w.key) :
    parseWorkloadSAN (certificateFor w).dnsNames = .ok w.identity ∧
    (∀ w' : Workload, dotFree w'.key → parseWorkloadSAN (certificateFor w').dnsNames =
      parseWorkloadSAN (certificateFor w).dnsNames → w' = w) ∧
    ∀ operatorNamespace,
      isControllerCert (certificateFor w).dnsNames operatorNamespace = true ∨
        isConsoleCert (certificateFor w).dnsNames operatorNamespace = true ∨
        isGatewayCert (certificateFor w).dnsNames operatorNamespace = true →
      w.key.ns = operatorNamespace := by
  refine ⟨parse_certificateFor h, fun w' h' heq => ?_, fun op hcert => ?_⟩
  · rw [parse_certificateFor h, parse_certificateFor h'] at heq
    obtain ⟨kind, ns, name⟩ := w
    obtain ⟨kind', ns', name'⟩ := w'
    cases heq
    rfl
  · rcases hcert with hcert | hcert | hcert
    all_goals exact ns_eq_of_isServiceCert h (by decide) hcert

/-- An Agent named like the gateway, in a namespace called `svc`. -/
theorem certificate_unambiguous_svc :
    parseWorkloadSAN (certificateFor ⟨.agent, ⟨"svc", "kaalm-gateway"⟩⟩).dnsNames =
        .ok ⟨"svc", "kaalm-gateway", .agent⟩ ∧
      isGatewayCert (certificateFor ⟨.agent, ⟨"svc", "kaalm-gateway"⟩⟩).dnsNames
        "kaalm-system" = false := by
  have h := certificate_unambiguous ⟨.agent, ⟨"svc", "kaalm-gateway"⟩⟩ ⟨by decide, by decide⟩
  refine ⟨h.1, Bool.eq_false_iff.mpr fun hcert => ?_⟩
  exact absurd (h.2.2 "kaalm-system" (.inr (.inr hcert))) (by decide)

theorem certificateKey_eq (w : Workload) : certificateKey w = ⟨w.key.ns, w.key.name ++ "-tls"⟩ := by
  cases w with
  | agent | agentTask => rfl

theorem key_eq_of_certificateKey {w' : Workload} (h : certificateKey w = certificateKey w') :
    w.key = w'.key := by
  simp only [certificateKey_eq, NamespacedName.mk.injEq] at h
  obtain ⟨hns, hname⟩ := h
  have hbase : w.key.name = w'.key.name := (String.append_left_inj _).mp hname
  cases hw : w.key
  cases hw' : w'.key
  simp only [hw, hw'] at hns hbase
  rw [hns, hbase]

/-! ## Certificates and Secrets -/

/-- The Secret `k` holds the certificate of a workload whose Certificate is `k`. -/
def SecretOf (s₀ s : Cluster) (k : NamespacedName) : Prop :=
  ∃ (w : Workload) (secret : Stored .secret), s₀.present w = true ∧ certificateKey w = k ∧
    s.children .secret k = some secret ∧ secret.owner = none ∧
    secret.val.dnsNames = (certificateFor w).dnsNames

/-- Every Certificate is a workload's, and one that is Ready, or was, has been issued. -/
structure Issued (s₀ s : Cluster) : Prop where
  asked : ∀ k cert, s.children .certificate k = some cert →
    ∃ w, s₀.present w = true ∧ certificateKey w = k ∧ cert.val.secretName = k.name ∧
      cert.val.dnsNames = (certificateFor w).dnsNames
  ready : ∀ v ∈ s.views, ∀ k cert, v.children .certificate k = some cert →
    cert.val.ready = true → SecretOf s₀ s k

section Steps

variable {cfg : Config} {s₀ s s' : Cluster} {tr : History} {op : Op} {e : EnvEvent}
  {k : NamespacedName}

theorem Effect.secret (h : Effect s op s') (hallow : (contract cfg w).allows tr op)
    (k : NamespacedName) : s'.children .secret k = s.children .secret k := by
  obtain hsame | ⟨val, owner, rfl, -⟩ | ⟨obj, cur, rfl, -⟩ := h.child .secret k
  · exact hsame
  · exact False.elim (allows_create hallow).2
  · exact False.elim (allows_update hallow)

theorem SecretOf.exec (h : SecretOf s₀ s k) (heff : Effect s op s')
    (hallow : (contract cfg w).allows tr op) : SecretOf s₀ s' k := by
  obtain ⟨w', secret, hw', hkey, hstored, hrest⟩ := h
  exact ⟨w', secret, hw', hkey, (heff.secret hallow k).trans hstored, hrest⟩

theorem Issued.secretOf_issue (h : Issued s₀ s) {c : Stored .certificate}
    (hc : s.children .certificate k = some c) : SecretOf s₀ (issueCertificate k c s) k := by
  obtain ⟨w, hw, hkey, hname, hdns⟩ := h.asked k c hc
  refine ⟨w, ⟨⟨c.val.dnsNames⟩, none, s.revision + 1⟩, hw, hkey, ?_, rfl, hdns⟩
  have htarget : (⟨k.ns, c.val.secretName⟩ : NamespacedName) = k := by rw [hname]
  simp only [issueCertificate, htarget]
  rw [putChild_of_ne _ _ fun heq => by cases heq]
  exact putChild_self ..

theorem SecretOf.env (h : SecretOf s₀ s k) (hissued : Issued s₀ s) (heff : EnvEffect s e s') :
    SecretOf s₀ s' k := by
  obtain ⟨w, secret, hw, hkey, hstored, howner, hdns⟩ := id h
  have hkeep : s'.children .secret k = s.children .secret k → SecretOf s₀ s' k :=
    fun hsame => ⟨w, secret, hw, hkey, hsame.trans hstored, howner, hdns⟩
  cases heff with
  | issue key c hc =>
    by_cases hk : k = key
    · subst hk
      exact hissued.secretOf_issue hc
    · obtain ⟨-, -, -, hname, -⟩ := hissued.asked key c hc
      have htarget : (⟨key.ns, c.val.secretName⟩ : NamespacedName) = key := by rw [hname]
      refine hkeep ?_
      simp only [issueCertificate, htarget]
      rw [putChild_of_ne _ _ fun heq => by cases heq]
      exact putChild_of_ne _ _ fun _ => hk
  | unready key c hc => exact hkeep (putChild_of_ne _ _ fun heq => by cases heq)
  | patch i c hc =>
    refine hkeep ?_
    simp only [landPatch]
    split
    · rfl
    · exact putChild_of_ne _ _ fun heq => by cases heq
  | collect κ key c w' hc howner' hgone =>
    refine hkeep (putChild_of_ne _ _ fun hκ hk => ?_)
    subst hκ hk
    obtain rfl : secret = c := Option.some.inj (hstored.symm.trans hc)
    rw [howner] at howner'
    cases howner'
  | _ => exact hkeep rfl

theorem EnvEffect.certificate (heff : EnvEffect s e s') {cert' : Stored .certificate}
    (h : s'.children .certificate k = some cert') :
    ∃ cert, s.children .certificate k = some cert ∧
      cert'.val.secretName = cert.val.secretName ∧ cert'.val.dnsNames = cert.val.dnsNames ∧
      (cert'.val.ready = true → cert.val.ready = true ∨ s' = issueCertificate k cert s) := by
  have hsame : s.children .certificate k = some cert' → ∃ cert,
      s.children .certificate k = some cert ∧ cert'.val.secretName = cert.val.secretName ∧
      cert'.val.dnsNames = cert.val.dnsNames ∧
      (cert'.val.ready = true → cert.val.ready = true ∨ s' = issueCertificate k cert s) :=
    fun h => ⟨cert', h, rfl, rfl, .inl⟩
  cases heff with
  | issue key c hc =>
    by_cases hk : k = key
    · subst hk
      simp only [issueCertificate, putChild_self, Option.some.injEq] at h
      exact ⟨c, hc, by rw [← h], by rw [← h], fun _ => .inr rfl⟩
    · simp only [issueCertificate] at h
      rw [putChild_of_ne _ _ fun _ => hk, putChild_of_ne _ _ fun heq => by cases heq] at h
      exact hsame h
  | unready key c hc =>
    by_cases hk : k = key
    · subst hk
      simp only [putChild_self, Option.some.injEq] at h
      exact ⟨c, hc, by rw [← h], by rw [← h], fun hr => by rw [← h] at hr; cases hr⟩
    · rw [putChild_of_ne _ _ fun _ => hk] at h
      exact hsame h
  | patch i c hc =>
    simp only [landPatch] at h
    split at h
    · exact hsame h
    · exact hsame h
  | collect κ key c w' hc howner hgone =>
    by_cases heq : ChildKind.certificate = κ ∧ k = key
    · obtain ⟨rfl, rfl⟩ := heq
      rw [putChild_self] at h
      cases h
    · rw [putChild_of_ne _ _ fun hκ hk => heq ⟨hκ, hk⟩] at h
      exact hsame h
  | _ => exact hsame h

theorem Issued.env (h : Issued s₀ s) (heff : EnvEffect s e s') : Issued s₀ s' where
  asked k cert' hcert' := by
    obtain ⟨cert, hcert, hname, hdns, -⟩ := heff.certificate hcert'
    obtain ⟨w, hw, hkey, hn, hd⟩ := h.asked k cert hcert
    exact ⟨w, hw, hkey, hname.trans hn, hdns.trans hd⟩
  ready v hv k cert' hcert' hready := by
    rcases heff.views hv with rfl | hseen
    · obtain ⟨cert, hcert, -, -, hwas⟩ := heff.certificate hcert'
      rcases hwas hready with hold | rfl
      · exact (h.ready s.toView (.head _) k cert hcert hold).env h heff
      · exact h.secretOf_issue hcert
    · exact (h.ready v hseen k cert' hcert' hready).env h heff

theorem Issued.exec (h : Issued s₀ s) (hline : Lineage s₀ s) (hrec : Recalls s₀ w tr s)
    (heff : Effect s op s') (hallow : (contract cfg w).allows tr op) : Issued s₀ s' := by
  have hcert : ∀ k cert', s'.children .certificate k = some cert' →
      s.children .certificate k = some cert' ∨
        (s₀.present w = true ∧ certificateKey w = k ∧ cert'.val = certificateFor w) := by
    intro k cert' hcert'
    obtain hsame | ⟨val, owner, rfl, -, hnew⟩ | ⟨obj, cur, rfl, -⟩ := heff.child .certificate k
    · exact .inl (hsame.symm.trans hcert')
    · obtain ⟨hkey, hval, hself⟩ := (allows_create hallow).2
      rw [hnew] at hcert'
      cases hcert'
      exact .inr ⟨hline.present (hrec.held hself).present, hkey.symm, hval⟩
    · exact False.elim (allows_update hallow)
  constructor
  · intro k cert' hcert'
    rcases hcert k cert' hcert' with hold | ⟨hw, hkey, hval⟩
    · exact h.asked k cert' hold
    · exact ⟨w, hw, hkey, by rw [hval, ← hkey]; cases w <;> rfl, by rw [hval]⟩
  · intro v hv k cert' hcert' hready
    have hold : ∀ v ∈ s.views, v.children .certificate k = some cert' → SecretOf s₀ s' k :=
      fun v hv hseen => (h.ready v hv k cert' hseen hready).exec heff hallow
    rcases heff.views hv with rfl | hseen
    · rcases hcert k cert' hcert' with hkept | ⟨-, -, hval⟩
      · exact hold s.toView (.head _) hkept
      · rw [hval] at hready
        cases w with
        | agent | agentTask => cases hready
    · exact hold v hseen hcert'

end Steps

/-- Every pass that has seen its Certificate Ready finds the Secret filled for a
workload of its namespace and name. -/
theorem authentication_proof (cfg : Config) (s₀ : Cluster) :
    (system cfg).Proof (contract cfg) (fun s => Lineage s₀ s ∧ Issued s₀ s)
      (fun w tr s => Recalls s₀ w tr s ∧
        (SawCertificate w tr → SecretOf s₀ s (certificateKey w))) (fun _ _ => True) := by
  refine (lineage_proof cfg s₀).extend (fun _ _ h => h) ?_ ?_ ?_
  · rintro w s - - ⟨cert, -, hmem⟩
    cases hmem
  · intro σ w c tr op r s' hline hissued hrec hsecret _ hallow hp _
    have heff := execute_effect hp.result
    refine ⟨hissued.exec hline hrec heff hallow, ?_, fun w' x _ _ _ h hsaw =>
      (h hsaw).exec heff hallow⟩
    rintro ⟨cert, hready, hmem⟩
    rcases List.mem_cons.mp hmem with heq | hold
    · cases heq
      obtain ⟨rfl, v, hv, hseen, -⟩ := execute_get_ok hp.result
      exact hissued.ready v hv _ cert hseen hready
    · exact (hsecret ⟨cert, hready, hold⟩).exec heff hallow
  · intro σ e s' _ hissued _ he
    have heff := envStep_effect he
    exact ⟨hissued.env heff, fun w x _ _ h hsaw => (h hsaw).env hissued heff⟩

theorem Fresh.issued {s : Cluster} (h : Fresh s) : Issued s s where
  asked k cert hcert := by
    rw [h.noChildren .certificate k (by decide)] at hcert
    cases hcert
  ready v hv k cert hcert := by
    rw [h.view hv, h.noChildren .certificate k (by decide)] at hcert
    cases hcert

/-! ## The Pod and its Secret -/

/-- In every run from a fresh cluster whose names are DNS labels: when a pass
creates a Pod for a workload that shares its namespace and name with no workload
of the other kind, the Secret the Pod mounts holds a certificate from which the
gateway reads exactly that workload. -/
theorem pod_authenticates_as_its_workload (cfg : Config) {s₀ : Cluster} (hfresh : Fresh s₀)
    (hlabels : ∀ w, s₀.present w = true → dnsLabels w.key) {es : List Event} {σ : State}
    (hrun : Run (system cfg).step anyStep (PoolSpec.idle s₀) es σ) {w : Workload} {c : Choice}
    {tr : History} {tpl : PodTemplate} {r : Except ApiError Pod} {s' : Cluster}
    (hp : (system cfg).Performs σ w c tr (.createPod tpl) r s')
    (halone : ∀ w', s₀.present w' = true → w'.key = w.key → w' = w) :
    tpl.owner = w ∧ ∃ secret, σ.world.children .secret ⟨tpl.ns, tpl.tlsSecret⟩ = some secret ∧
      parseWorkloadSAN secret.val.dnsNames = .ok w.identity := by
  have hsound := (authentication_proof cfg s₀).run hrun
    (PoolSpec.sound_idle ⟨hfresh.lineage, hfresh.issued⟩)
  obtain ⟨hallow, -, hsecret⟩ := hsound.admits hp
  have hmay := allows_createPod hallow
  refine ⟨hmay.owner, ?_⟩
  obtain ⟨w', secret, hw', hkey, hstored, -, hdns⟩ := hsecret hmay.certificate
  obtain rfl : w' = w := halone w' hw' (key_eq_of_certificateKey hkey)
  have hmount : (⟨tpl.ns, tpl.tlsSecret⟩ : NamespacedName) = certificateKey w' := by
    rw [hmay.ns, hmay.tlsSecret, certificateKey_eq]
  refine ⟨secret, hmount ▸ hstored, ?_⟩
  rw [hdns]
  exact parse_certificateFor (hlabels w' hw').dotFree

def soloKey : NamespacedName := ⟨"team", "x"⟩

theorem dnsLabels_soloKey : dnsLabels soloKey := ⟨by decide +kernel, by decide +kernel⟩

/-- A task on its own, up to the creation of its Pod. -/
def soloEvents : List Event :=
  passEvents (taskWorkload soloKey) 2 ++ passEvents (taskWorkload soloKey) 7 ++
    [.env (.issue (certificateKey (taskWorkload soloKey)))] ++
    passEvents (taskWorkload soloKey) 10

def soloCluster : Cluster := plainCluster [] [plainTask soloKey .agentReported 1]

theorem fresh_soloCluster : Fresh soloCluster :=
  fresh_plainCluster fun t ht => by rw [List.mem_singleton.mp ht]; rfl

theorem present_soloCluster (h : soloCluster.present w = true) :
    w = taskWorkload soloKey := by
  obtain ⟨kind, key⟩ := w
  obtain ⟨-, a, ha, -⟩ | ⟨hkind, t, ht, hkey⟩ := mem_of_present_plainCluster h
  · cases ha
  · rw [List.mem_singleton.mp ht] at hkey
    cases hkind
    cases hkey
    rfl

theorem soloPod_authenticates :
    ∃ tpl, creating (reached plainConfig soloCluster soloEvents) (taskWorkload soloKey) = some tpl ∧
      tpl.owner = taskWorkload soloKey ∧ ∃ secret,
        (reached plainConfig soloCluster soloEvents).world.children .secret
          ⟨tpl.ns, tpl.tlsSecret⟩ = some secret ∧
        parseWorkloadSAN secret.val.dnsNames = .ok ⟨"team", "x", .agentTask⟩ := by
  obtain ⟨tpl, htpl⟩ := Option.isSome_iff_exists.mp (show (creating
    (reached plainConfig soloCluster soloEvents) (taskWorkload soloKey)).isSome = true by
      decide +kernel)
  obtain ⟨tr, r, s', hp⟩ := performs_of_creating plainConfig htpl
  exact ⟨tpl, htpl, pod_authenticates_as_its_workload plainConfig fresh_soloCluster
    (fun w hw => by rw [present_soloCluster hw]; exact dnsLabels_soloKey)
    (run_any (by decide +kernel)) hp
    (fun w hw _ => present_soloCluster hw)⟩

def twinCluster : Cluster := plainCluster [plainAgent soloKey] [plainTask soloKey .agentReported 1]

theorem fresh_twinCluster : Fresh twinCluster :=
  fresh_plainCluster fun t ht => by rw [List.mem_singleton.mp ht]; rfl

theorem key_of_present_twinCluster (h : twinCluster.present w = true) :
    w.key = soloKey := by
  obtain ⟨-, a, ha, hkey⟩ | ⟨-, t, ht, hkey⟩ := mem_of_present_plainCluster h
  · rw [← hkey, List.mem_singleton.mp ha]; rfl
  · rw [← hkey, List.mem_singleton.mp ht]; rfl

/-- The agent's pass asks for `x-tls`, cert-manager issues it, and the task's pass
finds it Ready. -/
def twinEvents : List Event :=
  passEvents (agentWorkload soloKey) 2 ++ passEvents (agentWorkload soloKey) 9 ++
    [.env (.issue (certificateKey (agentWorkload soloKey)))] ++
    passEvents (taskWorkload soloKey) 2 ++ passEvents (taskWorkload soloKey) 10

theorem taskPod_authenticates_as_agent :
    Fresh twinCluster ∧ (∀ w, twinCluster.present w = true → dnsLabels w.key) ∧
    Run (system plainConfig).step anyStep (PoolSpec.idle twinCluster) twinEvents
      (reached plainConfig twinCluster twinEvents) ∧
    ∃ tpl tr r s', (system plainConfig).Performs (reached plainConfig twinCluster twinEvents)
        (taskWorkload soloKey) .ok tr (.createPod tpl) r s' ∧
      ∃ secret, (reached plainConfig twinCluster twinEvents).world.children .secret
          ⟨tpl.ns, tpl.tlsSecret⟩ = some secret ∧
        parseWorkloadSAN secret.val.dnsNames = .ok ⟨"team", "x", .agent⟩ := by
  refine ⟨fresh_twinCluster,
    fun w hw => by rw [key_of_present_twinCluster hw]; exact dnsLabels_soloKey,
    run_any (by decide +kernel), ?_⟩
  have hmounts : (creating (reached plainConfig twinCluster twinEvents)
      (taskWorkload soloKey)).map (fun tpl => (⟨tpl.ns, tpl.tlsSecret⟩ : NamespacedName)) =
        some ⟨"team", "x-tls"⟩ := by
    decide +kernel
  obtain ⟨tpl, htpl, hkey⟩ := Option.map_eq_some_iff.mp hmounts
  obtain ⟨tr, r, s', hp⟩ := performs_of_creating plainConfig htpl
  have hnames : ((reached plainConfig twinCluster twinEvents).world.children .secret
      ⟨"team", "x-tls"⟩).map (·.val.dnsNames) =
        some (certificateFor (agentWorkload soloKey)).dnsNames := by
    decide +kernel
  obtain ⟨secret, hstored, hdns⟩ := Option.map_eq_some_iff.mp hnames
  refine ⟨tpl, tr, r, s', hp, secret, by rw [hkey]; exact hstored, ?_⟩
  rw [hdns]
  exact parse_certificateFor dnsLabels_soloKey.dotFree

end Kaalm.Controller
