/-
  Gateway/Identity.lean --- the workload identity in a client certificate
  (`internal/gateway/identity.go`).

  `parseWorkloadSAN` scans the DNS names of a certificate for exactly one entry of
  a recognized shape.  The results say what it makes of the names the two
  reconcilers put into a Certificate, for names without a dot: a dot in a name is
  what the label count is there to refuse.
-/
import Kaalm.Controller.Desired
import Kaalm.Foundation.Text

namespace Kaalm.Gateway

open Kaalm.Controller

/-! ## Strings -/

/-- `strings.Split(s, ".")`. -/
def splitDots (s : String) : List String := (s.toList.splitOn '.').map String.ofList

def hasSuffix (s suffix : String) : Bool := suffix.toList.isSuffixOf s.toList

/-- A DNS label (RFC 1123): 1 to 63 lower-case letters, digits and hyphens, with
no hyphen at either end. -/
def isDNSLabel (s : String) : Bool :=
  s.toList.length ≤ 63 &&
  s.toList.all (fun c => c.isLower || c.isDigit || c == '-') &&
  s.toList.head?.any (fun c => c != '-') && s.toList.getLast?.any (fun c => c != '-')

theorem dot_not_mem_of_isDNSLabel {s : String} (h : isDNSLabel s = true) : '.' ∉ s.toList := by
  intro hdot
  simp only [isDNSLabel, Bool.and_eq_true, List.all_eq_true] at h
  have hc := h.1.1.2 '.' hdot
  revert hc
  decide

/-! ## The parser -/

structure Identity where
  ns : String
  name : String
  kind : WorkloadKind
  deriving DecidableEq, Repr

inductive SANError where
  | noRecognizedSAN
  | multipleRecognizedSANs
  | badLabelCount
  deriving DecidableEq, Repr

/-- The loop variables of `ParseWorkloadSAN`. -/
structure SANScan where
  found : List Identity
  badCount : Bool
  deriving DecidableEq, Repr

def agentSANLabels : Nat := 5
def taskSANLabels : Nat := 5

/-- An entry of a recognized shape: the label count decides. -/
def scanRecognized (scan : SANScan) (labels : List String) (count : Nat) (kind : WorkloadKind) :
    SANScan :=
  if labels.length ≠ count then { scan with badCount := true }
  else { scan with found := scan.found ++ [⟨labels.getD 1 "", labels.getD 0 "", kind⟩] }

def scanSAN (scan : SANScan) (san : String) : SANScan :=
  if hasSuffix san ("." ++ agentSANSuffix) then
    scanRecognized scan (splitDots san) agentSANLabels .agent
  else if hasSuffix san ("." ++ taskSANSuffix) then
    scanRecognized scan (splitDots san) taskSANLabels .agentTask
  else scan

def parseWorkloadSAN (dnsNames : List String) : Except SANError Identity :=
  let scan := dnsNames.foldl scanSAN ⟨[], false⟩
  match scan.found with
  | [id] => .ok id
  | _ :: _ :: _ => .error .multipleRecognizedSANs
  | [] => if scan.badCount then .error .badLabelCount else .error .noRecognizedSAN

/-! ## The services -/

/-- `isServiceCert`: one of the names is the Service's long or short one. -/
def isServiceCert (dnsNames : List String) (service operatorNamespace : String) : Bool :=
  dnsNames.any fun san => san = service ++ "." ++ operatorNamespace ++ ".svc.cluster.local" ||
    san = service ++ "." ++ operatorNamespace ++ ".svc"

def isControllerCert (dnsNames : List String) (operatorNamespace : String) : Bool :=
  isServiceCert dnsNames "kaalm-controller" operatorNamespace

def isConsoleCert (dnsNames : List String) (operatorNamespace : String) : Bool :=
  isServiceCert dnsNames "kaalm-console" operatorNamespace

/-! ## The names the reconcilers issue -/

theorem splitDots_of_labels {labels : List String} {s : String} (hne : labels ≠ [])
    (hdots : ∀ l ∈ labels, '.' ∉ l.toList)
    (hs : s.toList = ['.'].intercalate (labels.map String.toList)) : splitDots s = labels := by
  have hsplit : s.toList.splitOn '.' = labels.map String.toList := by
    rw [hs]
    refine List.splitOn_intercalate '.' (fun l hl => ?_) (by simpa using hne)
    obtain ⟨l', hl', rfl⟩ := List.mem_map.mp hl
    exact hdots l' hl'
  rw [splitDots, hsplit, List.map_map]
  conv_rhs => rw [← List.map_id labels]
  exact List.map_congr_left fun l _ => String.ofList_toList

theorem not_hasSuffix_of_count {s suffix : String}
    (h : s.toList.count '.' < suffix.toList.count '.') : hasSuffix s suffix = false := by
  rw [Bool.eq_false_iff]
  intro hsuf
  have hle := (List.isSuffixOf_iff_suffix.mp hsuf).sublist.count_le '.'
  omega

theorem hasSuffix_append (s suffix : String) : hasSuffix (s ++ suffix) suffix = true := by
  rw [hasSuffix, String.toList_append]
  exact List.isSuffixOf_iff_suffix.mpr (List.suffix_append _ _)

section Certificates

variable {key : NamespacedName}

def dnsLabels (key : NamespacedName) : Prop := isDNSLabel key.ns = true ∧ isDNSLabel key.name = true

/-- Neither part of a workload's key has a dot. -/
def dotFree (key : NamespacedName) : Prop := '.' ∉ key.ns.toList ∧ '.' ∉ key.name.toList

theorem dnsLabels.dotFree (h : dnsLabels key) : dotFree key :=
  ⟨dot_not_mem_of_isDNSLabel h.1, dot_not_mem_of_isDNSLabel h.2⟩

theorem scan_short_names (h : dotFree key) (scan : SANScan) (tail : String)
    (htail : tail.toList.count '.' ≤ 1) :
    scanSAN scan (key.name ++ "." ++ key.ns ++ tail) = scan := by
  have hcount : (key.name ++ "." ++ key.ns ++ tail).toList.count '.' ≤ 2 := by
    simp only [String.toList_append, List.count_append, List.count_eq_zero.mpr h.2,
      List.count_eq_zero.mpr h.1]
    have hdot : (".".toList).count '.' = 1 := by decide
    omega
  have hagent : ("." ++ agentSANSuffix).toList.count '.' = 3 := by decide
  have htask : ("." ++ taskSANSuffix).toList.count '.' = 3 := by decide
  rw [scanSAN, not_hasSuffix_of_count (by omega), not_hasSuffix_of_count (by omega)]
  rfl

theorem parse_desiredCertificate (h : dotFree key) :
    parseWorkloadSAN (desiredCertificate key).dnsNames = .ok ⟨key.ns, key.name, .agent⟩ := by
  have hsplit : splitDots (key.name ++ "." ++ key.ns ++ ".svc.cluster.local") =
      [key.name, key.ns, "svc", "cluster", "local"] := by
    refine splitDots_of_labels (by simp) (fun l hl => ?_) (by simp [List.intercalate])
    simp only [List.mem_cons, List.not_mem_nil, or_false] at hl
    rcases hl with rfl | rfl | rfl | rfl | rfl
    · exact h.2
    · exact h.1
    all_goals decide
  have hfull : scanSAN ⟨[], false⟩ (key.name ++ "." ++ key.ns ++ ".svc.cluster.local") =
      ⟨[⟨key.ns, key.name, .agent⟩], false⟩ := by
    have hdot : "." ++ agentSANSuffix = ".svc.cluster.local" := by decide
    rw [scanSAN, hdot, if_pos (hasSuffix_append _ _), hsplit]
    rfl
  have hshort := scan_short_names h ⟨[⟨key.ns, key.name, .agent⟩], false⟩ ".svc" (by decide)
  have hbare := scan_short_names h ⟨[⟨key.ns, key.name, .agent⟩], false⟩ "" (by decide)
  rw [String.append_empty] at hbare
  simp only [parseWorkloadSAN, desiredCertificate, List.foldl_cons, List.foldl_nil, hfull,
    hshort, hbare]

theorem parse_desiredTaskCertificate (h : dotFree key) :
    parseWorkloadSAN (desiredTaskCertificate key).dnsNames =
      .ok ⟨key.ns, key.name, .agentTask⟩ := by
  have hsplit : splitDots (key.name ++ "." ++ key.ns ++ "." ++ taskSANSuffix) =
      [key.name, key.ns, "task", "kaalm", "io"] := by
    refine splitDots_of_labels (by simp) (fun l hl => ?_)
      (by simp [List.intercalate, taskSANSuffix])
    simp only [List.mem_cons, List.not_mem_nil, or_false] at hl
    rcases hl with rfl | rfl | rfl | rfl | rfl
    · exact h.2
    · exact h.1
    all_goals decide
  have htask : hasSuffix (key.name ++ "." ++ key.ns ++ "." ++ taskSANSuffix)
      ("." ++ taskSANSuffix) = true := by
    rw [String.append_assoc]
    exact hasSuffix_append _ _
  have hagent : hasSuffix (key.name ++ "." ++ key.ns ++ "." ++ taskSANSuffix)
      ("." ++ agentSANSuffix) = false := by
    rw [Bool.eq_false_iff]
    intro hsuf
    -- both suffixes would end the same name, so the shorter would end the longer
    have hnested := List.suffix_of_suffix_length_le (List.isSuffixOf_iff_suffix.mp htask)
      (List.isSuffixOf_iff_suffix.mp hsuf) (by decide)
    revert hnested
    decide
  simp only [parseWorkloadSAN, desiredTaskCertificate, List.foldl_cons, List.foldl_nil, scanSAN,
    hagent, htask, hsplit, if_true, Bool.false_eq_true, if_false]
  rfl

/-- A name of a workload is a Service's only in the Service's namespace: the other
pairs of endings differ in the last letter, or would need a dot. -/
theorem ns_eq_of_serviceName {service operatorNamespace tail tail' : String} (h : dotFree key)
    (hservice : '.' ∉ service.toList) (htail : tail ∈ [".svc.cluster.local", ".svc"])
    (htail' : tail' ∈ [".svc.cluster.local", ".svc", "", ".task.kaalm.io"])
    (heq : key.name ++ "." ++ key.ns ++ tail' = service ++ "." ++ operatorNamespace ++ tail) :
    key.ns = operatorNamespace := by
  have hlist := congrArg String.toList heq
  simp only [String.toList_append, List.append_assoc] at hlist
  obtain ⟨-, hrest⟩ := Foundation.Text.eq_of_append_sep h.2 hservice hlist
  simp only [List.mem_cons, List.not_mem_nil, or_false] at htail htail'
  have hlast := congrArg List.getLast? hrest
  rcases htail' with rfl | rfl | rfl | rfl
  · rcases htail with rfl | rfl
    · exact String.toList_inj.mp (List.append_cancel_right hrest)
    · simp [List.getLast?_append] at hlast
  · rcases htail with rfl | rfl
    · simp [List.getLast?_append] at hlast
    · exact String.toList_inj.mp (List.append_cancel_right hrest)
  · have hmem : '.' ∈ operatorNamespace.toList ++ tail.toList := by
      rcases htail with rfl | rfl <;> simp
    have hns : key.ns.toList = operatorNamespace.toList ++ tail.toList := by simpa using hrest
    exact absurd (hns ▸ hmem) h.1
  · rcases htail with rfl | rfl <;> simp [List.getLast?_append] at hlast

end Certificates

end Kaalm.Gateway
