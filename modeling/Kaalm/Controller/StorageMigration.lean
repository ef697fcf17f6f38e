/-
  Controller/StorageMigration.lean --- the storage-version migrator
  (`internal/storagemigration/migrator.go`).

  THE MACHINE.  A pass makes one API call at a time, and `Phase` is where it stands.
  An event is the next call with its outcome, a start of the migrator (the first, the
  retry of `Start` after a failed pass, or another leader after a crash at any point),
  or a write of somebody else.

  THE API SERVER.  A write is stored at the storage version of the CRD, and a rewrite
  of an object that is stored there already is none.  A list reads a snapshot: the
  continue token carries what is left of it.  A call that fails has written or has
  not.  The storage version of a CRD does not change.
-/
import Kaalm.Foundation.GoMap
import Kaalm.Foundation.Run

namespace Kaalm.Controller

open Kaalm.Foundation

namespace StorageMigration

/-! ## Objects -/

def storageVersion : String := "v1beta1"

inductive Kind where
  | agentClass
  | modelProvider
  | toolProvider
  | agent
  | agentTask
  | agentChannel
  deriving DecidableEq, Repr

/-- `crdName` of the entry. -/
def Kind.crdName : Kind → String
  | agentClass => "agentclasses.kaalm.io"
  | modelProvider => "modelproviders.kaalm.io"
  | toolProvider => "toolproviders.kaalm.io"
  | agent => "agents.kaalm.io"
  | agentTask => "agenttasks.kaalm.io"
  | agentChannel => "agentchannels.kaalm.io"

/-- `kind` of the entry. -/
def Kind.text : Kind → String
  | agentClass => "AgentClass"
  | modelProvider => "ModelProvider"
  | toolProvider => "ToolProvider"
  | agent => "Agent"
  | agentTask => "AgentTask"
  | agentChannel => "AgentChannel"

def kinds : List Kind :=
  [.agentClass, .modelProvider, .toolProvider, .agent, .agentTask, .agentChannel]

/-- An entry of `spec.versions`. -/
structure CRDVersion where
  name : String
  storage : Bool
  deriving DecidableEq, Repr

/-- A `CustomResourceDefinition`; the API server accepts none without a storage version. -/
structure CRD where
  versions : List CRDVersion
  storedVersions : List String
  hasStorage : (versions.find? (·.storage)).isSome = true

/-- The version its objects are written at. -/
def CRD.storageVersion (crd : CRD) : String :=
  ((crd.versions.find? (·.storage)).map (·.name)).getD ""

/-- Namespace and name. -/
abbrev ObjectKey : Type := String × String

structure StoredObject where
  version : String
  resourceVersion : Nat
  deriving DecidableEq, Repr

structure Cluster where
  crds : Kind → CRD
  objects : Kind → GoMap ObjectKey StoredObject
  revision : Nat

namespace Cluster

def write (c : Cluster) (k : Kind) (key : ObjectKey) : Cluster where
  crds := c.crds
  objects := Function.update c.objects k
    ((c.objects k).insert key ⟨(c.crds k).storageVersion, c.revision + 1⟩)
  revision := c.revision + 1

/-- The empty merge patch of an object: a write if the stored bytes change. -/
def rewrite (c : Cluster) (k : Kind) (key : ObjectKey) : Option Cluster :=
  ((c.objects k).lookup key).map fun obj =>
    if obj.version = (c.crds k).storageVersion then c else c.write k key

def delete (c : Cluster) (k : Kind) (key : ObjectKey) : Cluster :=
  { c with objects := Function.update c.objects k ((c.objects k).erase key) }

def trim (c : Cluster) (k : Kind) : Cluster :=
  { c with crds := Function.update c.crds k { c.crds k with storedVersions := [storageVersion] } }

end Cluster

/-! ## The migrator -/

def migrated (stored : List String) : Bool := stored = [storageVersion]

def storesAt (crd : CRD) (version : String) : Bool :=
  match crd.versions.find? (·.storage) with
  | some v => v.name = version
  | none => false

def pageLimit (pageSize : Int) : Nat := if pageSize ≤ 0 then 500 else pageSize.toNat

/-- One page of a snapshot, and the token of the next, if there is one. -/
def listPage (limit : Nat) (snapshot : List ObjectKey) : List ObjectKey × Option (List ObjectKey) :=
  (snapshot.take limit,
    if snapshot.drop limit = [] then none else some (snapshot.drop limit))

/-- The next call of a pass; `todo` are the kinds after this one. -/
inductive Phase where
  /-- the CRD is read -/
  | reading (k : Kind) (todo : List Kind)
  /-- the page of the token is listed, the first page without one -/
  | listing (k : Kind) (todo : List Kind) (token : Option (List ObjectKey))
  /-- the object is rewritten, then the rest of its page -/
  | rewriting (k : Kind) (todo : List Kind) (key : ObjectKey) (page : List ObjectKey)
      (token : Option (List ObjectKey))
  /-- `storedVersions` is trimmed -/
  | trimming (k : Kind) (todo : List Kind)
  | done
  | failed (k : Kind) (err : String)
  deriving DecidableEq, Repr

/-- The next kind of the loop in `Migrate`. -/
def nextKind : List Kind → Phase
  | [] => .done
  | k :: todo => .reading k todo

/-- The next object of the loop in `rewriteAll`, the next page, or its end. -/
def nextObject (k : Kind) (todo : List Kind) (page : List ObjectKey)
    (token : Option (List ObjectKey)) : Phase :=
  match page, token with
  | key :: page, token => .rewriting k todo key page token
  | [], some rest => .listing k todo (some rest)
  | [], none => .trimming k todo

structure Migration where
  cluster : Cluster
  phase : Phase

/-- The outcome of a call: `lost` is an error after the write. -/
inductive Outcome where
  | ok
  | error (err : String)
  | lost (err : String)
  deriving DecidableEq, Repr

inductive Event where
  | call (outcome : Outcome)
  | restart
  | create (k : Kind) (key : ObjectKey)
  | update (k : Kind) (key : ObjectKey)
  | delete (k : Kind) (key : ObjectKey)
  deriving DecidableEq, Repr

/-- The text of an error of `Migrate`. -/
def failure (k : Kind) (err : String) : Phase := .failed k (k.crdName ++ ": " ++ err)

/-- `migrateKind` after the CRD was read. -/
def afterRead (crd : CRD) (k : Kind) (todo : List Kind) : Phase :=
  if migrated crd.storedVersions then nextKind todo
  else if !storesAt crd storageVersion then
    failure k ("storage version is not " ++ storageVersion ++ " (storedVersions [" ++
      " ".intercalate crd.storedVersions ++ "]); apply the chart's CRDs first")
  else .listing k todo none

def rewriteError (k : Kind) (key : ObjectKey) (err : String) : String :=
  "rewrite " ++ k.text ++ " " ++ key.1 ++ "/" ++ key.2 ++ ": " ++ err

def call (pageSize : Int) (s : Migration) (outcome : Outcome) : Option Migration :=
  match s.phase, outcome with
  | .reading k todo, .ok => some { s with phase := afterRead (s.cluster.crds k) k todo }
  | .reading k _, .error err => some { s with phase := failure k ("get CRD: " ++ err) }
  | .listing k todo token, .ok =>
    let page := listPage (pageLimit pageSize) (token.getD (s.cluster.objects k).keys)
    some { s with phase := nextObject k todo page.1 page.2 }
  | .listing k _ _, .error err =>
    some { s with
      phase := failure k ("list " ++ k.text ++ " at " ++ storageVersion ++ ": " ++ err) }
  | .rewriting k todo key page token, .ok =>
    (s.cluster.rewrite k key).map fun cluster => ⟨cluster, nextObject k todo page token⟩
  | .rewriting k _ key _ _, .error err =>
    some { s with phase := failure k (rewriteError k key err) }
  | .rewriting k _ key _ _, .lost err =>
    (s.cluster.rewrite k key).map fun cluster => ⟨cluster, failure k (rewriteError k key err)⟩
  | .trimming k todo, .ok => some ⟨s.cluster.trim k, nextKind todo⟩
  | .trimming k _, .error err =>
    some { s with phase := failure k ("trim storedVersions: " ++ err) }
  | .trimming k _, .lost err => some ⟨s.cluster.trim k, failure k ("trim storedVersions: " ++ err)⟩
  | _, _ => none

def Migration.restarted (s : Migration) : Migration := { s with phase := nextKind kinds }

def step (pageSize : Int) (s : Migration) : Event → Option Migration
  | .call outcome => call pageSize s outcome
  | .restart => some s.restarted
  | .create k key =>
    if key ∈ s.cluster.objects k then none else some { s with cluster := s.cluster.write k key }
  | .update k key =>
    if key ∈ s.cluster.objects k then some { s with cluster := s.cluster.write k key } else none
  | .delete k key => some { s with cluster := s.cluster.delete k key }

def boot (cluster : Cluster) : Migration := ⟨cluster, nextKind kinds⟩

end StorageMigration

end Kaalm.Controller
