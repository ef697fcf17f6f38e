/-
  Gateway/Store.lean --- what the gateway reads of the cluster
  (`internal/gateway/routing.go`, `errors.go`, the API types).

  The store is the gateway's cache: it is read, never written, and a lookup that
  fails reads as a missing object.  Workloads and classes are kept as the fields
  the gateway looks at.
-/
import Kaalm.Foundation.Glob
import Kaalm.Gateway.Identity
import Kaalm.Gateway.Ledger

namespace Kaalm.Gateway

open Kaalm.Foundation Kaalm.Controller

/-! ## Objects -/

/-- `spec.type` of a ModelProvider. -/
inductive ProviderType where
  | anthropic
  | openai
  | openaiCompatible
  | googleVertex
  deriving DecidableEq, Repr, Inhabited

structure ProviderModel where
  id : String
  maxOutputTokens : Option Int
  costPer1MInputTokens : String
  costPer1MOutputTokens : String
  deriving DecidableEq, Repr, Inhabited

structure FallbackReference where
  name : String
  modelMap : GoMap String String

/-- A ModelProvider as the request path reads it. -/
structure Provider extends ModelProvider where
  type : ProviderType
  endpoint : String
  allowedNamespaces : List String
  models : List ProviderModel
  fallback : List FallbackReference

structure ToolProvider where
  name : String
  endpoint : String
  allowedNamespaces : List String
  /-- the declared catalog, by tool id -/
  tools : List String
  deriving DecidableEq, Repr, Inhabited

/-- `AgentToolGrant`. -/
structure ToolGrant where
  providerRef : String
  tools : List String
  deriving DecidableEq, Repr, Inhabited

/-- The fields of an Agent or AgentTask that authorize its calls. -/
structure WorkloadSpec where
  providers : List String
  tools : List ToolGrant
  agentClassRef : String
  deriving DecidableEq, Repr, Inhabited

structure ClassSpec where
  allowedProviders : List String
  allowedToolProviders : List String
  deriving DecidableEq, Repr, Inhabited

structure Store where
  providers : List Provider
  toolProviders : List ToolProvider
  workload : WorkloadKind → String → String → Option WorkloadSpec
  class_ : String → Option ClassSpec

def Store.providerByName (s : Store) (name : String) : Option Provider :=
  s.providers.find? fun p => p.name = name

def Store.toolProviderByName (s : Store) (name : String) : Option ToolProvider :=
  s.toolProviders.find? fun p => p.name = name

/-! ## Callers and denials -/

/-- `caller`: the workload is set for mTLS callers only. -/
structure Caller where
  ns : String
  workload : Option Identity
  deriving DecidableEq, Repr

/-- The stable `error.type` values. -/
inductive ErrorType where
  | invalidRequest
  | unauthorized
  | accessDenied
  | requestTooLarge
  | providerError
  | providerUnavailable
  | providerTimeout
  | rateLimited
  | budgetExhausted
  | budgetThrottled
  | budgetUnavailable
  | toolDenied
  | headerMismatch
  | toolUnavailable
  | toolTimeout
  deriving DecidableEq, Repr, Inhabited

structure RouteDenial where
  status : Nat
  errType : ErrorType
  message : String
  deriving DecidableEq, Repr

/-- `namespaceGlobAllowed`: an empty list allows none. -/
def namespaceGlobAllowed (ns : String) (allowed : List String) : Bool :=
  allowed.any fun pattern => Glob.matches? pattern ns

/-- `string(kind)`. -/
def kindName : WorkloadKind → String
  | .agent => "Agent"
  | .agentTask => "AgentTask"

end Kaalm.Gateway
