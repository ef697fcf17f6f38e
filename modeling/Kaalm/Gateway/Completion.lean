/-
  Gateway/Completion.lean --- `POST /v1/task/complete`
  (`internal/gateway/completion.go`).

  The handler reads the task and the calling Pod, runs the mode, terminal-phase
  and identity gates, validates the report, and only then patches the mailbox: a
  call is a check and, some time later, a write.  The request body is modelled
  after JSON decoding.
-/
import Kaalm.Controller.Objects

namespace Kaalm.Gateway

open Kaalm.Foundation Kaalm.Controller

structure TaskCompleteRequest where
  status : String
  message : String
  artifacts : GoMap String String
  deriving DecidableEq

/-- The refusals of the handler, with their HTTP status and message. -/
inductive CompletionRefusal where
  | forbidden (message : String)
  | badRequest (message : String)
  | tooLarge (message : String)
  deriving DecidableEq, Repr

def completionStatusSuccess : String := "success"
def completionStatusFailure : String := "failure"

def completionMailboxName (task : String) : String := task ++ "-completion"

/-- `ValidateCompletionArtifacts`: the empty string when valid. -/
def validateCompletionArtifacts (status : String) (artifacts : GoMap String String)
    (declared : List String) : String :=
  match artifacts.keys.find? fun k => !declared.contains k with
  | some k => "undeclared artifact in payload: " ++ k
  | none =>
    if status = completionStatusSuccess then
      match declared.find? fun a => (artifacts.lookup a).isNone with
      | some a => "missing declared artifact: " ++ a
      | none => ""
    else ""

def maxArtifactBytes : Nat := 4096
def maxArtifactTotalBytes : Nat := 32768

/-- The size caps: per value, and over the message and all values. -/
def artifactSizes (req : TaskCompleteRequest) : Except CompletionRefusal Unit :=
  match req.artifacts.entries.find? fun e => e.2.utf8ByteSize > maxArtifactBytes with
  | some e => .error (.tooLarge ("artifact \"" ++ e.1 ++ "\" exceeds " ++
      toString maxArtifactBytes ++ " bytes; externalize and reference by URL"))
  | none =>
    if req.message.utf8ByteSize + (req.artifacts.entries.map (·.2.utf8ByteSize)).sum >
        maxArtifactTotalBytes then
      .error (.tooLarge ("combined artifact payload exceeds " ++
        toString maxArtifactTotalBytes ++ " bytes"))
    else .ok ()

def completionData (req : TaskCompleteRequest) : GoMap String String :=
  let data : GoMap String String := AList.insert "status" req.status ∅
  let data := if req.message = "" then data else data.insert "message" req.message
  req.artifacts.entries.foldl (fun m e => m.insert ("artifact." ++ e.1) e.2) data

/-- `handleTaskComplete` up to the patch: the data to merge into the mailbox, or
the refusal.  `caller` is the Pod behind the source address. -/
def handleTaskComplete (task : Option AgentTask) (caller : Option UID)
    (req : TaskCompleteRequest) : Except CompletionRefusal (GoMap String String) :=
  match task with
  | none => .error (.forbidden "no AgentTask backs this caller")
  | some task =>
    if task.spec.condition = .exitCode then
      .error (.forbidden "TaskNotAgentReported: this task completes via container exit")
    else if task.status.phase = .succeeded ∨ task.status.phase = .failed ∨
        task.status.phase = .timedOut then
      .error (.forbidden "TaskAlreadyCompleted: the task has reached a terminal phase")
    else if caller = none ∨ task.status.currentPodUID = none ∨
        caller ≠ task.status.currentPodUID then
      .error (.forbidden "StalePodCompletion: the calling Pod is not the task's current Pod")
    else if req.status ≠ completionStatusSuccess ∧ req.status ≠ completionStatusFailure then
      .error (.badRequest "status must be \"success\" or \"failure\"")
    else if validateCompletionArtifacts req.status req.artifacts task.spec.artifacts ≠ "" then
      .error (.badRequest
        (validateCompletionArtifacts req.status req.artifacts task.spec.artifacts))
    else (artifactSizes req).map fun _ => completionData req

/-- `PatchMailbox`: a JSON merge patch of `data`, which leaves every key it does
not name. -/
def patchMailbox (box : Mailbox) (caller : UID) (data : GoMap String String) : Mailbox where
  data := data.entries.foldl (fun m e => m.insert e.1 e.2) box.data
  writers := caller :: box.writers

end Kaalm.Gateway
