/-
  Controller/ChannelDelete.lean --- deleting an AgentChannel: the reconciler
  (`internal/controller/agentchannel_controller.go`), the async intake of the
  gateway (`internal/gateway/user.go`, `async.go`) and its informer
  (`cmd/gateway/main.go`).

  PARTIES.  The reconciler announces Terminating, waits for the disconnect annotation,
  deletes the channel's async records once and takes its finalizer away.  `N` gateway
  replicas have up to `M` requests each under way; a request looks at its replica's
  copy of the channel first and creates its record last.

  WATCHES.  Every write to the channel is queued for every replica that is up, which
  takes the next version whenever it likes.  A version that is Terminating without the
  annotation makes its informer patch the annotation, some time later.

  CACHES.  The reconciler reads the channel, and lists the records, from a cache
  of any age; the gateway's own calls for records go to the API server.
-/
import Kaalm.Controller.Cluster
import Kaalm.Foundation.Pool
import Kaalm.Gateway.Channel

namespace Kaalm.Controller

open Kaalm.Foundation
open Kaalm.Gateway (Time Duration second ChannelPhase asyncTTL)

/-! ## Objects -/

/-- An `AgentChannel`, as far as the handshake and the async intake read it. -/
structure ChannelObject where
  rv : Nat
  finalizer : Bool
  deletionTimestamp : Option Time
  /-- `status.phase` -/
  phase : Option ChannelPhase
  /-- the annotation `kaalm.io/channel-disconnected` is "true" -/
  disconnected : Bool
  /-- `spec.webhook.maxPendingAsyncResponses` -/
  maxPendingAsyncResponses : Int
  deriving DecidableEq, Repr

/-- A `kaalm-async-*` ConfigMap with the channel's labels: the request it belongs to
and its expiry, if it parses. -/
structure RecordConfigMap where
  requestID : Nat
  expiresAt : Option Time
  deriving DecidableEq, Repr

/-- What the validation of a live channel comes to, and whether its Agent is Failed
or Degraded. -/
inductive Assessment where
  | systemNamespace
  | agentNotFound
  | invalid (agentDegraded : Bool)
  | valid (agentDegraded : Bool)
  deriving DecidableEq, Repr

def reducePhase (agentDegraded : Bool) : ChannelPhase :=
  if agentDegraded then .degraded else .active

def Assessment.phase (current : Option ChannelPhase) : Assessment → Option ChannelPhase
  | .systemNamespace => current
  | .agentNotFound => some .failed
  | .invalid d => some (reducePhase d)
  | .valid d => some (reducePhase d)

/-! ## Operations -/

inductive ChannelOp (N : Nat) where
  | getChannel
  | updateStatus (ch : ChannelObject)
  | update (ch : ChannelObject)
  | assess
  /-- the channel's records; ghost: whether for the sweep -/
  | listRecords (sweepAll : Bool)
  | deleteRecord (requestID : Nat)
  | now
  /-- `ChannelByPath` on a replica -/
  | channelByPath (i : Fin N)
  /-- authentication, normalisation, the Agent and the response mode let an async
  request through -/
  | accepts
  | countPending
  | createRecord (expires : Time)

abbrev ChannelAns {N : Nat} : ChannelOp N → Type
  | .getChannel => ChannelObject
  | .updateStatus _ => Nat
  | .update _ => Nat
  | .assess => Assessment
  | .listRecords _ => List RecordConfigMap
  | .deleteRecord _ => Unit
  | .now => Time
  | .channelByPath _ => Option ChannelObject
  | .accepts => Bool
  | .countPending => Nat
  | .createRecord _ => Unit

abbrev ChannelProg (N : Nat) : Type → Type := Prog (ChannelOp N) ChannelAns ApiError

abbrev ChannelHistory (N : Nat) : Type := Trace (ChannelOp N) ChannelAns ApiError

variable {N : Nat}

/-! ## The reconciler -/

def disconnectTimeout : Duration := 30 * second

/-- Whether `pruneAsyncConfigMaps` deletes a record. -/
def RecordConfigMap.pruned (sweepAll : Bool) (now : Time) (r : RecordConfigMap) : Bool :=
  sweepAll ||
    match r.expiresAt with
    | none => false
    | some t => t ≤ now

/-- The loop of `pruneAsyncConfigMaps`: a record that is gone is no error. -/
def deleteRecords : List RecordConfigMap → ChannelProg N Unit
  | [] => pure ()
  | r :: rs => do
    match ← Prog.attempt (ChannelOp.deleteRecord r.requestID) with
    | .ok _ => deleteRecords rs
    | .error .notFound => deleteRecords rs
    | .error e => Prog.fail e

def pruneAsyncConfigMaps (sweepAll : Bool) : ChannelProg N Unit := do
  let records ← Prog.perform (ChannelOp.listRecords sweepAll)
  let now ← Prog.perform ChannelOp.now
  deleteRecords (records.filter (RecordConfigMap.pruned sweepAll now))

/-- `r.Status().Update(ctx, channel)`. -/
def updateChannelStatus (ch : ChannelObject) : ChannelProg N ChannelObject := do
  let rv ← Prog.perform (ChannelOp.updateStatus ch)
  return { ch with rv := rv }

/-- `r.Update(ctx, channel)`. -/
def updateChannel (ch : ChannelObject) : ChannelProg N Unit := do
  let _ ← Prog.perform (ChannelOp.update ch)

/-- Steps 5 and 6 of `reconcileDelete`. -/
def sweepAndRelease (ch : ChannelObject) : ChannelProg N Unit := do
  pruneAsyncConfigMaps true
  updateChannel { ch with finalizer := false }

/-- Step 1 of `reconcileDelete`. -/
def announceTerminating (ch : ChannelObject) : ChannelProg N ChannelObject :=
  if ch.phase = some .terminating then return ch
  else updateChannelStatus { ch with phase := some .terminating }

/-- `reconcileDelete`; the clock is read only without the annotation. -/
def reconcileChannelDelete (ch : ChannelObject) : ChannelProg N Unit := do
  if ch.finalizer then
    let ch ← announceTerminating ch
    if ch.disconnected then sweepAndRelease ch
    else
      let now ← Prog.perform ChannelOp.now
      if now - ch.deletionTimestamp.getD 0 < disconnectTimeout then return ()
      else sweepAndRelease ch
  else return ()

/-- Step 6 of `Reconcile`, which only a valid channel reaches. -/
def pruneExpired : Assessment → ChannelProg N Unit
  | .valid _ => pruneAsyncConfigMaps false
  | _ => pure ()

/-- `Reconcile` on a channel that is not being deleted. -/
def reportChannel (ch : ChannelObject) : ChannelProg N Unit := do
  let found ← Prog.perform ChannelOp.assess
  pruneExpired found
  let _ ← updateChannelStatus { ch with phase := found.phase ch.phase }

/-- `Reconcile` of the AgentChannel reconciler. -/
def reconcileChannel : ChannelProg N Unit := do
  match ← Prog.attempt ChannelOp.getChannel with
  | .error .notFound => return ()
  | .error e => Prog.fail e
  | .ok ch =>
    if ch.deletionTimestamp.isSome then reconcileChannelDelete ch
    else if ch.finalizer then reportChannel ch
    else updateChannel { ch with finalizer := true }

/-! ## The intake -/

/-- The placeholder of `handleAsyncAccept`; whatever comes of it, the request is
answered. -/
def createPlaceholder : ChannelProg N Unit := do
  let now ← Prog.perform ChannelOp.now
  let _ ← Prog.attempt (ChannelOp.createRecord (now + asyncTTL))

def ChannelObject.maxPending (ch : ChannelObject) : Int :=
  if ch.maxPendingAsyncResponses = 0 then 100 else ch.maxPendingAsyncResponses

/-- `handleAsyncAccept`, up to the 202; a failed count is no cap. -/
def handleAsyncAccept (ch : ChannelObject) : ChannelProg N Unit := do
  match ← Prog.attempt ChannelOp.countPending with
  | .ok count => if (count : Int) ≥ ch.maxPending then return () else createPlaceholder
  | .error _ => createPlaceholder

/-- `handleWebhook` of a replica, for a request that may be an async one: the write
gate, and then everything up to `handleAsyncAccept`. -/
def intake (i : Fin N) : ChannelProg N Unit := do
  match ← Prog.attempt (ChannelOp.channelByPath i) with
  | .error _ => return ()
  | .ok none => return ()
  | .ok (some ch) =>
    if ch.phase = some .terminating then return ()
    else if ← Prog.perform ChannelOp.accepts then handleAsyncAccept ch
    else return ()

/-! ## The store and the replicas -/

structure GatewayReplica where
  up : Bool
  /-- the channel in its cache -/
  view : Option ChannelObject
  /-- the versions it has not seen yet, oldest first -/
  queue : List (Option ChannelObject)
  /-- annotation patches its handler has still to send -/
  notices : Nat
  deriving DecidableEq, Repr

structure ChannelWorld (N : Nat) where
  channel : Option ChannelObject
  replicas : Fin N → GatewayReplica
  records : List RecordConfigMap
  nextRequest : Nat
  revision : Nat
  clock : Time
  /-- ghost: every version of the channel, latest first -/
  versions : List ChannelObject
  /-- ghost: earlier record lists, latest first -/
  recordHistory : List (List RecordConfigMap)
  /-- ghost: the list of a sweep has been answered -/
  swept : Bool
  /-- ghost: the finalizer was taken away -/
  released : Bool

namespace ChannelWorld

variable (s : ChannelWorld N)

/-- Store a new version, and queue it for the replicas. -/
def put (new : Option ChannelObject) : ChannelWorld N :=
  { s with
    channel := new
    replicas := fun i =>
      if (s.replicas i).up then { s.replicas i with queue := (s.replicas i).queue ++ [new] }
      else s.replicas i
    revision := s.revision + 1
    versions := new.toList ++ s.versions }

def putRecords (records : List RecordConfigMap) : ChannelWorld N :=
  { s with records := records, recordHistory := s.records :: s.recordHistory }

def setReplica (i : Fin N) (r : GatewayReplica) : ChannelWorld N :=
  { s with replicas := Function.update s.replicas i r }

/-- The record list `lag` changes ago. -/
def recordsAt : Nat → List RecordConfigMap
  | 0 => s.records
  | n + 1 => (s.recordHistory[n]?).getD s.records

/-- Ghost: a record list was answered. -/
def listed (sweepAll : Bool) : ChannelWorld N := { s with swept := s.swept || sweepAll }

/-- Update the stored channel if the resourceVersion still matches. -/
def checked (rv : Nat) (f : ChannelObject → ChannelWorld N) :
    Except ApiError Nat × ChannelWorld N :=
  match s.channel with
  | none => (.error .notFound, s)
  | some cur => if cur.rv = rv then (.ok (s.revision + 1), f cur) else (.error .conflict, s)

def writeStatus (ch cur : ChannelObject) : ChannelWorld N :=
  s.put (some { cur with phase := ch.phase, rv := s.revision + 1 })

/-- A metadata update: a channel being deleted goes with its finalizer. -/
def writeFinalizer (ch cur : ChannelObject) : ChannelWorld N :=
  { s.put (unlessReleased cur.deletionTimestamp.isSome ch.finalizer
      { cur with finalizer := ch.finalizer, rv := s.revision + 1 }) with
    released := s.released || (cur.finalizer && !ch.finalizer) }

def apply : (op : ChannelOp N) → ChannelWorld N → Except ApiError (ChannelAns op) × ChannelWorld N
  | .getChannel, s =>
    match s.channel with
    | none => (.error .notFound, s)
    | some ch => (.ok ch, s)
  | .updateStatus ch, s => s.checked ch.rv (s.writeStatus ch)
  | .update ch, s => s.checked ch.rv (s.writeFinalizer ch)
  | .assess, s => (.ok (.valid false), s)
  | .listRecords sweepAll, s => (.ok s.records, s.listed sweepAll)
  | .deleteRecord id, s =>
    if s.records.any (·.requestID = id) then
      (.ok (), s.putRecords (s.records.filter (·.requestID ≠ id)))
    else (.error .notFound, s)
  | .now, s => (.ok s.clock, s)
  | .channelByPath i, s => (.ok (s.replicas i).view, s)
  | .accepts, s => (.ok true, s)
  | .countPending, s => (.ok s.records.length, s)
  | .createRecord expires, s =>
    (.ok (), { s.putRecords (⟨s.nextRequest, some expires⟩ :: s.records) with
      nextRequest := s.nextRequest + 1 })

end ChannelWorld

inductive ChannelChoice where
  | ok
  /-- an error, and no effect -/
  | failed
  /-- the effect, and an error -/
  | lost
  /-- this version of the channel, from the reconciler's cache; nothing, if there is
  no such version -/
  | cached (lag : Nat)
  /-- the records as of `lag` changes ago -/
  | listed (lag : Nat)
  | assessed (found : Assessment)
  | accepted (through : Bool)
  deriving DecidableEq, Repr

def executeChannel : (op : ChannelOp N) → ChannelChoice → ChannelWorld N →
    Option (Except ApiError (ChannelAns op) × ChannelWorld N)
  | op, .ok, s => some (s.apply op)
  | _, .failed, s => some (.error .other, s)
  | .getChannel, .cached lag, s =>
    match s.versions[lag]? with
    | some ch => some (.ok ch, s)
    | none => some (.error .notFound, s)
  | .listRecords sweepAll, .listed lag, s => some (.ok (s.recordsAt lag), s.listed sweepAll)
  | .assess, .assessed found, s => some (.ok found, s)
  | .accepts, .accepted through, s => some (.ok through, s)
  -- a read whose answer is lost is a failed one
  | .listRecords _, .lost, s => some (.error .other, s)
  | op, .lost, s => some (.error .other, (s.apply op).2)
  | _, _, _ => none

/-! ## Everybody else -/

inductive ChannelEnvEvent (N : Nat) where
  | tick (d : Nat)
  /-- `kubectl delete` -/
  | delete
  /-- the spec changes -/
  | edit (maxPendingAsyncResponses : Int)
  | start (i : Fin N)
  | stop (i : Fin N)
  /-- a replica takes the next version from its watch -/
  | deliver (i : Fin N)
  /-- a replica's informer patches the annotation -/
  | confirm (i : Fin N)
  /-- the patch fails -/
  | giveUp (i : Fin N)
  deriving DecidableEq, Repr

/-- What the informer's `UpdateFunc` asks of a new version. -/
def wantsNotice : Option ChannelObject → Bool
  | none => false
  | some ch => ch.phase = some .terminating && !ch.disconnected

def GatewayReplica.deliver (r : GatewayReplica) (x : Option ChannelObject)
    (rest : List (Option ChannelObject)) : GatewayReplica :=
  { r with view := x, queue := rest, notices := r.notices + (if wantsNotice x then 1 else 0) }

def ChannelWorld.annotate (s : ChannelWorld N) : ChannelWorld N :=
  match s.channel with
  | none => s
  | some cur => s.put (some { cur with disconnected := true, rv := s.revision + 1 })

def channelEnv (s : ChannelWorld N) : ChannelEnvEvent N → Option (ChannelWorld N)
  | .tick d => some { s with clock := s.clock + d }
  | .delete =>
    s.channel.map fun cur => s.put (unlessReleased true cur.finalizer
      { cur with
        deletionTimestamp := cur.deletionTimestamp.orElse fun _ => some (metaTime s.clock)
        rv := s.revision + 1 })
  | .edit n =>
    s.channel.map fun cur =>
      s.put (some { cur with maxPendingAsyncResponses := n, rv := s.revision + 1 })
  | .start i =>
    if (s.replicas i).up then none else some (s.setReplica i ⟨true, s.channel, [], 0⟩)
  | .stop i => some (s.setReplica i ⟨false, none, [], 0⟩)
  | .deliver i =>
    match (s.replicas i).queue with
    | [] => none
    | x :: rest => some (s.setReplica i ((s.replicas i).deliver x rest))
  | .confirm i =>
    if (s.replicas i).notices = 0 then none
    else some (s.setReplica i
      { s.replicas i with notices := (s.replicas i).notices - 1 }).annotate
  | .giveUp i =>
    if (s.replicas i).notices = 0 then none
    else some (s.setReplica i { s.replicas i with notices := (s.replicas i).notices - 1 })

/-- The reconciler, and the requests of every replica. -/
inductive ChannelWorker (N M : Nat) where
  | reconciler
  | request (i : Fin N) (k : Fin M)
  deriving DecidableEq, Repr

def channelSystem (N M : Nat) :
    PoolSpec (ChannelWorld N) (ChannelWorker N M) (ChannelOp N) ChannelAns ApiError ChannelChoice
      (ChannelEnvEvent N) where
  program
    | .reconciler => reconcileChannel
    | .request i _ => intake i
  execute := executeChannel
  env := channelEnv

end Kaalm.Controller
