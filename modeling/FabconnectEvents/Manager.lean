import FabconnectEvents.StreamInfo
import Mathlib.Data.List.AList

/-!
The subscription manager: the stream and subscription registries, the key-value store, the
REST operations on them, `Init`'s recovery and `Close`. JSON is modelled by storing the
record itself, so decoding what was encoded gives it back. Whether a store call succeeds,
whether `update`'s wait on the handlers returns and whether `resume` finds them drained
depend on the store and on the goroutines: each operation takes them as inputs.
-/
namespace FabconnectEvents

def subPathPrefix : String := "/subscriptions"
def streamPathPrefix : String := "/eventstreams"
def subIDPrefix : String := "sb-"
def streamIDPrefix : String := "es-"
def checkpointIDPrefix : String := "cp-"

def hasPrefix (s p : String) : Bool := p.data.isPrefixOf s.data

/-- The fields of the subscription record the manager reads or writes. -/
structure SubscriptionInfo where
  createdISO8601 : String
  id : String
  path : String
  channelId : String
  stream : String
  fromBlock : String
  deriving DecidableEq, Repr

inductive Record where
  | stream (info : StreamInfo)
  | subscription (info : SubscriptionInfo)
  | checkpoint (cp : List (String × Nat))
  deriving DecidableEq, Repr

def Record.asStream : Record → Option StreamInfo
  | .stream info => some info
  | _ => none

def Record.asSubscription : Record → Option SubscriptionInfo
  | .subscription info => some info
  | _ => none

abbrev Store := AList fun _ : String => Record

/-- The manager's handle on a running stream: its spec, whether the current
`updateInterrupt` has been closed, and whether `stop` has closed the event channel. -/
structure EventStream where
  spec : StreamInfo
  interruptClosed : Bool
  stopped : Bool
  deriving DecidableEq, Repr

def EventStream.started (spec : StreamInfo) : EventStream := ⟨spec, false, false⟩

structure Subscription where
  info : SubscriptionInfo
  resetRequested : Bool
  deriving DecidableEq, Repr

structure Manager where
  streams : AList fun _ : String => EventStream
  subscriptions : AList fun _ : String => Subscription
  db : Store
  closed : Bool

structure RestError where
  err : Err
  status : Nat
  deriving DecidableEq, Repr

/-- How a handler call ends. `net/http` recovers a handler's panic; a hung call never returns. -/
inductive Outcome (α : Type) where
  | ok (a : α)
  | fail (e : RestError)
  | panicked
  | hung
  deriving DecidableEq, Repr

section
variable (lib : Lib)

def storeStream (db : Store) (spec : StreamInfo) (ok : Bool) : Except Err Store :=
  if ok then .ok (db.insert spec.id (.stream spec)) else .error .eventStreamsCreateStreamStoreFailed

/-- Puts the spec and answers with it, or with the store error as a 500. -/
def persistStream (m : Manager) (spec : StreamInfo) (ok : Bool) {α : Type} (answer : α) :
    Manager × Outcome α :=
  match storeStream m.db spec ok with
  | .error e => (m, .fail ⟨e, 500⟩)
  | .ok db => ({ m with db := db }, .ok answer)

@[simp] theorem persistStream_true (m : Manager) (spec : StreamInfo) {α : Type} (answer : α) :
    persistStream m spec true answer =
      ({ m with db := m.db.insert spec.id (.stream spec) }, .ok answer) := rfl

def addStream (m : Manager) (body : Option StreamInfo) (uuid now : String) (dbOk : String → Bool) :
    Manager × Outcome StreamInfo :=
  match body with
  | none => (m, .fail ⟨.restGatewayEventStreamInvalid, 400⟩)
  | some spec =>
    let id := streamIDPrefix ++ uuid
    let spec := { spec with id := id, createdISO8601 := now, path := streamPathPrefix ++ "/" ++ id }
    match newEventStream lib spec with
    | .error e => (m, .fail ⟨e, 500⟩)
    | .ok spec =>
      persistStream { m with streams := m.streams.insert spec.id (.started spec) } spec
        (dbOk spec.id) spec

/-- `eventStream.update` as the manager sees it: `preUpdateStream` and the close of the current
interrupt, the wait for the handlers (`settles`), then `updateSpec`; on success
`postUpdateStream` starts handlers with a fresh interrupt. Errors carry `UpdateStream`'s 500. -/
def EventStream.update (a : EventStream) (req : StreamInfo) (settles : Bool) :
    EventStream × Outcome StreamInfo :=
  if a.interruptClosed then (a, .panicked) else
  let a := { a with interruptClosed := true }
  if !settles then (a, .hung) else
  match updateSpec lib a.spec req with
  | .panicked => (a, .panicked)
  | .rejected e spec => ({ a with spec := spec }, .fail ⟨e, 500⟩)
  | .ok spec => ({ a with spec := spec, interruptClosed := false }, .ok spec)

theorem EventStream.update_spec {a a' : EventStream} {req : StreamInfo} {settles : Bool}
    {r : Outcome StreamInfo} (hu : a.update lib req settles = (a', r)) :
    a'.stopped = a.stopped ∧
      ((∃ s, r = .ok s ∧ a'.spec = s ∧ updateSpec lib a.spec req = .ok s) ∨
        (∃ e, r = .fail ⟨e, 500⟩ ∧ updateSpec lib a.spec req = .rejected e a'.spec) ∨
        ((r = .panicked ∨ r = .hung) ∧ a'.spec = a.spec)) := by
  unfold EventStream.update at hu
  split at hu
  · cases hu; exact ⟨rfl, .inr (.inr ⟨.inl rfl, rfl⟩)⟩
  split at hu
  · cases hu; exact ⟨rfl, .inr (.inr ⟨.inr rfl, rfl⟩)⟩
  dsimp only at hu
  split at hu <;> rename_i hs <;> cases hu
  · exact ⟨rfl, .inr (.inr ⟨.inl rfl, rfl⟩)⟩
  · exact ⟨rfl, .inr (.inl ⟨_, rfl, hs⟩)⟩
  · exact ⟨rfl, .inl ⟨_, rfl, rfl, hs⟩⟩

def updateStream (m : Manager) (id : String) (body : Option StreamInfo) (settles : Bool)
    (dbOk : String → Bool) : Manager × Outcome StreamInfo :=
  match m.streams.lookup id with
  | none => (m, .fail ⟨.eventStreamsStreamNotFound id, 404⟩)
  | some a =>
    match body with
    | none => (m, .fail ⟨.restGatewayEventStreamInvalid, 400⟩)
    | some req =>
      let (a, r) := a.update lib req settles
      let m := { m with streams := m.streams.insert id a }
      match r with
      | .ok spec => persistStream m spec (dbOk spec.id) spec
      | r => (m, r)

def suspendStream (m : Manager) (id : String) (dbOk : String → Bool) :
    Manager × Outcome (List (String × String)) :=
  match m.streams.lookup id with
  | none => (m, .fail ⟨.eventStreamsStreamNotFound id, 404⟩)
  | some a =>
    let a := { a with spec := { a.spec with suspended := true } }
    persistStream { m with streams := m.streams.insert id a } a.spec (dbOk a.spec.id)
      [("id", id), ("suspended", "true")]

/-- `resume` refuses unless the poller and processor have finished (`drained`); it then starts
them with a fresh interrupt. -/
def resumeStream (m : Manager) (id : String) (drained : Bool) (dbOk : String → Bool) :
    Manager × Outcome (List (String × String)) :=
  match m.streams.lookup id with
  | none => (m, .fail ⟨.eventStreamsStreamNotFound id, 404⟩)
  | some a =>
    if !drained then (m, .fail ⟨.eventStreamsWebhookResumeActive a.spec.suspended, 500⟩) else
    let a := { a with spec := { a.spec with suspended := false }, interruptClosed := false }
    persistStream { m with streams := m.streams.insert id a } a.spec (dbOk a.spec.id)
      [("id", id), ("resumed", "true")]

/-- Modelled from the spec: `newSubscription` and `restoreSubscription` are not in the source.
The stream check follows the construction clause of §4.2 (the stream must exist), not §4.1's
remark that the manager does not verify it; `AddSubscription` answers 404 when it fails. The
registry invariants of `Registry` and `Links` (every subscription names a registered stream)
rest on this check. -/
def newSubscription (streams : AList fun _ : String => EventStream) (info : SubscriptionInfo) :
    Except Err Subscription :=
  if info.channelId = "" then .error (.missingParameter "channel")
  else if info.stream ∈ streams then .ok ⟨info, false⟩
  else .error (.eventStreamsStreamNotFound info.stream)

def storeSubscription (db : Store) (info : SubscriptionInfo) (ok : Bool) : Except Err Store :=
  if ok then .ok (db.insert info.id (.subscription info)) else .error .eventStreamsSubscribeStoreFailed

@[simp] theorem storeSubscription_true (db : Store) (info : SubscriptionInfo) :
    storeSubscription db info true = .ok (db.insert info.id (.subscription info)) := rfl

theorem newSubscription_ok {streams : AList fun _ : String => EventStream} {info : SubscriptionInfo}
    {sub : Subscription} (h : newSubscription streams info = .ok sub) :
    sub = ⟨info, false⟩ ∧ info.channelId ≠ "" ∧ info.stream ∈ streams := by
  unfold newSubscription at h
  split_ifs at h with c b
  cases h
  exact ⟨rfl, c, b⟩

def addSubscription (m : Manager) (body : Option SubscriptionInfo) (uuid now : String)
    (dbOk : String → Bool) : Manager × Outcome SubscriptionInfo :=
  match body with
  | none => (m, .fail ⟨.restGatewaySubscriptionInvalid, 400⟩)
  | some spec =>
    if spec.channelId = "" then (m, .fail ⟨.missingParameter "channel", 400⟩) else
    if spec.stream = "" then (m, .fail ⟨.missingParameter "stream", 400⟩) else
    let id := subIDPrefix ++ uuid
    let spec := { spec with
      createdISO8601 := now
      id := id
      path := subPathPrefix ++ "/" ++ id
      fromBlock := if spec.fromBlock = "" then fromBlockNewest else spec.fromBlock }
    match newSubscription m.streams spec with
    | .error e => (m, .fail ⟨e, 404⟩)
    | .ok sub =>
      let m := { m with subscriptions := m.subscriptions.insert sub.info.id sub }
      match storeSubscription m.db sub.info (dbOk sub.info.id) with
      | .error e => (m, .fail ⟨e, 500⟩)
      | .ok db => ({ m with db := db }, .ok sub.info)

/-- Writes the new `fromBlock` into the registered subscription, stores it, and only then
asks the poller for a reset. -/
def resetSubscription (m : Manager) (key : String) (sub : Subscription) (initialBlock : String)
    (ok : Bool) : Manager × Option Err :=
  let info := { sub.info with fromBlock :=
    if initialBlock = "" ∨ initialBlock = fromBlockNewest then fromBlockNewest else initialBlock }
  let m := { m with subscriptions := m.subscriptions.insert key { sub with info := info } }
  match storeSubscription m.db info ok with
  | .error e => (m, some e)
  | .ok db =>
    let sub := { sub with info := info, resetRequested := true }
    ({ m with db := db, subscriptions := m.subscriptions.insert key sub }, none)

def resetSubscriptionREST (m : Manager) (id : String) (body : Option String)
    (dbOk : String → Bool) : Manager × Outcome (List (String × String)) :=
  match m.subscriptions.lookup id with
  | none => (m, .fail ⟨.eventStreamsSubscriptionNotFound id, 404⟩)
  | some sub =>
    match body with
    | none => (m, .fail ⟨.resetBodyInvalid, 400⟩)
    | some initialBlock =>
      match resetSubscription m id sub initialBlock (dbOk sub.info.id) with
      | (m, some e) => (m, .fail ⟨e, 500⟩)
      | (m, none) => (m, .ok [("id", sub.info.id), ("reset", "true")])

def deleteSubscription (m : Manager) (sub : Subscription) (ok : Bool) : Manager × Option Err :=
  let m := { m with subscriptions := m.subscriptions.erase sub.info.id }
  if ok then ({ m with db := m.db.erase sub.info.id }, none) else (m, some .storeFailed)

@[simp] theorem deleteSubscription_true (m : Manager) (sub : Subscription) :
    deleteSubscription m sub true = ({ m with
      subscriptions := m.subscriptions.erase sub.info.id
      db := m.db.erase sub.info.id }, none) := rfl

def deleteSubscriptionREST (m : Manager) (id : String) (dbOk : String → Bool) :
    Manager × Outcome (List (String × String)) :=
  match m.subscriptions.lookup id with
  | none => (m, .fail ⟨.eventStreamsSubscriptionNotFound id, 404⟩)
  | some sub =>
    match deleteSubscription m sub (dbOk sub.info.id) with
    | (m, some e) => (m, .fail ⟨e, 500⟩)
    | (m, none) => (m, .ok [("id", sub.info.id), ("deleted", "true")])

/-- The cascade of `DeleteStream` over the registry as it was when the loop began; failures
are logged and the loop goes on. -/
def deleteSubscriptionsOf (streamID : String) (dbOk : String → Bool) :
    List (Sigma fun _ : String => Subscription) → Manager → Manager
  | [], m => m
  | s :: rest, m =>
    deleteSubscriptionsOf streamID dbOk rest
      (if s.2.info.stream = streamID then (deleteSubscription m s.2 (dbOk s.2.info.id)).1 else m)

def deleteStream (m : Manager) (id : String) (dbOk : String → Bool) :
    Manager × Outcome (List (String × String)) :=
  match m.streams.lookup id with
  | none => (m, .fail ⟨.eventStreamsStreamNotFound id, 404⟩)
  | some a =>
    let m := deleteSubscriptionsOf a.spec.id dbOk m.subscriptions.entries m
    let m := { m with streams := m.streams.erase a.spec.id }
    if a.stopped then (m, .panicked) else
    if !dbOk a.spec.id then (m, .fail ⟨.storeFailed, 500⟩) else
    let m := { m with db := m.db.erase a.spec.id }
    let cp := checkpointIDPrefix ++ a.spec.id
    let m := if dbOk cp then { m with db := m.db.erase cp } else m
    (m, .ok [("id", id), ("deleted", "true")])

def stopAll : List (Sigma fun _ : String => EventStream) → Manager → Manager × Bool
  | [], m => (m, false)
  | s :: rest, m =>
    if s.2.stopped then (m, true)
    else stopAll rest { m with streams := m.streams.insert s.1 { s.2 with stopped := true } }

/-- `Close`: the `closed` flag guards only the store's own close. -/
def close (m : Manager) : Manager × Outcome Unit :=
  match stopAll m.streams.entries m with
  | (m, true) => (m, .panicked)
  | (m, false) => ({ m with closed := true }, .ok ())

def addBinding {γ : Type} (acc : AList fun _ : String => γ) : Option (String × γ) →
    AList fun _ : String => γ
  | some p => acc.insert p.1 p.2
  | none => acc

def recoverInto {γ : Type} (f : String → Record → Option (String × γ)) (db : Store) :
    AList fun _ : String => γ :=
  db.foldl (fun acc k v => addBinding acc (f k v)) ∅

def recoverStream (k : String) (v : Record) : Option (String × EventStream) :=
  if hasPrefix k streamIDPrefix then
    match v.asStream with
    | none => none
    | some info =>
      match newEventStream lib info with
      | .error _ => none
      | .ok spec => some (info.id, .started spec)
  else none

def recoverSubscription (streams : AList fun _ : String => EventStream) (k : String) (v : Record) :
    Option (String × Subscription) :=
  if hasPrefix k subIDPrefix then
    match v.asSubscription with
    | none => none
    | some info =>
      match newSubscription streams info with
      | .error _ => none
      | .ok sub => some (info.id, sub)
  else none

def recoverStreams (db : Store) : AList fun _ : String => EventStream :=
  recoverInto (recoverStream lib) db

def recoverSubscriptions (streams : AList fun _ : String => EventStream) (db : Store) :
    AList fun _ : String => Subscription :=
  recoverInto (recoverSubscription streams) db

def init (db : Store) : Manager :=
  { streams := recoverStreams lib db,
    subscriptions := recoverSubscriptions (recoverStreams lib db) db,
    db := db, closed := false }

def Outcome.status {α : Type} : Outcome α → Outcome Unit
  | .ok _ => .ok ()
  | .fail e => .fail e
  | .panicked => .panicked
  | .hung => .hung

/-- A manager operation with the inputs the goroutines decide; `init` is a restart of the
process, whose fresh manager recovers from the same store. -/
inductive Op where
  | addStream (body : Option StreamInfo) (uuid now : String)
  | updateStream (id : String) (body : Option StreamInfo) (settles : Bool)
  | suspendStream (id : String)
  | resumeStream (id : String) (drained : Bool)
  | deleteStream (id : String)
  | addSubscription (body : Option SubscriptionInfo) (uuid now : String)
  | resetSubscription (id : String) (body : Option String)
  | deleteSubscription (id : String)
  | close
  | init

/-- One operation, with `dbOk k` saying whether the store call on key `k` succeeds. -/
def Manager.run (m : Manager) (dbOk : String → Bool) : Op → Manager × Outcome Unit
  | .addStream body uuid now =>
    let r := addStream lib m body uuid now dbOk; (r.1, r.2.status)
  | .updateStream id body settles =>
    let r := updateStream lib m id body settles dbOk; (r.1, r.2.status)
  | .suspendStream id => let r := suspendStream m id dbOk; (r.1, r.2.status)
  | .resumeStream id drained => let r := resumeStream m id drained dbOk; (r.1, r.2.status)
  | .deleteStream id => let r := deleteStream m id dbOk; (r.1, r.2.status)
  | .addSubscription body uuid now =>
    let r := addSubscription m body uuid now dbOk; (r.1, r.2.status)
  | .resetSubscription id body => let r := resetSubscriptionREST m id body dbOk; (r.1, r.2.status)
  | .deleteSubscription id => let r := deleteSubscriptionREST m id dbOk; (r.1, r.2.status)
  | .close => close m
  | .init => (init lib m.db, .ok ())

def Manager.empty : Manager := ⟨∅, ∅, ∅, false⟩

/-- The managers a deployment can reach from an empty store. -/
inductive Reachable : Manager → Prop where
  | empty : Reachable .empty
  | step {m : Manager} (op : Op) (dbOk : String → Bool) :
      Reachable m → Reachable (m.run lib dbOk op).1

end

end FabconnectEvents
