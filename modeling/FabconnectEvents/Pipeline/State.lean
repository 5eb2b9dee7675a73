import FabconnectEvents.StreamInfo

/-!
The goroutines of one event stream and the state they share. The poller, the dispatcher and
the processor (with its `processBatch` and `performActionWithRetry` frames) are records with a
program counter. `updateInterrupt` and `updateWG` are named by generation: each
`startEventHandlers` makes the next one, a select reads the interrupt when it is entered, and a
deferred `updateWG.Done()` reads the WaitGroup when the goroutine starts. Counters are
unbounded `Nat`; a WaitGroup counter is an `Int`, since going negative is a panic.
The subscription and its ledger listener (`subscription.go`) are not in the source: their
fields and operations are modelled from the spec.
-/
namespace FabconnectEvents

/-- An event of a subscription: ledger order is the order of `(block, index)`. -/
structure Ev where
  sub : Nat
  block : Nat
  index : Nat
  deriving DecidableEq, Repr

/-- Modelled from the spec: the fields of a subscription the poller and the callbacks use.
`fromBlock = none` is `newest`; `registered` is membership of the manager's registry. -/
structure Sub where
  id : Nat
  registered : Bool
  fromBlock : Option Nat
  filterStale : Bool
  resetRequested : Bool
  deleting : Bool
  blockHWM : Nat
  deriving DecidableEq, Repr

/-- Modelled from the spec: a listener `restartFilter` registered for `sub` from block
`start`; it has delivered `sent` of the subscription's events so far, one callback at a
time. -/
structure Listener where
  id : Nat
  sub : Nat
  start : Nat
  sent : Nat
  deriving DecidableEq, Repr

inductive ActionPc where
  | loop
  | wait (intr : Nat)
  | call
  | leave
  deriving DecidableEq, Repr

/-- A call of `performActionWithRetry`: `failed` is `err != nil` after the last attempt. -/
structure ActionFrame where
  wg : Nat
  attempt : Nat
  complete : Bool
  failed : Bool
  pc : ActionPc
  deriving DecidableEq, Repr

inductive BatchPc where
  | loop
  | wait (intr : Nat)
  | action (f : ActionFrame)
  | finish
  | callbacks
  | leave
  deriving DecidableEq, Repr

structure BatchFrame where
  wg : Nat
  events : List Ev
  attempt : Nat
  processed : Bool
  pc : BatchPc
  deriving DecidableEq, Repr

/-- `batchProcessor`; `intrWait` holds `batchCond.L` while it waits on the interrupt. -/
inductive Processor where
  | top
  | condWait
  | intrWait (intr : Nat)
  | done
  | batch (f : BatchFrame)
  deriving DecidableEq, Repr

inductive DispatcherPc where
  | top
  | wait (intr : Nat)
  | got (timeout : Bool)
  deriving DecidableEq, Repr

structure Dispatcher where
  wg : Nat
  batch : List Ev
  pc : DispatcherPc
  deriving DecidableEq, Repr

inductive PollerPc where
  | top
  | subs (rest : List Nat)
  | restart (sub height : Nat) (rest : List Nat)
  | record
  | select
  | wait (intr : Nat)
  | stale
  | done
  | leave
  deriving DecidableEq, Repr

/-- `eventPoller` with its checkpoint map (`none` until loaded) and this round's
subscriptions. -/
structure Poller where
  wg : Nat
  checkpoint : Option (List (Nat × Nat))
  snapshot : List Nat
  pc : PollerPc
  deriving DecidableEq, Repr

/-- One event stream. `gen` names the current `updateInterrupt` and `updateWG`; `updates`
are the `update` calls blocked in `updateWG.Wait()`; `pending` are the callbacks blocked in
`handleEvent`, by listener. The last five fields record what happened: the events the
dispatchers received, the batches passed to `attemptBatch`, the events of acknowledged and of
skipped batches, and the events dropped with a batch that was neither. -/
structure St where
  spec : StreamInfo
  stopped : Bool
  processorDone : Bool
  pollerDone : Bool
  updateInProgress : Bool
  inFlight : Nat
  batchQueue : List (List Ev)
  batchCount : Nat
  gen : Nat
  closed : List Nat
  counter : Nat → Int
  channelClosed : Bool
  panicked : Bool
  pollers : List Poller
  dispatchers : List Dispatcher
  processors : List Processor
  updates : List Nat
  subs : List Sub
  listeners : List Listener
  listenerIds : Nat
  pending : List (Nat × Ev)
  stored : List (Nat × Nat)
  handed : List Ev
  attempts : List (List Ev)
  acked : List Ev
  skipped : List Ev
  leaked : Nat

namespace St

def suspendOrStop (s : St) : Bool := s.spec.suspended || s.stopped

def isBlocked (s : St) : Bool := decide (s.spec.batchSize ≤ s.inFlight)

def holdsLock : Processor → Bool
  | .intrWait _ => true
  | _ => false

/-- `batchCond.L` is free: no processor holds it while waiting on the interrupt. -/
def lockFree (s : St) : Bool := !s.processors.any holdsLock

def broadcast (s : St) : St :=
  { s with processors := s.processors.map fun p => if p = .condWait then .top else p }

def add (s : St) (g : Nat) (d : Int) : St :=
  { s with counter := fun x => if x = g then s.counter x + d else s.counter x }

/-- `updateWG.Done()` on generation `g`: a counter below zero panics. -/
def done (s : St) (g : Nat) : St :=
  if s.counter g - 1 < 0 then { s.add g (-1) with panicked := true } else s.add g (-1)

theorem done_eq (s : St) (g : Nat) :
    ∃ counter panicked, s.done g = { s with counter := counter, panicked := panicked } := by
  unfold done; split
  · exact ⟨_, _, rfl⟩
  · exact ⟨_, _, rfl⟩

section
variable (s : St) (g : Nat)

@[simp] theorem done_spec : (s.done g).spec = s.spec := by unfold done; split <;> rfl
@[simp] theorem done_inFlight : (s.done g).inFlight = s.inFlight := by unfold done; split <;> rfl
@[simp] theorem done_leaked : (s.done g).leaked = s.leaked := by unfold done; split <;> rfl
@[simp] theorem done_batchQueue : (s.done g).batchQueue = s.batchQueue := by unfold done; split <;> rfl
@[simp] theorem done_gen : (s.done g).gen = s.gen := by unfold done; split <;> rfl
@[simp] theorem done_updates : (s.done g).updates = s.updates := by unfold done; split <;> rfl
@[simp] theorem done_pollers : (s.done g).pollers = s.pollers := by unfold done; split <;> rfl
@[simp] theorem done_dispatchers : (s.done g).dispatchers = s.dispatchers := by unfold done; split <;> rfl
@[simp] theorem done_processors : (s.done g).processors = s.processors := by unfold done; split <;> rfl
@[simp] theorem done_subs : (s.done g).subs = s.subs := by unfold done; split <;> rfl
@[simp] theorem done_listeners : (s.done g).listeners = s.listeners := by unfold done; split <;> rfl
@[simp] theorem done_stored : (s.done g).stored = s.stored := by unfold done; split <;> rfl
@[simp] theorem done_handed : (s.done g).handed = s.handed := by unfold done; split <;> rfl
@[simp] theorem done_skipped : (s.done g).skipped = s.skipped := by unfold done; split <;> rfl
@[simp] theorem done_stopped : (s.done g).stopped = s.stopped := by unfold done; split <;> rfl
@[simp] theorem done_attempts : (s.done g).attempts = s.attempts := by unfold done; split <;> rfl
@[simp] theorem done_closed : (s.done g).closed = s.closed := by unfold done; split <;> rfl
@[simp] theorem done_acked : (s.done g).acked = s.acked := by unfold done; split <;> rfl
@[simp] theorem done_pending : (s.done g).pending = s.pending := by unfold done; split <;> rfl

end

def startEventHandlers (s : St) (resume : Bool) : St :=
  let g := s.gen + 1
  { s with
    gen := g
    counter := fun x => if x = g then (if resume then 2 else 3) else s.counter x
    pollers := s.pollers ++ [⟨g, none, [], .top⟩]
    processors := s.processors ++ [.top]
    dispatchers := if resume then s.dispatchers else s.dispatchers ++ [⟨g, [], .top⟩] }

/-- `subscriptionsForStream`. -/
def registered (s : St) : List Nat := (s.subs.filter (·.registered)).map (·.id)

def sub? (s : St) (id : Nat) : Option Sub := s.subs.find? (·.id = id)

def setSub (s : St) (id : Nat) (f : Sub → Sub) : St :=
  { s with subs := s.subs.map fun x => if x.id = id then f x else x }

/-- Modelled from the spec: `unsubscribe(deleting)` unregisters the listener, marks the filter
stale, sets `deleting` when asked and clears `resetRequested`. -/
def unsubscribe (s : St) (id : Nat) (deleting : Bool) : St :=
  { s.setSub id (fun x => { x with
      filterStale := true
      deleting := x.deleting || deleting
      resetRequested := false }) with
    listeners := s.listeners.filter (·.sub ≠ id) }

/-- Modelled from the spec: `restartFilter(blockHeight)` registers a listener from that block
in place of the old one and clears `filterStale`. -/
def restartFilter (s : St) (id height : Nat) : St :=
  { s.setSub id (fun x => { x with filterStale := false }) with
    listeners := s.listeners.filter (·.sub ≠ id) ++ [⟨s.listenerIds, id, height, 0⟩]
    listenerIds := s.listenerIds + 1 }

def markAllSubscriptionsStale (s : St) : St :=
  { s with subs := s.subs.map fun x => if x.registered then { x with filterStale := true } else x }

/-- Modelled from the spec: `batchComplete` on an event sets its subscription's high-water
mark to the block after it. -/
def batchComplete (s : St) (e : Ev) : St := s.setSub e.sub fun x => { x with blockHWM := e.block + 1 }

def lastPerSub : List Ev → List Ev
  | [] => []
  | e :: rest => if rest.any (·.sub = e.sub) then lastPerSub rest else e :: lastPerSub rest

def empty (spec : StreamInfo) (subs : List Sub) (stored : List (Nat × Nat)) : St :=
  { spec := spec, stopped := false, processorDone := false, pollerDone := false,
    updateInProgress := false, inFlight := 0, batchQueue := [], batchCount := 0, gen := 0,
    closed := [], counter := fun _ => 0, channelClosed := false, panicked := false,
    pollers := [], dispatchers := [], processors := [], updates := [], subs := subs,
    listeners := [], listenerIds := 0, pending := [], stored := stored, handed := [],
    attempts := [], acked := [], skipped := [], leaked := 0 }

def start (spec : StreamInfo) (subs : List Sub) (stored : List (Nat × Nat)) : St :=
  (empty spec subs stored).startEventHandlers false

end St

end FabconnectEvents
