import FabconnectEvents.Pipeline.State
import FabconnectEvents.Settings

/-!
One step of one goroutine, from a blocking point to the next, and the REST calls and ledger
callbacks that act on the stream. A step that cannot happen yet (a select with no ready case,
a lock that is held, a `Wait` on a counter above zero) is `none`.
-/
namespace FabconnectEvents

/-- What the world decides at a step: a call to the store, the ledger or the sink succeeds
(`next`) or fails (`failElapsed`: the sink failed after the retry timeout), which case of a
select fires, or the height the ledger reports. -/
inductive Env where
  | next
  | fail
  | failElapsed
  | interrupt
  | timer
  | height (h : Nat)
  deriving DecidableEq, Repr

def cpGet (m : List (Nat × Nat)) (k : Nat) : Nat := (m.lookup k).getD 0

def cpSet (m : List (Nat × Nat)) (k v : Nat) : List (Nat × Nat) := (k, v) :: m.filter (·.1 ≠ k)

def cpErase (m : List (Nat × Nat)) (k : Nat) : List (Nat × Nat) := m.filter (·.1 ≠ k)

namespace St

/-- The loop of `eventPoller` that writes each subscription's high-water mark into the
checkpoint; the flag says whether an entry was zero or changed. -/
def recordCheckpoint (s : St) : List Nat → List (Nat × Nat) → List (Nat × Nat) × Bool
  | [], m => (m, false)
  | id :: rest, m =>
    let hwm := ((s.sub? id).map (·.blockHWM)).getD 0
    let r := s.recordCheckpoint rest (cpSet m id hwm)
    (r.1, r.2 || cpGet m id == 0 || cpGet m id != hwm)

/-- At the head of the poller's loop over one subscription: a requested reset unsubscribes
and drops the subscription's checkpoint entry. -/
def pollReset (s : St) (p : Poller) (id : Nat) : St × Poller :=
  match s.sub? id with
  | some x =>
    if x.resetRequested then
      (s.unsubscribe id false, { p with checkpoint := p.checkpoint.map (cpErase · id) })
    else (s, p)
  | none => (s, p)

/-- A stale filter of a subscription that is not being deleted restarts from its checkpoint
entry, or from the block `setInitialBlockHeight` gives. -/
def pollStale (s : St) (p : Poller) (id : Nat) (rest : List Nat) (e : Env) : Option (St × Poller) :=
  match s.sub? id with
  | some x =>
    if x.filterStale && !x.deleting then
      if cpGet (p.checkpoint.getD []) id > 0 then
        if e = .next then
          some (s.setSub id (fun y => { y with blockHWM := cpGet (p.checkpoint.getD []) id }),
            { p with pc := .restart id (cpGet (p.checkpoint.getD []) id) rest })
        else none
      else match x.fromBlock, e with
        | some b, .next => some (s, { p with pc := .restart id b rest })
        | none, .height h => some (s, { p with pc := .restart id h rest })
        | none, .fail => some (s, { p with pc := .subs rest })
        | _, _ => none
    else if e = .next then some (s, { p with pc := .subs rest }) else none
  | none => if e = .next then some (s, { p with pc := .subs rest }) else none

/-- `loadCheckpoint` the first time round (a missing record is an empty map), and whether
it failed. -/
def loadCheckpoint (s : St) (p : Poller) : Env → Option (Option (List (Nat × Nat)) × Bool)
  | .next => some (some (p.checkpoint.getD s.stored), false)
  | .fail => if p.checkpoint.isNone then some (none, true) else none
  | _ => none

def eventPollerStep (s : St) (p : Poller) (e : Env) : Option (St × Option Poller) :=
    match p.pc, e with
    | .top, e =>
      if s.suspendOrStop then
        if e = .next then some (s, some { p with pc := .stale }) else none
      else match s.loadCheckpoint p e with
        | some c =>
          if !c.2 && !s.lockFree then none
          else some (s, some { p with
            checkpoint := c.1
            snapshot := s.registered
            pc := if !c.2 && !s.isBlocked then .subs s.registered else .record })
        | none => none
    | .subs [], .next => some (s, some { p with pc := .record })
    | .subs (id :: rest), e =>
      match (s.pollReset p id).1.pollStale (s.pollReset p id).2 id rest e with
      | some r => some (r.1, some r.2)
      | none => none
    | .restart id h rest, .next => some (s.restartFilter id h, some { p with pc := .subs rest })
    | .restart _ _ rest, .fail => some (s, some { p with pc := .subs rest })
    | .record, e =>
      match p.checkpoint with
      | none => if e = .next then some (s, some { p with pc := .select }) else none
      | some m =>
        let r := s.recordCheckpoint p.snapshot m
        match e with
        | .next => some (if r.2 then { s with stored := r.1 } else s,
            some { p with checkpoint := some r.1, pc := .select })
        | .fail => if r.2 then some (s, some { p with checkpoint := some r.1, pc := .select }) else none
        | _ => none
    | .select, .next => some (s, some { p with pc := .wait s.gen })
    | .wait intr, .interrupt => if intr ∈ s.closed then some (s, some { p with pc := .stale }) else none
    | .wait _, .timer => some (s, some { p with pc := .top })
    | .stale, .next => some (s.markAllSubscriptionsStale, some { p with pc := .done })
    | .done, .next => some ({ s with pollerDone := true }, some { p with pc := .leave })
    | .leave, .next => some (s.done p.wg, none)
    | _, _ => none

/-- The moves of `pollStale` for subscription `k`. -/
inductive StaleMove (s : St) (p : Poller) (k : Nat) (rest : List Nat) : St → Poller → Prop where
  | checkpoint (x : Sub) : s.sub? k = some x → x.filterStale = true → x.deleting = false →
      0 < cpGet (p.checkpoint.getD []) k →
      StaleMove s p k rest (s.setSub k fun y => { y with blockHWM := cpGet (p.checkpoint.getD []) k })
        { p with pc := .restart k (cpGet (p.checkpoint.getD []) k) rest }
  /-- Without an entry it restarts from `fromBlock`, or for `newest` from the ledger's height. -/
  | initial (x : Sub) (b : Nat) : s.sub? k = some x → x.filterStale = true → x.deleting = false →
      cpGet (p.checkpoint.getD []) k = 0 → x.fromBlock = some b ∨ x.fromBlock = none →
      StaleMove s p k rest s { p with pc := .restart k b rest }
  | next : StaleMove s p k rest s { p with pc := .subs rest }

/-- The moves of `eventPoller`, one constructor per way from a blocking point to the next. -/
inductive PollerMove (s : St) (p : Poller) : St → Option Poller → Prop where
  | suspended : p.pc = .top → s.suspendOrStop = true → PollerMove s p s (some { p with pc := .stale })
  | load (c : Option (List (Nat × Nat)) × Bool) : p.pc = .top → s.suspendOrStop = false →
      (c.2 = false → s.lockFree = true) →
      c = (some (p.checkpoint.getD s.stored), false) ∨ p.checkpoint = none ∧ c = (none, true) →
      PollerMove s p s (some { p with
        checkpoint := c.1
        snapshot := s.registered
        pc := if !c.2 && !s.isBlocked then .subs s.registered else .record })
  | subsDone : p.pc = .subs [] → PollerMove s p s (some { p with pc := .record })
  /-- One subscription: its reset, then `pollStale`. -/
  | sub (k : Nat) (rest : List Nat) (s' : St) (p' : Poller) : p.pc = .subs (k :: rest) →
      StaleMove (s.pollReset p k).1 (s.pollReset p k).2 k rest s' p' → PollerMove s p s' (some p')
  | restart (k h : Nat) (rest : List Nat) : p.pc = .restart k h rest →
      PollerMove s p (s.restartFilter k h) (some { p with pc := .subs rest })
  | restartFailed (k h : Nat) (rest : List Nat) : p.pc = .restart k h rest →
      PollerMove s p s (some { p with pc := .subs rest })
  | recordSkipped : p.pc = .record → p.checkpoint = none → PollerMove s p s (some { p with pc := .select })
  | record (m : List (Nat × Nat)) : p.pc = .record → p.checkpoint = some m →
      PollerMove s p
        (if (s.recordCheckpoint p.snapshot m).2 then { s with stored := (s.recordCheckpoint p.snapshot m).1 }
          else s)
        (some { p with checkpoint := some (s.recordCheckpoint p.snapshot m).1, pc := .select })
  | recordFailed (m : List (Nat × Nat)) : p.pc = .record → p.checkpoint = some m →
      (s.recordCheckpoint p.snapshot m).2 = true →
      PollerMove s p s (some { p with checkpoint := some (s.recordCheckpoint p.snapshot m).1, pc := .select })
  | select : p.pc = .select → PollerMove s p s (some { p with pc := .wait s.gen })
  | interrupt (intr : Nat) : p.pc = .wait intr → intr ∈ s.closed →
      PollerMove s p s (some { p with pc := .stale })
  | timer (intr : Nat) : p.pc = .wait intr → PollerMove s p s (some { p with pc := .top })
  | stale : p.pc = .stale → PollerMove s p s.markAllSubscriptionsStale (some { p with pc := .done })
  | done : p.pc = .done → PollerMove s p { s with pollerDone := true } (some { p with pc := .leave })
  | leave : p.pc = .leave → PollerMove s p (s.done p.wg) none

section
variable {s s' : St} {p p' : Poller} {e : Env}

theorem pollStale_move {k : Nat} {rest : List Nat} (h : s.pollStale p k rest e = some (s', p')) :
    StaleMove s p k rest s' p' := by
  unfold pollStale at h
  split at h
  case h_1 x hx =>
    split at h
    case isTrue hl =>
      simp only [Bool.and_eq_true, Bool.not_eq_true'] at hl
      split at h
      case isTrue hc => split at h <;> cases h; exact .checkpoint x hx hl.1 hl.2 hc
      case isFalse hc =>
        have hc : cpGet (p.checkpoint.getD []) k = 0 := by omega
        split at h <;> cases h
        · exact .initial x _ hx hl.1 hl.2 hc (.inl ‹_›)
        · exact .initial x _ hx hl.1 hl.2 hc (.inr ‹_›)
        · exact .next
    case isFalse => split at h <;> cases h; exact .next
  case h_2 => split at h <;> cases h; exact .next

theorem loadCheckpoint_eq {c : Option (List (Nat × Nat)) × Bool} (h : s.loadCheckpoint p e = some c) :
    c = (some (p.checkpoint.getD s.stored), false) ∨ p.checkpoint = none ∧ c = (none, true) := by
  unfold loadCheckpoint at h
  split at h
  · cases h; exact .inl rfl
  · split at h <;> cases h
    exact .inr ⟨Option.isNone_iff_eq_none.mp ‹_›, rfl⟩
  · cases h

theorem eventPollerStep_move {q : Option Poller} (h : s.eventPollerStep p e = some (s', q)) :
    PollerMove s p s' q := by
  unfold eventPollerStep at h
  split at h
  case h_1 hpc =>
    split at h
    · split at h <;> cases h; exact .suspended hpc ‹_›
    · rename_i hs
      split at h <;> try cases h
      rename_i c hc
      split at h; · cases h
      rename_i hl
      cases h
      exact .load _ hpc (by simpa using hs) (fun h2 => by simpa [h2] using hl) (loadCheckpoint_eq hc)
  case h_2 hpc => cases h; exact .subsDone hpc
  case h_3 k rest hpc => split at h <;> cases h; exact .sub k rest _ _ hpc (pollStale_move ‹_›)
  case h_4 k ht rest hpc => cases h; exact .restart k ht rest hpc
  case h_5 k ht rest hpc => cases h; exact .restartFailed k ht rest hpc
  case h_6 hpc =>
    split at h
    · split at h <;> cases h; exact .recordSkipped hpc ‹_›
    · rename_i m hm
      dsimp only at h
      split at h
      · cases h; exact .record m hpc hm
      · split at h <;> cases h; exact .recordFailed m hpc hm ‹_›
      · cases h
  case h_7 hpc => cases h; exact .select hpc
  case h_8 intr hpc => split at h <;> cases h; exact .interrupt intr hpc ‹_›
  case h_9 intr hpc => cases h; exact .timer intr hpc
  case h_10 hpc => cases h; exact .stale hpc
  case h_11 hpc => cases h; exact .done hpc
  case h_12 hpc => cases h; exact .leave hpc
  case h_13 => cases h

theorem pollReset_writes (k : Nat) :
    (∃ subs listeners, (s.pollReset p k).1 = { s with subs := subs, listeners := listeners }) ∧
      (s.pollReset p k).2.wg = p.wg ∧ (s.pollReset p k).2.pc = p.pc := by
  unfold pollReset
  split
  · split
    · exact ⟨⟨_, _, rfl⟩, rfl, rfl⟩
    · exact ⟨⟨_, _, rfl⟩, rfl, rfl⟩
  · exact ⟨⟨_, _, rfl⟩, rfl, rfl⟩

theorem StaleMove.writes {k : Nat} {rest : List Nat} (m : StaleMove s p k rest s' p') :
    (∃ subs, s' = { s with subs := subs }) ∧ p'.wg = p.wg := by
  cases m <;> exact ⟨⟨_, rfl⟩, rfl⟩

theorem PollerMove.writes {q : Option Poller} (m : PollerMove s p s' q) :
    (∃ subs listeners ids stored fin, s' = { s with
        subs := subs, listeners := listeners, listenerIds := ids, stored := stored, pollerDone := fin } ∧
      ∃ p', q = some p' ∧ p'.wg = p.wg) ∨
      (s' = s.done p.wg ∧ q = none) := by
  cases m with
  | sub k rest s' p' _ m =>
    obtain ⟨⟨_, _, hs⟩, hw, -⟩ := @pollReset_writes s p k
    obtain ⟨⟨_, rfl⟩, hw'⟩ := m.writes
    exact .inl ⟨_, _, _, _, _, by rw [hs], _, rfl, hw'.trans hw⟩
  | record => split <;> exact .inl ⟨_, _, _, _, _, rfl, _, rfl, rfl⟩
  | leave => exact .inr ⟨rfl, rfl⟩
  | _ => exact .inl ⟨_, _, _, _, _, rfl, _, rfl, rfl⟩

end

/-- A dispatcher leaves its loop: the deferred `Done`, and the current batch is dropped. -/
def dispatcherExit (s : St) (d : Dispatcher) : St :=
  { s.done d.wg with leaked := s.leaked + d.batch.length }

def batchDispatcherStep (s : St) (d : Dispatcher) (e : Env) : Option (St × Option Dispatcher) :=
    match d.pc, e with
    | .top, .next => some (s, some { d with pc := .wait s.gen })
    | .wait _, .next =>
      if s.channelClosed then some (s.dispatcherExit d, none) else
      match s.pending with
      | [] => none
      | (_, ev) :: rest =>
        some ({ s with pending := rest, handed := s.handed ++ [ev] },
          some { d with batch := d.batch ++ [ev], pc := .got false })
    | .wait intr, .interrupt => if intr ∈ s.closed then some (s.dispatcherExit d, none) else none
    | .wait _, .timer => if d.batch ≠ [] then some (s, some { d with pc := .got true }) else none
    | .got timeout, .next =>
      if !s.lockFree then none
      else if timeout || d.batch.length == s.spec.batchSize then
        some ({ s with
            inFlight := if timeout then s.inFlight else s.inFlight + 1
            batchQueue := s.batchQueue ++ [d.batch] }.broadcast,
          some { d with batch := [], pc := .top })
      else some ({ s with inFlight := s.inFlight + 1 }, some { d with pc := .top })
    | _, _ => none

/-- The moves of `batchDispatcher`, one constructor per way through its loop. -/
inductive DispatcherMove (s : St) (d : Dispatcher) : St → Option Dispatcher → Prop where
  | select : d.pc = .top → DispatcherMove s d s (some { d with pc := .wait s.gen })
  | exit (intr : Nat) : d.pc = .wait intr → s.channelClosed = true ∨ intr ∈ s.closed →
      DispatcherMove s d (s.dispatcherExit d) none
  | receive (intr l : Nat) (ev : Ev) (rest : List (Nat × Ev)) : d.pc = .wait intr →
      s.pending = (l, ev) :: rest →
      DispatcherMove s d { s with pending := rest, handed := s.handed ++ [ev] }
        (some { d with batch := d.batch ++ [ev], pc := .got false })
  | timeout (intr : Nat) : d.pc = .wait intr → d.batch ≠ [] →
      DispatcherMove s d s (some { d with pc := .got true })
  | dispatch (timeout : Bool) : d.pc = .got timeout → s.lockFree = true →
      (timeout = true ∨ d.batch.length = s.spec.batchSize) →
      DispatcherMove s d
        { s with
          inFlight := if timeout then s.inFlight else s.inFlight + 1
          batchQueue := s.batchQueue ++ [d.batch] }.broadcast
        (some { d with batch := [], pc := .top })
  | count : d.pc = .got false → s.lockFree = true → d.batch.length ≠ s.spec.batchSize →
      DispatcherMove s d { s with inFlight := s.inFlight + 1 } (some { d with pc := .top })

theorem batchDispatcherStep_move {s s' : St} {d : Dispatcher} {e : Env} {q : Option Dispatcher}
    (h : s.batchDispatcherStep d e = some (s', q)) : DispatcherMove s d s' q := by
  unfold batchDispatcherStep at h
  split at h
  case h_1 hpc => cases h; exact .select hpc
  case h_2 intr hpc =>
    split at h
    · cases h; exact .exit intr hpc (.inl ‹_›)
    · split at h
      · cases h
      · cases h; exact .receive intr _ _ _ hpc ‹_›
  case h_3 intr hpc => split at h <;> cases h; exact .exit intr hpc (.inr ‹_›)
  case h_4 intr hpc => split at h <;> cases h; exact .timeout intr hpc ‹_›
  case h_5 timeout hpc =>
    split at h; · cases h
    rename_i hl
    simp only [Bool.not_eq_true', Bool.not_eq_false] at hl
    split at h <;> cases h <;> rename_i hb
    · exact .dispatch timeout hpc hl (by simpa using hb)
    · simp only [Bool.or_eq_true, beq_iff_eq, not_or, Bool.not_eq_true] at hb
      exact .count (hb.1 ▸ hpc) hl hb.2
  case h_6 => cases h

/-- Whether `endTime` can still lie ahead when the attempt after `attempt` earlier ones fails:
the backoff starts at `DefaultExponentialBackoffInitial`, one second, and doubles, so that
attempt ends more than `2^attempt - 1` seconds after `startTime`. -/
def beforeRetryEnd (spec : StreamInfo) (attempt : Nat) : Bool :=
  decide (((2 : Int) ^ attempt - 1) * second < duration spec.retryTimeoutSec second)

/-- `performActionWithRetry` from one blocking point to the next; `none` as the frame is its
return. A failed attempt leaves the loop running (`.fail`) only before `endTime`. -/
def performActionWithRetryStep (s : St) (events : List Ev) (a : ActionFrame) (e : Env) :
    Option (St × ActionFrame) :=
    match a.pc, e with
    | .loop, .next =>
      if s.suspendOrStop || a.complete then some (s, { a with pc := .leave })
      else if a.attempt > 0 then some (s, { a with pc := .wait s.gen })
      else some (s, { a with pc := .call })
    | .wait intr, .interrupt => if intr ∈ s.closed then some (s, { a with pc := .leave }) else none
    | .wait _, .timer => some (s, { a with pc := .call })
    | .call, e =>
      let pending := beforeRetryEnd s.spec a.attempt
      let s := { s with attempts := s.attempts ++ [events] }
      let a := { a with attempt := a.attempt + 1, pc := .loop }
      match e with
      | .next => some ({ s with acked := s.acked ++ events }, { a with failed := false, complete := true })
      | .fail => if pending then some (s, { a with failed := true, complete := false }) else none
      | .failElapsed => some (s, { a with failed := true, complete := true })
      | _ => none
    | _, _ => none

theorem performActionWithRetryStep_writes {s s' : St} {events : List Ev} {a a' : ActionFrame} {e : Env}
    (h : s.performActionWithRetryStep events a e = some (s', a')) :
    (∃ attempts acked, s' = { s with attempts := attempts, acked := acked }) ∧ a'.wg = a.wg := by
  unfold performActionWithRetryStep at h
  dsimp only at h
  repeat' split at h
  all_goals (cases h <;> exact ⟨⟨_, _, rfl⟩, rfl⟩)

def startAction (s : St) (f : BatchFrame) : St × BatchFrame :=
  (s.add s.gen 1, { f with attempt := f.attempt + 1, pc := .action ⟨s.gen, 0, false, false, .loop⟩ })

/-- `processBatch` from one blocking point to the next; `none` as the frame is its return. -/
def processBatchStep (s : St) (f : BatchFrame) (e : Env) : Option (St × Option BatchFrame) :=
    match f.pc, e with
    | .loop, .next =>
      if s.suspendOrStop || f.processed then some (s, some { f with pc := .finish })
      else if f.attempt > 0 then some (s, some { f with pc := .wait s.gen })
      else let r := s.startAction f; some (r.1, some r.2)
    | .wait intr, .interrupt =>
      if intr ∈ s.closed then
        some ({ s with leaked := s.leaked + f.events.length }, some { f with pc := .leave })
      else none
    | .wait _, .timer => let r := s.startAction f; some (r.1, some r.2)
    | .action a, e =>
      match a.pc with
      | .leave =>
        if e ≠ .next then none else
        let s := s.done a.wg
        if !a.failed then some (s, some { f with processed := true, pc := .loop })
        else if s.spec.errorHandling = errorHandlingSkip then
          some ({ s with skipped := s.skipped ++ f.events }, some { f with processed := true, pc := .loop })
        else some (s, some { f with pc := .loop })
      | _ =>
        match s.performActionWithRetryStep f.events a e with
        | some r => some (r.1, some { f with pc := .action r.2 })
        | none => none
    | .finish, .next =>
      if !s.lockFree then none else
      let s := if f.processed then { s with inFlight := s.inFlight - f.events.length }
        else { s with leaked := s.leaked + f.events.length }
      some (s, some { f with pc := if s.suspendOrStop then .leave else .callbacks })
    | .callbacks, .next =>
      some ((lastPerSub f.events).foldl batchComplete s, some { f with pc := .leave })
    | .leave, .next => some (s.done f.wg, none)
    | _, _ => none

/-- The moves of `processBatch`, with each step of `performActionWithRetry` as one move that
writes only the record of the sink's calls. -/
inductive BatchMove (s : St) (f : BatchFrame) : St → Option BatchFrame → Prop where
  | exitLoop : f.pc = .loop → (s.suspendOrStop || f.processed) = true →
      BatchMove s f s (some { f with pc := .finish })
  | delay : f.pc = .loop → (s.suspendOrStop || f.processed) = false → 0 < f.attempt →
      BatchMove s f s (some { f with pc := .wait s.gen })
  | attempt : f.pc = .loop ∨ (∃ intr, f.pc = .wait intr) →
      BatchMove s f (s.startAction f).1 (some (s.startAction f).2)
  | interrupt (intr : Nat) : f.pc = .wait intr → intr ∈ s.closed →
      BatchMove s f { s with leaked := s.leaked + f.events.length } (some { f with pc := .leave })
  /-- A step of `performActionWithRetry`. -/
  | action (a a' : ActionFrame) (attempts : List (List Ev)) (acked : List Ev) : f.pc = .action a →
      a.pc ≠ .leave → a'.wg = a.wg →
      BatchMove s f { s with attempts := attempts, acked := acked } (some { f with pc := .action a' })
  | acked (a : ActionFrame) : f.pc = .action a → a.pc = .leave → a.failed = false →
      BatchMove s f (s.done a.wg) (some { f with processed := true, pc := .loop })
  | skipped (a : ActionFrame) : f.pc = .action a → a.pc = .leave → a.failed = true →
      s.spec.errorHandling = errorHandlingSkip →
      BatchMove s f { s.done a.wg with skipped := (s.done a.wg).skipped ++ f.events }
        (some { f with processed := true, pc := .loop })
  | retry (a : ActionFrame) : f.pc = .action a → a.pc = .leave → a.failed = true →
      s.spec.errorHandling ≠ errorHandlingSkip → BatchMove s f (s.done a.wg) (some { f with pc := .loop })
  /-- Under the lock: `inFlight` drops by a processed batch, anything else is dropped. -/
  | complete : f.pc = .finish → s.lockFree = true →
      BatchMove s f
        (if f.processed then { s with inFlight := s.inFlight - f.events.length }
          else { s with leaked := s.leaked + f.events.length })
        (some { f with pc := if s.suspendOrStop then .leave else .callbacks })
  | callbacks : f.pc = .callbacks →
      BatchMove s f ((lastPerSub f.events).foldl batchComplete s) (some { f with pc := .leave })
  | leave : f.pc = .leave → BatchMove s f (s.done f.wg) none

theorem processBatchStep_move {s s' : St} {f : BatchFrame} {e : Env} {q : Option BatchFrame}
    (h : s.processBatchStep f e = some (s', q)) : BatchMove s f s' q := by
  unfold processBatchStep at h
  split at h
  case h_1 hpc =>
    split at h
    · cases h; exact .exitLoop hpc ‹_›
    · rename_i hs
      split at h <;> cases h
      · exact .delay hpc (by simpa using hs) ‹_›
      · exact .attempt (.inl hpc)
  case h_2 intr hpc => split at h <;> cases h; exact .interrupt intr hpc ‹_›
  case h_3 intr hpc => cases h; exact .attempt (.inr ⟨intr, hpc⟩)
  case h_4 a hpc =>
    split at h
    case h_1 hl =>
      dsimp only at h
      split at h; · cases h
      split at h
      · rename_i hf; cases h; exact .acked a hpc hl (by simpa using hf)
      · rename_i hf
        split at h <;> cases h <;> rename_i hk <;> rw [done_spec] at hk
        · exact .skipped a hpc hl (by simpa using hf) hk
        · exact .retry a hpc hl (by simpa using hf) hk
    case h_2 hl =>
      split at h <;> cases h
      rename_i r hr
      obtain ⟨⟨attempts, acked, hs⟩, hw⟩ := performActionWithRetryStep_writes hr
      rw [hs]
      exact .action a _ attempts acked hpc hl hw
  case h_5 hpc =>
    split at h; · cases h
    rename_i hlock
    cases h
    have hso : (if f.processed then { s with inFlight := s.inFlight - f.events.length }
        else { s with leaked := s.leaked + f.events.length }).suspendOrStop = s.suspendOrStop := by
      split <;> rfl
    rw [hso]
    exact .complete hpc (by simpa using hlock)
  case h_6 hpc => cases h; exact .callbacks hpc
  case h_7 hpc => cases h; exact .leave hpc
  case h_8 => cases h

def batchProcessorStep (s : St) (p : Processor) (e : Env) : Option (St × Option Processor) :=
    match p, e with
    | .top, .next =>
      if !s.lockFree then none
      else if !s.suspendOrStop && s.batchQueue.isEmpty then
        some (s, some (if s.updateInProgress then .intrWait s.gen else .condWait))
      else if s.suspendOrStop then some (s, some .done)
      else match s.batchQueue with
        | [] => none
        | b :: rest =>
          some ({ s.add s.gen 1 with batchQueue := rest, batchCount := s.batchCount + 1 },
            some (.batch ⟨s.gen, b, 0, false, if b.isEmpty then .leave else .loop⟩))
    | .intrWait intr, .interrupt => if intr ∈ s.closed then some (s.done s.gen, some .done) else none
    | .done, .next => some ({ s with processorDone := true }, none)
    | .batch f, e =>
      match s.processBatchStep f e with
      | some (s, some f) => some (s, some (.batch f))
      | some (s, none) => some (s, some .top)
      | none => none
    | _, _ => none

/-- The moves of `batchProcessor`, with each step of `processBatch` as one move. -/
inductive ProcessorMove (s : St) : Processor → St → Option Processor → Prop where
  | wait : s.lockFree = true → s.suspendOrStop = false → s.batchQueue = [] →
      ProcessorMove s .top s (some (if s.updateInProgress then .intrWait s.gen else .condWait))
  | suspended : s.lockFree = true → s.suspendOrStop = true → ProcessorMove s .top s (some .done)
  | pop (b : List Ev) (rest : List (List Ev)) : s.lockFree = true → s.suspendOrStop = false →
      s.batchQueue = b :: rest →
      ProcessorMove s .top { s.add s.gen 1 with batchQueue := rest, batchCount := s.batchCount + 1 }
        (some (.batch ⟨s.gen, b, 0, false, if b.isEmpty then .leave else .loop⟩))
  | interrupt (intr : Nat) : intr ∈ s.closed → ProcessorMove s (.intrWait intr) (s.done s.gen) (some .done)
  | done : ProcessorMove s .done { s with processorDone := true } none
  | frame (f f' : BatchFrame) (s' : St) : BatchMove s f s' (some f') →
      ProcessorMove s (.batch f) s' (some (.batch f'))
  | frameReturn (f : BatchFrame) (s' : St) : BatchMove s f s' none → ProcessorMove s (.batch f) s' (some .top)

theorem batchProcessorStep_move {s s' : St} {p : Processor} {e : Env} {q : Option Processor}
    (h : s.batchProcessorStep p e = some (s', q)) : ProcessorMove s p s' q := by
  unfold batchProcessorStep at h
  split at h
  case h_1 =>
    split at h; · cases h
    rename_i hl
    simp only [Bool.not_eq_true', Bool.not_eq_false] at hl
    split at h
    · rename_i hw
      simp only [Bool.and_eq_true, Bool.not_eq_true', List.isEmpty_iff] at hw
      cases h; exact .wait hl hw.1 hw.2
    · split at h
      · cases h; exact .suspended hl ‹_›
      · rename_i hs
        simp only [Bool.not_eq_true] at hs
        split at h <;> cases h
        exact .pop _ _ hl hs ‹_›
  case h_2 intr => split at h <;> cases h; exact .interrupt intr ‹_›
  case h_3 => cases h; exact .done
  case h_4 f =>
    split at h <;> cases h <;> rename_i hf
    · exact .frame _ _ _ (processBatchStep_move hf)
    · exact .frameReturn _ _ (processBatchStep_move hf)
  case h_5 => cases h

end St

def replace {α : Type} (l : List α) (i : Nat) : Option α → List α
  | some x => l.set i x
  | none => l.eraseIdx i

theorem mem_replace {α : Type} {l : List α} {i : Nat} {q : Option α} {y : α}
    (h : y ∈ replace l i q) : y ∈ l ∨ q = some y := by
  cases q with
  | none => exact .inl (List.mem_of_mem_eraseIdx h)
  | some x => exact (List.mem_or_eq_of_mem_set h).imp_right (congrArg some ·.symm)

/-- The REST calls on the stream, the ledger's callbacks and the goroutines' steps. -/
inductive Act where
  | poller (i : Nat) (e : Env)
  | dispatcher (i : Nat) (e : Env)
  | processor (i : Nat) (e : Env)
  | deliver (i : Nat)
  | suspend
  | resume
  | updateBegin
  | updateEnd (i : Nat) (req : StreamInfo)
  | stop
  | addSub (id : Nat) (fromBlock : Option Nat)
  | resetSub (id : Nat) (fromBlock : Option Nat) (e : Env)
  | deleteSub (id : Nat)
  deriving Repr

namespace St

/-- The `i`-th listener's next callback: `handleEvent` blocks on the unbuffered channel until a
dispatcher takes the event; sending on the closed channel panics. -/
def handleEvent (s : St) (chain : List Ev) (i : Nat) : Option St :=
  match s.listeners.get? i with
  | none => none
  | some l =>
    if s.pending.any (·.1 = l.id) then none else
    match (chain.filter fun e => e.sub = l.sub && l.start ≤ e.block).get? l.sent with
    | none => none
    | some ev =>
      let s := { s with listeners := s.listeners.set i { l with sent := l.sent + 1 } }
      if s.channelClosed then some { s with panicked := true }
      else some { s with pending := s.pending ++ [(l.id, ev)] }

def suspend (s : St) : Option St :=
  if s.lockFree then some { s with spec := { s.spec with suspended := true } }.broadcast else none

def resume (s : St) : Option St :=
  if !s.lockFree then none
  else if !s.processorDone || !s.pollerDone then some s
  else some ({ s with
    spec := { s.spec with suspended := false }
    processorDone := false
    pollerDone := false }.startEventHandlers true).broadcast

/-- `update` up to its `updateWG.Wait()`: `preUpdateStream`, then the close of the interrupt,
which panics if it is closed already. -/
def updateBegin (s : St) : Option St :=
  if !s.lockFree then none else
  let s := { s with updateInProgress := true }.broadcast
  if s.gen ∈ s.closed then some { s with panicked := true }
  else some { s with closed := s.gen :: s.closed, updates := s.updates ++ [s.gen] }

def postUpdateStream (s : St) : St :=
  { s with pollerDone := false, processorDone := false, updateInProgress := false }.startEventHandlers false

/-- The `i`-th blocked `update` once its WaitGroup is at zero: `updateSpec`, and on success
`postUpdateStream`. -/
def updateEnd (s : St) (lib : Lib) (i : Nat) (req : StreamInfo) : Option St :=
  match s.updates.get? i with
  | none => none
  | some g =>
    if s.counter g ≠ 0 then none else
    let s := { s with updates := s.updates.eraseIdx i }
    match updateSpec lib s.spec req with
    | .ok spec => if s.lockFree then some ({ s with spec := spec }.postUpdateStream) else none
    | .rejected _ spec => some { s with spec := spec }
    | .panicked => some s

/-- `stop`: closing the event channel twice panics, and so does every callback blocked on it. -/
def stop (s : St) : Option St :=
  if !s.lockFree then none else
  let s := { s with stopped := true }.broadcast
  if s.channelClosed || !s.pending.isEmpty then some { s with channelClosed := true, panicked := true }
  else some { s with channelClosed := true }

def addSub (s : St) (id : Nat) (fromBlock : Option Nat) : Option St :=
  if s.subs.any (·.id = id) then none
  else some { s with subs := s.subs ++ [⟨id, true, fromBlock, true, false, false, 0⟩] }

/-- `resetSubscription`: the new `fromBlock`, stored, then `requestReset`. -/
def resetSub (s : St) (id : Nat) (fromBlock : Option Nat) (e : Env) : Option St :=
  match s.sub? id with
  | some x =>
    if !x.registered then none else
    let s := s.setSub id fun y => { y with fromBlock := fromBlock }
    match e with
    | .next => some (s.setSub id fun y => { y with resetRequested := true })
    | .fail => some s
    | _ => none
  | none => none

/-- `deleteSubscription`: out of the registry, then `unsubscribe(true)`. -/
def deleteSub (s : St) (id : Nat) : Option St :=
  match s.sub? id with
  | some x =>
    if !x.registered then none
    else some ((s.setSub id fun y => { y with registered := false }).unsubscribe id true)
  | none => none

section
variable {s s' : St}

theorem handleEvent_eq {chain : List Ev} {i : Nat} (h : s.handleEvent chain i = some s') :
    ∃ l pending panicked, s.listeners.get? i = some l ∧
      s' = { s with
        listeners := s.listeners.set i { l with sent := l.sent + 1 }
        pending := pending
        panicked := panicked } := by
  unfold handleEvent at h
  split at h; · cases h
  rename_i l hl
  split at h; · cases h
  split at h; · cases h
  dsimp only at h
  split at h <;> cases h
  · exact ⟨l, _, _, hl, rfl⟩
  · exact ⟨l, _, _, hl, rfl⟩

theorem suspend_eq (h : s.suspend = some s') : s' = { s with spec := { s.spec with suspended := true } }.broadcast := by
  unfold suspend at h
  split at h <;> cases h
  rfl

theorem resume_eq (h : s.resume = some s') :
    s' = s ∨ s' = ({ s with
      spec := { s.spec with suspended := false }
      processorDone := false
      pollerDone := false }.startEventHandlers true).broadcast := by
  unfold resume at h
  repeat' split at h
  all_goals cases h
  · exact .inl rfl
  · exact .inr rfl

theorem updateBegin_eq (h : s.updateBegin = some s') :
    s' = { { s with updateInProgress := true }.broadcast with panicked := true } ∨
      s' = { { s with updateInProgress := true }.broadcast with
        closed := s.gen :: s.closed
        updates := s.updates ++ [s.gen] } := by
  unfold updateBegin at h
  split at h; · cases h
  dsimp only at h
  split at h <;> cases h
  · exact .inl rfl
  · exact .inr rfl

theorem updateEnd_eq {lib : Lib} {i : Nat} {req : StreamInfo} (h : s.updateEnd lib i req = some s') :
    ∃ g spec, s.updates.get? i = some g ∧ s.counter g = 0 ∧
      (s' = { s with updates := s.updates.eraseIdx i, spec := spec }.postUpdateStream ∨
        s' = { s with updates := s.updates.eraseIdx i, spec := spec }) := by
  unfold updateEnd at h
  split at h; · cases h
  rename_i g hg
  split at h; · cases h
  rename_i h0
  dsimp only at h
  split at h
  · split at h <;> cases h
    exact ⟨g, _, hg, not_not.mp h0, .inl rfl⟩
  · cases h; exact ⟨g, _, hg, not_not.mp h0, .inr rfl⟩
  · cases h; exact ⟨g, _, hg, not_not.mp h0, .inr rfl⟩

theorem stop_eq (h : s.stop = some s') :
    ∃ panicked, s' = { { s with stopped := true }.broadcast with channelClosed := true, panicked := panicked } := by
  unfold stop at h
  split at h; · cases h
  dsimp only at h
  split at h <;> cases h
  · exact ⟨_, rfl⟩
  · exact ⟨_, rfl⟩

end

def SubsOnly (s s' : St) : Prop := ∃ subs listeners, s' = { s with subs := subs, listeners := listeners }

section
variable {s s₁ s₂ s' : St} {k : Nat}

theorem SubsOnly.trans (h₁ : SubsOnly s s₁) (h₂ : SubsOnly s₁ s₂) : SubsOnly s s₂ := by
  obtain ⟨_, _, rfl⟩ := h₁
  obtain ⟨_, _, rfl⟩ := h₂
  exact ⟨_, _, rfl⟩

theorem subsOnly_setSub (f : Sub → Sub) : SubsOnly s (s.setSub k f) := ⟨_, _, rfl⟩

theorem subsOnly_unsubscribe (deleting : Bool) : SubsOnly s (s.unsubscribe k deleting) :=
  subsOnly_setSub _ |>.trans ⟨_, _, rfl⟩

theorem addSub_subsOnly {fromBlock : Option Nat} (h : s.addSub k fromBlock = some s') : SubsOnly s s' := by
  unfold addSub at h
  split at h <;> cases h
  exact ⟨_, _, rfl⟩

theorem resetSub_eq {fromBlock : Option Nat} {e : Env} (h : s.resetSub k fromBlock e = some s') :
    s' = s.setSub k (fun y => { y with fromBlock := fromBlock }) ∨
      s' = (s.setSub k fun y => { y with fromBlock := fromBlock }).setSub k
        fun y => { y with resetRequested := true } := by
  unfold resetSub at h
  repeat' split at h
  all_goals cases h
  · exact .inr rfl
  · exact .inl rfl

theorem deleteSub_eq (h : s.deleteSub k = some s') :
    s' = (s.setSub k fun y => { y with registered := false }).unsubscribe k true := by
  unfold deleteSub at h
  repeat' split at h
  all_goals cases h
  rfl

theorem resetSub_subsOnly {fromBlock : Option Nat} {e : Env} (h : s.resetSub k fromBlock e = some s') :
    SubsOnly s s' := by
  rcases resetSub_eq h with rfl | rfl
  · exact subsOnly_setSub _
  · exact (subsOnly_setSub _).trans (subsOnly_setSub _)

theorem deleteSub_subsOnly (h : s.deleteSub k = some s') : SubsOnly s s' := by
  rw [deleteSub_eq h]
  exact (subsOnly_setSub _).trans (subsOnly_unsubscribe _)

end

def step (lib : Lib) (chain : List Ev) (s : St) : Act → Option St
  | .poller i e =>
    (s.pollers.get? i).bind fun p =>
      (s.eventPollerStep p e).map fun r => { r.1 with pollers := replace r.1.pollers i r.2 }
  | .dispatcher i e =>
    (s.dispatchers.get? i).bind fun d =>
      (s.batchDispatcherStep d e).map fun r => { r.1 with dispatchers := replace r.1.dispatchers i r.2 }
  | .processor i e =>
    (s.processors.get? i).bind fun p =>
      (s.batchProcessorStep p e).map fun r => { r.1 with processors := replace r.1.processors i r.2 }
  | .deliver i => s.handleEvent chain i
  | .suspend => s.suspend
  | .resume => s.resume
  | .updateBegin => s.updateBegin
  | .updateEnd i req => s.updateEnd lib i req
  | .stop => s.stop
  | .addSub id fromBlock => s.addSub id fromBlock
  | .resetSub id fromBlock e => s.resetSub id fromBlock e
  | .deleteSub id => s.deleteSub id

section
variable {lib : Lib} {chain : List Ev} {s s' : St} {i : Nat} {e : Env}

theorem step_poller (h : s.step lib chain (.poller i e) = some s') :
    ∃ p s₁ q, s.pollers.get? i = some p ∧ PollerMove s p s₁ q ∧
      s' = { s₁ with pollers := replace s₁.pollers i q } := by
  simp only [step, Option.bind_eq_some, Option.map_eq_some'] at h
  obtain ⟨p, hp, ⟨s₁, q⟩, hr, rfl⟩ := h
  exact ⟨p, s₁, q, hp, eventPollerStep_move hr, rfl⟩

theorem step_dispatcher (h : s.step lib chain (.dispatcher i e) = some s') :
    ∃ d s₁ q, s.dispatchers.get? i = some d ∧ DispatcherMove s d s₁ q ∧
      s' = { s₁ with dispatchers := replace s₁.dispatchers i q } := by
  simp only [step, Option.bind_eq_some, Option.map_eq_some'] at h
  obtain ⟨d, hd, ⟨s₁, q⟩, hr, rfl⟩ := h
  exact ⟨d, s₁, q, hd, batchDispatcherStep_move hr, rfl⟩

theorem step_processor (h : s.step lib chain (.processor i e) = some s') :
    ∃ p s₁ q, s.processors.get? i = some p ∧ ProcessorMove s p s₁ q ∧
      s' = { s₁ with processors := replace s₁.processors i q } := by
  simp only [step, Option.bind_eq_some, Option.map_eq_some'] at h
  obtain ⟨p, hp, ⟨s₁, q⟩, hr, rfl⟩ := h
  exact ⟨p, s₁, q, hp, batchProcessorStep_move hr, rfl⟩

end

def run (lib : Lib) (chain : List Ev) : St → List Act → Option St
  | s, [] => some s
  | s, a :: rest => (s.step lib chain a).bind fun s => run lib chain s rest

end St

/-- The states a stream reaches from its start under any schedule. -/
inductive St.Reachable (lib : Lib) (chain : List Ev) (s₀ : St) : St → Prop where
  | start : St.Reachable lib chain s₀ s₀
  | step {s s' : St} (a : Act) : St.Reachable lib chain s₀ s → s.step lib chain a = some s' →
      St.Reachable lib chain s₀ s'

theorem St.Reachable.of_run {lib : Lib} {chain : List Ev} {s₀ : St} :
    ∀ {s s' : St} {l : List Act}, St.Reachable lib chain s₀ s → s.run lib chain l = some s' →
      St.Reachable lib chain s₀ s'
  | _, _, [], h, e => by cases e; exact h
  | s, _, a :: rest, h, e => by
    simp only [St.run, Option.bind_eq_some] at e
    obtain ⟨s1, h1, e⟩ := e
    exact St.Reachable.of_run (h.step a h1) e

theorem reach_of_run {lib : Lib} {chain : List Ev} {s₀ : St} {l : List Act} {p : St → Bool}
    (h : (s₀.run lib chain l).map p = some true) : ∃ s, St.Reachable lib chain s₀ s ∧ p s = true := by
  cases hr : s₀.run lib chain l with
  | none => simp [hr] at h
  | some s =>
    simp only [hr, Option.map_some', Option.some.injEq] at h
    exact ⟨s, St.Reachable.start.of_run hr, h⟩

end FabconnectEvents
