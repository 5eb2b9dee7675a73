import FabconnectEvents.Pipeline.Step
import Mathlib.Algebra.Order.BigOperators.Group.List
import Mathlib.Algebra.Order.Ring.Nat

/-!
What `inFlight` counts. The dispatcher adds one per event it receives and `processBatch`
subtracts a batch once it is processed; a batch dropped on the way (a dispatcher that leaves
with a partial batch, a `processBatch` interrupted between attempts or stopped by a suspend)
is never subtracted. `leaked` is the model's count of those events, and the invariant is that
`inFlight` is what the stream holds plus what it dropped. So the decrement never goes below
zero, and a stream that dropped `BatchSize` events reports itself blocked for good.
-/
namespace FabconnectEvents

def Dispatcher.uncounted (d : Dispatcher) : Nat := if d.pc = .got false then 1 else 0

def BatchFrame.holds (f : BatchFrame) : Bool :=
  match f.pc with
  | .callbacks | .leave => false
  | _ => true

def BatchFrame.held (f : BatchFrame) : Nat := if f.holds then f.events.length else 0

def Processor.held : Processor → Nat
  | .batch f => f.held
  | _ => 0

theorem sum_map_replace {α : Type} (f : α → Nat) :
    ∀ (l : List α) (i : Nat) {x : α}, l.get? i = some x → ∀ q : Option α,
      ((replace l i q).map f).sum + f x = (l.map f).sum + (q.map f).getD 0
  | [], _, _, h, _ => by cases h
  | a :: l, 0, x, h, q => by
    cases h
    cases q <;> simp only [replace, List.eraseIdx_zero, List.tail_cons, List.set_cons_zero, List.map_cons,
      List.sum_cons, Option.map_none', Option.map_some', Option.getD_none, Option.getD_some] <;> omega
  | a :: l, i + 1, x, h, q => by
    have ih := sum_map_replace f l i h q
    cases q <;> simp only [replace, List.eraseIdx_cons_succ, List.set_cons_succ, List.map_cons, List.sum_cons,
      Option.map_none', Option.map_some', Option.getD_none, Option.getD_some] at ih ⊢ <;> omega

namespace St
variable {s s' : St} {e : Env}

def pipe (s : St) : Nat × Nat × List (List Ev) × List Dispatcher × List Processor :=
  (s.inFlight, s.leaked, s.batchQueue, s.dispatchers, s.processors)

def queued (s : St) : Nat := (s.batchQueue.map List.length).sum

def held (s : St) : Nat :=
  (s.dispatchers.map (·.batch.length)).sum + s.queued + (s.processors.map Processor.held).sum

def uncounted (s : St) : Nat := (s.dispatchers.map Dispatcher.uncounted).sum

theorem PollerMove.pipe {p : Poller} {q : Option Poller} (m : PollerMove s p s' q) : s'.pipe = s.pipe := by
  rcases m.writes with ⟨_, _, _, _, _, rfl, -⟩ | ⟨rfl, -⟩
  · rfl
  · simp [pipe]

@[simp] theorem broadcast_inFlight (s : St) : s.broadcast.inFlight = s.inFlight := rfl
@[simp] theorem broadcast_leaked (s : St) : s.broadcast.leaked = s.leaked := rfl
@[simp] theorem broadcast_batchQueue (s : St) : s.broadcast.batchQueue = s.batchQueue := rfl
@[simp] theorem broadcast_dispatchers (s : St) : s.broadcast.dispatchers = s.dispatchers := rfl

@[simp] theorem broadcast_held_sum (s : St) :
    (s.broadcast.processors.map Processor.held).sum = (s.processors.map Processor.held).sum := by
  simp only [broadcast, List.map_map]
  congr 1
  apply List.map_congr_left
  intro p _
  simp only [Function.comp]; split <;> simp_all [Processor.held]

theorem DispatcherMove.balance {d : Dispatcher} {q : Option Dispatcher} (m : DispatcherMove s d s' q) :
    s'.dispatchers = s.dispatchers ∧
    (s'.processors.map Processor.held).sum = (s.processors.map Processor.held).sum ∧
    s.leaked ≤ s'.leaked ∧
    s'.inFlight + (q.map Dispatcher.uncounted).getD 0 + s.queued + s.leaked + d.batch.length =
      s.inFlight + d.uncounted + s'.queued + s'.leaked + (q.map (·.batch.length)).getD 0 ∧
    ∀ d', q = some d' → d'.pc = .got false → d'.batch ≠ [] := by
  cases m with
  | select hpc => simp [Dispatcher.uncounted, hpc]
  | exit _ hpc _ => simp [Dispatcher.uncounted, hpc, dispatcherExit, queued]; omega
  | receive _ _ _ _ hpc _ => simp [Dispatcher.uncounted, hpc, queued]; omega
  | timeout _ hpc _ => simp [Dispatcher.uncounted, hpc]
  | dispatch timeout hpc _ _ => cases timeout <;> simp [Dispatcher.uncounted, hpc, queued] <;> omega
  | count hpc _ _ => simp [Dispatcher.uncounted, hpc, queued]

theorem pipe_eq {s' s : St} (h : s'.pipe = s.pipe) :
    s'.inFlight = s.inFlight ∧ s'.leaked = s.leaked ∧ s'.batchQueue = s.batchQueue ∧
      s'.dispatchers = s.dispatchers ∧ s'.processors = s.processors := by
  simpa [pipe] using h

theorem foldl_batchComplete (l : List Ev) (s : St) :
    ∃ subs, l.foldl batchComplete s = { s with subs := subs } := by
  induction l generalizing s with
  | nil => exact ⟨s.subs, rfl⟩
  | cons e l ih => exact ih (s.batchComplete e)

theorem BatchMove.balance {f : BatchFrame} {q : Option BatchFrame} (m : BatchMove s f s' q)
    (le : f.held ≤ s.inFlight) :
    s'.dispatchers = s.dispatchers ∧ s'.processors = s.processors ∧ s'.batchQueue = s.batchQueue ∧
    s.leaked ≤ s'.leaked ∧
    s'.inFlight + f.held + s.leaked = s.inFlight + (q.map BatchFrame.held).getD 0 + s'.leaked := by
  cases m with
  | attempt hpc =>
    rcases hpc with hpc | ⟨_, hpc⟩ <;> simp [BatchFrame.held, BatchFrame.holds, startAction, add, hpc]
  | interrupt _ hpc _ => simp [BatchFrame.held, BatchFrame.holds, hpc]; omega
  | complete hpc _ =>
    have idle : ({ f with pc := if s.suspendOrStop then .leave else .callbacks } : BatchFrame).held = 0 := by
      split <;> rfl
    have hf : f.held = f.events.length := by simp [BatchFrame.held, BatchFrame.holds, hpc]
    rw [hf] at le
    split <;> simp [idle, hf] <;> omega
  | callbacks hpc =>
    obtain ⟨_, hc⟩ := foldl_batchComplete (lastPerSub f.events) s
    simp [hc, BatchFrame.held, BatchFrame.holds, hpc]
  | _ => simp_all [BatchFrame.held, BatchFrame.holds]

theorem ProcessorMove.balance {p : Processor} {q : Option Processor} (m : ProcessorMove s p s' q)
    (le : p.held ≤ s.inFlight) :
    s'.dispatchers = s.dispatchers ∧ s'.processors = s.processors ∧ s.leaked ≤ s'.leaked ∧
    s'.inFlight + p.held + s.queued + s.leaked =
      s.inFlight + (q.map Processor.held).getD 0 + s'.queued + s'.leaked := by
  cases m with
  | wait => split <;> simp [Processor.held]
  | pop b rest _ _ hq =>
    cases b <;> simp [Processor.held, BatchFrame.held, BatchFrame.holds, queued, hq, add]; omega
  | frame f f' _ m =>
    obtain ⟨h1, h2, h3, h4, h5⟩ := m.balance le
    refine ⟨h1, h2, h4, ?_⟩
    simp only [Processor.held, queued, h3, Option.map_some', Option.getD_some] at h5 ⊢
    omega
  | frameReturn f _ m =>
    obtain ⟨h1, h2, h3, h4, h5⟩ := m.balance le
    refine ⟨h1, h2, h4, ?_⟩
    simp only [Processor.held, queued, h3, Option.map_none', Option.getD_none, Option.map_some',
      Option.getD_some] at h5 ⊢
    omega
  | _ => simp [Processor.held, queued]

end St

/-- `inFlight` counts the events the stream holds, plus the events dropped with an interrupted
or suspended batch, minus the event a dispatcher has received and not yet counted; and at
least `floor` events have been dropped. -/
structure Accounted (floor : Nat) (s : St) : Prop where
  balance : s.inFlight + s.uncounted = s.held + s.leaked
  received : ∀ d ∈ s.dispatchers, d.pc = .got false → d.batch ≠ []
  floor_le : floor ≤ s.leaked

namespace Accounted
variable {n : Nat} {s s' : St}

theorem start (spec : StreamInfo) (subs : List Sub) (stored : List (Nat × Nat)) :
    Accounted 0 (St.start spec subs stored) where
  balance := rfl
  received := by simp [St.start, St.startEventHandlers, St.empty]
  floor_le := le_rfl

theorem congr (a : Accounted n s) (hi : s'.inFlight = s.inFlight) (hl : s'.leaked = s.leaked)
    (hq : s'.batchQueue = s.batchQueue) (hd : s'.dispatchers = s.dispatchers)
    (hp : (s'.processors.map Processor.held).sum = (s.processors.map Processor.held).sum) :
    Accounted n s' where
  balance := by simp only [St.held, St.uncounted, St.queued, hi, hl, hq, hd, hp]; exact a.balance
  received := hd ▸ a.received
  floor_le := hl ▸ a.floor_le

theorem of_pipe (a : Accounted n s) (h : s'.pipe = s.pipe) : Accounted n s' := by
  obtain ⟨hi, hl, hq, hd, hp⟩ := St.pipe_eq h
  exact a.congr hi hl hq hd (by rw [hp])

theorem uncounted_le (a : Accounted n s) : s.uncounted ≤ (s.dispatchers.map (·.batch.length)).sum :=
  List.sum_le_sum fun d m => by
    unfold Dispatcher.uncounted; split
    · exact List.length_pos.mpr (a.received d m ‹_›)
    · exact Nat.zero_le _

theorem held_le (a : Accounted n s) {p : Processor} (hp : p ∈ s.processors) : p.held ≤ s.inFlight := by
  have := List.le_sum_of_mem (List.mem_map_of_mem Processor.held hp)
  have := a.uncounted_le
  have := a.balance
  simp only [St.held] at *
  omega

theorem leaked_le (a : Accounted n s) : s.leaked ≤ s.inFlight := by
  have := a.uncounted_le
  have := a.balance
  simp only [St.held] at *
  omega

theorem blocked (a : Accounted n s) (h : s.spec.batchSize ≤ n) : s.isBlocked = true := by
  have := a.leaked_le
  have := a.floor_le
  simp only [St.isBlocked, decide_eq_true_eq]
  omega

theorem startEventHandlers (a : Accounted n s) (resume : Bool) :
    Accounted n (s.startEventHandlers resume) := by
  refine ⟨?_, ?_, a.floor_le⟩
  · have := a.balance
    cases resume <;> simp_all [St.startEventHandlers, St.held, St.uncounted, St.queued,
      Dispatcher.uncounted, Processor.held]
  · intro d m hg
    cases resume <;> simp only [St.startEventHandlers, if_true, if_false, Bool.false_eq_true, List.mem_append,
      List.mem_singleton] at m
    · rcases m with m | rfl
      · exact a.received d m hg
      · cases hg
    · exact a.received d m hg

theorem dispatcher (a : Accounted n s) {i : Nat} {d : Dispatcher} {s₁ : St} {q : Option Dispatcher}
    (hd : s.dispatchers.get? i = some d) (m : St.DispatcherMove s d s₁ q) :
    Accounted n { s₁ with dispatchers := replace s₁.dispatchers i q } := by
  obtain ⟨hds, hps, hl, hbal, hrecv⟩ := m.balance
  have := a.balance
  have := sum_map_replace (·.batch.length) s.dispatchers i hd q
  have := sum_map_replace Dispatcher.uncounted s.dispatchers i hd q
  refine ⟨?_, ?_, a.floor_le.trans hl⟩
  · simp only [St.held, St.uncounted, St.queued, hds, hps] at *
    cases q <;> simp only [Option.map_none', Option.map_some', Option.getD_none, Option.getD_some] at * <;> omega
  · intro d' m hg
    rw [hds] at m
    rcases mem_replace m with m | rfl
    · exact a.received d' m hg
    · exact hrecv d' rfl hg

theorem processor (a : Accounted n s) {i : Nat} {p : Processor} {s₁ : St} {q : Option Processor}
    (hp : s.processors.get? i = some p) (m : St.ProcessorMove s p s₁ q) :
    Accounted n { s₁ with processors := replace s₁.processors i q } := by
  obtain ⟨hds, hps, hl, hbal⟩ := m.balance (a.held_le (List.get?_mem hp))
  have := a.balance
  have := sum_map_replace Processor.held s.processors i hp q
  refine ⟨?_, ?_, a.floor_le.trans hl⟩
  · simp only [St.held, St.uncounted, St.queued, hds, hps] at *
    cases q <;> simp only [Option.map_none', Option.map_some', Option.getD_none, Option.getD_some] at * <;> omega
  · exact hds ▸ a.received

theorem broadcast (a : Accounted n s) : Accounted n s.broadcast :=
  a.congr rfl rfl rfl rfl (St.broadcast_held_sum s)

theorem subsOnly (a : Accounted n s) (h : St.SubsOnly s s') : Accounted n s' := by
  obtain ⟨_, _, rfl⟩ := h
  exact a.congr rfl rfl rfl rfl rfl

theorem step {lib : Lib} {chain : List Ev} {act : Act} (a : Accounted n s)
    (h : s.step lib chain act = some s') : Accounted n s' := by
  cases act with
  | poller =>
    obtain ⟨_, _, _, -, m, rfl⟩ := St.step_poller h
    exact a.of_pipe m.pipe
  | dispatcher =>
    obtain ⟨_, _, _, hd, m, rfl⟩ := St.step_dispatcher h
    exact a.dispatcher hd m
  | processor =>
    obtain ⟨_, _, _, hp, m, rfl⟩ := St.step_processor h
    exact a.processor hp m
  | deliver =>
    obtain ⟨_, _, _, -, rfl⟩ := St.handleEvent_eq h
    exact a.congr rfl rfl rfl rfl rfl
  | suspend =>
    obtain rfl := St.suspend_eq h
    exact Accounted.broadcast (a.congr rfl rfl rfl rfl rfl)
  | resume =>
    rcases St.resume_eq h with rfl | rfl
    · exact a
    · refine Accounted.broadcast (Accounted.startEventHandlers ?_ true)
      exact a.congr rfl rfl rfl rfl rfl
  | updateBegin => rcases St.updateBegin_eq h with rfl | rfl <;> exact a.broadcast.congr rfl rfl rfl rfl rfl
  | updateEnd =>
    obtain ⟨_, _, -, -, rfl | rfl⟩ := St.updateEnd_eq h
    · refine Accounted.startEventHandlers ?_ false
      exact a.congr rfl rfl rfl rfl rfl
    · exact a.congr rfl rfl rfl rfl rfl
  | stop =>
    obtain ⟨_, rfl⟩ := St.stop_eq h
    exact a.broadcast.congr rfl rfl rfl rfl rfl
  | addSub => exact a.subsOnly (St.addSub_subsOnly h)
  | resetSub => exact a.subsOnly (St.resetSub_subsOnly h)
  | deleteSub => exact a.subsOnly (St.deleteSub_subsOnly h)

end Accounted

theorem St.Reachable.accounted {lib : Lib} {chain : List Ev} {n : Nat} {s₀ s : St}
    (h : St.Reachable lib chain s₀ s) (h₀ : Accounted n s₀) : Accounted n s := by
  induction h with
  | start => exact h₀
  | step _ _ hs ih => exact ih.step hs

/-- On every run of a stream, `inFlight` plus the events a dispatcher has received and not yet
counted is what the stream holds plus what it dropped, and no `processBatch` holds more events
than `inFlight`, so its decrement never goes below zero. -/
theorem inFlight_counts_held_and_dropped {lib : Lib} {chain : List Ev} {spec : StreamInfo}
    {subs : List Sub} {stored : List (Nat × Nat)} {s : St}
    (h : St.Reachable lib chain (St.start spec subs stored) s) :
    s.inFlight + s.uncounted = s.held + s.leaked ∧ ∀ p ∈ s.processors, p.held ≤ s.inFlight :=
  have a := h.accounted (Accounted.start spec subs stored)
  ⟨a.balance, fun _ => a.held_le⟩

/-- A websocket stream of batches of two that blocks on errors, with one subscription from
block 0, and the events the ledger has for it. -/
def pipelineSpec : StreamInfo :=
  { createdISO8601 := "", id := "es-u", name := "", path := "", suspended := false,
    type := "websocket", batchSize := 2, batchTimeoutMS := 1, errorHandling := "block",
    retryTimeoutSec := 30, blockedRetryDelaySec := 1, webhook := none,
    webSocket := some ⟨"", ""⟩, timestamps := false, timestampCacheSize := 1 }

def sampleStream : St := St.start pipelineSpec [⟨0, true, some 0, true, false, false, 0⟩] []

def sampleChain : List Ev := [⟨0, 0, 0⟩, ⟨0, 0, 1⟩, ⟨0, 1, 0⟩]

def resize (n : Nat) : StreamInfo := { pipelineSpec with type := "", webSocket := none, batchSize := n }

/-- The dispatcher counts one event into `inFlight`, then leaves with its partial batch when an
update interrupts it; the update sets the batch size to one. -/
def dropOnUpdate : List Act :=
  [.poller 0 .next, .poller 0 .next, .poller 0 .next, .poller 0 .next, .poller 0 .next, .poller 0 .next,
   .dispatcher 0 .next, .deliver 0, .dispatcher 0 .next, .dispatcher 0 .next, .dispatcher 0 .next,
   .updateBegin, .dispatcher 0 .interrupt,
   .poller 0 .interrupt, .poller 0 .next, .poller 0 .next, .poller 0 .next,
   .processor 0 .next, .processor 0 .interrupt, .processor 0 .next,
   .updateEnd 0 (resize 1)]

theorem dropped_batch_blocks_stream :
    ∃ s, St.Reachable Lib.ascii sampleChain sampleStream s ∧ s.stopped = false ∧ s.held = 0 ∧
      s.inFlight = 1 ∧
      ∀ s', St.Reachable Lib.ascii sampleChain s s' → s'.spec.batchSize ≤ 1 → s'.isBlocked = true := by
  obtain ⟨s, hr, hp⟩ := reach_of_run (show (sampleStream.run Lib.ascii sampleChain dropOnUpdate).map
    (fun s => s.stopped == false && s.held == 0 && s.inFlight == 1 && s.leaked == 1) = some true by decide)
  simp only [Bool.and_eq_true, beq_iff_eq] at hp
  obtain ⟨⟨⟨stopped, held⟩, inFlight⟩, leaked⟩ := hp
  have a : Accounted 1 s := { hr.accounted (Accounted.start ..) with floor_le := leaked.ge }
  exact ⟨s, hr, stopped, held, inFlight, fun _ h' small => (h'.accounted a).blocked small⟩

/-- The update run's dropped event stays counted in `inFlight`. -/
theorem dropped_batch_still_counted :
    ∃ s, St.Reachable Lib.ascii sampleChain sampleStream s ∧ s.leaked = 1 ∧ s.inFlight = 1 ∧
      s.inFlight + s.uncounted = s.held + s.leaked ∧ ∀ p ∈ s.processors, p.held ≤ s.inFlight := by
  obtain ⟨s, hr, hp⟩ := reach_of_run (show (sampleStream.run Lib.ascii sampleChain dropOnUpdate).map
    (fun s => s.leaked == 1 && s.inFlight == 1) = some true by decide)
  simp only [Bool.and_eq_true, beq_iff_eq] at hp
  exact ⟨s, hr, hp.1, hp.2, inFlight_counts_held_and_dropped hr⟩

end FabconnectEvents
