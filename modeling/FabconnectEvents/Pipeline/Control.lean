import FabconnectEvents.Pipeline.Progress
import Mathlib.Data.Multiset.Basic

/-!
`update` and `suspend` on a running stream. `update` closes the interrupt and waits for the
handlers before it validates the request; a rejected request returns without
`postUpdateStream`, so the handlers stay stopped, `updateInProgress` stays set and the next
`update` closes the closed interrupt again. `suspend` only sets a flag: `performActionWithRetry`
reads it at the head of its loop, not after its backoff delay. So after `suspend`, until a
`resume`, and after `stop` for good, the sink is called at most once more for each
`performActionWithRetry` frame that was in its delay or about to call, and for no other batch.
-/
namespace FabconnectEvents

theorem St.updateEnd_rejected {s s' : St} {lib : Lib} {i : Nat} {req spec : StreamInfo} {e : Err}
    (h : s.updateEnd lib i req = some s') (hr : updateSpec lib s.spec req = .rejected e spec) :
    s' = { s with updates := s.updates.eraseIdx i, spec := spec } := by
  unfold updateEnd at h
  split at h; · cases h
  split at h; · cases h
  dsimp only at h
  rw [hr] at h
  cases h
  rfl

def invalidModeRequest : StreamInfo := { pipelineSpec with type := "", webSocket := some ⟨"t2", "bogus"⟩ }

/-- The poller registers its listener and the dispatcher waits; `update` closes the interrupt and
every handler returns. -/
def handlersStopForUpdate : List Act :=
  [.poller 0 .next, .poller 0 .next, .poller 0 .next, .poller 0 .next, .poller 0 .next, .poller 0 .next,
   .dispatcher 0 .next, .updateBegin, .dispatcher 0 .interrupt,
   .poller 0 .interrupt, .poller 0 .next, .poller 0 .next, .poller 0 .next,
   .processor 0 .next, .processor 0 .interrupt, .processor 0 .next]

/-- The update is rejected for its distribution mode after it wrote the topic: the spec has
changed, no handler runs, `updateInProgress` is still set, the interrupt is still closed, and
the next update panics on closing it again. -/
theorem failed_update_stops_pipeline :
    ∃ s₁ s, St.Reachable Lib.ascii sampleChain sampleStream s₁ ∧ s₁.spec = pipelineSpec ∧ s₁.updates = [1] ∧
      updateSpec Lib.ascii s₁.spec invalidModeRequest =
        .rejected (.eventStreamsInvalidDistributionMode "bogus") { pipelineSpec with webSocket := some ⟨"t2", ""⟩ } ∧
      s₁.updateEnd Lib.ascii 0 invalidModeRequest = some s ∧ s.spec ≠ pipelineSpec ∧
      s.pollers = [] ∧ s.dispatchers = [] ∧ s.processors = [] ∧ s.updateInProgress = true ∧
      s.gen ∈ s.closed ∧ s.updateBegin.map (·.panicked) = some true := by
  obtain ⟨s₁, hr, hp⟩ := reach_of_run (show (sampleStream.run Lib.ascii sampleChain handlersStopForUpdate).map
    (fun s => s.spec == pipelineSpec && s.updates == [1] &&
      updateSpec Lib.ascii s.spec invalidModeRequest == .rejected (.eventStreamsInvalidDistributionMode "bogus")
        { pipelineSpec with webSocket := some ⟨"t2", ""⟩ } &&
      (s.updateEnd Lib.ascii 0 invalidModeRequest).map (fun s => s.spec != pipelineSpec && s.pollers.isEmpty &&
        s.dispatchers.isEmpty && s.processors.isEmpty && s.updateInProgress && decide (s.gen ∈ s.closed) &&
        s.updateBegin.map (·.panicked) == some true) == some true) = some true by decide)
  simp only [Bool.and_eq_true, beq_iff_eq] at hp
  obtain ⟨⟨⟨spec, updates⟩, rejected⟩, ended⟩ := hp
  obtain ⟨s, hs, hp⟩ := Option.map_eq_some'.mp ended
  simp only [Bool.and_eq_true, bne_iff_ne, ne_eq, List.isEmpty_iff, decide_eq_true_eq, beq_iff_eq] at hp
  obtain ⟨⟨⟨⟨⟨⟨changed, pollers⟩, dispatchers⟩, processors⟩, progress⟩, closed⟩, panics⟩ := hp
  exact ⟨s₁, s, hr, spec, updates, rejected, hs, changed, pollers, dispatchers, processors, progress, closed, panics⟩

/-- The batches a `performActionWithRetry` frame sends before it next reads `suspendOrStop`:
its own, once, in its backoff delay or about to call. -/
def ActionFrame.owedCalls (events : List Ev) (a : ActionFrame) : Multiset (List Ev) :=
  match a.pc with
  | .wait _ | .call => {events}
  | .loop | .leave => 0

def BatchFrame.owedCalls (f : BatchFrame) : Multiset (List Ev) :=
  match f.pc with
  | .action a => a.owedCalls f.events
  | .loop | .wait _ | .finish | .callbacks | .leave => 0

def Processor.owedCalls : Processor → Multiset (List Ev)
  | .batch f => f.owedCalls
  | .top | .condWait | .intrWait _ | .done => 0

def ActionFrame.owed (a : ActionFrame) : Nat :=
  match a.pc with
  | .wait _ | .call => 1
  | .loop | .leave => 0

def BatchFrame.owed (f : BatchFrame) : Nat :=
  match f.pc with
  | .action a => a.owed
  | .loop | .wait _ | .finish | .callbacks | .leave => 0

def Processor.owed : Processor → Nat
  | .batch f => f.owed
  | .top | .condWait | .intrWait _ | .done => 0

theorem Processor.card_owedCalls (p : Processor) : Multiset.card p.owedCalls = p.owed := by
  rcases p with _ | _ | _ | f | _ <;> try rfl
  simp only [owedCalls, owed, BatchFrame.owedCalls, BatchFrame.owed]
  split <;> try rfl
  simp only [ActionFrame.owedCalls, ActionFrame.owed]
  split <;> rfl

theorem sum_map_replace_add {α M : Type} [AddCommMonoid M] (f : α → M) :
    ∀ (l : List α) (i : Nat) {x : α}, l.get? i = some x → ∀ q : Option α,
      ((replace l i q).map f).sum + f x = (l.map f).sum + (q.map f).getD 0
  | [], _, _, h, _ => by cases h
  | a :: l, 0, x, h, q => by
    cases h
    cases q <;> simp [replace, add_comm, add_left_comm]
  | a :: l, i + 1, x, h, q => by
    have ih := sum_map_replace_add f l i h q
    cases q <;> simp only [replace, List.eraseIdx_cons_succ, List.set_cons_succ, List.map_cons, List.sum_cons,
      Option.map_none', Option.map_some', Option.getD_none, Option.getD_some] at ih ⊢ <;>
      rw [add_assoc, ih, add_assoc]

namespace St
variable {s s' : St} {lib : Lib} {chain : List Ev} {e : Env}

def owedCalls (s : St) : Multiset (List Ev) := (s.processors.map Processor.owedCalls).sum

def owed (s : St) : Nat := (s.processors.map Processor.owed).sum

theorem card_owedCalls (s : St) : Multiset.card s.owedCalls = s.owed := by
  simp only [owedCalls, owed]
  induction s.processors with
  | nil => rfl
  | cons p ps ih => simp [ih, Processor.card_owedCalls]

@[simp] theorem broadcast_owedCalls (s : St) : s.broadcast.owedCalls = s.owedCalls := by
  simp only [owedCalls, broadcast, List.map_map]
  congr 1
  apply List.map_congr_left
  intro p _
  simp only [Function.comp]; split <;> simp_all [Processor.owedCalls]

@[simp] theorem startEventHandlers_owedCalls (s : St) (resume : Bool) :
    (s.startEventHandlers resume).owedCalls = s.owedCalls := by
  simp [owedCalls, startEventHandlers, Processor.owedCalls]

theorem performActionWithRetryStep_owedCalls {events : List Ev} {a a' : ActionFrame}
    (halt : s.suspendOrStop = true) (h : s.performActionWithRetryStep events a e = some (s', a')) :
    ∃ l, s'.attempts = s.attempts ++ l ∧ ↑l + a'.owedCalls events ≤ a.owedCalls events := by
  unfold performActionWithRetryStep at h
  dsimp only at h
  repeat' split at h
  all_goals cases h
  all_goals first
    | exact ⟨[], (List.append_nil _).symm, by simp_all [ActionFrame.owedCalls]⟩
    | exact ⟨[events], rfl, by simp_all [ActionFrame.owedCalls]⟩

theorem processBatchStep_action {f : BatchFrame} {q : Option BatchFrame} {a : ActionFrame}
    (hpc : f.pc = .action a) (hl : a.pc ≠ .leave) (h : s.processBatchStep f e = some (s', q)) :
    ∃ a', s.performActionWithRetryStep f.events a e = some (s', a') ∧ q = some { f with pc := .action a' } := by
  unfold processBatchStep at h
  simp only [hpc] at h
  split at h <;> cases h
  exact ⟨_, ‹_›, rfl⟩

theorem processBatchStep_owedCalls {f : BatchFrame} {q : Option BatchFrame} (halt : s.suspendOrStop = true)
    (h : s.processBatchStep f e = some (s', q)) :
    ∃ l, s'.attempts = s.attempts ++ l ∧ ↑l + (q.map BatchFrame.owedCalls).getD 0 ≤ f.owedCalls := by
  by_cases call : ∃ a, f.pc = .action a ∧ a.pc ≠ .leave
  · obtain ⟨a, hpc, hl⟩ := call
    obtain ⟨a', hr, rfl⟩ := processBatchStep_action hpc hl h
    obtain ⟨l, hl, hle⟩ := performActionWithRetryStep_owedCalls halt hr
    exact ⟨l, hl, by simpa [BatchFrame.owedCalls, hpc] using hle⟩
  cases processBatchStep_move h with
  | action a _ _ _ hpc hl => exact absurd ⟨a, hpc, hl⟩ call
  | complete => exact ⟨[], by split <;> simp, by split <;> simp [BatchFrame.owedCalls, Multiset.zero_le]⟩
  | callbacks =>
    obtain ⟨_, hc⟩ := foldl_batchComplete (lastPerSub f.events) s
    exact ⟨[], by simp [hc], by simp [BatchFrame.owedCalls, Multiset.zero_le]⟩
  | _ => exact ⟨[], by simp [startAction, add], by simp [BatchFrame.owedCalls, ActionFrame.owedCalls, startAction, Multiset.zero_le]⟩

theorem batchProcessorStep_owedCalls {p : Processor} {q : Option Processor} (halt : s.suspendOrStop = true)
    (h : s.batchProcessorStep p e = some (s', q)) :
    ∃ l, s'.attempts = s.attempts ++ l ∧ ↑l + (q.map Processor.owedCalls).getD 0 ≤ p.owedCalls := by
  unfold batchProcessorStep at h
  split at h
  case h_4 f =>
    split at h <;> cases h <;> rename_i hf <;>
      simpa [Processor.owedCalls] using processBatchStep_owedCalls halt hf
  all_goals
    repeat' split at h
    all_goals cases h
    all_goals exact ⟨[], by simp [add], by simp [Processor.owedCalls, Multiset.zero_le]⟩

theorem BatchMove.control {f : BatchFrame} {q : Option BatchFrame} (m : BatchMove s f s' q) :
    s'.spec = s.spec ∧ s'.stopped = s.stopped ∧ s'.processors = s.processors := by
  cases m with
  | complete => split <;> exact ⟨rfl, rfl, rfl⟩
  | callbacks =>
    obtain ⟨_, hc⟩ := foldl_batchComplete (lastPerSub f.events) s
    simp [hc]
  | _ => simp [startAction, add]

theorem ProcessorMove.control {p : Processor} {q : Option Processor} (m : ProcessorMove s p s' q) :
    s'.spec = s.spec ∧ s'.stopped = s.stopped ∧ s'.processors = s.processors := by
  cases m with
  | frame _ _ _ m | frameReturn _ _ m => exact m.control
  | _ => simp [add]

theorem DispatcherMove.control {d : Dispatcher} {q : Option Dispatcher} (m : DispatcherMove s d s' q) :
    s'.spec = s.spec ∧ s'.stopped = s.stopped ∧ s'.attempts = s.attempts ∧ s'.owedCalls = s.owedCalls := by
  cases m with
  | exit => simp [dispatcherExit, owedCalls]
  | dispatch => exact ⟨rfl, rfl, rfl, broadcast_owedCalls _⟩
  | _ => exact ⟨rfl, rfl, rfl, rfl⟩

theorem updateEnd_control {i : Nat} {req : StreamInfo} (h : s.updateEnd lib i req = some s') :
    s'.spec.suspended = s.spec.suspended ∧ s'.stopped = s.stopped ∧ s'.attempts = s.attempts ∧
      s'.owedCalls = s.owedCalls := by
  unfold updateEnd at h
  split at h; · cases h
  split at h; · cases h
  dsimp only at h
  split at h
  · rename_i spec hr
    split at h <;> cases h
    exact ⟨updateSpec_suspended (by rw [hr]; rfl), rfl, rfl, startEventHandlers_owedCalls _ _⟩
  · rename_i spec hr
    cases h
    exact ⟨updateSpec_suspended (by rw [hr]; rfl), rfl, rfl, rfl⟩
  · cases h
    exact ⟨rfl, rfl, rfl, rfl⟩

/-- What a step does to the two flags and to the sink: `stopped` is never cleared, `suspended`
only by `resume`, and from a suspended or stopped stream every call it makes is one of the
calls owed, which it stops owing. -/
structure HaltStep (act : Act) (s s' : St) : Prop where
  stopped : s.stopped = true → s'.stopped = true
  suspended : act ≠ .resume → s.spec.suspended = true → s'.spec.suspended = true
  owed : s.suspendOrStop = true → ∃ l, s'.attempts = s.attempts ++ l ∧ ↑l + s'.owedCalls ≤ s.owedCalls

theorem HaltStep.of_eq {act : Act} (hs : s'.spec.suspended = s.spec.suspended) (ht : s'.stopped = s.stopped)
    (ha : s'.attempts = s.attempts) (ho : s'.owedCalls = s.owedCalls) : HaltStep act s s' :=
  ⟨fun h => ht ▸ h, fun _ h => hs ▸ h, fun _ => ⟨[], by simp [ha], by simp [ho]⟩⟩

theorem HaltStep.of_subsOnly {act : Act} (h : SubsOnly s s') : HaltStep act s s' := by
  obtain ⟨_, _, rfl⟩ := h
  exact .of_eq rfl rfl rfl rfl

theorem HaltStep.of_broadcast {act : Act} (h : s'.stopped = true ∨ s'.stopped = s.stopped)
    (hs : act ≠ .resume → s.spec.suspended = true → s'.spec.suspended = true)
    (ha : s'.attempts = s.attempts) (ho : s'.owedCalls = s.owedCalls) : HaltStep act s s' :=
  ⟨fun ht => h.elim id (· ▸ ht), hs, fun _ => ⟨[], by simp [ha], by simp [ho]⟩⟩

theorem haltStep {act : Act} (h : s.step lib chain act = some s') : HaltStep act s s' := by
  cases act with
  | poller =>
    obtain ⟨_, _, _, -, m, rfl⟩ := step_poller h
    rcases m.writes with ⟨_, _, _, _, _, rfl, -⟩ | ⟨rfl, -⟩
    · exact .of_eq rfl rfl rfl rfl
    · exact .of_eq (by simp) (by simp) (by simp) (by simp [owedCalls])
  | dispatcher =>
    obtain ⟨_, _, _, -, m, rfl⟩ := step_dispatcher h
    obtain ⟨hspec, hst, ha, ho⟩ := m.control
    exact .of_eq (by rw [hspec]) hst ha ho
  | processor i e =>
    simp only [step, Option.bind_eq_some, Option.map_eq_some'] at h
    obtain ⟨p, hp, ⟨s₁, q⟩, hr, rfl⟩ := h
    obtain ⟨hspec, hst, hps⟩ := (batchProcessorStep_move hr).control
    refine ⟨fun h => hst ▸ h, fun _ h => hspec ▸ h, fun halt => ?_⟩
    obtain ⟨l, hl, hle⟩ := batchProcessorStep_owedCalls halt hr
    have hsum := sum_map_replace_add Processor.owedCalls s.processors i hp q
    refine ⟨l, hl, le_of_add_le_add_right (a := (q.map Processor.owedCalls).getD 0) ?_⟩
    simp only [owedCalls, hps]
    calc ↑l + ((replace s.processors i q).map Processor.owedCalls).sum + (q.map Processor.owedCalls).getD 0
        = ((replace s.processors i q).map Processor.owedCalls).sum + (↑l + (q.map Processor.owedCalls).getD 0) := by
          rw [add_comm (↑l : Multiset (List Ev)), add_assoc]
      _ ≤ ((replace s.processors i q).map Processor.owedCalls).sum + p.owedCalls := add_le_add_left hle _
      _ = (s.processors.map Processor.owedCalls).sum + (q.map Processor.owedCalls).getD 0 := hsum
  | deliver =>
    obtain ⟨_, _, _, -, rfl⟩ := handleEvent_eq h
    exact .of_eq rfl rfl rfl rfl
  | suspend =>
    obtain rfl := suspend_eq h
    exact .of_broadcast (.inr rfl) (fun _ _ => rfl) rfl (broadcast_owedCalls _)
  | resume =>
    rcases resume_eq h with rfl | rfl
    · exact .of_eq rfl rfl rfl rfl
    · exact .of_broadcast (.inr rfl) (fun hr _ => absurd rfl hr) rfl
        ((broadcast_owedCalls _).trans (startEventHandlers_owedCalls _ _))
  | updateBegin =>
    rcases updateBegin_eq h with rfl | rfl <;> exact .of_eq rfl rfl rfl (broadcast_owedCalls _)
  | updateEnd =>
    obtain ⟨hs, ht, ha, ho⟩ := updateEnd_control h
    exact .of_eq hs ht ha ho
  | stop =>
    obtain ⟨_, rfl⟩ := stop_eq h
    exact .of_broadcast (.inl rfl) (fun _ h => h) rfl (broadcast_owedCalls _)
  | addSub => exact .of_subsOnly (addSub_subsOnly h)
  | resetSub => exact .of_subsOnly (resetSub_subsOnly h)
  | deleteSub => exact .of_subsOnly (deleteSub_subsOnly h)

theorem run_owedCalls {acts : List Act}
    (halted : s.stopped = true ∨ (s.spec.suspended = true ∧ ∀ a ∈ acts, a ≠ .resume))
    (h : s.run lib chain acts = some s') :
    ∃ l, s'.attempts = s.attempts ++ l ∧ ↑l + s'.owedCalls ≤ s.owedCalls := by
  induction acts generalizing s with
  | nil => cases h; exact ⟨[], by simp, by simp⟩
  | cons a rest ih =>
    simp only [run, Option.bind_eq_some] at h
    obtain ⟨s₁, h₁, h⟩ := h
    have k := haltStep h₁
    have halt : s.suspendOrStop = true := by
      rcases halted with hs | ⟨hs, -⟩ <;> simp [suspendOrStop, hs]
    obtain ⟨l₁, hl₁, hle₁⟩ := k.owed halt
    obtain ⟨l₂, hl₂, hle₂⟩ := ih (halted.imp k.stopped fun ⟨hs, hr⟩ =>
      ⟨k.suspended (hr a (.head _)) hs, fun b hb => hr b (.tail _ hb)⟩) h
    refine ⟨l₁ ++ l₂, by rw [hl₂, hl₁, List.append_assoc], ?_⟩
    calc ↑(l₁ ++ l₂) + s'.owedCalls = ↑l₁ + (↑l₂ + s'.owedCalls) := by rw [← Multiset.coe_add, add_assoc]
      _ ≤ ↑l₁ + s₁.owedCalls := add_le_add_left hle₂ _
      _ ≤ s.owedCalls := hle₁

end St

/-- Two events are handed and dispatched as one batch; the sink fails the first attempt and
`performActionWithRetry` enters its backoff delay. -/
def failedFirstAttempt : List Act :=
  [.poller 0 .next, .poller 0 .next, .poller 0 .next, .poller 0 .next, .poller 0 .next, .poller 0 .next,
   .dispatcher 0 .next, .deliver 0, .dispatcher 0 .next, .dispatcher 0 .next, .dispatcher 0 .next,
   .deliver 0, .dispatcher 0 .next, .dispatcher 0 .next,
   .processor 0 .next, .processor 0 .next, .processor 0 .next, .processor 0 .fail, .processor 0 .next]

set_option maxRecDepth 4000 in
/-- `suspend` returns while `performActionWithRetry` waits out its delay, on a stream with a
retry timeout of 30 seconds; when the delay ends it calls `attemptBatch` again, and the stream
is still suspended. -/
theorem suspended_stream_calls_sink :
    sampleStream.spec.retryTimeoutSec = 30 ∧
      ∃ s₀ s, St.Reachable Lib.ascii sampleChain sampleStream s₀ ∧ s₀.suspend = some s ∧
        ∃ s', St.Reachable Lib.ascii sampleChain s s' ∧ s'.spec.suspended = true ∧
          s'.attempts.length = s.attempts.length + 1 := by
  obtain ⟨s₀, hr, hp⟩ := reach_of_run (show (sampleStream.run Lib.ascii sampleChain failedFirstAttempt).map
    (fun s => (s.suspend.map fun s => (s.run Lib.ascii sampleChain [.processor 0 .timer, .processor 0 .next]).map
      fun s' => s'.spec.suspended && s'.attempts.length == s.attempts.length + 1) == some (some true)) =
      some true by decide)
  simp only [beq_iff_eq] at hp
  obtain ⟨s, hs, hp⟩ := Option.map_eq_some'.mp hp
  obtain ⟨s', hr', hp'⟩ := reach_of_run hp
  simp only [Bool.and_eq_true, beq_iff_eq] at hp'
  exact ⟨rfl, s₀, s, hr, hs, s', hr', hp'.1, hp'.2⟩

/-- After `suspend` returns, and until a `resume`, every call of the sink sends the batch of a
`performActionWithRetry` frame that was in its backoff delay or about to call when `suspend`
was called, at most once for each such frame. -/
theorem suspend_bounds_sink_calls {lib : Lib} {chain : List Ev} {s s₁ s' : St} {acts : List Act}
    (hs : s.suspend = some s₁) (hr : ∀ a ∈ acts, a ≠ .resume) (h : s₁.run lib chain acts = some s') :
    ∃ calls, s'.attempts = s.attempts ++ calls ∧ (calls : Multiset (List Ev)) ≤ s.owedCalls := by
  obtain rfl := St.suspend_eq hs
  obtain ⟨l, hl, hle⟩ := St.run_owedCalls (.inr ⟨rfl, hr⟩) h
  exact ⟨l, hl, ((Multiset.le_add_right _ _).trans hle).trans (St.broadcast_owedCalls _).le⟩

set_option maxRecDepth 4000 in
/-- There the stream owes the one batch in the delay when `suspend` returns, and sends it. -/
theorem suspended_backoff_owes_one_call :
    ∃ s₀ s s', sampleStream.run Lib.ascii sampleChain failedFirstAttempt = some s₀ ∧ s₀.suspend = some s ∧
      (∀ a ∈ [Act.processor 0 .timer, .processor 0 .next], a ≠ .resume) ∧
      s.run Lib.ascii sampleChain [.processor 0 .timer, .processor 0 .next] = some s' ∧
      s₀.owedCalls = {[⟨0, 0, 0⟩, ⟨0, 0, 1⟩]} ∧ s'.attempts = s₀.attempts ++ [[⟨0, 0, 0⟩, ⟨0, 0, 1⟩]] ∧
      ∃ calls, s'.attempts = s₀.attempts ++ calls ∧ (calls : Multiset (List Ev)) ≤ s₀.owedCalls := by
  obtain ⟨s₀, h₀, hp⟩ := Option.map_eq_some'.mp (show (sampleStream.run Lib.ascii sampleChain failedFirstAttempt).map
    (fun s₀ => decide (s₀.owedCalls = {[⟨0, 0, 0⟩, ⟨0, 0, 1⟩]}) && (s₀.suspend.bind fun s => s.run Lib.ascii sampleChain
      [.processor 0 .timer, .processor 0 .next]).map (·.attempts) == some (s₀.attempts ++ [[⟨0, 0, 0⟩, ⟨0, 0, 1⟩]])) =
      some true by decide)
  simp only [Bool.and_eq_true, decide_eq_true_eq, beq_iff_eq, Option.map_eq_some', Option.bind_eq_some] at hp
  obtain ⟨owed, s', ⟨s, hs, h'⟩, calls⟩ := hp
  exact ⟨s₀, s, s', h₀, hs, by simp, h', owed, calls, suspend_bounds_sink_calls hs (by simp) h'⟩

/-- After `stop` returns the sink is called at most once for each frame that owed a call, on
every run, `resume` included. -/
theorem stop_bounds_sink_calls {lib : Lib} {chain : List Ev} {s s₁ s' : St} {acts : List Act}
    (hs : s.stop = some s₁) (h : s₁.run lib chain acts = some s') :
    s'.attempts.length ≤ s.attempts.length + s.owed := by
  obtain ⟨_, rfl⟩ := St.stop_eq hs
  obtain ⟨l, hl, hle⟩ := St.run_owedCalls (.inl rfl) h
  have hc := Multiset.card_le_card (((Multiset.le_add_right _ _).trans hle).trans (St.broadcast_owedCalls _).le)
  have ho : ({ s with stopped := true } : St).owed = s.owed := rfl
  rw [Multiset.coe_card, St.card_owedCalls, ho] at hc
  simp only [hl, List.length_append, St.broadcast]
  omega

set_option maxRecDepth 4000 in
/-- A `resume` after `stop` does not let the frame call more than it owed. -/
theorem stopped_backoff_owes_one_call :
    ∃ s₀ s s', sampleStream.run Lib.ascii sampleChain failedFirstAttempt = some s₀ ∧ s₀.stop = some s ∧
      s.run Lib.ascii sampleChain [.resume, .processor 0 .timer, .processor 0 .next] = some s' ∧ s₀.owed = 1 ∧
      s'.attempts.length = s₀.attempts.length + 1 ∧ s'.attempts.length ≤ s₀.attempts.length + s₀.owed := by
  obtain ⟨s₀, h₀, hp⟩ := Option.map_eq_some'.mp (show (sampleStream.run Lib.ascii sampleChain failedFirstAttempt).map
    (fun s₀ => s₀.owed == 1 && (s₀.stop.bind fun s => s.run Lib.ascii sampleChain
      [.resume, .processor 0 .timer, .processor 0 .next]).map (·.attempts.length) ==
        some (s₀.attempts.length + 1)) = some true by decide)
  simp only [Bool.and_eq_true, beq_iff_eq, Option.map_eq_some', Option.bind_eq_some] at hp
  obtain ⟨owed, s', ⟨s, hs, h'⟩, calls⟩ := hp
  exact ⟨s₀, s, s', h₀, hs, h', owed, calls, stop_bounds_sink_calls hs h'⟩

end FabconnectEvents
