import FabconnectEvents.Pipeline.InFlight

/-!
The WaitGroup an `update` waits on. `startEventHandlers` counts the poller, the processor and,
unless resuming, the dispatcher into a fresh WaitGroup, and each of them calls `Done` on the
one it started with; `batchProcessor`, `processBatch` and `performActionWithRetry` add to the
current one. A WaitGroup none of the live goroutines holds never moves again, so an `update`
waiting on it with a counter above zero never returns. The processor returns on a suspend
without its `Done`, and a resume starts no dispatcher and no WaitGroup entry for the one still
running: the schedules at the end follow from these two.
-/
namespace FabconnectEvents

/-- The WaitGroups a `processBatch` frame and its `performActionWithRetry` call will call
`Done` on. -/
def BatchFrame.wgs (f : BatchFrame) : List Nat :=
  f.wg :: match f.pc with
    | .action a => [a.wg]
    | _ => []

def Processor.wgs : Processor → List Nat
  | .batch f => f.wgs
  | _ => []

namespace St
variable {s s' : St} {e : Env} {g : Nat}

theorem add_counter_of_ne {g' : Nat} {d : Int} (h : g ≠ g') : (s.add g' d).counter g = s.counter g := by
  simp [add, h]

theorem done_counter_of_ne {g' : Nat} (h : g ≠ g') : (s.done g').counter g = s.counter g := by
  unfold done; split <;> exact add_counter_of_ne h

theorem DispatcherMove.counter {d : Dispatcher} {q : Option Dispatcher} (m : DispatcherMove s d s' q)
    (hg : g ≠ d.wg) :
    s'.counter g = s.counter g ∧ s'.gen = s.gen ∧ s'.updates = s.updates ∧ s'.pollers = s.pollers ∧
      (s'.processors = s.processors ∨ s'.processors = s.broadcast.processors) ∧
      ∀ d', q = some d' → d'.wg = d.wg := by
  cases m with
  | exit => simp [dispatcherExit, done_counter_of_ne hg]
  | dispatch => simp [broadcast]
  | _ => simp

theorem BatchMove.counter {f : BatchFrame} {q : Option BatchFrame} (m : BatchMove s f s' q)
    (hg : g ≠ s.gen) (hf : g ∉ f.wgs) :
    s'.counter g = s.counter g ∧ s'.gen = s.gen ∧ s'.updates = s.updates ∧ s'.pollers = s.pollers ∧
      s'.dispatchers = s.dispatchers ∧ s'.processors = s.processors ∧ ∀ f', q = some f' → g ∉ f'.wgs := by
  have hw : g ≠ f.wg := fun h => hf (h ▸ List.mem_cons_self _ _)
  cases m with
  | attempt => simp [startAction, add, BatchFrame.wgs, hg, hw]
  | action a a' _ _ hpc _ ha => simp_all [BatchFrame.wgs]
  | acked a hpc | skipped a hpc | retry a hpc =>
    have : g ≠ a.wg := (by simpa [BatchFrame.wgs, hpc] using hf : g ≠ f.wg ∧ g ≠ a.wg).2
    simp [done_counter_of_ne this, BatchFrame.wgs, hw]
  | complete => cases s.suspendOrStop <;> split <;> simp [BatchFrame.wgs, hw]
  | callbacks =>
    obtain ⟨_, hc⟩ := foldl_batchComplete (lastPerSub f.events) s
    simp [hc, BatchFrame.wgs, hw]
  | leave => simp [done_counter_of_ne hw]
  | _ => simp [BatchFrame.wgs, hw]

theorem ProcessorMove.counter {p : Processor} {q : Option Processor} (m : ProcessorMove s p s' q)
    (hg : g ≠ s.gen) (hp : g ∉ p.wgs) :
    s'.counter g = s.counter g ∧ s'.gen = s.gen ∧ s'.updates = s.updates ∧ s'.pollers = s.pollers ∧
      s'.dispatchers = s.dispatchers ∧ s'.processors = s.processors ∧ ∀ p', q = some p' → g ∉ p'.wgs := by
  cases m with
  | wait => split <;> simp [Processor.wgs]
  | pop b => cases b <;> simp [Processor.wgs, BatchFrame.wgs, add, hg]
  | interrupt => simp [done_counter_of_ne hg, Processor.wgs]
  | frame f f' _ m =>
    obtain ⟨h1, h2, h3, h4, h5, h6, h7⟩ := m.counter hg hp
    exact ⟨h1, h2, h3, h4, h5, h6, by rintro _ ⟨⟩; exact h7 f' rfl⟩
  | frameReturn f _ m =>
    obtain ⟨h1, h2, h3, h4, h5, h6, -⟩ := m.counter hg hp
    exact ⟨h1, h2, h3, h4, h5, h6, by rintro _ ⟨⟩; simp [Processor.wgs]⟩
  | _ => simp [Processor.wgs]

end St

/-- No live goroutine will call `Done` on the WaitGroup of generation `g`, whose counter is
`c`, and an `update` waits on it. -/
structure Orphaned (g : Nat) (c : Int) (s : St) : Prop where
  counter : s.counter g = c
  past : g ≤ s.gen
  idle : s.gen = g → s.processors = []
  waiting : g ∈ s.updates
  pollers : ∀ p ∈ s.pollers, g ≠ p.wg
  dispatchers : ∀ d ∈ s.dispatchers, g ≠ d.wg
  processors : ∀ p ∈ s.processors, g ∉ p.wgs

namespace Orphaned
variable {g : Nat} {c : Int} {s s' : St}

theorem broadcast (o : Orphaned g c s) : Orphaned g c s.broadcast where
  __ := o
  idle h := by simp [St.broadcast, o.idle h]
  processors p m := by
    simp only [St.broadcast, List.mem_map] at m
    obtain ⟨p', m', rfl⟩ := m
    split
    · simp [Processor.wgs]
    · exact o.processors p' m'

theorem startEventHandlers (o : Orphaned g c s) (resume : Bool) :
    Orphaned g c (s.startEventHandlers resume) where
  counter := by simp [St.startEventHandlers, o.counter, show g ≠ s.gen + 1 by have := o.past; omega]
  past := Nat.le_succ_of_le o.past
  idle h := absurd h (by simp [St.startEventHandlers]; have := o.past; omega)
  waiting := o.waiting
  pollers p m := by
    simp only [St.startEventHandlers, List.mem_append, List.mem_singleton] at m
    rcases m with m | rfl
    · exact o.pollers p m
    · have := o.past; simp; omega
  dispatchers d m := by
    cases resume <;> simp only [St.startEventHandlers, if_true, if_false, Bool.false_eq_true,
      List.mem_append, List.mem_singleton] at m
    · rcases m with m | rfl
      · exact o.dispatchers d m
      · have := o.past; simp; omega
    · exact o.dispatchers d m
  processors p m := by
    simp only [St.startEventHandlers, List.mem_append, List.mem_singleton] at m
    rcases m with m | rfl
    · exact o.processors p m
    · simp [Processor.wgs]

theorem of_frame (o : Orphaned g c s) (hc : s'.counter g = s.counter g) (hg : s'.gen = s.gen)
    (hu : s'.updates = s.updates) (hi : s.processors = [] → s'.processors = [])
    (hp : ∀ p ∈ s'.pollers, g ≠ p.wg) (hd : ∀ d ∈ s'.dispatchers, g ≠ d.wg)
    (hq : ∀ p ∈ s'.processors, g ∉ p.wgs) : Orphaned g c s' where
  counter := hc.trans o.counter
  past := hg ▸ o.past
  idle h := hi (o.idle (hg ▸ h))
  waiting := hu ▸ o.waiting
  pollers := hp
  dispatchers := hd
  processors := hq

theorem subsOnly (o : Orphaned g c s) (h : St.SubsOnly s s') : Orphaned g c s' := by
  obtain ⟨_, _, rfl⟩ := h
  exact { o with }

theorem mem_broadcast {s : St} {p : Processor} (m : p ∈ s.broadcast.processors) :
    p ∈ s.processors ∨ p = .top := by
  simp only [St.broadcast, List.mem_map] at m
  obtain ⟨p', m', rfl⟩ := m
  split
  · exact .inr rfl
  · exact .inl m'

theorem poller (o : Orphaned g c s) {i : Nat} {p : Poller} {s₁ : St} {q : Option Poller}
    (hp : s.pollers.get? i = some p) (m : St.PollerMove s p s₁ q) :
    Orphaned g c { s₁ with pollers := replace s₁.pollers i q } := by
  have hw := o.pollers p (List.get?_mem hp)
  rcases m.writes with ⟨_, _, _, _, _, rfl, p', rfl, hq⟩ | ⟨rfl, rfl⟩
  · refine o.of_frame rfl rfl rfl id (fun x m => ?_) o.dispatchers o.processors
    rcases mem_replace (show x ∈ replace s.pollers i (some p') from m) with m | ⟨⟨⟩⟩
    · exact o.pollers x m
    · exact hq ▸ hw
  · refine o.of_frame (St.done_counter_of_ne hw) (St.done_gen _ _) (St.done_updates _ _) (by simp)
      (fun x m => ?_) (by simpa using o.dispatchers) (by simpa using o.processors)
    rcases mem_replace (show x ∈ replace (s.done p.wg).pollers i none from m) with m | ⟨⟨⟩⟩
    exact o.pollers x (St.done_pollers s p.wg ▸ m)

theorem dispatcher (o : Orphaned g c s) {i : Nat} {d : Dispatcher} {s₁ : St} {q : Option Dispatcher}
    (hd : s.dispatchers.get? i = some d) (m : St.DispatcherMove s d s₁ q) :
    Orphaned g c { s₁ with dispatchers := replace s₁.dispatchers i q } := by
  have hw := o.dispatchers d (List.get?_mem hd)
  obtain ⟨hc, hg, hu, hp, hq, hq'⟩ := m.counter hw
  have hds := m.balance.1
  refine o.of_frame hc hg hu ?_ (hp ▸ o.pollers) (fun x m => ?_) ?_
  · rcases hq with hq | hq <;> simp_all [St.broadcast]
  · rcases mem_replace (show x ∈ replace s₁.dispatchers i q from m) with m | rfl
    · exact o.dispatchers x (hds ▸ m)
    · exact hq' x rfl ▸ hw
  · intro x m
    rcases hq with hq | hq
    · exact o.processors x (hq ▸ m)
    · rcases mem_broadcast (hq ▸ m : x ∈ s.broadcast.processors) with m | rfl
      · exact o.processors x m
      · simp [Processor.wgs]

theorem processor (o : Orphaned g c s) {i : Nat} {p : Processor} {s₁ : St} {q : Option Processor}
    (hp : s.processors.get? i = some p) (m : St.ProcessorMove s p s₁ q) :
    Orphaned g c { s₁ with processors := replace s₁.processors i q } := by
  have busy : g ≠ s.gen := fun hg => by simp [o.idle hg.symm] at hp
  obtain ⟨hc, hg, hu, hps, hds, hq, hq'⟩ := m.counter busy (o.processors p (List.get?_mem hp))
  refine o.of_frame hc hg hu (fun h' => by simp [h'] at hp) (hps ▸ o.pollers) (hds ▸ o.dispatchers) (fun x m => ?_)
  rcases mem_replace (show x ∈ replace s₁.processors i q from m) with m | rfl
  · exact o.processors x (hq ▸ m)
  · exact hq' x rfl

theorem waiting_eraseIdx (o : Orphaned g c s) (hc : c ≠ 0) {i g' : Nat} (hi : s.updates.get? i = some g')
    (h0 : s.counter g' = 0) : g ∈ s.updates.eraseIdx i := by
  obtain ⟨j, hj⟩ := List.getElem?_of_mem o.waiting
  refine List.mem_eraseIdx_iff_getElem?.mpr ⟨j, fun hji => ?_, hj⟩
  subst hji
  rw [List.get?_eq_getElem?, hj] at hi
  cases hi
  exact hc (o.counter ▸ h0)

theorem step {lib : Lib} {chain : List Ev} {act : Act} (o : Orphaned g c s) (hc : c ≠ 0)
    (h : s.step lib chain act = some s') : Orphaned g c s' := by
  cases act with
  | poller =>
    obtain ⟨_, _, _, hp, m, rfl⟩ := St.step_poller h
    exact o.poller hp m
  | dispatcher =>
    obtain ⟨_, _, _, hd, m, rfl⟩ := St.step_dispatcher h
    exact o.dispatcher hd m
  | processor =>
    obtain ⟨_, _, _, hp, m, rfl⟩ := St.step_processor h
    exact o.processor hp m
  | deliver =>
    obtain ⟨_, _, _, -, rfl⟩ := St.handleEvent_eq h
    exact { o with }
  | suspend =>
    obtain rfl := St.suspend_eq h
    exact Orphaned.broadcast { o with }
  | resume =>
    rcases St.resume_eq h with rfl | rfl
    · exact o
    · refine Orphaned.broadcast (Orphaned.startEventHandlers ?_ true)
      exact { o with }
  | updateBegin =>
    rcases St.updateBegin_eq h with rfl | rfl
    · exact { o.broadcast with }
    · exact { o.broadcast with waiting := List.mem_append_left _ o.waiting }
  | updateEnd =>
    obtain ⟨_, _, hi, h0, rfl | rfl⟩ := St.updateEnd_eq h
    · refine Orphaned.startEventHandlers ?_ false
      exact { o with waiting := o.waiting_eraseIdx hc hi h0 }
    · exact { o with waiting := o.waiting_eraseIdx hc hi h0 }
  | stop =>
    obtain ⟨_, rfl⟩ := St.stop_eq h
    exact { o.broadcast with }
  | addSub => exact o.subsOnly (St.addSub_subsOnly h)
  | resetSub => exact o.subsOnly (St.resetSub_subsOnly h)
  | deleteSub => exact o.subsOnly (St.deleteSub_subsOnly h)

end Orphaned

theorem St.Reachable.orphaned {lib : Lib} {chain : List Ev} {g : Nat} {c : Int} {s₀ s : St}
    (h : St.Reachable lib chain s₀ s) (h₀ : Orphaned g c s₀) (hc : c ≠ 0) : Orphaned g c s := by
  induction h with
  | start => exact h₀
  | step _ _ hs ih => exact ih.step hc hs

/-- Suspend, then update: the processor returns on the suspend without calling `Done`, so the
update waits on a WaitGroup that stays at one. -/
def updateWhileSuspended : List Act :=
  [.suspend, .poller 0 .next, .poller 0 .next, .poller 0 .next, .poller 0 .next,
   .processor 0 .next, .processor 0 .next, .updateBegin, .dispatcher 0 .next, .dispatcher 0 .interrupt]

theorem suspended_update_never_returns :
    ∃ s, St.Reachable Lib.ascii sampleChain sampleStream s ∧ s.spec.suspended = true ∧ s.updates = [1] ∧
      ∀ s', St.Reachable Lib.ascii sampleChain s s' → s'.counter 1 = 1 ∧ 1 ∈ s'.updates := by
  obtain ⟨s, hr, hp⟩ := reach_of_run (show (sampleStream.run Lib.ascii sampleChain updateWhileSuspended).map
    (fun s => s.spec.suspended && s.updates == [1] && s.counter 1 == 1 && s.gen == 1 &&
      s.pollers.isEmpty && s.dispatchers.isEmpty && s.processors.isEmpty) = some true by decide)
  simp only [Bool.and_eq_true, beq_iff_eq, List.isEmpty_iff] at hp
  obtain ⟨⟨⟨⟨⟨⟨suspended, updates⟩, counter⟩, gen⟩, pollers⟩, dispatchers⟩, processors⟩ := hp
  have o : Orphaned 1 1 s :=
    { counter, past := gen.ge, idle := fun _ => processors, waiting := by simp [updates],
      pollers := by simp [pollers], dispatchers := by simp [dispatchers], processors := by simp [processors] }
  refine ⟨s, hr, suspended, updates, fun _ h' => ?_⟩
  have o' := h'.orphaned o (by decide)
  exact ⟨o'.counter, o'.waiting⟩

/-- Suspend while the dispatcher waits, resume (which starts no dispatcher), then update: the
old dispatcher waits on the first interrupt, which is never closed, and the update starts a
second one. -/
def resumeThenUpdate : List Act :=
  [.dispatcher 0 .next, .suspend,
   .poller 0 .next, .poller 0 .next, .poller 0 .next, .poller 0 .next,
   .processor 0 .next, .processor 0 .next,
   .resume,
   .poller 0 .next, .poller 0 .next, .poller 0 .next, .poller 0 .next, .poller 0 .next, .poller 0 .next,
   .updateBegin,
   .poller 0 .interrupt, .poller 0 .next, .poller 0 .next, .poller 0 .next,
   .processor 0 .next, .processor 0 .interrupt, .processor 0 .next,
   .updateEnd 0 (resize 0)]

theorem resumed_stream_runs_two_dispatchers :
    ∃ s, St.Reachable Lib.ascii sampleChain sampleStream s ∧ s.dispatchers.map (·.wg) = [1, 3] ∧ s.gen = 3 := by
  obtain ⟨s, hr, hp⟩ := reach_of_run (show (sampleStream.run Lib.ascii sampleChain resumeThenUpdate).map
    (fun s => s.dispatchers.map (·.wg) == [1, 3] && s.gen == 3) = some true by decide)
  simp only [Bool.and_eq_true, beq_iff_eq] at hp
  exact ⟨s, hr, hp⟩

/-- The two dispatchers take turns on the event channel: the old one receives the first and the
third event, the new one the second, and the old one's batch reaches the sink first. -/
def splitBatch : List Act := resumeThenUpdate ++
  [.deliver 0, .dispatcher 0 .next, .dispatcher 0 .next, .dispatcher 0 .next, .dispatcher 1 .next,
   .deliver 0, .dispatcher 1 .next, .dispatcher 1 .next,
   .deliver 0, .dispatcher 0 .next, .dispatcher 0 .next,
   .processor 0 .next, .processor 0 .next, .processor 0 .next, .processor 0 .next]

theorem resumed_stream_splits_batches :
    ∃ s, St.Reachable Lib.ascii sampleChain sampleStream s ∧
      s.handed = [⟨0, 0, 0⟩, ⟨0, 0, 1⟩, ⟨0, 1, 0⟩] ∧ s.attempts = [[⟨0, 0, 0⟩, ⟨0, 1, 0⟩]] := by
  obtain ⟨s, hr, hp⟩ := reach_of_run (show (sampleStream.run Lib.ascii sampleChain splitBatch).map
    (fun s => s.handed == [⟨0, 0, 0⟩, ⟨0, 0, 1⟩, ⟨0, 1, 0⟩] && s.attempts == [[⟨0, 0, 0⟩, ⟨0, 1, 0⟩]]) =
      some true by decide)
  simp only [Bool.and_eq_true, beq_iff_eq] at hp
  exact ⟨s, hr, hp⟩

end FabconnectEvents
