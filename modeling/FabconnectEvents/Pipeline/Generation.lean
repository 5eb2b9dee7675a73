import FabconnectEvents.Pipeline.Control

/-!
The generations of a stream that is never resumed. `startEventHandlers` counts a poller, a
processor and a dispatcher into a fresh WaitGroup, and an `update` starts the next generation
only once that WaitGroup is at zero, that is once every goroutine of the last generation has
called `Done`. So a stream that is never resumed runs at most one poller, one dispatcher and one
processor that has not returned, all of the current generation, and every `Done` lands on the
WaitGroup its goroutine was counted into: no counter goes below zero. The processor that returns
on a suspend without its `Done` only leaves the counter above what the goroutines owe.
-/
namespace FabconnectEvents

theorem replace_split {α : Type} {l : List α} {i : Nat} {x : α} (h : l.get? i = some x) (q : Option α) :
    l = l.take i ++ x :: l.drop (i + 1) ∧ replace l i q = l.take i ++ q.toList ++ l.drop (i + 1) := by
  rw [List.get?_eq_getElem?, List.getElem?_eq_some_iff] at h
  obtain ⟨hi, rfl⟩ := h
  refine ⟨by rw [← List.drop_eq_getElem_cons hi, List.take_append_drop], ?_⟩
  cases q <;> simp [replace, List.eraseIdx_eq_take_drop_succ, List.set_eq_take_append_cons_drop, hi]

theorem length_replace {α : Type} {l : List α} {i : Nat} {x : α} (h : l.get? i = some x) (q : Option α) :
    (replace l i q).length + 1 = l.length + q.toList.length := by
  obtain ⟨hl, hr⟩ := replace_split h q
  have := congrArg List.length hl
  simp only [hr, List.length_append, List.length_cons] at this ⊢
  omega

/-- The `Done` calls a processor still owes: its own until it returns from `batchProcessor`, and
those of its `processBatch` and `performActionWithRetry` frames. -/
def Processor.owes : Processor → Nat
  | .batch f => 1 + f.wgs.length
  | .top | .condWait | .intrWait _ => 1
  | .done => 0

def Processor.running : Processor → Nat
  | .top | .condWait | .intrWait _ | .batch _ => 1
  | .done => 0

namespace St
variable {s s' : St} {e : Env} {g : Nat}

def owes (s : St) : Nat := s.pollers.length + s.dispatchers.length + (s.processors.map Processor.owes).sum

def running (s : St) : Nat := (s.processors.map Processor.running).sum

@[simp] theorem add_counter_self (d : Int) : (s.add g d).counter g = s.counter g + d := by simp [add]

@[simp] theorem add_closed (d : Int) : (s.add g d).closed = s.closed := rfl

@[simp] theorem done_counter_self : (s.done g).counter g = s.counter g - 1 := by
  unfold done; split <;> simp [Int.sub_eq_add_neg]

theorem broadcast_map {α : Type} (f : Processor → α) (h : f .condWait = f .top) :
    s.broadcast.processors.map f = s.processors.map f := by
  simp only [broadcast, List.map_map]
  apply List.map_congr_left
  intro p _
  simp only [Function.comp]
  split <;> simp_all

@[simp] theorem broadcast_owes (s : St) : s.broadcast.owes = s.owes := by
  simp only [owes, broadcast_map Processor.owes rfl]; rfl

@[simp] theorem broadcast_running (s : St) : s.broadcast.running = s.running := by
  simp only [running, broadcast_map Processor.running rfl]

theorem DispatcherMove.gen_counter {d : Dispatcher} {q : Option Dispatcher} (m : DispatcherMove s d s' q) :
    s'.counter d.wg + 1 = s.counter d.wg + q.toList.length ∧ s'.closed = s.closed ∧
      ∀ {α : Type} (f : Processor → α), f .condWait = f .top → s'.processors.map f = s.processors.map f := by
  cases m with
  | exit => simp [dispatcherExit]
  | dispatch => exact ⟨by simp [broadcast], rfl, fun f h => broadcast_map f h⟩
  | _ => simp

theorem BatchMove.gen_counter {f : BatchFrame} {q : Option BatchFrame} (m : BatchMove s f s' q)
    (hf : ∀ g ∈ f.wgs, g = s.gen) :
    s'.counter s.gen + f.wgs.length = s.counter s.gen + (q.map (·.wgs.length)).getD 0 ∧
      (∀ f', q = some f' → ∀ g ∈ f'.wgs, g = s.gen) ∧ s'.closed = s.closed := by
  have hw₀ : f.wg = s.gen := hf _ (List.mem_cons_self _ _)
  cases m with
  | attempt hpc =>
    rcases hpc with hpc | ⟨_, hpc⟩ <;> simp [startAction, BatchFrame.wgs, hpc, hw₀] <;> omega
  | action a a' _ _ hpc _ ha => simp_all [BatchFrame.wgs]
  | acked a hpc | skipped a hpc | retry a hpc =>
    have hw : a.wg = s.gen := hf _ (by simp [BatchFrame.wgs, hpc])
    simp [BatchFrame.wgs, hpc, hw, hw₀]
    omega
  | complete hpc => cases s.suspendOrStop <;> split <;> simp_all [BatchFrame.wgs]
  | callbacks hpc =>
    obtain ⟨_, hc⟩ := foldl_batchComplete (lastPerSub f.events) s
    simp_all [BatchFrame.wgs]
  | leave hpc => simp [BatchFrame.wgs, hpc, hw₀]
  | _ => simp_all [BatchFrame.wgs]

theorem ProcessorMove.gen_counter {p : Processor} {q : Option Processor} (m : ProcessorMove s p s' q)
    (hp : ∀ g ∈ p.wgs, g = s.gen) :
    (s'.counter s.gen + p.owes = s.counter s.gen + (q.map Processor.owes).getD 0 ∨
        s.suspendOrStop = true ∧ s.counter s.gen + (q.map Processor.owes).getD 0 ≤ s'.counter s.gen + p.owes) ∧
      (∀ p', q = some p' → ∀ g ∈ p'.wgs, g = s.gen) ∧ (q.map Processor.running).getD 0 ≤ p.running ∧
      s'.closed = s.closed := by
  cases m with
  | wait => split <;> simp [Processor.owes, Processor.running, Processor.wgs]
  | suspended _ hs => simp [Processor.owes, Processor.running, Processor.wgs, hs]
  | pop b => cases b <;> simp [Processor.owes, Processor.running, Processor.wgs, BatchFrame.wgs] <;> omega
  | frame f f' _ m =>
    obtain ⟨hc, hq, hcl⟩ := m.gen_counter hp
    simp only [Option.map_some', Option.getD_some] at hc
    refine ⟨.inl (by simp only [Processor.owes, Option.map_some', Option.getD_some]; omega), ?_,
      by simp [Processor.running], hcl⟩
    rintro _ ⟨⟩
    exact hq f' rfl
  | frameReturn f _ m =>
    obtain ⟨hc, -, hcl⟩ := m.gen_counter hp
    simp only [Option.map_none', Option.getD_none] at hc
    refine ⟨.inl (by simp only [Processor.owes, Option.map_some', Option.getD_some]; omega), ?_,
      by simp [Processor.running], hcl⟩
    rintro _ ⟨⟩
    simp [Processor.wgs]
  | _ => simp [Processor.owes, Processor.running, Processor.wgs]

theorem updateBegin_closed (h : s.updateBegin = some s') (hc : s.gen ∈ s.closed) : s'.updates = s.updates := by
  unfold updateBegin at h
  split at h; · cases h
  dsimp only at h
  rw [if_pos (by simpa [broadcast] using hc)] at h
  cases h
  rfl

end St

/-- Every live goroutine belongs to the current generation, whose WaitGroup counts at least the
`Done` calls they owe, and exactly those until a suspend or a stop; no other WaitGroup is below
zero; an `update` waits only on the current generation, after closing its interrupt; and there is
at most one poller, one dispatcher and one processor that has not returned. -/
structure Current (s : St) : Prop where
  pollers : ∀ p ∈ s.pollers, p.wg = s.gen
  dispatchers : ∀ d ∈ s.dispatchers, d.wg = s.gen
  frames : ∀ p ∈ s.processors, ∀ g ∈ p.wgs, g = s.gen
  counted : (s.owes : Int) ≤ s.counter s.gen
  exact : s.suspendOrStop = false → s.counter s.gen = s.owes
  settled : ∀ g, g ≠ s.gen → 0 ≤ s.counter g
  updates : s.updates = [] ∨ s.updates = [s.gen] ∧ s.gen ∈ s.closed
  onePoller : s.pollers.length ≤ 1
  oneDispatcher : s.dispatchers.length ≤ 1
  oneProcessor : s.running ≤ 1

namespace Current
variable {s s' s₁ : St} {i : Nat}

theorem idle (c : Current s) (h0 : s.counter s.gen = 0) :
    s.pollers = [] ∧ s.dispatchers = [] ∧ ∀ p ∈ s.processors, p = .done := by
  have := c.counted
  simp only [St.owes] at this
  refine ⟨List.length_eq_zero.mp (by omega), List.length_eq_zero.mp (by omega), fun p m => ?_⟩
  have := List.le_sum_of_mem (List.mem_map_of_mem Processor.owes m)
  have hp : p.owes = 0 := by omega
  cases p <;> simp [Processor.owes] at hp ⊢

theorem waiting (c : Current s) {j g : Nat} (hi : s.updates.get? j = some g) :
    j = 0 ∧ g = s.gen ∧ s.updates.eraseIdx j = [] := by
  obtain ⟨hu, -⟩ := c.updates.resolve_left fun hu => by simp [hu] at hi
  rw [hu] at hi ⊢
  cases j <;> simp_all

theorem startEventHandlers (hp : s.pollers = []) (hd : s.dispatchers = []) (hq : ∀ p ∈ s.processors, p = .done)
    (hu : s.updates = []) (hz : ∀ g, 0 ≤ s.counter g) : Current (s.startEventHandlers false) := by
  have zero : ∀ f : Processor → Nat, f .done = 0 → (s.processors.map f).sum = 0 := fun f h0 =>
    List.sum_eq_zero fun x m => by
      obtain ⟨p, mp, rfl⟩ := List.mem_map.mp m
      rw [hq p mp, h0]
  have counted : (s.startEventHandlers false).counter (s.startEventHandlers false).gen =
      (s.startEventHandlers false).owes := by
    simp [St.owes, St.startEventHandlers, hp, hd, zero Processor.owes rfl, Processor.owes]
  refine ⟨?_, ?_, fun p m => ?_, counted.ge, fun _ => counted, fun g hg => ?_, .inl hu, ?_, ?_, ?_⟩
  · simp [St.startEventHandlers, hp]
  · simp [St.startEventHandlers, hd]
  · simp only [St.startEventHandlers, List.mem_append, List.mem_singleton] at m
    rcases m with m | rfl
    · simp [hq p m, Processor.wgs]
    · simp [Processor.wgs]
  · simp only [St.startEventHandlers] at hg ⊢
    simp [hg, hz]
  · simp [St.startEventHandlers, hp]
  · simp [St.startEventHandlers, hd]
  · simp [St.running, St.startEventHandlers, zero Processor.running rfl, Processor.running]

theorem start (spec : StreamInfo) (subs : List Sub) (stored : List (Nat × Nat)) :
    Current (St.start spec subs stored) :=
  startEventHandlers rfl rfl (by simp [St.empty]) rfl fun _ => le_rfl

theorem mono (c : Current s) (hg : s'.gen = s.gen) (hcl : s'.closed = s.closed) (hu : s'.updates = s.updates)
    (hp : ∀ p ∈ s'.pollers, p.wg = s.gen) (hd : ∀ d ∈ s'.dispatchers, d.wg = s.gen)
    (hf : ∀ p ∈ s'.processors, ∀ g ∈ p.wgs, g = s.gen)
    (hc : s'.counter s.gen - s'.owes = s.counter s.gen - s.owes ∨
      s.suspendOrStop = true ∧ s.counter s.gen - s.owes ≤ s'.counter s.gen - s'.owes)
    (hso : s'.suspendOrStop = s.suspendOrStop) (ho : ∀ g, g ≠ s.gen → s'.counter g = s.counter g)
    (lp : s'.pollers.length ≤ s.pollers.length) (ld : s'.dispatchers.length ≤ s.dispatchers.length)
    (lr : s'.running ≤ s.running) : Current s' where
  pollers := hg ▸ hp
  dispatchers := hg ▸ hd
  frames := hg ▸ hf
  counted := by have := c.counted; rw [hg]; omega
  exact h := by
    rcases hc with hc | ⟨hs, -⟩
    · have := c.exact (hso ▸ h); rw [hg]; omega
    · simp [hso, hs] at h
  settled g h := by rw [ho g (hg ▸ h)]; exact c.settled g (hg ▸ h)
  updates := by rw [hu, hg, hcl]; exact c.updates
  onePoller := lp.trans c.onePoller
  oneDispatcher := ld.trans c.oneDispatcher
  oneProcessor := lr.trans c.oneProcessor

theorem broadcast (c : Current s) : Current s.broadcast :=
  { c with
    frames := fun p m => (Orphaned.mem_broadcast m).elim (c.frames p) fun h => by simp [h, Processor.wgs]
    counted := by rw [St.broadcast_owes]; exact c.counted
    exact := by rw [St.broadcast_owes]; exact c.exact
    oneProcessor := by rw [St.broadcast_running]; exact c.oneProcessor }

theorem subsOnly (c : Current s) (h : St.SubsOnly s s') : Current s' := by
  obtain ⟨_, _, rfl⟩ := h
  exact { c with }

theorem poller (c : Current s) {p : Poller} {q : Option Poller} (hp : s.pollers.get? i = some p)
    (m : St.PollerMove s p s₁ q) : Current { s₁ with pollers := replace s₁.pollers i q } := by
  have hw := c.pollers p (List.get?_mem hp)
  have hl := length_replace hp q
  rcases m.writes with ⟨_, _, _, _, _, rfl, p', rfl, hq⟩ | ⟨rfl, rfl⟩
  · refine c.mono rfl rfl rfl (fun x m => ?_) c.dispatchers c.frames (.inl ?_) rfl (fun _ _ => rfl) ?_ le_rfl le_rfl
    · rcases mem_replace (show x ∈ replace s.pollers i (some p') from m) with m | ⟨⟨⟩⟩
      · exact c.pollers x m
      · exact hq.trans hw
    · dsimp only [St.owes]; simp at hl; omega
    · dsimp only; simp at hl; omega
  · refine c.mono (St.done_gen _ _) (St.done_closed _ _) (St.done_updates _ _) (fun x m => ?_)
      (by simpa using c.dispatchers) (by simpa using c.frames) (.inl ?_) (by simp [St.suspendOrStop])
      (fun g hg => St.done_counter_of_ne (hw ▸ hg)) ?_ (by simp) (by simp [St.running])
    · exact c.pollers x (List.mem_of_mem_eraseIdx (by simpa using m))
    · simp only [St.owes, St.done_pollers, St.done_dispatchers, St.done_processors, ← hw, St.done_counter_self]
      simp at hl; omega
    · simp at hl ⊢; omega

theorem dispatcher (c : Current s) {d : Dispatcher} {q : Option Dispatcher} (hd : s.dispatchers.get? i = some d)
    (m : St.DispatcherMove s d s₁ q) : Current { s₁ with dispatchers := replace s₁.dispatchers i q } := by
  have hw := c.dispatchers d (List.get?_mem hd)
  have hl := length_replace hd q
  obtain ⟨hc, hcl, hmap⟩ := m.gen_counter
  have kept := fun g (hg : g ≠ s.gen) => m.counter (hw ▸ hg)
  obtain ⟨-, hg, hu, hps, -, hq⟩ := kept (s.gen + 1) (by omega)
  have hds := m.balance.1
  have frames : ∀ p ∈ s₁.processors, ∀ g ∈ p.wgs, g = s.gen := fun p m => by
    obtain ⟨p₀, m₀, h⟩ := List.mem_map.mp (hmap Processor.wgs rfl ▸ List.mem_map_of_mem Processor.wgs m)
    exact h ▸ c.frames p₀ m₀
  obtain ⟨hspec, hst, -⟩ := m.control
  refine c.mono hg hcl hu (hps ▸ c.pollers) (fun x m => ?_) frames (.inl ?_)
    (by simp only [St.suspendOrStop, hspec, hst]) (fun g h => (kept g h).1) (by rw [hps])
    ?_ (by simp only [St.running, hmap Processor.running rfl]; exact le_rfl)
  · rcases mem_replace m with m | rfl
    · exact c.dispatchers x (hds ▸ m)
    · exact (hq x rfl).trans hw
  · simp only [St.owes, hps, hds, hmap Processor.owes rfl] at hl ⊢
    rw [hw] at hc
    omega
  · show (replace s₁.dispatchers i q).length ≤ _
    rw [hds]
    cases q <;> simp at hl ⊢ <;> omega

theorem processor (c : Current s) {p : Processor} {q : Option Processor} (hp : s.processors.get? i = some p)
    (m : St.ProcessorMove s p s₁ q) : Current { s₁ with processors := replace s₁.processors i q } := by
  have hw := c.frames p (List.get?_mem hp)
  obtain ⟨hc, hq, hrun, hcl⟩ := m.gen_counter hw
  have kept := fun g (hg : g ≠ s.gen) => m.counter hg fun h => hg (hw g h)
  obtain ⟨-, hg, hu, hps, hds, hpr, -⟩ := kept (s.gen + 1) (by omega)
  have ho := sum_map_replace Processor.owes s.processors i hp q
  have hr := sum_map_replace Processor.running s.processors i hp q
  obtain ⟨hspec, hst, -⟩ := m.control
  refine c.mono hg hcl hu (hps ▸ c.pollers) (hds ▸ c.dispatchers) (fun x m => ?_) ?_
    (by simp only [St.suspendOrStop, hspec, hst]) (fun g h => (kept g h).1) (by rw [hps]) (by rw [hds]) ?_
  · rcases mem_replace (show x ∈ replace s.processors i q from hpr ▸ m) with m | rfl
    · exact c.frames x m
    · exact hq x rfl
  · simp only [St.owes, hps, hds, hpr]
    rcases hc with hc | ⟨hs, hc⟩
    · exact .inl (by omega)
    · exact .inr ⟨hs, by omega⟩
  · simp only [St.running, hpr]
    omega

theorem step {lib : Lib} {chain : List Ev} {act : Act} (c : Current s) (hr : act ≠ .resume)
    (h : s.step lib chain act = some s') : Current s' := by
  cases act with
  | poller =>
    obtain ⟨_, _, _, hp, m, rfl⟩ := St.step_poller h
    exact c.poller hp m
  | dispatcher =>
    obtain ⟨_, _, _, hd, m, rfl⟩ := St.step_dispatcher h
    exact c.dispatcher hd m
  | processor =>
    obtain ⟨_, _, _, hp, m, rfl⟩ := St.step_processor h
    exact c.processor hp m
  | deliver =>
    obtain ⟨_, _, _, -, rfl⟩ := St.handleEvent_eq h
    exact { c with }
  | suspend =>
    obtain rfl := St.suspend_eq h
    exact Current.broadcast { c with exact := fun h => by simp [St.suspendOrStop] at h }
  | resume => exact absurd rfl hr
  | updateBegin =>
    have cb : Current { s with updateInProgress := true }.broadcast := Current.broadcast { c with }
    rcases St.updateBegin_eq h with rfl | rfl
    · exact { cb with }
    · refine { cb with updates := ?_ }
      rcases c.updates with hu | ⟨hu, hc⟩
      · exact .inr ⟨by simp [hu, St.broadcast], List.mem_cons_self _ _⟩
      · have := congrArg List.length (St.updateBegin_closed h hc)
        simp [St.broadcast] at this
  | updateEnd j =>
    obtain ⟨g, spec, hi, h0, rfl | rfl⟩ := St.updateEnd_eq h <;> obtain ⟨-, rfl, hu⟩ := c.waiting hi
    · obtain ⟨hp, hd, hq⟩ := c.idle h0
      refine Current.startEventHandlers hp hd hq hu fun g => ?_
      by_cases hg : g = s.gen
      · exact hg ▸ h0.ge
      · exact c.settled g hg
    · have hs : spec.suspended = s.spec.suspended := (St.updateEnd_control h).1
      exact { c with updates := .inl hu, exact := fun h => c.exact (by simpa [St.suspendOrStop, hs] using h) }
  | stop =>
    obtain ⟨_, rfl⟩ := St.stop_eq h
    exact { Current.broadcast ({ c with exact := fun h => by simp [St.suspendOrStop] at h } :
      Current { s with stopped := true }) with }
  | addSub => exact c.subsOnly (St.addSub_subsOnly h)
  | resetSub => exact c.subsOnly (St.resetSub_subsOnly h)
  | deleteSub => exact c.subsOnly (St.deleteSub_subsOnly h)

theorem run {lib : Lib} {chain : List Ev} {acts : List Act} (c : Current s) (hr : ∀ a ∈ acts, a ≠ .resume)
    (h : s.run lib chain acts = some s') : Current s' := by
  induction acts generalizing s with
  | nil => cases h; exact c
  | cons a rest ih =>
    simp only [St.run, Option.bind_eq_some] at h
    obtain ⟨s₁, h₁, h⟩ := h
    exact ih (c.step (hr a (.head _)) h₁) (fun b hb => hr b (.tail _ hb)) h

end Current

section
variable {lib : Lib} {chain : List Ev} {spec : StreamInfo} {subs : List Sub} {stored : List (Nat × Nat)}
  {acts : List Act} {s : St}

/-- Along a run of a new stream with no `resume` in it there is at most one poller, one
dispatcher and one processor that has not returned, all of the current generation, and the
frames of `processBatch` and `performActionWithRetry` hold only its WaitGroup. -/
theorem unresumed_stream_single_handlers (h : (St.start spec subs stored).run lib chain acts = some s)
    (hr : ∀ a ∈ acts, a ≠ .resume) :
    s.pollers.length ≤ 1 ∧ s.dispatchers.length ≤ 1 ∧ s.running ≤ 1 ∧ (∀ p ∈ s.pollers, p.wg = s.gen) ∧
      (∀ d ∈ s.dispatchers, d.wg = s.gen) ∧ ∀ p ∈ s.processors, ∀ g ∈ p.wgs, g = s.gen := by
  have c := (Current.start spec subs stored).run hr h
  exact ⟨c.onePoller, c.oneDispatcher, c.oneProcessor, c.pollers, c.dispatchers, c.frames⟩

/-- An update that returned: the handlers it started are the only ones. -/
theorem update_restarts_single_handlers :
    ∃ s, sampleStream.run Lib.ascii sampleChain dropOnUpdate = some s ∧ (∀ a ∈ dropOnUpdate, a ≠ .resume) ∧
      s.gen = 2 ∧ s.pollers.length ≤ 1 ∧ s.dispatchers.length ≤ 1 ∧ s.running ≤ 1 ∧
      (∀ p ∈ s.pollers, p.wg = s.gen) ∧ (∀ d ∈ s.dispatchers, d.wg = s.gen) ∧
      ∀ p ∈ s.processors, ∀ g ∈ p.wgs, g = s.gen := by
  obtain ⟨s, hs, hg⟩ := Option.map_eq_some'.mp
    (show (sampleStream.run Lib.ascii sampleChain dropOnUpdate).map (·.gen) = some 2 by decide)
  have hr : ∀ a ∈ dropOnUpdate, a ≠ .resume := by simp [dropOnUpdate]
  exact ⟨s, hs, hr, hg, unresumed_stream_single_handlers hs hr⟩

/-- Along such a run no WaitGroup counter goes below zero, so no `Done` panics, and the current
one counts at least the `Done` calls its goroutines owe. -/
theorem unresumed_waitgroups_nonnegative (h : (St.start spec subs stored).run lib chain acts = some s)
    (hr : ∀ a ∈ acts, a ≠ .resume) : (s.owes : Int) ≤ s.counter s.gen ∧ ∀ g, 0 ≤ s.counter g := by
  have c := (Current.start spec subs stored).run hr h
  refine ⟨c.counted, fun g => ?_⟩
  by_cases hg : g = s.gen
  · exact hg ▸ (Int.ofNat_nonneg _).trans c.counted
  · exact c.settled g hg

/-- A suspend, then an update: the processor returned without its `Done`, so the WaitGroup the
update waits on stays at one with no goroutine left to owe it. -/
theorem suspended_update_counter_settled :
    ∃ s, sampleStream.run Lib.ascii sampleChain updateWhileSuspended = some s ∧
      (∀ a ∈ updateWhileSuspended, a ≠ .resume) ∧ s.owes = 0 ∧ s.counter s.gen = 1 ∧
      (s.owes : Int) ≤ s.counter s.gen ∧ ∀ g, 0 ≤ s.counter g := by
  obtain ⟨s, hs, hp⟩ := Option.map_eq_some'.mp
    (show (sampleStream.run Lib.ascii sampleChain updateWhileSuspended).map
      (fun s => s.owes == 0 && s.counter s.gen == 1) = some true by decide)
  simp only [Bool.and_eq_true, beq_iff_eq] at hp
  have hr : ∀ a ∈ updateWhileSuspended, a ≠ .resume := by simp [updateWhileSuspended]
  exact ⟨s, hs, hr, hp.1, hp.2, unresumed_waitgroups_nonnegative hs hr⟩

/-- Along a run with no `resume`, on a stream that has been neither suspended nor stopped, an
`update` blocked in `updateWG.Wait()` returns as soon as the poller, the dispatcher and the
processor of the generation have returned: the WaitGroup counts exactly their `Done` calls. -/
theorem waiting_update_returns (h : (St.start spec subs stored).run lib chain acts = some s)
    (hr : ∀ a ∈ acts, a ≠ .resume) (live : s.suspendOrStop = false) (waiting : s.updates ≠ [])
    (hp : s.pollers = []) (hd : s.dispatchers = []) (hq : ∀ p ∈ s.processors, p = .done) (req : StreamInfo) :
    (s.updateEnd lib 0 req).isSome := by
  have c := (Current.start spec subs stored).run hr h
  obtain ⟨hu, -⟩ := c.updates.resolve_left waiting
  have owes : s.owes = 0 := by
    have : (s.processors.map Processor.owes).sum = 0 := List.sum_eq_zero fun x m => by
      obtain ⟨p, mp, rfl⟩ := List.mem_map.mp m
      rw [hq p mp]
      rfl
    simp [St.owes, hp, hd, this]
  have h0 : s.counter s.gen = 0 := by rw [c.exact live, owes]; rfl
  have lock : s.lockFree = true := by
    simp only [St.lockFree, Bool.not_eq_true', List.any_eq_false]
    intro p m
    simp [hq p m, St.holdsLock]
  unfold St.updateEnd
  simp only [hu, List.get?_cons_zero, h0, ne_eq, not_true_eq_false, if_false]
  split
  · simp only [St.lockFree] at lock ⊢
    simp [lock]
  · rfl
  · rfl

/-- The handlers stop for an update on a running stream, and the update can return. -/
theorem stopped_handlers_release_update :
    ∃ s, sampleStream.run Lib.ascii sampleChain handlersStopForUpdate = some s ∧
      (∀ a ∈ handlersStopForUpdate, a ≠ .resume) ∧ s.suspendOrStop = false ∧ s.updates ≠ [] ∧ s.pollers = [] ∧
      s.dispatchers = [] ∧ (∀ p ∈ s.processors, p = .done) ∧ (s.updateEnd Lib.ascii 0 (resize 0)).isSome := by
  obtain ⟨s, hs, hp⟩ := Option.map_eq_some'.mp (show (sampleStream.run Lib.ascii sampleChain handlersStopForUpdate).map
    (fun s => !s.suspendOrStop && !s.updates.isEmpty && s.pollers.isEmpty && s.dispatchers.isEmpty &&
      s.processors.all (· == .done)) = some true by decide)
  simp only [Bool.and_eq_true, Bool.not_eq_true', List.isEmpty_iff, Bool.not_eq_true, List.all_eq_true,
    beq_iff_eq] at hp
  obtain ⟨⟨⟨⟨live, waiting⟩, hpol⟩, hdis⟩, hpro⟩ := hp
  have hr : ∀ a ∈ handlersStopForUpdate, a ≠ .resume := by simp [handlersStopForUpdate]
  exact ⟨s, hs, hr, live, by simpa using waiting, hpol, hdis, hpro,
    waiting_update_returns hs hr live (by simpa using waiting) hpol hdis hpro _⟩

end

end FabconnectEvents
