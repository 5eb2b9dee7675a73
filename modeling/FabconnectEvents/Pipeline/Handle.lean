import FabconnectEvents.Pipeline.Control
import FabconnectEvents.Links

/-!
The manager keeps of each stream an `EventStream`: its spec, whether the current
`updateInterrupt` is closed, and whether `stop` has closed the event channel. `St.handle` reads
it off the goroutines' state. The manager's `UpdateStream` and `ResumeStream` take as inputs
the two things they wait on in Go: `settles`, whether `updateWG.Wait()` returns, and `drained`,
whether the poller and processor have finished. On the stream these are the counter of the
current WaitGroup and the `processorDone` and `pollerDone` flags, and with those inputs the
manager's functions compute the handle of the state `updateEnd` and `resume` leave.
-/
namespace FabconnectEvents

namespace St
variable {s s' : St} {lib : Lib} {chain : List Ev}

def handle (s : St) : EventStream := ⟨s.spec, decide (s.gen ∈ s.closed), s.channelClosed⟩

/-- Every closed interrupt is the current generation's or an earlier one's, so the interrupt
`startEventHandlers` makes is open, and every waiting `update` has closed the interrupt it
waits on. -/
structure Interrupts (s : St) : Prop where
  past : ∀ g ∈ s.closed, g ≤ s.gen
  waiting : ∀ g ∈ s.updates, g ∈ s.closed

theorem DispatcherMove.clock {d : Dispatcher} {q : Option Dispatcher} (m : DispatcherMove s d s' q) :
    s'.gen = s.gen ∧ s'.closed = s.closed ∧ s'.updates = s.updates := by
  cases m <;> simp [dispatcherExit, broadcast]

theorem BatchMove.clock {f : BatchFrame} {q : Option BatchFrame} (m : BatchMove s f s' q) :
    s'.gen = s.gen ∧ s'.closed = s.closed ∧ s'.updates = s.updates := by
  cases m with
  | complete => split <;> exact ⟨rfl, rfl, rfl⟩
  | callbacks =>
    obtain ⟨_, hc⟩ := foldl_batchComplete (lastPerSub f.events) s
    simp [hc]
  | _ => simp [startAction, add]

theorem ProcessorMove.clock {p : Processor} {q : Option Processor} (m : ProcessorMove s p s' q) :
    s'.gen = s.gen ∧ s'.closed = s.closed ∧ s'.updates = s.updates := by
  cases m with
  | frame _ _ _ m | frameReturn _ _ m => exact m.clock
  | _ => simp [add]

theorem Interrupts.of_eq (c : s.Interrupts) (h : s'.gen = s.gen ∧ s'.closed = s.closed ∧ s'.updates = s.updates) :
    s'.Interrupts := by
  obtain ⟨hg, hc, hu⟩ := h
  exact ⟨fun g m => hg ▸ c.past g (hc ▸ m), fun g m => hc ▸ c.waiting g (hu ▸ m)⟩

theorem Interrupts.step (c : s.Interrupts) {act : Act} (h : s.step lib chain act = some s') :
    s'.Interrupts := by
  cases act with
  | poller =>
    obtain ⟨_, _, _, -, m, rfl⟩ := step_poller h
    rcases m.writes with ⟨_, _, _, _, _, rfl, -⟩ | ⟨rfl, -⟩
    · exact c.of_eq ⟨rfl, rfl, rfl⟩
    · exact c.of_eq ⟨by simp, by simp, by simp⟩
  | dispatcher =>
    obtain ⟨_, _, _, -, m, rfl⟩ := step_dispatcher h
    exact c.of_eq m.clock
  | processor =>
    obtain ⟨_, _, _, -, m, rfl⟩ := step_processor h
    exact c.of_eq m.clock
  | deliver =>
    obtain ⟨_, _, _, -, rfl⟩ := handleEvent_eq h
    exact c.of_eq ⟨rfl, rfl, rfl⟩
  | suspend => obtain rfl := suspend_eq h; exact c.of_eq ⟨rfl, rfl, rfl⟩
  | resume =>
    rcases resume_eq h with rfl | rfl
    · exact c.of_eq ⟨rfl, rfl, rfl⟩
    · exact ⟨fun g m => Nat.le_succ_of_le (c.past g m), c.waiting⟩
  | updateBegin =>
    rcases updateBegin_eq h with rfl | rfl
    · exact c.of_eq ⟨rfl, rfl, rfl⟩
    · refine ⟨?_, fun g m => ?_⟩
      · rintro g (_ | ⟨_, m⟩)
        · exact le_rfl
        · exact c.past g m
      · rcases List.mem_append.mp m with m | m
        · exact List.mem_cons_of_mem _ (c.waiting g m)
        · rw [List.mem_singleton.mp m]; exact List.mem_cons_self _ _
  | updateEnd =>
    obtain ⟨_, _, -, -, rfl | rfl⟩ := updateEnd_eq h
    · exact ⟨fun g m => Nat.le_succ_of_le (c.past g m), fun g m => c.waiting g (List.mem_of_mem_eraseIdx m)⟩
    · exact ⟨c.past, fun g m => c.waiting g (List.mem_of_mem_eraseIdx m)⟩
  | stop => obtain ⟨_, rfl⟩ := stop_eq h; exact c.of_eq ⟨rfl, rfl, rfl⟩
  | addSub => obtain ⟨_, _, rfl⟩ := addSub_subsOnly h; exact c.of_eq ⟨rfl, rfl, rfl⟩
  | resetSub => obtain ⟨_, _, rfl⟩ := resetSub_subsOnly h; exact c.of_eq ⟨rfl, rfl, rfl⟩
  | deleteSub => obtain ⟨_, _, rfl⟩ := deleteSub_subsOnly h; exact c.of_eq ⟨rfl, rfl, rfl⟩

theorem Reachable.interrupts {s₀ : St} (c : s₀.Interrupts) (h : St.Reachable lib chain s₀ s) : s.Interrupts := by
  induction h with
  | start => exact c
  | step _ _ hs ih => exact ih.step hs

theorem interrupts_start (spec : StreamInfo) (subs : List Sub) (stored : List (Nat × Nat)) :
    (St.start spec subs stored).Interrupts := ⟨nofun, nofun⟩

theorem updateBegin_handle (h : s.updateBegin = some s') :
    s'.handle = { s.handle with interruptClosed := true } ∧
      (s.handle.interruptClosed = true → s'.panicked = true) ∧
      (s.handle.interruptClosed = false → s'.updates = s.updates ++ [s.gen]) := by
  unfold updateBegin at h
  split at h; · cases h
  dsimp only at h
  by_cases hc : s.gen ∈ s.closed
  · rw [if_pos (by simpa [broadcast] using hc)] at h
    cases h
    exact ⟨by simp [handle, broadcast, hc], fun _ => rfl, fun h => by simp [handle, hc] at h⟩
  · rw [if_neg (by simpa [broadcast] using hc)] at h
    cases h
    exact ⟨by simp [handle, broadcast], fun h => by simp [handle, hc] at h, fun _ => rfl⟩

theorem updateEnd_handle {i : Nat} {req : StreamInfo} (hi : s.updates.get? i = some s.gen)
    (hc : s.gen ∈ s.closed) (hl : s.lockFree = true) (c : s.Interrupts) :
    (s.updateEnd lib i req).isSome = decide (s.counter s.gen = 0) ∧
      ∀ s', s.updateEnd lib i req = some s' →
        s'.handle = ({ s.handle with interruptClosed := false }.update lib req true).1 := by
  have fresh : s.gen + 1 ∉ s.closed := fun m => by have := c.past _ m; omega
  unfold updateEnd
  simp only [hi]
  by_cases h0 : s.counter s.gen = 0
  · simp only [h0, ne_eq, not_true_eq_false, if_false, decide_True, EventStream.update,
      Bool.not_eq_true', Bool.false_eq_true]
    cases hs : updateSpec lib s.spec req with
    | ok spec =>
      have hl' : ({ s with updates := s.updates.eraseIdx i } : St).lockFree = true := hl
      simp [hl', hs, handle, postUpdateStream, startEventHandlers, broadcast, fresh]
    | rejected e spec => simp [hs, handle, hc]
    | panicked => simp [hs, handle, hc]
  · simp [h0]

theorem resume_handle {m : Manager} {id : String} {dbOk : String → Bool} (h : s.resume = some s')
    (c : s.Interrupts) (hm : m.streams.lookup id = some s.handle) :
    (resumeStream m id (s.processorDone && s.pollerDone) dbOk).1.streams.lookup id = some s'.handle := by
  have fresh : s.gen + 1 ∉ s.closed := fun m => by have := c.past _ m; omega
  unfold resume at h
  split at h; · cases h
  unfold resumeStream
  rw [hm]
  split at h
  · cases h
    rename_i hd
    simp only [Bool.or_eq_true, Bool.not_eq_true'] at hd
    rcases hd with hd | hd <;> simp [hd, hm]
  · cases h
    rename_i hd
    simp only [Bool.or_eq_true, Bool.not_eq_true', not_or, Bool.not_eq_false] at hd
    simp only [hd, Bool.and_self, Bool.not_true, Bool.false_eq_true, if_false,
      (persistStream_registries _ _ _ _).1, AList.lookup_insert]
    simp [handle, startEventHandlers, broadcast, fresh]

theorem stop_handle (h : s.stop = some s') :
    s'.handle = { s.handle with stopped := true } ∧ (s.handle.stopped = true → s'.panicked = true) := by
  unfold stop at h
  split at h; · cases h
  dsimp only at h
  split at h <;> cases h <;> rename_i hc
  · exact ⟨rfl, fun _ => rfl⟩
  · exact ⟨rfl, fun h => by simp_all [handle, broadcast]⟩

end St

section
variable {lib : Lib} {chain : List Ev} {spec : StreamInfo} {subs : List Sub} {stored : List (Nat × Nat)}
  {s : St}

/-- On every run of a stream, a waiting `update` returns exactly when the WaitGroup it waits on
has settled, and then leaves the stream with the handle the manager's `EventStream.update`
computes, given `settles`, from the handle before the close. -/
theorem update_settles_as_manager {i : Nat} {req : StreamInfo}
    (h : St.Reachable lib chain (St.start spec subs stored) s) (hi : s.updates.get? i = some s.gen)
    (hl : s.lockFree = true) :
    (s.updateEnd lib i req).isSome = decide (s.counter s.gen = 0) ∧
      ∀ s', s.updateEnd lib i req = some s' →
        s'.handle = ({ s.handle with interruptClosed := false }.update lib req true).1 :=
  have c := h.interrupts (St.interrupts_start spec subs stored)
  St.updateEnd_handle hi (c.waiting _ (List.get?_mem hi)) hl c

/-- There the handlers return after `update` closes the interrupt, and the resize is applied. -/
theorem update_after_handlers_return :
    ∃ s, St.Reachable Lib.ascii sampleChain sampleStream s ∧ s.updates.get? 0 = some s.gen ∧
      s.lockFree = true ∧ s.counter s.gen = 0 ∧
      ((s.updateEnd Lib.ascii 0 (resize 1)).isSome = decide (s.counter s.gen = 0) ∧
        ∀ s', s.updateEnd Lib.ascii 0 (resize 1) = some s' →
          s'.handle = ({ s.handle with interruptClosed := false }.update Lib.ascii (resize 1) true).1) := by
  obtain ⟨s, hr, hp⟩ := reach_of_run (show (sampleStream.run Lib.ascii sampleChain handlersStopForUpdate).map
    (fun s => s.updates.get? 0 == some s.gen && s.lockFree && s.counter s.gen == 0) = some true by decide)
  simp only [Bool.and_eq_true, beq_iff_eq] at hp
  exact ⟨s, hr, hp.1.1, hp.1.2, hp.2, update_settles_as_manager hr hp.1.1 hp.1.2⟩

/-- On every run of a stream, `resume` leaves the handle the manager's `ResumeStream` stores
when `drained` is whether the poller and the processor have finished. -/
theorem resume_drains_as_manager {s' : St} {m : Manager} {id : String} {dbOk : String → Bool}
    (h : St.Reachable lib chain (St.start spec subs stored) s) (hr : s.resume = some s')
    (hm : m.streams.lookup id = some s.handle) :
    (resumeStream m id (s.processorDone && s.pollerDone) dbOk).1.streams.lookup id = some s'.handle :=
  St.resume_handle hr (h.interrupts (St.interrupts_start spec subs stored)) hm

end

def suspendAndDrain : List Act :=
  [.suspend, .processor 0 .next, .processor 0 .next, .poller 0 .next, .poller 0 .next, .poller 0 .next]

theorem drained_stream_resumes_as_manager :
    ∃ s s', St.Reachable Lib.ascii sampleChain sampleStream s ∧ s.resume = some s' ∧
      (s.processorDone && s.pollerDone) = true ∧
      (resumeStream { Manager.empty with streams := Manager.empty.streams.insert "es-u" s.handle } "es-u"
        (s.processorDone && s.pollerDone) fun _ => true).1.streams.lookup "es-u" = some s'.handle := by
  obtain ⟨s, hr, hp⟩ := reach_of_run (show (sampleStream.run Lib.ascii sampleChain suspendAndDrain).map
    (fun s => s.resume.isSome && s.processorDone && s.pollerDone) = some true by decide)
  simp only [Bool.and_eq_true, Option.isSome_iff_exists] at hp
  obtain ⟨⟨⟨s', hs⟩, hd⟩, hq⟩ := hp
  exact ⟨s, s', hr, hs, by simp [hd, hq], resume_drains_as_manager hr hs (AList.lookup_insert _)⟩

end FabconnectEvents
