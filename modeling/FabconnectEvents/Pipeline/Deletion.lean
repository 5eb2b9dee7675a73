import FabconnectEvents.Pipeline.WaitGroup

/-!
Deleting a subscription. `deleteSubscription` takes it out of the registry and calls
`unsubscribe(true)`, which drops its listener and sets `deleting`; the poller restarts a stale
filter only for a subscription it finds not `deleting`. Every write to a subscription keeps its
id and never clears `deleting`, so once the poller is past that check for it, a deleted
subscription never gets a listener again. The check and `restartFilter` are separate steps of
the poller, with a ledger call between them, and a delete can land in that window.
-/
namespace FabconnectEvents

/-- What every write to a subscription keeps: its id, a `deleting` flag once set, and its
absence from the registry once it is out. -/
def Sub.Keeps (x y : Sub) : Prop :=
  y.id = x.id ∧ (x.deleting = true → y.deleting = true) ∧ (x.registered = false → y.registered = false)

/-- Subscription `id` exists, is out of the registry and is marked `deleting`. -/
def Gone (id : Nat) (subs : List Sub) : Prop :=
  (∃ x ∈ subs, x.id = id) ∧ ∀ x ∈ subs, x.id = id → x.deleting = true ∧ x.registered = false

theorem Gone.map {k : Nat} {l : List Sub} {f : Sub → Sub} (g : Gone k l) (hf : ∀ x, Sub.Keeps x (f x)) :
    Gone k (l.map f) := by
  obtain ⟨⟨x, m, hx⟩, hd⟩ := g
  refine ⟨⟨f x, List.mem_map_of_mem f m, (hf x).1.trans hx⟩, fun y m hy => ?_⟩
  obtain ⟨x', m', rfl⟩ := List.mem_map.mp m
  obtain ⟨hid, hdel, hreg⟩ := hf x'
  obtain ⟨h1, h2⟩ := hd x' m' (hid ▸ hy)
  exact ⟨hdel h1, hreg h2⟩

namespace St
variable {s s' : St} {k : Nat}

theorem sub?_spec {x : Sub} (h : s.sub? k = some x) : x ∈ s.subs ∧ x.id = k :=
  ⟨List.mem_of_find?_eq_some h, by simpa using List.find?_some h⟩

theorem gone_setSub (g : Gone k s.subs) {id' : Nat} {f : Sub → Sub} (hf : ∀ x, Sub.Keeps x (f x)) :
    Gone k (s.setSub id' f).subs :=
  g.map fun x => by
    split
    · exact hf x
    · exact ⟨rfl, fun h => h, fun h => h⟩

/-- No listener delivers the events of a deleted subscription `k`. -/
def Silent (k : Nat) (s : St) : Prop := Gone k s.subs ∧ ∀ l ∈ s.listeners, l.sub ≠ k

theorem Silent.setSub (sl : Silent k s) {id' : Nat} {f : Sub → Sub} (hf : ∀ x, Sub.Keeps x (f x)) :
    Silent k (s.setSub id' f) :=
  ⟨gone_setSub sl.1 hf, sl.2⟩

theorem Silent.unsubscribe (sl : Silent k s) (id' : Nat) (deleting : Bool) :
    Silent k (s.unsubscribe id' deleting) :=
  ⟨gone_setSub sl.1 fun x => ⟨rfl, fun h => by simp [h], fun h => h⟩,
    fun l m => sl.2 l (List.mem_of_mem_filter m)⟩

theorem Silent.restartFilter (sl : Silent k s) {id' : Nat} (h : id' ≠ k) (height : Nat) :
    Silent k (s.restartFilter id' height) := by
  refine ⟨gone_setSub sl.1 fun x => ⟨rfl, fun h => h, fun h => h⟩, fun l m => ?_⟩
  rcases List.mem_append.mp
      (show l ∈ s.listeners.filter (·.sub ≠ id') ++ [⟨s.listenerIds, id', height, 0⟩] from m) with m | m
  · exact sl.2 l (List.mem_of_mem_filter m)
  · rw [List.mem_singleton.mp m]; exact h

theorem Silent.markAllSubscriptionsStale (sl : Silent k s) : Silent k s.markAllSubscriptionsStale :=
  ⟨sl.1.map fun x => by split <;> exact ⟨rfl, fun h => h, fun h => h⟩, sl.2⟩

theorem Silent.foldl_batchComplete (sl : Silent k s) (l : List Ev) : Silent k (l.foldl batchComplete s) := by
  induction l generalizing s with
  | nil => exact sl
  | cons e l ih => exact ih (sl.setSub fun x => ⟨rfl, fun h => h, fun h => h⟩)

theorem Silent.pollReset (sl : Silent k s) (p : Poller) (id' : Nat) : Silent k (s.pollReset p id').1 := by
  unfold St.pollReset
  split
  · split
    · exact sl.unsubscribe id' false
    · exact sl
  · exact sl

theorem Silent.staleMove (sl : Silent k s) {p p' : Poller} {k' : Nat} {rest : List Nat}
    (m : StaleMove s p k' rest s' p') : Silent k s' ∧ ∀ height r, p'.pc ≠ .restart k height r := by
  have other : ∀ {x : Sub}, s.sub? k' = some x → x.deleting = false →
      ∀ {b height r}, PollerPc.restart k' b rest ≠ .restart k height r := by
    intro x hx live b height r hr
    injection hr with hk
    obtain ⟨m, hid⟩ := sub?_spec hx
    simp [(sl.1.2 x m (hid.trans hk)).1] at live
  cases m with
  | checkpoint x hx _ live _ =>
    refine ⟨sl.setSub ?_, fun _ _ => other hx live⟩
    exact fun _ => ⟨rfl, id, id⟩
  | initial x b hx _ live _ _ => exact ⟨sl, fun _ _ => other hx live⟩
  | next => exact ⟨sl, fun _ _ => PollerPc.noConfusion⟩

theorem Silent.done (sl : Silent k s) (g : Nat) : Silent k (s.done g) := by
  unfold St.done; split <;> exact sl

theorem Silent.pollerMove {p : Poller} {q : Option Poller} (sl : Silent k s)
    (out : ∀ height r, p.pc ≠ .restart k height r) (m : PollerMove s p s' q) :
    Silent k s' ∧ ∀ p', q = some p' → ∀ height r, p'.pc ≠ .restart k height r := by
  cases m with
  | sub k' rest _ _ _ m =>
    obtain ⟨sl', hp⟩ := (sl.pollReset p k').staleMove m
    exact ⟨sl', by rintro _ ⟨⟩; exact hp⟩
  | restart k' height rest hpc =>
    have hne : k' ≠ k := fun hk => out height rest (by rw [hpc, hk])
    exact ⟨sl.restartFilter hne height, by rintro _ ⟨⟩; exact fun _ _ => PollerPc.noConfusion⟩
  | load =>
    refine ⟨sl, ?_⟩
    rintro _ ⟨⟩ _ _
    dsimp only
    split <;> exact PollerPc.noConfusion
  | record => split <;> exact ⟨sl, by rintro _ ⟨⟩; exact fun _ _ => PollerPc.noConfusion⟩
  | stale => exact ⟨sl.markAllSubscriptionsStale, by rintro _ ⟨⟩; exact fun _ _ => PollerPc.noConfusion⟩
  | leave => exact ⟨sl.done _, by rintro _ ⟨⟩⟩
  | _ => exact ⟨sl, by rintro _ ⟨⟩; exact fun _ _ => PollerPc.noConfusion⟩

theorem Silent.batchMove {f : BatchFrame} {q : Option BatchFrame} (sl : Silent k s) (m : BatchMove s f s' q) :
    Silent k s' ∧ s'.pollers = s.pollers := by
  cases m with
  | acked | skipped | retry | leave => exact ⟨sl.done _, by simp⟩
  | complete => split <;> exact ⟨sl, rfl⟩
  | callbacks =>
    obtain ⟨_, hc⟩ := St.foldl_batchComplete (lastPerSub f.events) s
    exact ⟨sl.foldl_batchComplete _, by rw [hc]⟩
  | _ => exact ⟨sl, rfl⟩

theorem Silent.processorMove {p : Processor} {q : Option Processor} (sl : Silent k s)
    (m : ProcessorMove s p s' q) : Silent k s' ∧ s'.pollers = s.pollers := by
  cases m with
  | interrupt => exact ⟨sl.done _, by simp⟩
  | frame _ _ _ m => exact sl.batchMove m
  | frameReturn _ _ m => exact sl.batchMove m
  | _ => exact ⟨sl, rfl⟩

theorem Silent.dispatcherMove {d : Dispatcher} {q : Option Dispatcher} (sl : Silent k s)
    (m : DispatcherMove s d s' q) : Silent k s' ∧ s'.pollers = s.pollers := by
  cases m with
  | exit => exact ⟨sl.done _, by simp [dispatcherExit]⟩
  | _ => exact ⟨sl, rfl⟩

end St

/-- Subscription `k` is deleted, no listener delivers its events, and no poller is between its
check of `deleting` and `restartFilter`. -/
structure Deleted (k : Nat) (s : St) : Prop where
  silent : s.Silent k
  outside : ∀ p ∈ s.pollers, ∀ height r, p.pc ≠ .restart k height r

namespace Deleted
variable {k : Nat} {s s' : St}

theorem startEventHandlers (d : Deleted k s) (resume : Bool) : Deleted k (s.startEventHandlers resume) where
  silent := d.silent
  outside p m := by
    simp only [St.startEventHandlers, List.mem_append, List.mem_singleton] at m
    rcases m with m | rfl
    · exact d.outside p m
    · exact fun _ _ => PollerPc.noConfusion

theorem broadcast (d : Deleted k s) : Deleted k s.broadcast := ⟨d.silent, d.outside⟩

theorem subsOnly (d : Deleted k s) (h : St.SubsOnly s s') (sl : s'.Silent k) : Deleted k s' := by
  obtain ⟨_, _, rfl⟩ := h
  exact ⟨sl, d.outside⟩

theorem step {lib : Lib} {chain : List Ev} {act : Act} (d : Deleted k s)
    (h : s.step lib chain act = some s') : Deleted k s' := by
  cases act with
  | poller i =>
    obtain ⟨p, s₁, q, hp, m, rfl⟩ := St.step_poller h
    obtain ⟨sl, hq⟩ := d.silent.pollerMove (d.outside p (List.get?_mem hp)) m
    have hps : s₁.pollers = s.pollers := by
      rcases m.writes with ⟨_, _, _, _, _, rfl, -⟩ | ⟨rfl, -⟩
      · rfl
      · exact St.done_pollers _ _
    refine ⟨sl, fun x m => ?_⟩
    rcases mem_replace (show x ∈ replace s₁.pollers i q from m) with m | m
    · exact d.outside x (hps ▸ m)
    · exact hq x m
  | dispatcher =>
    obtain ⟨_, _, _, -, m, rfl⟩ := St.step_dispatcher h
    obtain ⟨sl, hps⟩ := d.silent.dispatcherMove m
    exact ⟨sl, hps ▸ d.outside⟩
  | processor =>
    obtain ⟨_, _, _, -, m, rfl⟩ := St.step_processor h
    obtain ⟨sl, hps⟩ := d.silent.processorMove m
    exact ⟨sl, hps ▸ d.outside⟩
  | deliver =>
    obtain ⟨l, _, _, hl, rfl⟩ := St.handleEvent_eq h
    refine ⟨⟨d.silent.1, fun x m => ?_⟩, d.outside⟩
    rcases List.mem_or_eq_of_mem_set m with m | rfl
    · exact d.silent.2 x m
    · exact d.silent.2 l (List.get?_mem hl)
  | suspend =>
    obtain rfl := St.suspend_eq h
    exact ⟨d.silent, d.outside⟩
  | resume =>
    rcases St.resume_eq h with rfl | rfl
    · exact d
    · refine Deleted.broadcast (Deleted.startEventHandlers ?_ true)
      exact ⟨d.silent, d.outside⟩
  | updateBegin => rcases St.updateBegin_eq h with rfl | rfl <;> exact ⟨d.silent, d.outside⟩
  | updateEnd =>
    obtain ⟨_, _, -, -, rfl | rfl⟩ := St.updateEnd_eq h
    · refine Deleted.startEventHandlers ?_ false
      exact ⟨d.silent, d.outside⟩
    · exact ⟨d.silent, d.outside⟩
  | stop =>
    obtain ⟨_, rfl⟩ := St.stop_eq h
    exact ⟨d.silent, d.outside⟩
  | addSub k' fb =>
    simp only [St.step, St.addSub] at h
    split at h; · cases h
    rename_i fresh
    cases h
    obtain ⟨⟨x, m, hx⟩, hd⟩ := d.silent.1
    have hne : k' ≠ k := fun hk => fresh (List.any_eq_true.mpr ⟨x, m, by simp [hx, hk]⟩)
    refine ⟨⟨⟨⟨x, List.mem_append_left _ m, hx⟩, fun y m hy => ?_⟩, d.silent.2⟩, d.outside⟩
    rcases List.mem_append.mp m with m | m
    · exact hd y m hy
    · rw [List.mem_singleton.mp m] at hy; exact absurd hy hne
  | resetSub k' _ _ =>
    refine d.subsOnly (St.resetSub_subsOnly h) ?_
    rcases St.resetSub_eq h with rfl | rfl
    · refine d.silent.setSub ?_; exact fun _ => ⟨rfl, id, id⟩
    · refine (d.silent.setSub ?_).setSub ?_ <;> exact fun _ => ⟨rfl, id, id⟩
  | deleteSub k' =>
    refine d.subsOnly (St.deleteSub_subsOnly h) ?_
    rw [St.deleteSub_eq h]
    refine (d.silent.setSub ?_).unsubscribe k' true
    exact fun _ => ⟨rfl, id, fun _ => rfl⟩

end Deleted

def newestStream : St := St.start pipelineSpec [⟨0, true, none, true, false, false, 0⟩] []

def newestChain : List Ev := [⟨0, 7, 0⟩]

/-- The poller finds the subscription stale and not being deleted, and asks the ledger for its
height; the delete lands while it waits for the answer. -/
def deleteDuringRestart : List Act := [.poller 0 .next, .poller 0 (.height 5), .deleteSub 0]

def afterDelete : List Act := [.poller 0 .next, .deliver 0, .dispatcher 0 .next, .dispatcher 0 .next]

theorem deleted_subscription_restarts :
    ∃ s, St.Reachable Lib.ascii newestChain newestStream s ∧ (s.sub? 0).map (·.deleting) = some true ∧
      s.listeners = [] ∧ s.handed = [] ∧
      ∃ s', St.Reachable Lib.ascii newestChain s s' ∧ s'.listeners.map (·.sub) = [0] ∧
        s'.handed = [⟨0, 7, 0⟩] := by
  obtain ⟨s, hr, hp⟩ := reach_of_run (show (newestStream.run Lib.ascii newestChain deleteDuringRestart).map
    (fun s => (s.sub? 0).map (·.deleting) == some true && s.listeners.isEmpty && s.handed.isEmpty &&
      (s.run Lib.ascii newestChain afterDelete).map
        (fun s' => s'.listeners.map (·.sub) == [0] && s'.handed == [⟨0, 7, 0⟩]) == some true) = some true by
    decide)
  simp only [Bool.and_eq_true, beq_iff_eq, List.isEmpty_iff] at hp
  obtain ⟨⟨⟨deleting, listeners⟩, handed⟩, later⟩ := hp
  obtain ⟨s', hr', hp'⟩ := reach_of_run later
  simp only [Bool.and_eq_true, beq_iff_eq] at hp'
  exact ⟨s, hr, deleting, listeners, handed, s', hr', hp'⟩

/-- Outside that window the delete holds on every run: a subscription that is deleted, with no
listener and no poller between its check and `restartFilter`, never gets a listener again. -/
theorem St.Reachable.deleted {lib : Lib} {chain : List Ev} {k : Nat} {s₀ s : St}
    (h : St.Reachable lib chain s₀ s) (h₀ : Deleted k s₀) : Deleted k s := by
  induction h with
  | start => exact h₀
  | step _ _ hs ih => exact ih.step hs

/-- A delete that lands while the poller is at the head of its loop: on its next round the
poller passes the subscription by. -/
theorem delete_between_rounds_stays_silent :
    ∃ s₀ s, St.Reachable Lib.ascii newestChain newestStream s₀ ∧ Deleted 0 s₀ ∧
      St.Reachable Lib.ascii newestChain s₀ s ∧ s.pollers.map (·.pc) = [.wait 1] ∧ Deleted 0 s := by
  obtain ⟨s₀, hr, hp⟩ := reach_of_run (show (newestStream.run Lib.ascii newestChain [.deleteSub 0]).map
    (fun s => s.subs == [⟨0, false, none, true, false, true, 0⟩] && s.listeners.isEmpty &&
      s.pollers.map (·.pc) == [.top] &&
      (s.run Lib.ascii newestChain [.poller 0 .next, .poller 0 .next, .poller 0 .next, .poller 0 .next]).map
        (fun s' => s'.pollers.map (·.pc) == [.wait 1]) == some true) = some true by decide)
  simp only [Bool.and_eq_true, beq_iff_eq, List.isEmpty_iff] at hp
  obtain ⟨⟨⟨subs, listeners⟩, pcs⟩, later⟩ := hp
  obtain ⟨s, hr', hp'⟩ := reach_of_run later
  have gone : Gone 0 s₀.subs := by
    rw [subs]
    exact ⟨⟨_, List.mem_singleton_self _, rfl⟩, fun x m _ => by rw [List.mem_singleton.mp m]; exact ⟨rfl, rfl⟩⟩
  have d : Deleted 0 s₀ := ⟨⟨gone, by simp [listeners]⟩, fun p m _ _ hp => by
    have := List.mem_map_of_mem (·.pc) m
    simp [pcs, hp] at this⟩
  exact ⟨s₀, s, hr, d, hr', by simpa using hp', St.Reachable.deleted hr' d⟩

end FabconnectEvents
