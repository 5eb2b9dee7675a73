import FabconnectEvents.Pipeline.Deletion

/-!
Checkpoints. `batchComplete` sets a subscription's high-water mark to one past the block of the
last event of it in a processed batch; the poller copies the high-water marks into its
checkpoint map and stores the map when an entry changed. Every value that reaches the store is
accounted for: zero, a value the stream started with, or one past the block of an event the
stream was handed. The mark moves past a whole block when the batch ends inside it, so the
store can name a block whose later events are still on their way.
-/
namespace FabconnectEvents

/-- A checkpoint value `v` for subscription `k` that the stream can account for: zero, a value
it started with, or one past the block of an event of `k` it was handed. -/
def Justified (base : List (Nat × Nat)) (handed : List Ev) (k v : Nat) : Prop :=
  v = 0 ∨ (k, v) ∈ base ∨ ∃ e ∈ handed, e.sub = k ∧ v = e.block + 1

theorem Justified.mono {base : List (Nat × Nat)} {h h' : List Ev} {k v : Nat}
    (j : Justified base h k v) (sub : ∀ e ∈ h, e ∈ h') : Justified base h' k v := by
  rcases j with j | j | ⟨e, m, j⟩
  · exact .inl j
  · exact .inr (.inl j)
  · exact .inr (.inr ⟨e, sub e m, j⟩)

theorem lookup_mem {m : List (Nat × Nat)} {k v : Nat} (h : m.lookup k = some v) : (k, v) ∈ m := by
  obtain ⟨_, _, rfl, -⟩ := List.lookup_eq_some_iff.mp h
  exact List.mem_append_right _ (.head _)

def Accounts (base : List (Nat × Nat)) (handed : List Ev) (m : List (Nat × Nat)) : Prop :=
  ∀ kv ∈ m, Justified base handed kv.1 kv.2

theorem Accounts.cpGet {base : List (Nat × Nat)} {h : List Ev} {m : List (Nat × Nat)}
    (a : Accounts base h m) (k : Nat) : Justified base h k (cpGet m k) := by
  unfold FabconnectEvents.cpGet
  cases hl : m.lookup k with
  | none => exact .inl rfl
  | some v => exact a _ (lookup_mem hl)

theorem Accounts.cpSet {base : List (Nat × Nat)} {h : List Ev} {m : List (Nat × Nat)}
    (a : Accounts base h m) {k v : Nat} (j : Justified base h k v) : Accounts base h (cpSet m k v) := by
  intro kv hm
  rcases List.mem_cons.mp hm with rfl | hm
  · exact j
  · exact a kv (List.mem_of_mem_filter hm)


def Processor.events : Processor → List Ev
  | .batch f => f.events
  | _ => []

def Hwm (base : List (Nat × Nat)) (handed : List Ev) (subs : List Sub) : Prop :=
  ∀ x ∈ subs, Justified base handed x.id x.blockHWM

section
variable {base : List (Nat × Nat)} {h : List Ev}

theorem hwm_map {l : List Sub} {g : Sub → Sub}
    (hg : ∀ x ∈ l, Justified base h (g x).id (g x).blockHWM) : Hwm base h (l.map g) := by
  intro y m
  obtain ⟨x, mx, rfl⟩ := List.mem_map.mp m
  exact hg x mx

theorem Hwm.setSub {s : St} {k : Nat} {f : Sub → Sub} (w : Hwm base h s.subs)
    (hf : ∀ x ∈ s.subs, x.id = k → Justified base h (f x).id (f x).blockHWM) : Hwm base h (s.setSub k f).subs :=
  hwm_map fun x m => by
    split
    · exact hf x m ‹_›
    · exact w x m

theorem Hwm.setSub_keep {s : St} {k : Nat} {f : Sub → Sub} (w : Hwm base h s.subs)
    (hf : ∀ x, (f x).id = x.id ∧ (f x).blockHWM = x.blockHWM) : Hwm base h (s.setSub k f).subs :=
  w.setSub fun x m _ => by rw [(hf x).1, (hf x).2]; exact w x m

theorem Hwm.hwmOf {s : St} (w : Hwm base h s.subs) (k : Nat) :
    Justified base h k (((s.sub? k).map (·.blockHWM)).getD 0) := by
  cases hx : s.sub? k with
  | none => exact .inl rfl
  | some x =>
    obtain ⟨m, rfl⟩ := St.sub?_spec hx
    exact w x m

theorem Hwm.markAllSubscriptionsStale {s : St} (w : Hwm base h s.subs) :
    Hwm base h s.markAllSubscriptionsStale.subs :=
  hwm_map fun x m => by split <;> exact w x m

theorem St.recordCheckpoint_accounts (s : St) (w : Hwm base h s.subs) :
    ∀ (snap : List Nat) (m : List (Nat × Nat)), Accounts base h m →
      Accounts base h (s.recordCheckpoint snap m).1
  | [], _, a => a
  | k :: rest, _, a => St.recordCheckpoint_accounts s w rest _ (a.cpSet (w.hwmOf k))

end

def PollerAccounts (base : List (Nat × Nat)) (handed : List Ev) (p : Poller) : Prop :=
  ∀ m, p.checkpoint = some m → Accounts base handed m

namespace St
variable {base : List (Nat × Nat)} {h : List Ev} {s s' : St} {p p' : Poller} {e : Env}

theorem pollReset_accounts (w : Hwm base h s.subs) (hp : PollerAccounts base h p) (k : Nat) :
    Hwm base h (s.pollReset p k).1.subs ∧ PollerAccounts base h (s.pollReset p k).2 ∧
      (s.pollReset p k).1.stored = s.stored ∧ (s.pollReset p k).1.handed = s.handed := by
  unfold St.pollReset
  split
  · split
    · refine ⟨w.setSub_keep fun _ => ⟨rfl, rfl⟩, fun m hm kv mk => ?_, rfl, rfl⟩
      obtain ⟨m', hm', rfl⟩ := Option.map_eq_some'.mp hm
      exact hp m' hm' kv (List.mem_of_mem_filter mk)
    · exact ⟨w, hp, rfl, rfl⟩
  · exact ⟨w, hp, rfl, rfl⟩

theorem StaleMove.accounts (w : Hwm base h s.subs) (hp : PollerAccounts base h p) {k : Nat}
    {rest : List Nat} (m : StaleMove s p k rest s' p') :
    Hwm base h s'.subs ∧ p'.checkpoint = p.checkpoint ∧ s'.stored = s.stored ∧ s'.handed = s.handed := by
  cases m with
  | checkpoint =>
    have cp : Justified base h k (cpGet (p.checkpoint.getD []) k) := by
      cases hc : p.checkpoint with
      | none => exact .inl rfl
      | some m => exact (hp m hc).cpGet k
    exact ⟨w.setSub fun x _ hx => hx ▸ cp, rfl, rfl, rfl⟩
  | _ => exact ⟨w, rfl, rfl, rfl⟩

theorem loadCheckpoint_accounts (st : Accounts base h s.stored) (hp : PollerAccounts base h p)
    {c : Option (List (Nat × Nat)) × Bool}
    (hc : c = (some (p.checkpoint.getD s.stored), false) ∨ p.checkpoint = none ∧ c = (none, true)) :
    ∀ m, c.1 = some m → Accounts base h m := by
  rcases hc with rfl | ⟨-, rfl⟩
  · intro m hm
    cases hc : p.checkpoint with
    | none => simp only [hc, Option.getD_none, Option.some.injEq] at hm; exact hm ▸ st
    | some m' => simp only [hc, Option.getD_some, Option.some.injEq] at hm; exact hm ▸ hp m' hc
  · rintro _ ⟨⟩

theorem PollerMove.accounts {q : Option Poller} (w : Hwm base h s.subs)
    (st : Accounts base h s.stored) (hp : PollerAccounts base h p) (m : PollerMove s p s' q) :
    Hwm base h s'.subs ∧ Accounts base h s'.stored ∧
      ∀ p', q = some p' → PollerAccounts base h p' := by
  cases m with
  | load _ _ _ _ hc => exact ⟨w, st, by rintro _ ⟨⟩; exact loadCheckpoint_accounts st hp hc⟩
  | sub k rest _ _ _ m =>
    obtain ⟨w₁, hp₁, hs₁, -⟩ := pollReset_accounts w hp k
    obtain ⟨w₂, hc, hs₂, -⟩ := m.accounts w₁ hp₁
    refine ⟨w₂, by rw [hs₂, hs₁]; exact st, fun _ hq m hm => ?_⟩
    cases hq
    rw [hc] at hm
    exact hp₁ m hm
  | restart => exact ⟨w.setSub_keep fun _ => ⟨rfl, rfl⟩, st, by rintro _ ⟨⟩; exact hp⟩
  | record m _ hm =>
    have acc := s.recordCheckpoint_accounts w p.snapshot m (hp m hm)
    refine ⟨by split <;> exact w, by split <;> assumption, ?_⟩
    rintro _ ⟨⟩ _ ⟨⟩
    exact acc
  | recordFailed m _ hm =>
    have acc := s.recordCheckpoint_accounts w p.snapshot m (hp m hm)
    exact ⟨w, st, by rintro _ ⟨⟩ _ ⟨⟩; exact acc⟩
  | stale => exact ⟨w.markAllSubscriptionsStale, st, by rintro _ ⟨⟩; exact hp⟩
  | leave => exact ⟨by simpa using w, by simpa using st, by rintro _ ⟨⟩⟩
  | _ => exact ⟨w, st, by rintro _ ⟨⟩; exact hp⟩

theorem addSub_hwm {lib : Lib} {chain : List Ev} {k : Nat} {fb : Option Nat} (w : Hwm base h s.subs)
    (hs : s.step lib chain (.addSub k fb) = some s') : Hwm base h s'.subs := by
  simp only [St.step, St.addSub] at hs
  split at hs <;> cases hs
  intro x m
  rcases List.mem_append.mp m with m | m
  · exact w x m
  · rw [List.mem_singleton.mp m]; exact .inl rfl

theorem resetSub_hwm {lib : Lib} {chain : List Ev} {k : Nat} {fb : Option Nat} (w : Hwm base h s.subs)
    (hs : s.step lib chain (.resetSub k fb e) = some s') : Hwm base h s'.subs := by
  rcases St.resetSub_eq hs with rfl | rfl
  · refine w.setSub_keep ?_; exact fun _ => ⟨rfl, rfl⟩
  · refine (w.setSub_keep ?_).setSub_keep ?_ <;> exact fun _ => ⟨rfl, rfl⟩

theorem deleteSub_hwm {lib : Lib} {chain : List Ev} {k : Nat} (w : Hwm base h s.subs)
    (hs : s.step lib chain (.deleteSub k) = some s') : Hwm base h s'.subs := by
  rw [St.deleteSub_eq hs]
  refine (w.setSub_keep ?_).setSub_keep ?_ <;> exact fun _ => ⟨rfl, rfl⟩

theorem lastPerSub_sub : ∀ {l : List Ev} {x : Ev}, x ∈ lastPerSub l → x ∈ l
  | [], _, h => h
  | e :: rest, x, h => by
    unfold lastPerSub at h
    split at h
    · exact .tail _ (lastPerSub_sub h)
    · rcases List.mem_cons.mp h with rfl | h
      · exact .head _
      · exact .tail _ (lastPerSub_sub h)

theorem hwm_foldl_batchComplete {h : List Ev} :
    ∀ (l : List Ev) (s : St), Hwm base h s.subs → (∀ e ∈ l, e ∈ h) →
      Hwm base h (l.foldl batchComplete s).subs
  | [], _, w, _ => w
  | e :: l, s, w, hl => by
    refine hwm_foldl_batchComplete l _ (w.setSub fun x _ hx => ?_) fun e' m => hl e' (.tail _ m)
    exact .inr (.inr ⟨e, hl e (.head _), hx.symm, rfl⟩)

theorem BatchMove.traced {f : BatchFrame} {q : Option BatchFrame} (w : Hwm base s.handed s.subs)
    (hf : ∀ e ∈ f.events, e ∈ s.handed) (m : BatchMove s f s' q) :
    s'.handed = s.handed ∧ s'.stored = s.stored ∧ s'.pollers = s.pollers ∧ s'.dispatchers = s.dispatchers ∧
      s'.processors = s.processors ∧ s'.batchQueue = s.batchQueue ∧ Hwm base s.handed s'.subs ∧
      ∀ f', q = some f' → f'.events = f.events := by
  cases m with
  | acked | skipped | retry | leave =>
    exact ⟨by simp, by simp, by simp, by simp, by simp, by simp, by simpa using w, by rintro _ ⟨⟩ <;> rfl⟩
  | complete => split <;> exact ⟨rfl, rfl, rfl, rfl, rfl, rfl, w, by rintro _ ⟨⟩; rfl⟩
  | callbacks =>
    have w' := hwm_foldl_batchComplete _ s w fun e m => hf e (lastPerSub_sub m)
    obtain ⟨_, hc⟩ := St.foldl_batchComplete (lastPerSub f.events) s
    rw [hc] at w' ⊢
    exact ⟨rfl, rfl, rfl, rfl, rfl, rfl, w', by rintro _ ⟨⟩; rfl⟩
  | _ => exact ⟨rfl, rfl, rfl, rfl, rfl, rfl, w, by rintro _ ⟨⟩; rfl⟩

theorem ProcessorMove.traced {p : Processor} {q : Option Processor} (w : Hwm base s.handed s.subs)
    (hq : ∀ b ∈ s.batchQueue, ∀ e ∈ b, e ∈ s.handed) (hp : ∀ e ∈ p.events, e ∈ s.handed)
    (m : ProcessorMove s p s' q) :
    s'.handed = s.handed ∧ s'.stored = s.stored ∧ s'.pollers = s.pollers ∧ s'.dispatchers = s.dispatchers ∧
      s'.processors = s.processors ∧ Hwm base s.handed s'.subs ∧
      (∀ b ∈ s'.batchQueue, ∀ e ∈ b, e ∈ s.handed) ∧
      ∀ p', q = some p' → ∀ e ∈ p'.events, e ∈ s.handed := by
  cases m with
  | wait => refine ⟨rfl, rfl, rfl, rfl, rfl, w, hq, ?_⟩; rintro _ ⟨⟩; split <;> rintro _ ⟨⟩
  | pop b rest _ _ hb =>
    refine ⟨rfl, rfl, rfl, rfl, rfl, w, fun b m => hq b (hb ▸ .tail _ m), ?_⟩
    rintro _ ⟨⟩ e m
    exact hq _ (hb ▸ .head _) e m
  | interrupt => exact ⟨by simp, by simp, by simp, by simp, by simp, by simpa using w, by simpa using hq,
      by rintro _ ⟨⟩ _ ⟨⟩⟩
  | frame f f' _ m =>
    obtain ⟨h1, h2, h3, h4, h5, h6, h7, h8⟩ := m.traced w hp
    refine ⟨h1, h2, h3, h4, h5, h7, by rw [h6]; exact hq, ?_⟩
    rintro _ ⟨⟩ e me
    rw [Processor.events, h8 _ rfl] at me
    exact hp e me
  | frameReturn f _ m =>
    obtain ⟨h1, h2, h3, h4, h5, h6, h7, -⟩ := m.traced w hp
    exact ⟨h1, h2, h3, h4, h5, h7, by rw [h6]; exact hq, by rintro _ ⟨⟩ _ ⟨⟩⟩
  | _ => exact ⟨rfl, rfl, rfl, rfl, rfl, w, hq, by rintro _ ⟨⟩ _ ⟨⟩⟩

theorem DispatcherMove.traced {d : Dispatcher} {q : Option Dispatcher}
    (hd : ∀ e ∈ d.batch, e ∈ s.handed) (hq : ∀ b ∈ s.batchQueue, ∀ e ∈ b, e ∈ s.handed)
    (m : DispatcherMove s d s' q) :
    (∀ e ∈ s.handed, e ∈ s'.handed) ∧ s'.subs = s.subs ∧ s'.stored = s.stored ∧ s'.pollers = s.pollers ∧
      s'.dispatchers = s.dispatchers ∧ (∀ p ∈ s'.processors, p ∈ s.processors ∨ p = .top) ∧
      (∀ b ∈ s'.batchQueue, ∀ e ∈ b, e ∈ s'.handed) ∧
      ∀ d', q = some d' → ∀ e ∈ d'.batch, e ∈ s'.handed := by
  cases m with
  | exit => exact ⟨by simp [dispatcherExit], by simp [dispatcherExit], by simp [dispatcherExit],
      by simp [dispatcherExit], by simp [dispatcherExit], fun p m => .inl (by simpa [dispatcherExit] using m),
      by simpa [dispatcherExit] using hq, by rintro _ ⟨⟩⟩
  | receive =>
    refine ⟨fun _ m => List.mem_append_left _ m, rfl, rfl, rfl, rfl, fun p m => .inl m,
      fun b mb e me => List.mem_append_left _ (hq b mb e me), ?_⟩
    rintro _ ⟨⟩ e me
    rcases List.mem_append.mp me with me | me
    · exact List.mem_append_left _ (hd e me)
    · exact List.mem_append_right _ me
  | dispatch =>
    refine ⟨fun _ m => m, rfl, rfl, rfl, rfl, fun p m => Orphaned.mem_broadcast m, ?_, by rintro _ ⟨⟩ _ ⟨⟩⟩
    intro b mb e me
    rcases List.mem_append.mp mb with mb | mb
    · exact hq b mb e me
    · rw [List.mem_singleton.mp mb] at me; exact hd e me
  | _ => exact ⟨fun _ m => m, rfl, rfl, rfl, rfl, fun p m => .inl m, hq, by rintro _ ⟨⟩; exact hd⟩

end St

section
variable {base : List (Nat × Nat)} {h h' : List Ev}

theorem Accounts.mono {m : List (Nat × Nat)} (a : Accounts base h m) (sub : ∀ e ∈ h, e ∈ h') :
    Accounts base h' m := fun kv mk => (a kv mk).mono sub

theorem Hwm.mono {l : List Sub} (w : Hwm base h l) (sub : ∀ e ∈ h, e ∈ h') : Hwm base h' l :=
  fun x m => (w x m).mono sub

theorem PollerAccounts.mono {p : Poller} (a : PollerAccounts base h p) (sub : ∀ e ∈ h, e ∈ h') :
    PollerAccounts base h' p := fun m hm => (a m hm).mono sub

end

/-- Every checkpoint value the stream holds, in a high-water mark, in a poller's map or in the
store, is accounted for, and every event in a batch was handed to the stream. -/
structure Traced (base : List (Nat × Nat)) (s : St) : Prop where
  hwm : Hwm base s.handed s.subs
  stored : Accounts base s.handed s.stored
  pollers : ∀ p ∈ s.pollers, PollerAccounts base s.handed p
  dispatchers : ∀ d ∈ s.dispatchers, ∀ e ∈ d.batch, e ∈ s.handed
  queue : ∀ b ∈ s.batchQueue, ∀ e ∈ b, e ∈ s.handed
  processors : ∀ p ∈ s.processors, ∀ e ∈ p.events, e ∈ s.handed

namespace Traced
variable {base : List (Nat × Nat)} {s s' : St}

theorem broadcast (t : Traced base s) : Traced base s.broadcast where
  __ := t
  processors p m := by
    rcases Orphaned.mem_broadcast m with m | rfl
    · exact t.processors p m
    · intro e m; cases m

theorem startEventHandlers (t : Traced base s) (resume : Bool) : Traced base (s.startEventHandlers resume) where
  __ := t
  pollers p m := by
    simp only [St.startEventHandlers, List.mem_append, List.mem_singleton] at m
    rcases m with m | rfl
    · exact t.pollers p m
    · rintro _ ⟨⟩
  dispatchers d m := by
    cases resume <;> simp only [St.startEventHandlers, if_true, if_false, Bool.false_eq_true,
      List.mem_append, List.mem_singleton] at m
    · rcases m with m | rfl
      · exact t.dispatchers d m
      · intro e m; cases m
    · exact t.dispatchers d m
  processors p m := by
    simp only [St.startEventHandlers, List.mem_append, List.mem_singleton] at m
    rcases m with m | rfl
    · exact t.processors p m
    · intro e m; cases m

theorem subsOnly (t : Traced base s) (h : St.SubsOnly s s') (w : Hwm base s.handed s'.subs) :
    Traced base s' := by
  obtain ⟨_, _, rfl⟩ := h
  exact { t with hwm := w }

theorem step {lib : Lib} {chain : List Ev} {act : Act} (t : Traced base s)
    (h : s.step lib chain act = some s') : Traced base s' := by
  cases act with
  | poller i =>
    obtain ⟨p, s₁, q, hp, m, rfl⟩ := St.step_poller h
    obtain ⟨w, st, hq⟩ := m.accounts t.hwm t.stored (t.pollers p (List.get?_mem hp))
    have frame : s₁.handed = s.handed ∧ s₁.pollers = s.pollers ∧ s₁.dispatchers = s.dispatchers ∧
        s₁.batchQueue = s.batchQueue ∧ s₁.processors = s.processors := by
      rcases m.writes with ⟨_, _, _, _, _, rfl, -⟩ | ⟨rfl, -⟩ <;> simp
    obtain ⟨hh, hps, hds, hbq, hpr⟩ := frame
    refine ⟨hh ▸ w, hh ▸ st, fun x m => ?_, hh ▸ hds ▸ t.dispatchers, hh ▸ hbq ▸ t.queue,
      hh ▸ hpr ▸ t.processors⟩
    rw [hh]
    rcases mem_replace (show x ∈ replace s₁.pollers i q from m) with m | m
    · exact t.pollers x (hps ▸ m)
    · exact hq x m
  | dispatcher i =>
    obtain ⟨d, s₁, q, hd, m, rfl⟩ := St.step_dispatcher h
    obtain ⟨grow, hs, hst, hps, hds, hpr, hq, hq'⟩ := m.traced (t.dispatchers d (List.get?_mem hd)) t.queue
    refine ⟨hs ▸ t.hwm.mono grow, hst ▸ t.stored.mono grow, fun p m => (t.pollers p (hps ▸ m)).mono grow,
      fun x m => ?_, hq, fun p m e me => ?_⟩
    · rcases mem_replace (show x ∈ replace s₁.dispatchers i q from m) with m | m
      · exact fun e me => grow e (t.dispatchers x (hds ▸ m) e me)
      · exact hq' x m
    · rcases hpr p m with m | rfl
      · exact grow e (t.processors p m e me)
      · cases me
  | processor i =>
    obtain ⟨p, s₁, q, hp, m, rfl⟩ := St.step_processor h
    obtain ⟨hh, hst, hps, hds, hpr, w, hq, hq'⟩ := m.traced t.hwm t.queue (t.processors p (List.get?_mem hp))
    refine ⟨hh ▸ w, hh ▸ hst ▸ t.stored, hh ▸ hps ▸ t.pollers, hh ▸ hds ▸ t.dispatchers, hh ▸ hq,
      fun x m => ?_⟩
    rw [hh]
    rcases mem_replace (show x ∈ replace s₁.processors i q from m) with m | m
    · exact t.processors x (hpr ▸ m)
    · exact hq' x m
  | deliver =>
    obtain ⟨_, _, _, -, rfl⟩ := St.handleEvent_eq h
    exact { t with }
  | suspend =>
    obtain rfl := St.suspend_eq h
    exact Traced.broadcast { t with }
  | resume =>
    rcases St.resume_eq h with rfl | rfl
    · exact t
    · refine Traced.broadcast (Traced.startEventHandlers ?_ true)
      exact { t with }
  | updateBegin => rcases St.updateBegin_eq h with rfl | rfl <;> exact { t.broadcast with }
  | updateEnd =>
    obtain ⟨_, _, -, -, rfl | rfl⟩ := St.updateEnd_eq h
    · refine Traced.startEventHandlers ?_ false
      exact { t with }
    · exact { t with }
  | stop =>
    obtain ⟨_, rfl⟩ := St.stop_eq h
    exact { t.broadcast with }
  | addSub => exact t.subsOnly (St.addSub_subsOnly h) (St.addSub_hwm t.hwm h)
  | resetSub => exact t.subsOnly (St.resetSub_subsOnly h) (St.resetSub_hwm t.hwm h)
  | deleteSub => exact t.subsOnly (St.deleteSub_subsOnly h) (St.deleteSub_hwm t.hwm h)

end Traced

theorem St.Reachable.traced {lib : Lib} {chain : List Ev} {base : List (Nat × Nat)} {s₀ s : St}
    (h : St.Reachable lib chain s₀ s) (h₀ : Traced base s₀) : Traced base s := by
  induction h with
  | start => exact h₀
  | step _ _ hs ih => exact ih.step hs

theorem Traced.start (spec : StreamInfo) (subs : List Sub) (stored : List (Nat × Nat)) :
    Traced (stored ++ subs.map fun x => (x.id, x.blockHWM)) (St.start spec subs stored) where
  hwm x m := .inr (.inl (List.mem_append_right _ (List.mem_map_of_mem _ m)))
  stored kv m := .inr (.inl (List.mem_append_left _ m))
  pollers p m := by
    simp only [St.start, St.startEventHandlers, St.empty, List.nil_append, List.mem_singleton] at m
    subst m; rintro _ ⟨⟩
  dispatchers d m := by
    simp only [St.start, St.startEventHandlers, St.empty, if_false, Bool.false_eq_true, List.nil_append,
      List.mem_singleton] at m
    subst m; intro e m; cases m
  queue b m := by cases m
  processors p m := by
    simp only [St.start, St.startEventHandlers, St.empty, List.nil_append, List.mem_singleton] at m
    subst m; intro e m; cases m

def boundaryStream : St :=
  St.start { pipelineSpec with batchSize := 1 } [⟨0, true, some 0, true, false, false, 0⟩] []

def boundaryChain : List Ev := [⟨0, 5, 0⟩, ⟨0, 5, 1⟩]

/-- Both events are handed, each in a batch of its own; the first is acknowledged and its
callback sets the high-water mark to 6; the poller's next round finds the stream blocked and
goes to record the checkpoint. -/
def ackFirstOfBlock : List Act :=
  [.poller 0 .next, .poller 0 .next, .poller 0 .next, .poller 0 .next, .poller 0 .next, .poller 0 .next,
   .dispatcher 0 .next, .deliver 0, .dispatcher 0 .next, .dispatcher 0 .next, .dispatcher 0 .next,
   .deliver 0, .dispatcher 0 .next, .dispatcher 0 .next,
   .processor 0 .next, .processor 0 .next, .processor 0 .next, .processor 0 .next, .processor 0 .next,
   .processor 0 .next, .processor 0 .next, .processor 0 .next, .processor 0 .next, .processor 0 .next,
   .poller 0 .timer, .poller 0 .next]

theorem checkpoint_passes_unacknowledged_event :
    ∃ s, St.Reachable Lib.ascii boundaryChain boundaryStream s ∧ ⟨0, 5, 1⟩ ∈ s.handed ∧
      ⟨0, 5, 1⟩ ∉ s.acked ++ s.skipped ∧
      (s.step Lib.ascii boundaryChain (.poller 0 .next)).map (·.stored) = some [(0, 6)] := by
  obtain ⟨s, hr, hp⟩ := reach_of_run (show (boundaryStream.run Lib.ascii boundaryChain ackFirstOfBlock).map
    (fun s => decide ((⟨0, 5, 1⟩ : Ev) ∈ s.handed) && !decide ((⟨0, 5, 1⟩ : Ev) ∈ s.acked ++ s.skipped) &&
      (s.step Lib.ascii boundaryChain (.poller 0 .next)).map (·.stored) == some [(0, 6)]) = some true by decide)
  simp only [Bool.and_eq_true, Bool.not_eq_true', decide_eq_true_eq, decide_eq_false_iff_not, beq_iff_eq] at hp
  obtain ⟨⟨handed, pending⟩, stores⟩ := hp
  exact ⟨s, hr, handed, pending, stores⟩

theorem justified_start {stored : List (Nat × Nat)} {subs : List Sub} {h : List Ev} {k v : Nat}
    (j : Justified (stored ++ subs.map fun x => (x.id, x.blockHWM)) h k v) :
    v = 0 ∨ (k, v) ∈ stored ∨ (∃ x ∈ subs, x.id = k ∧ x.blockHWM = v) ∨ ∃ e ∈ h, e.sub = k ∧ v = e.block + 1 := by
  rcases j with j | j | j
  · exact .inl j
  · rcases List.mem_append.mp j with j | j
    · exact .inr (.inl j)
    · obtain ⟨x, mx, hx⟩ := List.mem_map.mp j
      exact .inr (.inr (.inl ⟨x, mx, congrArg Prod.fst hx, congrArg Prod.snd hx⟩))
  · exact .inr (.inr (.inr j))

/-- Whatever the poller stores for a subscription is zero, a value the stream started with, or
one past the block of an event of that subscription the stream was handed. -/
theorem St.Reachable.stored_justified {lib : Lib} {chain : List Ev} {spec : StreamInfo} {subs : List Sub}
    {stored : List (Nat × Nat)} {s : St} (h : St.Reachable lib chain (St.start spec subs stored) s) :
    ∀ kv ∈ s.stored, kv.2 = 0 ∨ kv ∈ stored ∨ (∃ x ∈ subs, x.id = kv.1 ∧ x.blockHWM = kv.2) ∨
      ∃ e ∈ s.handed, e.sub = kv.1 ∧ kv.2 = e.block + 1 :=
  fun kv m => justified_start ((h.traced (Traced.start spec subs stored)).stored kv m)

/-- The checkpoint 6 the poller stores there is one past the block of a handed event. -/
theorem boundary_checkpoint_justified :
    ∃ s, St.Reachable Lib.ascii boundaryChain boundaryStream s ∧ s.stored = [(0, 6)] ∧
      ∀ kv ∈ s.stored, kv.2 = 0 ∨ kv ∈ ([] : List (Nat × Nat)) ∨
        (∃ x ∈ [(⟨0, true, some 0, true, false, false, 0⟩ : Sub)], x.id = kv.1 ∧ x.blockHWM = kv.2) ∨
        ∃ e ∈ s.handed, e.sub = kv.1 ∧ kv.2 = e.block + 1 := by
  obtain ⟨s, hr, hp⟩ := reach_of_run (show (boundaryStream.run Lib.ascii boundaryChain
    (ackFirstOfBlock ++ [.poller 0 .next])).map (·.stored == [(0, 6)]) = some true by decide)
  exact ⟨s, hr, by simpa using hp, St.Reachable.stored_justified hr⟩

end FabconnectEvents
