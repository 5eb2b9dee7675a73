import FabconnectEvents.Pipeline.Batching

/-!
What a checkpoint rests on in a stream that is never resumed. `processBatch` marks a batch
processed when the sink acknowledged it, when it was skipped, or when `performActionWithRetry`
returned on a suspend or stop before its first call, and it runs the callbacks only once the
stream is neither suspended nor stopped. With no `resume` a suspend or stop is never lifted, so
the callbacks run only for a batch the sink acknowledged or the stream skipped. Every high-water
mark, every value in a poller's map and every stored checkpoint is then zero, a value the stream
started with, or one past the block of such an event: a checkpoint can pass an event that was
handed and not yet acknowledged, but only within the block of one that was.
-/
namespace FabconnectEvents

def St.delivered (s : St) : List Ev := s.acked ++ s.skipped

/-- What a `performActionWithRetry` frame whose last call did not fail has to show: the sink
acknowledged the batch, or the frame has made no call and leaves only on a suspend or stop. -/
def ActionFrame.Delivers (s : St) (events : List Ev) (a : ActionFrame) : Prop :=
  a.failed = false → (∀ x ∈ events, x ∈ s.delivered) ∨
    a.attempt = 0 ∧ a.complete = false ∧ (a.pc = .loop ∨ a.pc = .call ∨ s.suspendOrStop = true)

/-- What a `processBatch` frame owes at its program point: it leaves the loop processed or on a
suspend or stop, and it runs the callbacks only on a batch acknowledged or skipped. -/
def BatchFrame.Owes (s : St) (f : BatchFrame) : Prop :=
  match f.pc with
  | .finish => f.processed = true ∨ s.suspendOrStop = true
  | .callbacks => ∀ x ∈ f.events, x ∈ s.delivered
  | .action a => a.Delivers s f.events
  | .loop | .wait _ | .leave => True

/-- A `processBatch` frame that marked its batch processed had it acknowledged or skipped,
unless the stream is suspended or stopped, and it owes what its program point asks. -/
structure BatchFrame.Delivers (s : St) (f : BatchFrame) : Prop where
  processed : f.processed = true → (∀ x ∈ f.events, x ∈ s.delivered) ∨ s.suspendOrStop = true
  owes : f.Owes s

section
variable {s s' : St} {e : Env} {events : List Ev} {a a' : ActionFrame} {f : BatchFrame}

theorem ActionFrame.Delivers.mono (d : a.Delivers s events) (grow : ∀ x ∈ s.delivered, x ∈ s'.delivered)
    (halt : s.suspendOrStop = true → s'.suspendOrStop = true) : a.Delivers s' events := fun hf =>
  (d hf).imp (fun h x m => grow x (h x m)) fun ⟨h0, hc, hp⟩ => ⟨h0, hc, hp.imp_right (.imp_right halt)⟩

theorem BatchFrame.Delivers.mono (d : f.Delivers s) (grow : ∀ x ∈ s.delivered, x ∈ s'.delivered)
    (halt : s.suspendOrStop = true → s'.suspendOrStop = true) : f.Delivers s' where
  processed hp := (d.processed hp).imp (fun h x m => grow x (h x m)) halt
  owes := by
    have o := d.owes
    cases hpc : f.pc <;> simp only [BatchFrame.Owes, hpc] at o ⊢
    case finish => exact o.imp id halt
    case callbacks => exact fun x m => grow x (o x m)
    case action a => exact o.mono grow halt

theorem St.delivered_grow (l : List Ev) (hk : s'.acked = s.acked ∨ s'.acked = s.acked ++ l)
    (hs : s'.skipped = s.skipped ∨ s'.skipped = s.skipped ++ l) : ∀ x ∈ s.delivered, x ∈ s'.delivered := by
  intro x m
  simp only [St.delivered, List.mem_append] at m ⊢
  rcases hk with hk | hk <;> rcases hs with hs | hs <;> simp only [hk, hs, List.mem_append] <;> tauto

theorem St.performActionWithRetryStep_delivers (h : s.performActionWithRetryStep events a e = some (s', a'))
    (d : a.Delivers s events) : a'.Delivers s' events := by
  unfold St.performActionWithRetryStep at h
  dsimp only at h
  split at h
  case h_1 =>
    split at h
    · rename_i hx
      cases h
      exact fun hf => (d hf).imp id fun ⟨h0, hc, _⟩ => ⟨h0, hc, .inr (.inr (by simpa [hc] using hx))⟩
    · split at h <;> cases h
      · exact fun hf => .inl ((d hf).resolve_right fun ⟨h0, _⟩ => by omega)
      · exact fun hf => (d hf).imp id fun ⟨h0, hc, _⟩ => ⟨h0, hc, .inr (.inl rfl)⟩
  case h_2 hpc =>
    split at h <;> cases h
    exact fun hf => (d hf).imp id fun ⟨h0, hc, hp⟩ => ⟨h0, hc, .inr (.inr (by simpa [hpc] using hp))⟩
  case h_3 =>
    cases h
    exact fun hf => (d hf).imp id fun ⟨h0, hc, _⟩ => ⟨h0, hc, .inr (.inl rfl)⟩
  case h_4 =>
    split at h <;> (try split at h) <;> cases h
    · exact fun _ => .inl fun x m => by simp [St.delivered, m]
    · exact fun hf => by cases hf
    · exact fun hf => by cases hf
  case h_5 => cases h

theorem St.processBatchStep_delivered {q : Option BatchFrame} (h : s.processBatchStep f e = some (s', q)) :
    ∀ x ∈ s.delivered, x ∈ s'.delivered :=
  have sink := St.processBatchStep_sink h
  St.delivered_grow f.events sink.2.1 sink.2.2

theorem St.processBatchStep_suspendOrStop {q : Option BatchFrame} (h : s.processBatchStep f e = some (s', q)) :
    s'.suspendOrStop = s.suspendOrStop := by
  obtain ⟨hs, ht, -⟩ := (St.processBatchStep_move h).control
  simp only [St.suspendOrStop, hs, ht]

theorem St.processBatchStep_delivers {q : Option BatchFrame} (h : s.processBatchStep f e = some (s', q))
    (d : f.Delivers s) : ∀ f', q = some f' → f'.Delivers s' := by
  have grow := St.processBatchStep_delivered h
  have sos := St.processBatchStep_suspendOrStop h
  have keep := d.mono grow fun h => sos.trans h
  have owes := d.owes
  rintro f' rfl
  unfold St.processBatchStep at h
  split at h
  case h_1 =>
    split at h
    · rename_i hx
      cases h
      exact ⟨keep.processed, show _ ∨ _ by simpa [or_comm] using hx⟩
    · split at h <;> cases h
      · exact ⟨keep.processed, trivial⟩
      · exact ⟨keep.processed, fun _ => .inr ⟨rfl, rfl, .inl rfl⟩⟩
  case h_2 => split at h <;> cases h; exact ⟨keep.processed, trivial⟩
  case h_3 => cases h; exact ⟨keep.processed, fun _ => .inr ⟨rfl, rfl, .inl rfl⟩⟩
  case h_4 a hpc =>
    simp only [BatchFrame.Owes, hpc] at owes
    split at h
    case h_1 hl =>
      dsimp only at h
      split at h; · cases h
      split at h
      · rename_i hf
        cases h
        refine ⟨fun _ => ?_, trivial⟩
        rcases owes (by simpa using hf) with hd | ⟨-, -, hp⟩
        · exact .inl fun x m => grow x (hd x m)
        · simp only [hl, reduceCtorEq, false_or] at hp
          exact .inr (sos.trans hp)
      · split at h <;> cases h
        · exact ⟨fun _ => .inl fun x m => by simp [St.delivered, m], trivial⟩
        · exact ⟨keep.processed, trivial⟩
    case h_2 =>
      split at h <;> cases h
      rename_i r hr
      exact ⟨keep.processed, St.performActionWithRetryStep_delivers hr owes⟩
  case h_5 hpc =>
    split at h; · cases h
    cases h
    refine ⟨keep.processed, ?_⟩
    simp only [BatchFrame.Owes, hpc] at owes
    rw [sos]
    by_cases hs : s.suspendOrStop = true
    · simp only [hs, if_true, BatchFrame.Owes]
    · simp only [hs, Bool.false_eq_true, if_false, BatchFrame.Owes]
      exact (keep.processed (owes.resolve_right hs)).resolve_right (by rw [sos]; exact hs)
  case h_6 => cases h; exact ⟨keep.processed, trivial⟩
  case h_7 => cases h
  case h_8 => cases h


theorem St.batchProcessorStep_delivered {p : Processor} {q : Option Processor}
    (h : s.batchProcessorStep p e = some (s', q)) : ∀ x ∈ s.delivered, x ∈ s'.delivered := by
  rcases St.batchProcessorStep_sink h with ⟨-, hk, hs⟩ | ⟨f, -, -, hk, hs⟩
  · exact St.delivered_grow [] (.inl hk) (.inl hs)
  · exact St.delivered_grow f.events hk hs

theorem St.batchProcessorStep_delivers {p : Processor} {q : Option Processor}
    (h : s.batchProcessorStep p e = some (s', q)) (d : ∀ f, p = .batch f → f.Delivers s) :
    ∀ f, q = some (.batch f) → f.Delivers s' := by
  unfold St.batchProcessorStep at h
  split at h
  case h_4 f =>
    split at h <;> cases h
    · rename_i hf
      rintro _ ⟨⟩
      exact St.processBatchStep_delivers hf (d f rfl) _ rfl
    · rintro _ ⟨⟩
  all_goals
    repeat' split at h
    all_goals cases h
    all_goals rintro f hf
    all_goals cases hf
    all_goals exact ⟨nofun, trivial⟩

theorem St.BatchMove.delivery {f : BatchFrame} {q : Option BatchFrame} (m : St.BatchMove s f s' q) :
    s'.stored = s.stored ∧ s'.pollers = s.pollers ∧
      (s'.subs = s.subs ∨ f.pc = .callbacks ∧ s' = (St.lastPerSub f.events).foldl St.batchComplete s) := by
  cases m with
  | callbacks hpc =>
    obtain ⟨_, hc⟩ := St.foldl_batchComplete (St.lastPerSub f.events) s
    exact ⟨by rw [hc], by rw [hc], .inr ⟨hpc, rfl⟩⟩
  | complete => split <;> exact ⟨rfl, rfl, .inl rfl⟩
  | _ => simp [St.startAction, St.add]

theorem St.ProcessorMove.delivery {p : Processor} {q : Option Processor} (m : St.ProcessorMove s p s' q) :
    s'.stored = s.stored ∧ s'.pollers = s.pollers ∧ (s'.subs = s.subs ∨
      ∃ f, p = .batch f ∧ f.pc = .callbacks ∧ s' = (St.lastPerSub f.events).foldl St.batchComplete s) := by
  cases m with
  | frame f _ _ m | frameReturn f _ m =>
    obtain ⟨h1, h2, h3⟩ := m.delivery
    exact ⟨h1, h2, h3.imp_right fun h => ⟨f, rfl, h⟩⟩
  | _ => simp [St.add]

theorem St.DispatcherMove.delivery {d : Dispatcher} {q : Option Dispatcher} (m : St.DispatcherMove s d s' q) :
    s'.subs = s.subs ∧ s'.stored = s.stored ∧ s'.pollers = s.pollers ∧ s'.delivered = s.delivered ∧
      s'.suspendOrStop = s.suspendOrStop ∧ ∀ p ∈ s'.processors, p ∈ s.processors ∨ p = .top := by
  cases m with
  | exit =>
    refine ⟨?_, ?_, ?_, ?_, ?_, fun _ m => .inl (by simpa [St.dispatcherExit] using m)⟩ <;>
      simp [St.dispatcherExit, St.delivered, St.suspendOrStop]
  | dispatch => exact ⟨rfl, rfl, rfl, rfl, rfl, fun _ m => Orphaned.mem_broadcast m⟩
  | _ => exact ⟨rfl, rfl, rfl, rfl, rfl, fun _ m => .inl m⟩

end

/-- Every checkpoint value the stream holds rests on an acknowledged or skipped event, and every
`processBatch` frame shows what it owes. -/
structure Delivered (base : List (Nat × Nat)) (s : St) : Prop where
  hwm : Hwm base s.delivered s.subs
  stored : Accounts base s.delivered s.stored
  pollers : ∀ p ∈ s.pollers, PollerAccounts base s.delivered p
  frames : ∀ f, Processor.batch f ∈ s.processors → f.Delivers s

namespace Delivered
variable {base : List (Nat × Nat)} {s s' : St}

theorem of_frame (dl : Delivered base s) (hd : s'.delivered = s.delivered)
    (halt : s.suspendOrStop = true → s'.suspendOrStop = true) (hs : s'.subs = s.subs)
    (hst : s'.stored = s.stored) (hp : ∀ p ∈ s'.pollers, p ∈ s.pollers ∨ p.checkpoint = none)
    (hpr : ∀ p ∈ s'.processors, p ∈ s.processors ∨ p = .top) : Delivered base s' where
  hwm := by rw [hd, hs]; exact dl.hwm
  stored := by rw [hd, hst]; exact dl.stored
  pollers p m := by
    rw [hd]
    rcases hp p m with m | hc
    · exact dl.pollers p m
    · intro _ h; rw [hc] at h; cases h
  frames f m := by
    rcases hpr _ m with m | m
    · exact (dl.frames f m).mono (fun _ m => hd ▸ m) halt
    · cases m

theorem broadcast (dl : Delivered base s) (halt : s.suspendOrStop = true → s'.suspendOrStop = true)
    (hd : s'.delivered = s.delivered) (hs : s'.subs = s.subs) (hst : s'.stored = s.stored)
    (hp : s'.pollers = s.pollers) (hpr : s'.processors = s.broadcast.processors) : Delivered base s' :=
  dl.of_frame hd halt hs hst (fun _ m => .inl (hp ▸ m)) fun _ m => Orphaned.mem_broadcast (hpr ▸ m)

theorem subsOnly (dl : Delivered base s) (h : St.SubsOnly s s') (w : Hwm base s.delivered s'.subs) :
    Delivered base s' := by
  obtain ⟨_, _, rfl⟩ := h
  exact ⟨w, dl.stored, dl.pollers, fun f m => (dl.frames f m).mono (fun _ m => m) id⟩

theorem startEventHandlers (dl : Delivered base s) (resume : Bool) :
    Delivered base (s.startEventHandlers resume) :=
  dl.of_frame rfl id rfl rfl
    (fun p m => by
      simp only [St.startEventHandlers, List.mem_append, List.mem_singleton] at m
      rcases m with m | rfl
      · exact .inl m
      · exact .inr rfl)
    fun p m => by
      simp only [St.startEventHandlers, List.mem_append, List.mem_singleton] at m
      exact m

theorem step {lib : Lib} {chain : List Ev} {act : Act} (dl : Delivered base s) (hr : act ≠ .resume)
    (h : s.step lib chain act = some s') : Delivered base s' := by
  cases act with
  | poller i =>
    obtain ⟨p, s₁, q, hp, m, rfl⟩ := St.step_poller h
    obtain ⟨w, st, hq⟩ := m.accounts dl.hwm dl.stored (dl.pollers p (List.get?_mem hp))
    have frame : s₁.delivered = s.delivered ∧ s₁.suspendOrStop = s.suspendOrStop ∧ s₁.pollers = s.pollers ∧
        s₁.processors = s.processors := by
      rcases m.writes with ⟨_, _, _, _, _, rfl, -⟩ | ⟨rfl, -⟩ <;> simp [St.delivered, St.suspendOrStop]
    obtain ⟨hd, hso, hps, hpr⟩ := frame
    refine ⟨hd ▸ w, hd ▸ st, fun x m => ?_, fun f m => ?_⟩
    · show PollerAccounts base s₁.delivered x
      rw [hd]
      rcases mem_replace (show x ∈ replace s₁.pollers i q from m) with m | m
      · exact dl.pollers x (hps ▸ m)
      · exact hq x m
    · have hf : Processor.batch f ∈ s.processors := hpr ▸ m
      exact (dl.frames f hf).mono (fun _ m => hd ▸ m) fun h => hso ▸ h
  | dispatcher i =>
    obtain ⟨d, s₁, q, -, m, rfl⟩ := St.step_dispatcher h
    obtain ⟨hs, hst, hps, hd, hso, hpr⟩ := m.delivery
    exact dl.of_frame hd (fun h => hso ▸ h) hs hst (fun _ m => .inl (hps ▸ m)) hpr
  | processor i =>
    simp only [St.step, Option.bind_eq_some, Option.map_eq_some'] at h
    obtain ⟨p, hp, ⟨s₁, q⟩, hq, rfl⟩ := h
    have grow := St.batchProcessorStep_delivered hq
    have new := St.batchProcessorStep_delivers hq fun f e => dl.frames f (e ▸ List.get?_mem hp)
    obtain ⟨hst, hps, hsub⟩ := (St.batchProcessorStep_move hq).delivery
    obtain ⟨hsp, hstp, hpr⟩ := (St.batchProcessorStep_move hq).control
    have halt : s.suspendOrStop = true → s₁.suspendOrStop = true := by
      simp only [St.suspendOrStop, hsp, hstp]; exact id
    refine ⟨?_, by rw [hst]; exact dl.stored.mono grow, fun x m => (dl.pollers x (hps ▸ m)).mono grow,
      fun f m => ?_⟩
    · show Hwm base s₁.delivered s₁.subs
      rcases hsub with hs | ⟨f, rfl, hc, rfl⟩
      · rw [hs]; exact dl.hwm.mono grow
      · have cb := (dl.frames f (List.get?_mem hp)).owes
        simp only [BatchFrame.Owes, hc] at cb
        exact (St.hwm_foldl_batchComplete _ s dl.hwm fun e m => cb e (St.lastPerSub_sub m)).mono grow
    · rcases mem_replace (show _ ∈ replace s₁.processors i q from m) with m | m
      · have hf : Processor.batch f ∈ s.processors := hpr ▸ m
        exact (dl.frames f hf).mono grow halt
      · exact (new f m).mono (fun _ m => m) id
  | deliver =>
    obtain ⟨_, _, _, -, rfl⟩ := St.handleEvent_eq h
    exact dl.of_frame rfl id rfl rfl (fun _ m => .inl m) fun _ m => .inl m
  | suspend =>
    obtain rfl := St.suspend_eq h
    exact dl.broadcast (fun _ => by simp [St.suspendOrStop, St.broadcast]) rfl rfl rfl rfl rfl
  | resume => exact absurd rfl hr
  | updateBegin => rcases St.updateBegin_eq h with rfl | rfl <;> exact dl.broadcast id rfl rfl rfl rfl rfl
  | updateEnd =>
    obtain ⟨hsu, hst, -, -⟩ := St.updateEnd_control h
    have halt : s.suspendOrStop = true → s'.suspendOrStop = true := by
      simp only [St.suspendOrStop, hsu, hst]; exact id
    obtain ⟨_, _, -, -, rfl | rfl⟩ := St.updateEnd_eq h
    · refine Delivered.startEventHandlers ?_ false
      exact dl.of_frame rfl halt rfl rfl (fun _ m => .inl m) fun _ m => .inl m
    · exact dl.of_frame rfl halt rfl rfl (fun _ m => .inl m) fun _ m => .inl m
  | stop =>
    obtain ⟨_, rfl⟩ := St.stop_eq h
    exact dl.broadcast (fun _ => by simp [St.suspendOrStop, St.broadcast]) rfl rfl rfl rfl rfl
  | addSub => exact dl.subsOnly (St.addSub_subsOnly h) (St.addSub_hwm dl.hwm h)
  | resetSub => exact dl.subsOnly (St.resetSub_subsOnly h) (St.resetSub_hwm dl.hwm h)
  | deleteSub => exact dl.subsOnly (St.deleteSub_subsOnly h) (St.deleteSub_hwm dl.hwm h)

theorem run {lib : Lib} {chain : List Ev} {acts : List Act} (dl : Delivered base s)
    (hr : ∀ a ∈ acts, a ≠ .resume) (h : s.run lib chain acts = some s') : Delivered base s' := by
  induction acts generalizing s with
  | nil => cases h; exact dl
  | cons a rest ih =>
    simp only [St.run, Option.bind_eq_some] at h
    obtain ⟨s₁, h₁, h⟩ := h
    exact ih (dl.step (hr a (.head _)) h₁) (fun b hb => hr b (.tail _ hb)) h

theorem start (spec : StreamInfo) (subs : List Sub) (stored : List (Nat × Nat)) :
    Delivered (stored ++ subs.map fun x => (x.id, x.blockHWM)) (St.start spec subs stored) where
  hwm x m := .inr (.inl (List.mem_append_right _ (List.mem_map_of_mem _ m)))
  stored kv m := .inr (.inl (List.mem_append_left _ m))
  pollers p m := by
    simp only [St.start, St.startEventHandlers, St.empty, List.nil_append, List.mem_singleton] at m
    subst m; rintro _ ⟨⟩
  frames f m := by simp [St.start, St.startEventHandlers, St.empty] at m

end Delivered

section
variable {lib : Lib} {chain : List Ev} {spec : StreamInfo} {subs : List Sub} {stored : List (Nat × Nat)}
  {acts : List Act} {s : St}

/-- On a run of a new stream with no `resume` in it, every high-water mark and every stored
checkpoint is zero, a value the stream started with, or one past the block of an event of that
subscription that the sink acknowledged or the stream skipped. -/
theorem unresumed_checkpoints_delivered (h : (St.start spec subs stored).run lib chain acts = some s)
    (hr : ∀ a ∈ acts, a ≠ .resume) :
    (∀ x ∈ s.subs, x.blockHWM = 0 ∨ (x.id, x.blockHWM) ∈ stored ∨
        (∃ y ∈ subs, y.id = x.id ∧ y.blockHWM = x.blockHWM) ∨
        ∃ e ∈ s.acked ++ s.skipped, e.sub = x.id ∧ x.blockHWM = e.block + 1) ∧
      ∀ kv ∈ s.stored, kv.2 = 0 ∨ kv ∈ stored ∨ (∃ y ∈ subs, y.id = kv.1 ∧ y.blockHWM = kv.2) ∨
        ∃ e ∈ s.acked ++ s.skipped, e.sub = kv.1 ∧ kv.2 = e.block + 1 :=
  have dl := (Delivered.start spec subs stored).run hr h
  ⟨fun x m => justified_start (dl.hwm x m), fun kv m => justified_start (dl.stored kv m)⟩

end

/-- The checkpoint 6 of the boundary run rests on the acknowledged event at block 5. -/
theorem boundary_checkpoint_acknowledged :
    ∃ s, boundaryStream.run Lib.ascii boundaryChain (ackFirstOfBlock ++ [.poller 0 .next]) = some s ∧
      (∀ a ∈ ackFirstOfBlock ++ [.poller 0 .next], a ≠ .resume) ∧ s.stored = [(0, 6)] ∧
      s.acked = [⟨0, 5, 0⟩] ∧
      (∀ x ∈ s.subs, x.blockHWM = 0 ∨ (x.id, x.blockHWM) ∈ ([] : List (Nat × Nat)) ∨
        (∃ y ∈ [(⟨0, true, some 0, true, false, false, 0⟩ : Sub)], y.id = x.id ∧ y.blockHWM = x.blockHWM) ∨
        ∃ e ∈ s.acked ++ s.skipped, e.sub = x.id ∧ x.blockHWM = e.block + 1) ∧
      ∀ kv ∈ s.stored, kv.2 = 0 ∨ kv ∈ ([] : List (Nat × Nat)) ∨
        (∃ y ∈ [(⟨0, true, some 0, true, false, false, 0⟩ : Sub)], y.id = kv.1 ∧ y.blockHWM = kv.2) ∨
        ∃ e ∈ s.acked ++ s.skipped, e.sub = kv.1 ∧ kv.2 = e.block + 1 := by
  obtain ⟨s, hs, hp⟩ := Option.map_eq_some'.mp (show (boundaryStream.run Lib.ascii boundaryChain
    (ackFirstOfBlock ++ [.poller 0 .next])).map (fun s => s.stored == [(0, 6)] && s.acked == [⟨0, 5, 0⟩]) =
      some true by decide)
  simp only [Bool.and_eq_true, beq_iff_eq] at hp
  have hr : ∀ a ∈ ackFirstOfBlock ++ [.poller 0 .next], a ≠ .resume := by simp [ackFirstOfBlock]
  exact ⟨s, hs, hr, hp.1, hp.2, unresumed_checkpoints_delivered hs hr⟩

end FabconnectEvents
