import FabconnectEvents.Pipeline.Generation

/-!
What the sink sees of the events a stream is handed, when the stream is never resumed. There
is then one dispatcher, which cuts the events it receives into batches in order, and one
processor, which takes the batches off the queue in order and passes each to `attemptBatch`
until it is processed, skipped or given up. A batch is dropped whole: with the dispatcher that
was filling it, with a `processBatch` interrupted by an update or stopped by a suspend, or by
never leaving the queue. So the calls of `attemptBatch` are non-empty batches, each sent one or
more times in a row, and each batch is a run of consecutive handed events, later batches after
earlier ones. A resumed stream can run two dispatchers, and the batches of one then interleave
with the other's.
-/
namespace FabconnectEvents

/-- `l` holds the batches `cs` in order, each as a run of consecutive events, with events that
are in no batch before, between and after them. -/
inductive Chunked : List (List Ev) → List Ev → Prop where
  | nil (l : List Ev) : Chunked [] l
  | gap {cs : List (List Ev)} {l : List Ev} (e : Ev) : Chunked cs l → Chunked cs (e :: l)
  | chunk {cs : List (List Ev)} {l : List Ev} (c : List Ev) : Chunked cs l → Chunked (c :: cs) (c ++ l)

/-- The calls `attempts` are the batches `cs` in order, each one or more times in a row. -/
inductive Retried : List (List Ev) → List (List Ev) → Prop where
  | nil : Retried [] []
  | first {cs attempts : List (List Ev)} (c : List Ev) :
      Retried cs attempts → Retried (cs ++ [c]) (attempts ++ [c])
  | again {cs attempts : List (List Ev)} (c : List Ev) :
      Retried (cs ++ [c]) attempts → Retried (cs ++ [c]) (attempts ++ [c])

namespace Chunked
variable {cs : List (List Ev)} {l : List Ev}

theorem gaps (x : List Ev) (h : Chunked cs l) : Chunked cs (x ++ l) := by
  induction x with
  | nil => exact h
  | cons e x ih => exact .gap e ih

theorem append_gaps (x : List Ev) (h : Chunked cs l) : Chunked cs (l ++ x) := by
  induction h with
  | nil => exact .nil _
  | gap e _ ih => exact .gap e ih
  | chunk c _ ih => rw [List.append_assoc]; exact .chunk c ih

theorem snoc (c : List Ev) (h : Chunked cs l) : Chunked (cs ++ [c]) (l ++ c) := by
  induction h with
  | nil l => simpa using gaps l (.chunk c (.nil []))
  | gap e _ ih => exact .gap e ih
  | chunk c' _ ih => rw [List.append_assoc]; exact .chunk c' ih

theorem erase {A B : List (List Ev)} {c : List Ev} (h : Chunked (A ++ c :: B) l) : Chunked (A ++ B) l := by
  generalize hcs : A ++ c :: B = cs at h
  induction h generalizing A with
  | nil => simp at hcs
  | gap e _ ih => exact .gap e (ih hcs)
  | chunk c' h ih =>
    cases A with
    | nil => cases hcs; exact gaps c h
    | cons a A => cases hcs; exact .chunk _ (ih rfl)

theorem take {A B : List (List Ev)} (h : Chunked (A ++ B) l) : Chunked A l := by
  generalize hcs : A ++ B = cs at h
  induction h generalizing A with
  | nil => obtain ⟨rfl, -⟩ := List.append_eq_nil.mp hcs; exact .nil _
  | gap e _ ih => exact .gap e (ih hcs)
  | chunk c h ih =>
    cases A with
    | nil => exact .nil _
    | cons a A => cases hcs; exact .chunk _ (ih rfl)

end Chunked

/-- The batches of a stream from the sink's side: the events `pre` the dispatcher has finished
with hold, as runs of consecutive events and in this order, the batches `cs` the sink was called
with, the batches `held` by `processBatch` that it was not called with yet, and the queue, none
of them empty; a held batch the sink was called with is the last of `cs`. -/
def Sent (pre : List Ev) (attempts held queue : List (List Ev)) : Prop :=
  ∃ cs, Retried cs attempts ∧ [] ∉ cs ++ held ++ queue ∧
    (Chunked (cs ++ held ++ queue) pre ∨ ∃ cs₀ c, cs = cs₀ ++ [c] ∧ held = [c] ∧ Chunked (cs ++ queue) pre)

namespace Sent
variable {pre : List Ev} {attempts held queue : List (List Ev)}

theorem start : Sent [] [] [] [] := ⟨[], .nil, by simp, .inl (.nil [])⟩

theorem call {c : List Ev} (h : Sent pre attempts [c] queue) : Sent pre (attempts ++ [c]) [c] queue := by
  obtain ⟨cs, hr, hn, hc | ⟨cs₀, c', rfl, hc', hc⟩⟩ := h
  · exact ⟨cs ++ [c], .first c hr, by simp_all, .inr ⟨cs, c, rfl, rfl, by simpa using hc⟩⟩
  · cases hc'
    exact ⟨cs₀ ++ [c], .again c hr, hn, .inr ⟨cs₀, c, rfl, rfl, hc⟩⟩

theorem release {c : List Ev} (h : Sent pre attempts [c] queue) : Sent pre attempts [] queue := by
  obtain ⟨cs, hr, hn, hc | ⟨cs₀, c', rfl, hc', hc⟩⟩ := h
  · exact ⟨cs, hr, by simp_all, .inl (by simpa using (by simpa using hc : Chunked (cs ++ c :: queue) pre).erase)⟩
  · exact ⟨cs₀ ++ [c'], hr, by simp_all, .inl (by simpa using hc)⟩

theorem pop {b : List Ev} (h : Sent pre attempts [] (b :: queue)) : Sent pre attempts [b] queue := by
  obtain ⟨cs, hr, hn, hc⟩ := h
  refine ⟨cs, hr, by simpa using hn, .inl ?_⟩
  rcases hc with hc | ⟨_, _, _, h, _⟩
  · simpa using hc
  · simp at h

theorem push {b : List Ev} (hb : b ≠ []) (h : Sent pre attempts held queue) :
    Sent (pre ++ b) attempts held (queue ++ [b]) := by
  obtain ⟨cs, hr, hn, hc⟩ := h
  refine ⟨cs, hr, by simp_all [eq_comm], ?_⟩
  rcases hc with hc | ⟨cs₀, c, rfl, rfl, hc⟩
  · exact .inl (by simpa using hc.snoc b)
  · exact .inr ⟨cs₀, c, rfl, rfl, by simpa using hc.snoc b⟩

theorem drop (x : List Ev) (h : Sent pre attempts held queue) : Sent (pre ++ x) attempts held queue := by
  obtain ⟨cs, hr, hn, hc⟩ := h
  exact ⟨cs, hr, hn, hc.imp (·.append_gaps x) fun ⟨cs₀, c, h₁, h₂, hc⟩ => ⟨cs₀, c, h₁, h₂, hc.append_gaps x⟩⟩

theorem chunked (h : Sent pre attempts held queue) : ∃ cs, Retried cs attempts ∧ [] ∉ cs ∧ Chunked cs pre := by
  obtain ⟨cs, hr, hn, hc | ⟨-, -, -, -, hc⟩⟩ := h
  · exact ⟨cs, hr, by simp_all, by rw [List.append_assoc] at hc; exact hc.take⟩
  · exact ⟨cs, hr, by simp_all, hc.take⟩

end Sent

def Processor.framed : Processor → List (List Ev)
  | .batch f => [f.events]
  | .top | .condWait | .intrWait _ | .done => []

namespace St
variable {s s' : St} {e : Env}

def filling (s : St) : List Ev := (s.dispatchers.map (·.batch)).flatten

def framed (s : St) : List (List Ev) := (s.processors.map Processor.framed).flatten

@[simp] theorem broadcast_framed (s : St) : s.broadcast.framed = s.framed := by
  simp only [framed, broadcast_map Processor.framed rfl]

@[simp] theorem broadcast_handed (s : St) : s.broadcast.handed = s.handed := rfl

@[simp] theorem broadcast_attempts (s : St) : s.broadcast.attempts = s.attempts := rfl

theorem performActionWithRetryStep_sink {events : List Ev} {a a' : ActionFrame}
    (h : s.performActionWithRetryStep events a e = some (s', a')) :
    (s'.attempts = s.attempts ∨ s'.attempts = s.attempts ++ [events]) ∧
      (s'.acked = s.acked ∨ s'.acked = s.acked ++ events) ∧ s'.skipped = s.skipped := by
  unfold performActionWithRetryStep at h
  dsimp only at h
  repeat' split at h
  all_goals cases h
  all_goals simp

theorem processBatchStep_sink {f : BatchFrame} {q : Option BatchFrame}
    (h : s.processBatchStep f e = some (s', q)) :
    (s'.attempts = s.attempts ∨ s'.attempts = s.attempts ++ [f.events]) ∧
      (s'.acked = s.acked ∨ s'.acked = s.acked ++ f.events) ∧
      (s'.skipped = s.skipped ∨ s'.skipped = s.skipped ++ f.events) := by
  unfold processBatchStep at h
  dsimp only at h
  split at h
  case h_4 =>
    split at h
    · repeat' split at h
      all_goals cases h
      all_goals simp
    · split at h <;> cases h
      obtain ⟨h1, h2, h3⟩ := performActionWithRetryStep_sink ‹_›
      exact ⟨h1, h2, .inl h3⟩
  case h_6 =>
    cases h
    obtain ⟨_, hc⟩ := foldl_batchComplete (lastPerSub f.events) s
    simp [hc]
  all_goals
    repeat' split at h
    all_goals cases h
    all_goals simp [startAction, add]

theorem batchProcessorStep_sink {p : Processor} {q : Option Processor}
    (h : s.batchProcessorStep p e = some (s', q)) :
    (s'.attempts = s.attempts ∧ s'.acked = s.acked ∧ s'.skipped = s.skipped) ∨
      ∃ f, p = .batch f ∧ (s'.attempts = s.attempts ∨ s'.attempts = s.attempts ++ [f.events]) ∧
        (s'.acked = s.acked ∨ s'.acked = s.acked ++ f.events) ∧
        (s'.skipped = s.skipped ∨ s'.skipped = s.skipped ++ f.events) := by
  unfold batchProcessorStep at h
  split at h
  case h_4 f => split at h <;> cases h <;> exact .inr ⟨f, rfl, processBatchStep_sink ‹_›⟩
  all_goals
    repeat' split at h
    all_goals cases h
    all_goals simp [add]

theorem batchProcessorStep_attempts {p : Processor} {q : Option Processor}
    (h : s.batchProcessorStep p e = some (s', q)) :
    s'.attempts = s.attempts ∨ ∃ f, p = .batch f ∧ s'.attempts = s.attempts ++ [f.events] := by
  rcases batchProcessorStep_sink h with ⟨ha, -⟩ | ⟨f, rfl, ha | ha, -⟩
  · exact .inl ha
  · exact .inl ha
  · exact .inr ⟨f, rfl, ha⟩

theorem BatchMove.flow {f : BatchFrame} {q : Option BatchFrame} (m : BatchMove s f s' q) :
    s'.handed = s.handed ∧ s'.batchQueue = s.batchQueue ∧ s'.dispatchers = s.dispatchers ∧
      s'.pending = s.pending ∧ ∀ f', q = some f' → f'.events = f.events := by
  cases m with
  | complete => split <;> simp
  | callbacks =>
    obtain ⟨_, hc⟩ := foldl_batchComplete (lastPerSub f.events) s
    simp [hc]
  | _ => simp [startAction, add]

theorem ProcessorMove.flow {p : Processor} {q : Option Processor} (m : ProcessorMove s p s' q) :
    s'.handed = s.handed ∧ s'.dispatchers = s.dispatchers ∧ s'.pending = s.pending ∧
      (s'.batchQueue = s.batchQueue ∧
          ((q.map Processor.framed).getD [] = p.framed ∨ (q.map Processor.framed).getD [] = []) ∨
        ∃ b, p = .top ∧ s.batchQueue = b :: s'.batchQueue ∧ (q.map Processor.framed).getD [] = [b]) := by
  cases m with
  | wait => split <;> simp [Processor.framed]
  | pop b rest _ _ hq => simp [Processor.framed, hq, add]
  | frame f f' _ m =>
    obtain ⟨h1, h2, h3, h4, h5⟩ := m.flow
    simp [Processor.framed, h1, h2, h3, h4, h5 f' rfl]
  | frameReturn f _ m =>
    obtain ⟨h1, h2, h3, h4, -⟩ := m.flow
    simp [Processor.framed, h1, h2, h3, h4]
  | _ => simp [Processor.framed]

end St

theorem framed_of_running {l : List Processor} (h : (l.map Processor.running).sum = 0) :
    (l.map Processor.framed).flatten = [] := by
  refine List.flatten_eq_nil_iff.mpr fun x m => ?_
  obtain ⟨p, mp, rfl⟩ := List.mem_map.mp m
  have := List.le_sum_of_mem (List.mem_map_of_mem Processor.running mp)
  have hp : p.running = 0 := by omega
  cases p <;> simp [Processor.running, Processor.framed] at hp ⊢

theorem framed_replace_eq {l : List Processor} {i : Nat} {p : Processor} {q : Option Processor}
    (hp : l.get? i = some p) (hq : (q.map Processor.framed).getD [] = p.framed) :
    ((replace l i q).map Processor.framed).flatten = (l.map Processor.framed).flatten := by
  obtain ⟨hl, hr⟩ := replace_split hp q
  rw [hr]
  conv_rhs => rw [hl]
  cases q <;> simp at hq <;> simp [hq]

theorem framed_replace {l : List Processor} {i : Nat} {p : Processor} (hp : l.get? i = some p)
    (one : (l.map Processor.running).sum ≤ 1) (hr : p.running = 1) (q : Option Processor) :
    (l.map Processor.framed).flatten = p.framed ∧
      ((replace l i q).map Processor.framed).flatten = (q.map Processor.framed).getD [] := by
  obtain ⟨hl, hq⟩ := replace_split hp q
  have hs := congrArg (fun l => (l.map Processor.running).sum) hl
  simp only [List.map_append, List.map_cons, List.sum_append, List.sum_cons] at hs
  have hA : ((l.take i).map Processor.framed).flatten = [] := framed_of_running (by omega)
  have hB : ((l.drop (i + 1)).map Processor.framed).flatten = [] := framed_of_running (by omega)
  refine ⟨?_, ?_⟩
  · conv_lhs => rw [hl]
    simp [hA, hB, -List.map_take, -List.map_drop]
  · rw [hq]
    cases q <;> simp [hA, hB, -List.map_take, -List.map_drop]

theorem filling_replace {l : List Dispatcher} {i : Nat} {d : Dispatcher} (hd : l.get? i = some d)
    (one : l.length ≤ 1) (q : Option Dispatcher) :
    (l.map (·.batch)).flatten = d.batch ∧
      ((replace l i q).map (·.batch)).flatten = (q.map (·.batch)).getD [] := by
  match l, i, one, hd with
  | [d'], 0, _, hd =>
    cases hd
    cases q <;> simp [replace]

/-- The dispatcher has received an event of the batch it is about to queue; the handed events
are the ones it finished with, then the batch it is filling; and these are the batches the sink
was called with, the batch the processor holds and the queue, with gaps for dropped batches. -/
structure Batched (s : St) : Prop where
  filled : ∀ d ∈ s.dispatchers, ∀ t, d.pc = .got t → d.batch ≠ []
  sent : ∃ pre, s.handed = pre ++ s.filling ∧ Sent pre s.attempts s.framed s.batchQueue

namespace Batched
variable {s s' s₁ : St} {i : Nat}

theorem start (spec : StreamInfo) (subs : List Sub) (stored : List (Nat × Nat)) :
    Batched (St.start spec subs stored) :=
  ⟨by simp [St.start, St.startEventHandlers, St.empty], [], by simp [St.start, St.startEventHandlers, St.empty,
    St.filling], by simpa [St.start, St.startEventHandlers, St.empty, St.framed, Processor.framed] using Sent.start⟩

theorem congr (b : Batched s) (hh : s'.handed = s.handed) (ha : s'.attempts = s.attempts)
    (hq : s'.batchQueue = s.batchQueue) (hf : s'.filling = s.filling) (hp : s'.framed = s.framed)
    (filled : ∀ d ∈ s'.dispatchers, ∀ t, d.pc = .got t → d.batch ≠ []) : Batched s' :=
  ⟨filled, by rw [hh, ha, hq, hf, hp]; exact b.sent⟩

theorem same (b : Batched s) (hh : s'.handed = s.handed) (ha : s'.attempts = s.attempts)
    (hq : s'.batchQueue = s.batchQueue) (hd : s'.dispatchers = s.dispatchers) (hp : s'.framed = s.framed) :
    Batched s' :=
  b.congr hh ha hq (by rw [St.filling, hd]; rfl) hp (hd ▸ b.filled)

theorem poller (b : Batched s) {p : Poller} {q : Option Poller} (m : St.PollerMove s p s₁ q) :
    Batched { s₁ with pollers := replace s₁.pollers i q } := by
  rcases m.writes with ⟨_, _, _, _, _, rfl, -⟩ | ⟨rfl, -⟩
  · exact b.same rfl rfl rfl rfl rfl
  · exact b.same (by simp) (by simp) (by simp) (by simp) (by simp [St.framed])

theorem of_fields {attempts framed queue : List (List Ev)}
    (filled : ∀ d ∈ s.dispatchers, ∀ t, d.pc = .got t → d.batch ≠ []) (pre : List Ev) (hh : s.handed = pre ++ s.filling)
    (ha : s.attempts = attempts) (hf : s.framed = framed) (hq : s.batchQueue = queue)
    (hs : Sent pre attempts framed queue) : Batched s :=
  ⟨filled, pre, hh, by rw [ha, hf, hq]; exact hs⟩

theorem dispatcher (b : Batched s) (one : s.dispatchers.length ≤ 1) {d : Dispatcher} {q : Option Dispatcher}
    (hd : s.dispatchers.get? i = some d) (m : St.DispatcherMove s d s₁ q) :
    Batched { s₁ with dispatchers := replace s₁.dispatchers i q } := by
  obtain ⟨fill, fill'⟩ := filling_replace hd one q
  obtain ⟨pre, hh, hs⟩ := b.sent
  rw [St.filling, fill] at hh
  have hds := m.balance.1
  have filled (hq : ∀ d', q = some d' → ∀ t, d'.pc = .got t → d'.batch ≠ []) :
      ∀ x ∈ replace s₁.dispatchers i q, ∀ t, x.pc = .got t → x.batch ≠ [] := fun x m t hx => by
    rcases mem_replace m with m | rfl
    · exact b.filled x (hds ▸ m) t hx
    · exact hq x rfl t hx
  cases m with
  | select =>
    exact .of_fields (filled fun _ h t hx => by cases h; cases hx) pre (by simpa [St.filling, fill'] using hh)
      rfl rfl rfl hs
  | exit =>
    exact .of_fields (filled fun _ h => by cases h) (pre ++ d.batch)
      (by simpa [St.filling, fill', St.dispatcherExit] using hh) (by simp [St.dispatcherExit])
      (by simp [St.dispatcherExit, St.framed]) (by simp [St.dispatcherExit]) (hs.drop d.batch)
  | receive _ _ ev =>
    exact .of_fields (filled fun _ h t _ => by cases h; simp) pre (by simp [St.filling, fill', hh]) rfl rfl rfl hs
  | timeout _ _ hb =>
    exact .of_fields (filled fun _ h t _ => by cases h; exact hb) pre (by simpa [St.filling, fill'] using hh)
      rfl rfl rfl hs
  | dispatch t hpc =>
    exact .of_fields (filled fun _ h t hx => by cases h; cases hx) (pre ++ d.batch)
      (by simpa [St.filling, fill'] using hh) (by simp) (by simp [St.framed, St.broadcast_map Processor.framed rfl])
      (by simp) (hs.push (b.filled d (List.get?_mem hd) t hpc))
  | count =>
    exact .of_fields (filled fun _ h t hx => by cases h; cases hx) pre (by simpa [St.filling, fill'] using hh)
      rfl rfl rfl hs

theorem processor (b : Batched s) (one : s.running ≤ 1) {p : Processor} {e : Env} {q : Option Processor}
    (hp : s.processors.get? i = some p) (h : s.batchProcessorStep p e = some (s₁, q)) :
    Batched { s₁ with processors := replace s₁.processors i q } := by
  have m := St.batchProcessorStep_move h
  obtain ⟨hh₁, hd₁, -, hflow⟩ := m.flow
  have hps := m.control.2.2
  obtain ⟨pre, hh, hs⟩ := b.sent
  have filled : ∀ d ∈ s₁.dispatchers, ∀ t, d.pc = .got t → d.batch ≠ [] := hd₁ ▸ b.filled
  have handed : s₁.handed = pre ++ (s₁.dispatchers.map (·.batch)).flatten := by rw [hh₁, hd₁]; exact hh
  have framed : ((replace s₁.processors i q).map Processor.framed).flatten =
      ((replace s.processors i q).map Processor.framed).flatten := by rw [hps]
  have keep (hk : (q.map Processor.framed).getD [] = p.framed) (hq : s₁.batchQueue = s.batchQueue) :
      Batched { s₁ with processors := replace s₁.processors i q } := by
    have hF := framed.trans (framed_replace_eq hp hk)
    rcases St.batchProcessorStep_attempts h with ha | ⟨f, rfl, ha⟩
    · exact .of_fields filled pre handed ha hF hq hs
    · have hf : s.framed = [f.events] := (framed_replace hp one rfl q).1
      rw [hf] at hs
      exact .of_fields filled pre handed ha (hF.trans hf) hq hs.call
  rcases hflow with ⟨hq, hk | hk⟩ | ⟨b₀, rfl, hq, hk⟩
  · exact keep hk hq
  · cases p with
    | batch f =>
      obtain ⟨hf, hf'⟩ := framed_replace hp one rfl q
      rw [St.framed, hf] at hs
      rcases St.batchProcessorStep_attempts h with ha | ⟨f', hf'', ha⟩
      · exact .of_fields filled pre handed ha (framed.trans (hf'.trans hk)) hq hs.release
      · cases hf''
        exact .of_fields filled pre handed ha (framed.trans (hf'.trans hk)) hq hs.call.release
    | _ => exact keep (hk.trans rfl) hq
  · obtain ⟨hf, hf'⟩ := framed_replace hp one rfl q
    rw [St.framed, hf, hq] at hs
    have ha : s₁.attempts = s.attempts := (St.batchProcessorStep_attempts h).resolve_right fun ⟨_, h, _⟩ => by
      cases h
    exact .of_fields filled pre handed ha (framed.trans (hf'.trans hk)) rfl hs.pop

theorem broadcast (b : Batched s) : Batched s.broadcast := b.same rfl rfl rfl rfl (St.broadcast_framed s)

theorem subsOnly (b : Batched s) (h : St.SubsOnly s s') : Batched s' := by
  obtain ⟨_, _, rfl⟩ := h
  exact b.same rfl rfl rfl rfl rfl

theorem startEventHandlers (b : Batched s) (hd : s.dispatchers = []) (hq : ∀ p ∈ s.processors, p = .done) :
    Batched (s.startEventHandlers false) := by
  have framed : s.framed = [] := List.flatten_eq_nil_iff.mpr fun x m => by
    obtain ⟨p, mp, rfl⟩ := List.mem_map.mp m
    rw [hq p mp]
    rfl
  refine b.congr rfl rfl rfl (by simp [St.filling, St.startEventHandlers, hd]) ?_
    (by simp [St.startEventHandlers, hd])
  rw [framed]
  simpa [St.framed, St.startEventHandlers, Processor.framed] using framed

theorem step {lib : Lib} {chain : List Ev} {act : Act} (c : Current s) (b : Batched s) (hr : act ≠ .resume)
    (h : s.step lib chain act = some s') : Batched s' := by
  cases act with
  | poller =>
    obtain ⟨_, _, _, -, m, rfl⟩ := St.step_poller h
    exact b.poller m
  | dispatcher =>
    obtain ⟨_, _, _, hd, m, rfl⟩ := St.step_dispatcher h
    exact b.dispatcher c.oneDispatcher hd m
  | processor =>
    simp only [St.step, Option.bind_eq_some, Option.map_eq_some'] at h
    obtain ⟨p, hp, ⟨s₁, q⟩, hq, rfl⟩ := h
    exact b.processor c.oneProcessor hp hq
  | deliver =>
    obtain ⟨_, _, _, -, rfl⟩ := St.handleEvent_eq h
    exact b.same rfl rfl rfl rfl rfl
  | suspend =>
    obtain rfl := St.suspend_eq h
    exact Batched.broadcast (b.same rfl rfl rfl rfl rfl)
  | resume => exact absurd rfl hr
  | updateBegin =>
    rcases St.updateBegin_eq h with rfl | rfl <;>
      exact (Batched.broadcast (b.same rfl rfl rfl rfl rfl)).same rfl rfl rfl rfl rfl
  | updateEnd =>
    obtain ⟨g, _, hi, h0, rfl | rfl⟩ := St.updateEnd_eq h
    · obtain ⟨-, rfl, -⟩ := c.waiting hi
      obtain ⟨-, hd, hq⟩ := c.idle h0
      exact Batched.startEventHandlers (b.same rfl rfl rfl rfl rfl) hd hq
    · exact b.same rfl rfl rfl rfl rfl
  | stop =>
    obtain ⟨_, rfl⟩ := St.stop_eq h
    exact (Batched.broadcast (b.same rfl rfl rfl rfl rfl)).same rfl rfl rfl rfl rfl
  | addSub => exact b.subsOnly (St.addSub_subsOnly h)
  | resetSub => exact b.subsOnly (St.resetSub_subsOnly h)
  | deleteSub => exact b.subsOnly (St.deleteSub_subsOnly h)

theorem run {lib : Lib} {chain : List Ev} {acts : List Act} (c : Current s) (b : Batched s)
    (hr : ∀ a ∈ acts, a ≠ .resume) (h : s.run lib chain acts = some s') : Batched s' := by
  induction acts generalizing s with
  | nil => cases h; exact b
  | cons a rest ih =>
    simp only [St.run, Option.bind_eq_some] at h
    obtain ⟨s₁, h₁, h⟩ := h
    exact ih (c.step (hr a (.head _)) h₁) (b.step c (hr a (.head _)) h₁) (fun b hb => hr b (.tail _ hb)) h

end Batched

section
variable {lib : Lib} {chain : List Ev} {spec : StreamInfo} {subs : List Sub} {stored : List (Nat × Nat)}
  {acts : List Act} {s : St}

/-- Along a run of a new stream with no `resume` in it, the calls of `attemptBatch` are
non-empty batches, each sent one or more times in a row, and each batch is a run of consecutive
events among those the dispatcher was handed, later batches after earlier ones. -/
theorem unresumed_sink_sees_chunks (h : (St.start spec subs stored).run lib chain acts = some s)
    (hr : ∀ a ∈ acts, a ≠ .resume) : ∃ cs, Retried cs s.attempts ∧ [] ∉ cs ∧ Chunked cs s.handed := by
  obtain ⟨pre, hh, hs⟩ := ((Batched.start spec subs stored).run (Current.start spec subs stored) hr h).sent
  obtain ⟨cs, hr', hn, hc⟩ := hs.chunked
  exact ⟨cs, hr', hn, hh ▸ hc.append_gaps _⟩

set_option maxRecDepth 4000 in
/-- A batch of the first two events that the sink fails once and then takes. -/
theorem retried_batch_chunked :
    ∃ s, sampleStream.run Lib.ascii sampleChain (failedFirstAttempt ++ [.processor 0 .timer, .processor 0 .next]) =
        some s ∧ (∀ a ∈ failedFirstAttempt ++ [.processor 0 .timer, .processor 0 .next], a ≠ .resume) ∧
      s.attempts = [[⟨0, 0, 0⟩, ⟨0, 0, 1⟩], [⟨0, 0, 0⟩, ⟨0, 0, 1⟩]] ∧
      ∃ cs, Retried cs s.attempts ∧ [] ∉ cs ∧ Chunked cs s.handed := by
  obtain ⟨s, hs, ha⟩ := Option.map_eq_some'.mp (show (sampleStream.run Lib.ascii sampleChain
    (failedFirstAttempt ++ [.processor 0 .timer, .processor 0 .next])).map (·.attempts) =
      some [[⟨0, 0, 0⟩, ⟨0, 0, 1⟩], [⟨0, 0, 0⟩, ⟨0, 0, 1⟩]] by decide)
  have hr : ∀ a ∈ failedFirstAttempt ++ [.processor 0 .timer, .processor 0 .next], a ≠ .resume := by
    simp [failedFirstAttempt]
  exact ⟨s, hs, hr, ha, unresumed_sink_sees_chunks hs hr⟩

end

theorem St.handleEvent_sourced {s s' : St} {chain : List Ev} {i : Nat} (h : s.handleEvent chain i = some s') :
    s'.handed = s.handed ∧ s'.attempts = s.attempts ∧ s'.acked = s.acked ∧ s'.skipped = s.skipped ∧
      ∀ x ∈ s'.pending, x ∈ s.pending ∨ x.2 ∈ chain := by
  unfold St.handleEvent at h
  split at h; · cases h
  split at h; · cases h
  split at h; · cases h
  rename_i ev hev
  have hc : ev ∈ chain := (List.mem_filter.mp (List.get?_mem hev)).1
  dsimp only at h
  split at h <;> cases h
  · exact ⟨rfl, rfl, rfl, rfl, fun x m => .inl m⟩
  · refine ⟨rfl, rfl, rfl, rfl, fun x m => ?_⟩
    rcases List.mem_append.mp m with m | m
    · exact .inl m
    · rw [List.mem_singleton.mp m]; exact .inr hc

/-- Every event waiting in a callback or handed to the dispatcher is an event of the ledger, and
every event sent to the sink, acknowledged or skipped was handed to the dispatcher. -/
structure Sourced (chain : List Ev) (s : St) : Prop where
  pending : ∀ x ∈ s.pending, x.2 ∈ chain
  handed : ∀ e ∈ s.handed, e ∈ chain
  attempts : ∀ b ∈ s.attempts, ∀ e ∈ b, e ∈ s.handed
  acked : ∀ e ∈ s.acked, e ∈ s.handed
  skipped : ∀ e ∈ s.skipped, e ∈ s.handed

namespace Sourced
variable {chain : List Ev} {s s' s₁ : St} {i : Nat}

theorem same (src : Sourced chain s) (hp : s'.pending = s.pending) (hh : s'.handed = s.handed)
    (ha : s'.attempts = s.attempts) (hk : s'.acked = s.acked) (hs : s'.skipped = s.skipped) : Sourced chain s' := by
  obtain ⟨h1, h2, h3, h4, h5⟩ := src
  exact ⟨hp ▸ h1, hh ▸ h2, by rw [ha, hh]; exact h3, by rw [hk, hh]; exact h4, by rw [hs, hh]; exact h5⟩

theorem dispatcher (src : Sourced chain s) {d : Dispatcher} {q : Option Dispatcher} (m : St.DispatcherMove s d s₁ q) :
    Sourced chain { s₁ with dispatchers := replace s₁.dispatchers i q } := by
  cases m with
  | receive _ l ev rest _ hp =>
    have hev : ev ∈ chain := src.pending (l, ev) (by simp [hp])
    have grow : ∀ e ∈ s.handed, e ∈ s.handed ++ [ev] := fun e m => List.mem_append_left _ m
    refine ⟨fun x m => src.pending x (by simp [hp, m]), fun e m => ?_, fun b mb e me => grow e (src.attempts b mb e me),
      fun e m => grow e (src.acked e m), fun e m => grow e (src.skipped e m)⟩
    rcases List.mem_append.mp m with m | m
    · exact src.handed e m
    · rw [List.mem_singleton.mp m]; exact hev
  | exit =>
    exact src.same (by simp [St.dispatcherExit]) (by simp [St.dispatcherExit]) (by simp [St.dispatcherExit])
      (by simp [St.dispatcherExit]) (by simp [St.dispatcherExit])
  | _ => exact src.same rfl rfl rfl rfl rfl

theorem processor {base : List (Nat × Nat)} (t : Traced base s) (src : Sourced chain s) {p : Processor} {e : Env}
    {q : Option Processor} (hp : s.processors.get? i = some p) (h : s.batchProcessorStep p e = some (s₁, q)) :
    Sourced chain { s₁ with processors := replace s₁.processors i q } := by
  obtain ⟨hh, -, hpend, -⟩ := (St.batchProcessorStep_move h).flow
  rcases St.batchProcessorStep_sink h with ⟨ha, hk, hs⟩ | ⟨f, rfl, ha, hk, hs⟩
  · exact src.same hpend hh ha hk hs
  · have held : ∀ e ∈ f.events, e ∈ s.handed := t.processors _ (List.get?_mem hp)
    refine ⟨hpend ▸ src.pending, hh ▸ src.handed, fun b mb e me => ?_, fun e m => ?_, fun e m => ?_⟩ <;>
      show e ∈ s₁.handed <;> rw [hh]
    · rcases ha with ha | ha <;> rw [ha] at mb
      · exact src.attempts b mb e me
      · rcases List.mem_append.mp mb with mb | mb
        · exact src.attempts b mb e me
        · rw [List.mem_singleton.mp mb] at me; exact held e me
    · rcases hk with hk | hk <;> rw [hk] at m
      · exact src.acked e m
      · exact (List.mem_append.mp m).elim (src.acked e) (held e)
    · rcases hs with hs | hs <;> rw [hs] at m
      · exact src.skipped e m
      · exact (List.mem_append.mp m).elim (src.skipped e) (held e)

theorem step {lib : Lib} {act : Act} {base : List (Nat × Nat)} (t : Traced base s) (src : Sourced chain s)
    (h : s.step lib chain act = some s') : Sourced chain s' := by
  cases act with
  | poller =>
    obtain ⟨_, _, _, -, m, rfl⟩ := St.step_poller h
    rcases m.writes with ⟨_, _, _, _, _, rfl, -⟩ | ⟨rfl, -⟩
    · exact src.same rfl rfl rfl rfl rfl
    · exact src.same (by simp) (by simp) (by simp) (by simp) (by simp)
  | dispatcher =>
    obtain ⟨_, _, _, -, m, rfl⟩ := St.step_dispatcher h
    exact src.dispatcher m
  | processor =>
    simp only [St.step, Option.bind_eq_some, Option.map_eq_some'] at h
    obtain ⟨p, hp, ⟨s₁, q⟩, hq, rfl⟩ := h
    exact src.processor t hp hq
  | deliver =>
    obtain ⟨hh, ha, hk, hs, hp⟩ := St.handleEvent_sourced h
    refine ⟨fun x m => (hp x m).elim (src.pending x) id, hh ▸ src.handed, ?_, ?_, ?_⟩ <;> rw [hh]
    · exact ha ▸ src.attempts
    · exact hk ▸ src.acked
    · exact hs ▸ src.skipped
  | suspend => obtain rfl := St.suspend_eq h; exact src.same rfl rfl rfl rfl rfl
  | resume => rcases St.resume_eq h with rfl | rfl <;> exact src.same rfl rfl rfl rfl rfl
  | updateBegin => rcases St.updateBegin_eq h with rfl | rfl <;> exact src.same rfl rfl rfl rfl rfl
  | updateEnd =>
    obtain ⟨_, _, -, -, rfl | rfl⟩ := St.updateEnd_eq h <;> exact src.same rfl rfl rfl rfl rfl
  | stop => obtain ⟨_, rfl⟩ := St.stop_eq h; exact src.same rfl rfl rfl rfl rfl
  | addSub => obtain ⟨_, _, rfl⟩ := St.addSub_subsOnly h; exact src.same rfl rfl rfl rfl rfl
  | resetSub => obtain ⟨_, _, rfl⟩ := St.resetSub_subsOnly h; exact src.same rfl rfl rfl rfl rfl
  | deleteSub => obtain ⟨_, _, rfl⟩ := St.deleteSub_subsOnly h; exact src.same rfl rfl rfl rfl rfl

end Sourced

theorem St.Reachable.sourced {lib : Lib} {chain : List Ev} {spec : StreamInfo} {subs : List Sub}
    {stored : List (Nat × Nat)} {s : St} (h : St.Reachable lib chain (St.start spec subs stored) s) :
    Sourced chain s := by
  induction h with
  | start => exact ⟨by simp [St.start, St.startEventHandlers, St.empty], by simp [St.start, St.startEventHandlers,
      St.empty], by simp [St.start, St.startEventHandlers, St.empty], by simp [St.start, St.startEventHandlers,
      St.empty], by simp [St.start, St.startEventHandlers, St.empty]⟩
  | step _ hr hs ih => exact ih.step (hr.traced (Traced.start spec subs stored)) hs

/-- Under every schedule, `resume` and two dispatchers included, the sink is called only with
events the dispatchers were handed, and only those are acknowledged or skipped; and the
dispatchers are handed only events of the ledger. -/
theorem sink_sees_only_ledger_events {lib : Lib} {chain : List Ev} {spec : StreamInfo} {subs : List Sub}
    {stored : List (Nat × Nat)} {s : St} (h : St.Reachable lib chain (St.start spec subs stored) s) :
    (∀ e ∈ s.handed, e ∈ chain) ∧ (∀ b ∈ s.attempts, ∀ e ∈ b, e ∈ s.handed) ∧ (∀ e ∈ s.acked, e ∈ s.handed) ∧
      ∀ e ∈ s.skipped, e ∈ s.handed :=
  have src := h.sourced
  ⟨src.handed, src.attempts, src.acked, src.skipped⟩

/-- The batch the two dispatchers of a resumed stream split. -/
theorem split_batch_from_ledger :
    ∃ s, St.Reachable Lib.ascii sampleChain sampleStream s ∧ s.attempts = [[⟨0, 0, 0⟩, ⟨0, 1, 0⟩]] ∧
      (∀ e ∈ s.handed, e ∈ sampleChain) ∧ (∀ b ∈ s.attempts, ∀ e ∈ b, e ∈ s.handed) ∧
      (∀ e ∈ s.acked, e ∈ s.handed) ∧ ∀ e ∈ s.skipped, e ∈ s.handed := by
  obtain ⟨s, hr, hp⟩ := reach_of_run (show (sampleStream.run Lib.ascii sampleChain splitBatch).map
    (fun s => s.attempts == [[⟨0, 0, 0⟩, ⟨0, 1, 0⟩]]) = some true by decide)
  exact ⟨s, hr, by simpa using hp, sink_sees_only_ledger_events hr⟩

end FabconnectEvents
