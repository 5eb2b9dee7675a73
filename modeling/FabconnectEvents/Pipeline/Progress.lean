import FabconnectEvents.Pipeline.Checkpoint

/-!
How a subscription's position moves. After a batch, `processBatch` calls `batchComplete` once per
subscription of the batch, with its last event. Each round the poller copies the high-water
marks into its checkpoint map and calls `storeCheckpoint` when an entry was zero or changed; the
map takes the marks whether or not the call succeeds, so a failed write is retried only once a
mark moves. A reset drops the subscription's entry, and the same round writes the old mark back.
-/
namespace FabconnectEvents

namespace St

theorem lastPerSub_pairwise : ∀ l : List Ev, (lastPerSub l).Pairwise fun a b => a.sub ≠ b.sub
  | [] => .nil
  | e :: rest => by
    unfold lastPerSub
    split
    · exact lastPerSub_pairwise rest
    · rename_i later
      refine .cons (fun b m hb => later ?_) (lastPerSub_pairwise rest)
      exact List.any_eq_true.mpr ⟨b, lastPerSub_sub m, by simp [hb]⟩

end St

theorem St.setSub_comm (s : St) {k k' : Nat} (hk : k ≠ k') (f f' : Sub → Sub) (hf : ∀ x, (f x).id = x.id)
    (hf' : ∀ x, (f' x).id = x.id) : (s.setSub k f).setSub k' f' = (s.setSub k' f').setSub k f := by
  simp only [St.setSub, List.map_map, St.mk.injEq, and_true, true_and]
  apply List.map_congr_left
  intro x _
  by_cases h : x.id = k <;> by_cases h' : x.id = k' <;> simp [h, h', hf, hf', hk, Ne.symm hk]

/-- Go's `range` over the map of last events visits the subscriptions in an order of its own;
every order leaves the same high-water marks, so the model's one order stands for all of them. -/
theorem callbacks_order_irrelevant (s : St) (events calls : List Ev) (h : calls.Perm (St.lastPerSub events)) :
    calls.foldl St.batchComplete s = (St.lastPerSub events).foldl St.batchComplete s := by
  have nodup : ((St.lastPerSub events).map (·.sub)).Nodup := List.pairwise_map.mpr (St.lastPerSub_pairwise events)
  refine h.foldl_eq' (fun x hx y hy z => ?_) s
  by_cases hxy : x.sub = y.sub
  · rw [List.inj_on_of_nodup_map nodup (h.subset hx) (h.subset hy) hxy]
  · exact z.setSub_comm hxy _ _ (fun _ => rfl) fun _ => rfl

def twoSubscriptionBatch : BatchFrame := ⟨1, [⟨0, 0, 0⟩, ⟨1, 2, 0⟩, ⟨0, 1, 0⟩], 1, true, .callbacks⟩

/-- The same batch's callbacks in the other order. -/
theorem reversed_callbacks_agree :
    [⟨0, 1, 0⟩, ⟨1, 2, 0⟩].Perm (St.lastPerSub twoSubscriptionBatch.events) ∧
      [⟨0, 1, 0⟩, ⟨1, 2, 0⟩].foldl St.batchComplete sampleStream =
        (St.lastPerSub twoSubscriptionBatch.events).foldl St.batchComplete sampleStream :=
  have h : [⟨0, 1, 0⟩, ⟨1, 2, 0⟩].Perm (St.lastPerSub twoSubscriptionBatch.events) := by decide
  ⟨h, callbacks_order_irrelevant _ _ _ h⟩

theorem lookup_filter_ne {m : List (Nat × Nat)} {j k : Nat} (h : j ≠ k) :
    (m.filter (·.1 ≠ k)).lookup j = m.lookup j := by
  induction m with
  | nil => rfl
  | cons kv m ih =>
    obtain ⟨k', v'⟩ := kv
    by_cases hk : k' = k
    · subst hk
      rw [List.filter_cons_of_neg (by simp), ih, List.lookup_cons, beq_false_of_ne h]
    · rw [List.filter_cons_of_pos (by simpa using hk), List.lookup_cons, List.lookup_cons, ih]

@[simp] theorem cpGet_cpSet (m : List (Nat × Nat)) (k v j : Nat) :
    cpGet (cpSet m k v) j = if j = k then v else cpGet m j := by
  unfold cpGet cpSet
  by_cases h : j = k
  · subst h; simp
  · rw [if_neg h, List.lookup_cons, beq_false_of_ne h, lookup_filter_ne h]

namespace St

/-- `sub.blockHWM()` as the poller reads it for subscription `k`: zero once `k` has left the
subscriptions. -/
def blockHWM (s : St) (k : Nat) : Nat := ((s.sub? k).map (·.blockHWM)).getD 0

/-- Some subscription of the round has an entry of the map `m` that is zero or differs from its
high-water mark. -/
def Changed (s : St) (snapshot : List Nat) (m : List (Nat × Nat)) : Prop :=
  ∃ k ∈ snapshot, cpGet m k = 0 ∨ cpGet m k ≠ s.blockHWM k

theorem recordCheckpoint_cpGet (s : St) :
    ∀ (snapshot : List Nat) (m : List (Nat × Nat)) (j : Nat),
      cpGet (s.recordCheckpoint snapshot m).1 j = if j ∈ snapshot then s.blockHWM j else cpGet m j
  | [], _, _ => rfl
  | k :: rest, m, j => by
    rw [recordCheckpoint, recordCheckpoint_cpGet s rest, cpGet_cpSet]
    by_cases hr : j ∈ rest
    · simp [hr]
    · by_cases hk : j = k
      · subst hk; simp [hr, blockHWM]
      · simp [hr, hk]

theorem recordCheckpoint_changed (s : St) :
    ∀ (snapshot : List Nat) (m : List (Nat × Nat)),
      (s.recordCheckpoint snapshot m).2 = true ↔ s.Changed snapshot m
  | [], _ => by simp [recordCheckpoint, Changed]
  | k :: rest, m => by
    rw [recordCheckpoint]
    simp only [Bool.or_eq_true, beq_iff_eq, bne_iff_ne, ne_eq, recordCheckpoint_changed s rest, Changed,
      List.mem_cons, exists_eq_or_imp, cpGet_cpSet, show ((s.sub? k).map (·.blockHWM)).getD 0 = s.blockHWM k from rfl]
    constructor
    · rintro ((⟨j, mj, hj⟩ | h0) | hne)
      · by_cases hjk : j = k
        · subst hjk
          simp only [if_true, not_true_eq_false, or_false] at hj
          exact .inl (by omega)
        · rw [if_neg hjk] at hj
          exact .inr ⟨j, mj, hj⟩
      · exact .inl (.inl h0)
      · exact .inl (.inr hne)
    · rintro ((h0 | hne) | ⟨j, mj, hj⟩)
      · exact .inl (.inr h0)
      · exact .inr hne
      · by_cases hjk : j = k
        · subst hjk
          rcases hj with h0 | hne
          · exact .inl (.inr h0)
          · exact .inr hne
        · exact .inl (.inl ⟨j, mj, by rw [if_neg hjk]; exact hj⟩)

end St

/-- A round's checkpoint step, from the in-memory map `m` over the round's subscriptions
`snapshot`, with the store's answer `e`: the new map `m'` holds every subscription's mark, and
`storeCheckpoint` is called exactly when an entry was zero or changed, storing `m'` when it
succeeds. -/
structure CheckpointRound (s : St) (snapshot : List Nat) (m : List (Nat × Nat)) (e : Env) (s' : St)
    (m' : List (Nat × Nat)) : Prop where
  entries : ∀ k, cpGet m' k = if k ∈ snapshot then s.blockHWM k else cpGet m k
  stored : s.Changed snapshot m → e = .next → s' = { s with stored := m' }
  kept : ¬ s.Changed snapshot m ∨ e = .fail → s' = s
  called : e = .fail → s.Changed snapshot m
  answered : e = .next ∨ e = .fail

theorem checkpoint_write_follows_marks {s s' : St} {p : Poller} {q : Option Poller} {e : Env}
    {m : List (Nat × Nat)} (hpc : p.pc = .record) (hm : p.checkpoint = some m)
    (h : s.eventPollerStep p e = some (s', q)) :
    ∃ m', q = some { p with checkpoint := some m', pc := .select } ∧
      CheckpointRound s p.snapshot m e s' m' := by
  obtain ⟨wg, cp, snapshot, pc⟩ := p
  cases hpc
  cases hm
  have changed := s.recordCheckpoint_changed snapshot m
  have entries := s.recordCheckpoint_cpGet snapshot m
  dsimp only [St.eventPollerStep] at h
  refine ⟨(s.recordCheckpoint snapshot m).1, ?_⟩
  split at h
  · cases h
    refine ⟨rfl, entries, fun hc _ => if_pos (changed.mpr hc), fun hk => ?_, (by rintro ⟨⟩), .inl rfl⟩
    rcases hk with hc | hc
    · exact if_neg (mt changed.mp hc)
    · cases hc
  · split at h
    · rename_i hr
      cases h
      exact ⟨rfl, entries, (by rintro _ ⟨⟩), fun _ => rfl, fun _ => changed.mp hr, .inr rfl⟩
    · cases h
  · cases h

def recordingPoller : Poller := ⟨1, some [(0, 3)], [0], .record⟩

theorem failed_write_round :
    recordingPoller.pc = .record ∧ recordingPoller.checkpoint = some [(0, 3)] ∧
      sampleStream.eventPollerStep recordingPoller .fail =
        some (sampleStream, some { recordingPoller with checkpoint := some [(0, 0)], pc := .select }) ∧
      ∃ m', some { recordingPoller with checkpoint := some [(0, 0)], pc := .select } =
          some { recordingPoller with checkpoint := some m', pc := .select } ∧
        CheckpointRound sampleStream recordingPoller.snapshot [(0, 3)] .fail sampleStream m' :=
  ⟨rfl, rfl, rfl, checkpoint_write_follows_marks rfl rfl rfl⟩

def firstRound : List Act :=
  [.poller 0 .next, .poller 0 .next, .poller 0 .next, .poller 0 .next, .poller 0 .next, .poller 0 .next]

def ackFirstBatch : List Act :=
  [.dispatcher 0 .next, .deliver 0, .dispatcher 0 .next, .dispatcher 0 .next, .dispatcher 0 .next,
   .deliver 0, .dispatcher 0 .next, .dispatcher 0 .next,
   .processor 0 .next, .processor 0 .next, .processor 0 .next, .processor 0 .next, .processor 0 .next,
   .processor 0 .next, .processor 0 .next, .processor 0 .next, .processor 0 .next, .processor 0 .next]

/-- A round whose checkpoint write fails, up to the top of the next round. -/
def failedWrite : List Act :=
  [.poller 0 .timer, .poller 0 .next, .poller 0 .next, .poller 0 .next, .poller 0 .fail, .poller 0 .next,
   .poller 0 .timer]

def quietRound : List Act := [.poller 0 .next, .poller 0 .next, .poller 0 .next, .poller 0 .next]

/-- After the failed write the poller starts a round with `[(0, 1)]` in memory while the store
holds `[(0, 0)]`, and that round, in which no mark moves, writes nothing. -/
theorem failed_checkpoint_write_not_retried :
    ∃ s, St.Reachable Lib.ascii sampleChain sampleStream s ∧
      s.pollers = [⟨1, some [(0, 1)], [0], .top⟩] ∧ s.stored = [(0, 0)] ∧ s.subs.map (·.blockHWM) = [1] ∧
      (s.run Lib.ascii sampleChain quietRound).map (·.stored) = some [(0, 0)] ∧
      (s.run Lib.ascii sampleChain quietRound).map (·.subs.map (·.blockHWM)) = some [1] ∧
      (s.run Lib.ascii sampleChain quietRound).map (·.pollers.map (·.pc)) = some [.select] := by
  obtain ⟨s, hr, hp⟩ := reach_of_run (show (sampleStream.run Lib.ascii sampleChain
      (firstRound ++ ackFirstBatch ++ failedWrite)).map (fun s =>
      s.pollers == [⟨1, some [(0, 1)], [0], .top⟩] && s.stored == [(0, 0)] && s.subs.map (·.blockHWM) == [1] &&
        (s.run Lib.ascii sampleChain quietRound).map (·.stored) == some [(0, 0)] &&
        (s.run Lib.ascii sampleChain quietRound).map (·.subs.map (·.blockHWM)) == some [1] &&
        (s.run Lib.ascii sampleChain quietRound).map (·.pollers.map (·.pc)) == some [.select]) = some true
    by decide)
  simp only [Bool.and_eq_true, beq_iff_eq] at hp
  obtain ⟨⟨⟨⟨⟨pollers, stored⟩, hwm⟩, stored'⟩, hwm'⟩, pc'⟩ := hp
  exact ⟨s, hr, pollers, stored, hwm, stored', hwm', pc'⟩

namespace St

theorem sub?_setSub_self (s : St) (k : Nat) (f : Sub → Sub) (hf : ∀ x, (f x).id = x.id) :
    (s.setSub k f).sub? k = (s.sub? k).map f := by
  unfold sub? setSub
  rw [List.find?_map]
  have hp : ((fun x : Sub => decide (x.id = k)) ∘ fun x => if x.id = k then f x else x) =
      fun x => decide (x.id = k) := by
    funext x
    by_cases h : x.id = k <;> simp [h, hf]
  rw [hp]
  cases hx : s.subs.find? (·.id = k) with
  | none => rfl
  | some x =>
    have hk : x.id = k := by simpa using List.find?_some hx
    simp [hk]

theorem cpGet_cpErase_self (m : List (Nat × Nat)) (k : Nat) : cpGet (cpErase m k) k = 0 := by
  have : (cpErase m k).lookup k = none := List.lookup_eq_none_iff.mpr fun kv h =>
    bne_iff_ne.mpr fun e => of_decide_eq_true (List.mem_filter.mp h).2 e.symm
  rw [cpGet, this]
  rfl

theorem pollReset_requested {s : St} {p : Poller} {k : Nat} {x : Sub} (hx : s.sub? k = some x)
    (reset : x.resetRequested = true) :
    s.pollReset p k = (s.unsubscribe k false, { p with checkpoint := p.checkpoint.map (cpErase · k) }) := by
  simp [pollReset, hx, reset]

end St

/-- The round that takes a requested reset restarts the filter from the requested block, or for
`newest` from the height the ledger reports; only a failed height query skips the restart. -/
theorem reset_round_restarts_from_request {s s' : St} {p p' : Poller} {k : Nat} {rest : List Nat}
    {x : Sub} {e : Env} (hpc : p.pc = .subs (k :: rest)) (hx : s.sub? k = some x)
    (reset : x.resetRequested = true) (live : x.deleting = false)
    (h : s.eventPollerStep p e = some (s', some p')) :
    (∃ b, x.fromBlock = some b ∧ e = .next ∧ p'.pc = .restart k b rest) ∨
      (∃ b, x.fromBlock = none ∧ e = .height b ∧ p'.pc = .restart k b rest) ∨
      (x.fromBlock = none ∧ e = .fail ∧ p'.pc = .subs rest) := by
  obtain ⟨wg, cp, snapshot, pc⟩ := p
  cases hpc
  have hx' : (s.unsubscribe k false).sub? k =
      some { x with filterStale := true, deleting := x.deleting || false, resetRequested := false } :=
    (s.sub?_setSub_self k (fun y => { y with
      filterStale := true, deleting := y.deleting || false, resetRequested := false }) fun _ => rfl).trans
      (by rw [hx]; rfl)
  have erased : cpGet ((cp.map (cpErase · k)).getD []) k = 0 := by
    cases cp with
    | none => rfl
    | some m => exact St.cpGet_cpErase_self m k
  dsimp only [St.eventPollerStep] at h
  rw [St.pollReset_requested hx reset] at h
  simp only [St.pollStale, hx', live, erased, Bool.or_false, Bool.not_false, Bool.and_self, if_true,
    gt_iff_lt, Nat.lt_irrefl, if_false] at h
  split at h
  · rename_i r hr
    cases h
    split at hr <;> cases hr <;> rename_i hb
    · exact .inl ⟨_, hb, rfl, rfl⟩
    · exact .inr (.inl ⟨_, hb, rfl, rfl⟩)
    · exact .inr (.inr ⟨hb, rfl, rfl⟩)
  · cases h

def resetRequestedStream : St := { sampleStream with subs := [⟨0, true, some 5, false, true, false, 1⟩] }

def resettingPoller : Poller := ⟨1, some [(0, 1)], [0], .subs [0]⟩

theorem reset_request_round :
    resettingPoller.pc = .subs [0] ∧ resetRequestedStream.sub? 0 = some ⟨0, true, some 5, false, true, false, 1⟩ ∧
      (⟨0, true, some 5, false, true, false, 1⟩ : Sub).resetRequested = true ∧
      (⟨0, true, some 5, false, true, false, 1⟩ : Sub).deleting = false ∧
      resetRequestedStream.eventPollerStep resettingPoller .next =
        some (resetRequestedStream.unsubscribe 0 false, some ⟨1, some [], [0], .restart 0 5 []⟩) ∧
      ((∃ b, (⟨0, true, some 5, false, true, false, 1⟩ : Sub).fromBlock = some b ∧ Env.next = .next ∧
          (⟨1, some [], [0], .restart 0 5 []⟩ : Poller).pc = .restart 0 b []) ∨
        (∃ b, (⟨0, true, some 5, false, true, false, 1⟩ : Sub).fromBlock = none ∧ Env.next = .height b ∧
          (⟨1, some [], [0], .restart 0 5 []⟩ : Poller).pc = .restart 0 b []) ∨
        ((⟨0, true, some 5, false, true, false, 1⟩ : Sub).fromBlock = none ∧ Env.next = .fail ∧
          (⟨1, some [], [0], .restart 0 5 []⟩ : Poller).pc = .subs [])) :=
  ⟨rfl, rfl, rfl, rfl, rfl, @reset_round_restarts_from_request resetRequestedStream
    (resetRequestedStream.unsubscribe 0 false) resettingPoller ⟨1, some [], [0], .restart 0 5 []⟩ 0 []
    ⟨0, true, some 5, false, true, false, 1⟩ .next rfl rfl rfl rfl rfl⟩

/-- A round that stores the map `[(0, 1)]`, then `ResetSubscription` to block 5. -/
def resetAfterStore : List Act :=
  [.poller 0 .timer, .poller 0 .next, .poller 0 .next, .poller 0 .next, .poller 0 .next, .poller 0 .next,
   .resetSub 0 (some 5) .next]

/-- The round that takes the reset: `restartFilter` fails, and the checkpoint step writes the old
mark 1 back into the map. -/
def restartFails : List Act :=
  [.poller 0 .timer, .poller 0 .next, .poller 0 .next, .poller 0 .fail, .poller 0 .next, .poller 0 .next,
   .poller 0 .next]

def restartFromEntry : List Act := [.poller 0 .timer, .poller 0 .next, .poller 0 .next, .poller 0 .next]

/-- Once `ResetSubscription` to block 5 has succeeded on a subscription whose stored checkpoint
is 1, the first listener registered for it afterwards starts from block 1. -/
theorem reset_restarts_from_old_checkpoint :
    ∃ s₁ s, St.Reachable Lib.ascii sampleChain sampleStream s₁ ∧
      s₁.subs = [⟨0, true, some 5, false, true, false, 1⟩] ∧ s₁.stored = [(0, 1)] ∧
      St.Reachable Lib.ascii sampleChain s₁ s ∧ s.listeners = [⟨1, 0, 1, 0⟩] ∧
      s.listenerIds = s₁.listenerIds + 1 := by
  obtain ⟨s₁, hr₁, hp₁⟩ := reach_of_run (show (sampleStream.run Lib.ascii sampleChain
      (firstRound ++ ackFirstBatch ++ resetAfterStore)).map (fun s =>
      s.subs == [⟨0, true, some 5, false, true, false, 1⟩] && s.stored == [(0, 1)] && s.listenerIds == 1 &&
        (s.run Lib.ascii sampleChain (restartFails ++ restartFromEntry)).map
          (fun s => s.listeners == [⟨1, 0, 1, 0⟩] && s.listenerIds == 2) == some true) = some true
    by decide)
  simp only [Bool.and_eq_true, beq_iff_eq] at hp₁
  obtain ⟨⟨⟨subs, stored⟩, ids⟩, later⟩ := hp₁
  obtain ⟨s, hr, hp⟩ := reach_of_run later
  simp only [Bool.and_eq_true, beq_iff_eq] at hp
  exact ⟨s₁, s, hr₁, subs, stored, hr, hp.1, by rw [hp.2, ids]⟩

end FabconnectEvents
