import FabconnectEvents.Config

/-!
Which stream each registered subscription belongs to, whatever the store answers. The registry
is changed before the store is written and is never rolled back, and `DeleteStream` removes the
stream's subscriptions from the registry, each whether or not its record could be deleted,
before it removes the stream. So no operation leaves a registered subscription naming a stream
the registry has dropped.
-/
namespace FabconnectEvents

/-- Each registered subscription sits under its own id, names a channel and names a registered
stream. -/
structure Linked (m : Manager) : Prop where
  own : ∀ id s, m.subscriptions.lookup id = some s → s.info.id = id
  bound : ∀ id s, m.subscriptions.lookup id = some s → s.info.channelId ≠ "" ∧ s.info.stream ∈ m.streams

section
variable {lib : Lib} {m : Manager}

theorem Linked.grow (h : Linked m) {m' : Manager} (hs : m'.subscriptions = m.subscriptions)
    (grow : ∀ k ∈ m.streams, k ∈ m'.streams) : Linked m' :=
  ⟨fun id s e => h.own id s (hs ▸ e), fun id s e =>
    ⟨(h.bound id s (hs ▸ e)).1, grow _ (h.bound id s (hs ▸ e)).2⟩⟩

theorem Linked.setStream (h : Linked m) (id : String) (a : EventStream) :
    Linked { m with streams := m.streams.insert id a } :=
  h.grow rfl fun _ hk => (AList.mem_insert _).mpr (.inr hk)

theorem Linked.setDb (h : Linked m) (db : Store) : Linked { m with db := db } :=
  h.grow rfl fun _ => id

theorem Linked.putSubscription (h : Linked m) (sub : Subscription) (c : sub.info.channelId ≠ "")
    (b : sub.info.stream ∈ m.streams) :
    Linked { m with subscriptions := m.subscriptions.insert sub.info.id sub } := by
  refine ⟨fun id s e => ?_, fun id s e => ?_⟩ <;> dsimp only at e <;> by_cases hk : id = sub.info.id
  · subst hk; rw [AList.lookup_insert] at e; cases e; rfl
  · rw [AList.lookup_insert_ne hk] at e; exact h.own id s e
  · subst hk; rw [AList.lookup_insert] at e; cases e; exact ⟨c, b⟩
  · rw [AList.lookup_insert_ne hk] at e; exact h.bound id s e

theorem Linked.eraseSubscription (h : Linked m) (k : String) :
    Linked { m with subscriptions := m.subscriptions.erase k } := by
  refine ⟨fun id s e => ?_, fun id s e => ?_⟩ <;> dsimp only at e <;> by_cases hk : id = k
  · subst hk; simp [AList.lookup_erase] at e
  · rw [AList.lookup_erase_ne hk] at e; exact h.own id s e
  · subst hk; simp [AList.lookup_erase] at e
  · rw [AList.lookup_erase_ne hk] at e; exact h.bound id s e

theorem persistStream_registries (m : Manager) (spec : StreamInfo) (ok : Bool) {α : Type} (x : α) :
    (persistStream m spec ok x).1.streams = m.streams ∧
      (persistStream m spec ok x).1.subscriptions = m.subscriptions := by
  cases ok <;> exact ⟨rfl, rfl⟩

theorem Linked.persistStream (h : Linked m) (spec : StreamInfo) (ok : Bool) {α : Type} (x : α) :
    Linked (persistStream m spec ok x).1 :=
  h.grow (persistStream_registries m spec ok x).2 fun _ hk => (persistStream_registries m spec ok x).1 ▸ hk

theorem deleteSubscription_registries (m : Manager) (sub : Subscription) (ok : Bool) :
    (deleteSubscription m sub ok).1.streams = m.streams ∧
      (deleteSubscription m sub ok).1.subscriptions = m.subscriptions.erase sub.info.id := by
  cases ok <;> exact ⟨rfl, rfl⟩

theorem deleteSubscriptionsOf_registries (sid : String) (dbOk : String → Bool) :
    ∀ (l : List (Sigma fun _ : String => Subscription)) (m : Manager),
      (deleteSubscriptionsOf sid dbOk l m).streams = m.streams ∧
      ∀ k s, (deleteSubscriptionsOf sid dbOk l m).subscriptions.lookup k = some s →
        m.subscriptions.lookup k = some s ∧ ∀ t ∈ l, t.2.info.stream = sid → t.2.info.id ≠ k
  | [], _ => ⟨rfl, fun _ _ e => ⟨e, fun _ ht => by cases ht⟩⟩
  | t :: rest, m => by
    by_cases ht : t.2.info.stream = sid
    · have d := deleteSubscription_registries m t.2 (dbOk t.2.info.id)
      obtain ⟨st, sub⟩ := deleteSubscriptionsOf_registries sid dbOk rest (deleteSubscription m t.2 (dbOk t.2.info.id)).1
      simp only [deleteSubscriptionsOf, ht, if_true]
      refine ⟨st.trans d.1, fun k s e => ?_⟩
      obtain ⟨e, far⟩ := sub k s e
      rw [d.2] at e
      have hk : k ≠ t.2.info.id := fun hk => by rw [hk, AList.lookup_erase] at e; cases e
      rw [AList.lookup_erase_ne hk] at e
      exact ⟨e, List.forall_mem_cons.mpr ⟨fun _ => Ne.symm hk, far⟩⟩
    · obtain ⟨st, sub⟩ := deleteSubscriptionsOf_registries sid dbOk rest m
      simp only [deleteSubscriptionsOf, ht, if_false]
      exact ⟨st, fun k s e => ⟨(sub k s e).1, List.forall_mem_cons.mpr ⟨fun h => absurd h ht, (sub k s e).2⟩⟩⟩

theorem stopAll_registries : ∀ (l : List (Sigma fun _ : String => EventStream)) (m : Manager),
    (stopAll l m).1.subscriptions = m.subscriptions ∧ ∀ k ∈ m.streams, k ∈ (stopAll l m).1.streams
  | [], _ => ⟨rfl, fun _ => id⟩
  | s :: rest, m => by
    unfold stopAll
    split
    · exact ⟨rfl, fun _ => id⟩
    · obtain ⟨hs, grow⟩ := stopAll_registries rest { m with streams := m.streams.insert s.1 { s.2 with stopped := true } }
      exact ⟨hs, fun k hk => grow k ((AList.mem_insert _).mpr (.inr hk))⟩

theorem Linked.addStream (h : Linked m) (body : Option StreamInfo) (uuid now : String)
    (dbOk : String → Bool) : Linked (addStream lib m body uuid now dbOk).1 := by
  unfold FabconnectEvents.addStream
  split; · exact h
  dsimp only
  split
  · exact h
  · exact (h.setStream _ _).persistStream _ _ _

theorem Linked.updateStream (h : Linked m) (id : String) (body : Option StreamInfo) (settles : Bool)
    (dbOk : String → Bool) : Linked (updateStream lib m id body settles dbOk).1 := by
  unfold FabconnectEvents.updateStream
  split; · exact h
  rename_i a _
  split; · exact h
  rename_i req
  rcases a.update lib req settles with ⟨a', r⟩
  dsimp only
  cases r with
  | ok s => exact (h.setStream id a').persistStream _ _ _
  | _ => exact h.setStream id a'

theorem Linked.suspendStream (h : Linked m) (id : String) (dbOk : String → Bool) :
    Linked (suspendStream m id dbOk).1 := by
  unfold FabconnectEvents.suspendStream
  split
  · exact h
  · exact (h.setStream _ _).persistStream _ _ _

theorem Linked.resumeStream (h : Linked m) (id : String) (drained : Bool) (dbOk : String → Bool) :
    Linked (resumeStream m id drained dbOk).1 := by
  unfold FabconnectEvents.resumeStream
  split; · exact h
  split
  · exact h
  · exact (h.setStream _ _).persistStream _ _ _

theorem Linked.eraseStreamOf (h : Linked m) (sid : String) (dbOk : String → Bool) :
    Linked { deleteSubscriptionsOf sid dbOk m.subscriptions.entries m with
      streams := (deleteSubscriptionsOf sid dbOk m.subscriptions.entries m).streams.erase sid } := by
  obtain ⟨st, sub⟩ := deleteSubscriptionsOf_registries sid dbOk m.subscriptions.entries m
  refine ⟨fun k s e => h.own k s (sub k s e).1, fun k s e => ?_⟩
  obtain ⟨e, far⟩ := sub k s e
  have other : s.info.stream ≠ sid := fun hs =>
    far ⟨k, s⟩ (AList.mem_lookup_iff.mp e) hs (h.own k s e)
  rw [st]
  exact ⟨(h.bound k s e).1, AList.mem_erase.mpr ⟨other, (h.bound k s e).2⟩⟩

theorem Linked.deleteStream (h : Linked m) (id : String) (dbOk : String → Bool) :
    Linked (deleteStream m id dbOk).1 := by
  unfold FabconnectEvents.deleteStream
  split; · exact h
  rename_i a _
  have l := h.eraseStreamOf a.spec.id dbOk
  dsimp only
  split_ifs
  · exact l
  · exact l
  · exact l.grow rfl fun _ hk => hk
  · exact l.grow rfl fun _ hk => hk

theorem Linked.addSubscription (h : Linked m) (body : Option SubscriptionInfo) (uuid now : String)
    (dbOk : String → Bool) : Linked (addSubscription m body uuid now dbOk).1 := by
  unfold FabconnectEvents.addSubscription
  split; · exact h
  dsimp only
  split; · exact h
  split; · exact h
  split; · exact h
  rename_i sub hsub
  obtain ⟨rfl, c, b⟩ := newSubscription_ok hsub
  have l := h.putSubscription ⟨_, false⟩ c b
  split
  · exact l
  · exact l.setDb _

theorem Linked.resetSubscription (h : Linked m) (id : String) (body : Option String)
    (dbOk : String → Bool) : Linked (resetSubscriptionREST m id body dbOk).1 := by
  unfold resetSubscriptionREST
  split; · exact h
  rename_i sub hs
  split; · exact h
  rename_i ib
  have hid := h.own id sub hs
  obtain ⟨c, b⟩ := h.bound id sub hs
  let info := { sub.info with fromBlock :=
    if ib = "" ∨ ib = fromBlockNewest then fromBlockNewest else ib }
  have once := h.putSubscription { sub with info := info } c b
  have twice := (once.putSubscription { sub with info := info, resetRequested := true } c b).setDb
  unfold FabconnectEvents.resetSubscription
  dsimp only at once twice ⊢
  rw [hid] at once twice
  split <;> split at * <;> rename_i e <;> cases e
  · exact once
  · exact twice _

theorem Linked.deleteSubscription (h : Linked m) (id : String) (dbOk : String → Bool) :
    Linked (deleteSubscriptionREST m id dbOk).1 := by
  unfold deleteSubscriptionREST
  split; · exact h
  rename_i sub _
  have d := deleteSubscription_registries m sub (dbOk sub.info.id)
  have l : Linked (FabconnectEvents.deleteSubscription m sub (dbOk sub.info.id)).1 :=
    (h.eraseSubscription sub.info.id).grow d.2 fun _ hk => d.1 ▸ hk
  split <;> rename_i e <;> rw [e] at l <;> exact l

theorem Linked.close (h : Linked m) : Linked (close m).1 := by
  obtain ⟨hs, grow⟩ := stopAll_registries m.streams.entries m
  have l := h.grow hs grow
  unfold FabconnectEvents.close
  split <;> rename_i e <;> rw [e] at l
  · exact l
  · exact l.grow rfl fun _ hk => hk

theorem linked_init (db : Store) : Linked (init lib db) := by
  refine ⟨fun id s e => ?_, fun id s e => ?_⟩ <;>
    obtain ⟨k, r, -, hf⟩ := lookup_recoverInto_some _ _ e <;>
    simp only [recoverSubscription] at hf <;> split at hf <;> try cases hf
  all_goals
    split at hf; · cases hf
    split at hf; · cases hf
    rename_i info _ sub hsub
    cases hf
    obtain ⟨rfl, c, b⟩ := newSubscription_ok hsub
  · rfl
  · exact ⟨c, b⟩

theorem Linked.run (h : Linked m) (dbOk : String → Bool) : ∀ op : Op, Linked (m.run lib dbOk op).1
  | .addStream body uuid now => h.addStream body uuid now dbOk
  | .updateStream id body settles => h.updateStream id body settles dbOk
  | .suspendStream id => h.suspendStream id dbOk
  | .resumeStream id drained => h.resumeStream id drained dbOk
  | .deleteStream id => h.deleteStream id dbOk
  | .addSubscription body uuid now => h.addSubscription body uuid now dbOk
  | .resetSubscription id body => h.resetSubscription id body dbOk
  | .deleteSubscription id => h.deleteSubscription id dbOk
  | .close => h.close
  | .init => linked_init m.db

theorem Linked.empty : Linked .empty :=
  ⟨fun _ _ e => by simp [Manager.empty, AList.lookup_empty] at e,
    fun _ _ e => by simp [Manager.empty, AList.lookup_empty] at e⟩

theorem Reachable.linked (h : Reachable lib m) : Linked m := by
  induction h with
  | empty => exact .empty
  | step op dbOk _ ih => exact ih.run dbOk op

/-- Whatever the store answers and whatever the goroutines do, every subscription in a reachable
manager's registry sits under its own id, names a channel and names a registered stream. -/
theorem reachable_subscriptions_linked (h : Reachable lib m) :
    ∀ id s, m.subscriptions.lookup id = some s →
      s.info.id = id ∧ s.info.channelId ≠ "" ∧ s.info.stream ∈ m.streams :=
  fun id s e => ⟨h.linked.own id s e, h.linked.bound id s e⟩

end

def sampleSubscription : SubscriptionInfo :=
  { createdISO8601 := "", id := "", path := "", channelId := "c", stream := "es-u", fromBlock := "" }

def unstoredSubscription : Manager :=
  ((Manager.empty.run Lib.ascii (fun _ => false) (.addStream (some sampleSpec) "u" "t")).1.run Lib.ascii
    (fun _ => false) (.addSubscription (some sampleSubscription) "v" "t")).1

theorem unstored_subscription_linked :
    Reachable Lib.ascii unstoredSubscription ∧ unstoredSubscription.db.entries = [] ∧
      (unstoredSubscription.subscriptions.lookup "sb-v").isSome ∧
      ∀ id s, unstoredSubscription.subscriptions.lookup id = some s →
        s.info.id = id ∧ s.info.channelId ≠ "" ∧ s.info.stream ∈ unstoredSubscription.streams :=
  have h : Reachable Lib.ascii unstoredSubscription := .step _ _ (.step _ _ .empty)
  ⟨h, by decide, by decide, reachable_subscriptions_linked h⟩

/-- Whatever the store answers, and also where it panics on a stopped stream, `DeleteStream` on
a reachable manager leaves the stream unregistered and no registered subscription naming it. -/
theorem deleteStream_unregisters {lib : Lib} {m : Manager} (h : Reachable lib m) (id : String)
    (dbOk : String → Bool) :
    id ∉ (deleteStream m id dbOk).1.streams ∧
      ∀ k s, (deleteStream m id dbOk).1.subscriptions.lookup k = some s → s.info.stream ≠ id := by
  have gone : id ∉ (deleteStream m id dbOk).1.streams := by
    unfold FabconnectEvents.deleteStream
    split
    · exact AList.lookup_eq_none.mp ‹_›
    · rename_i a e
      have hid := (h.sound.streams id a e).2
      dsimp only
      split_ifs <;> simp [AList.mem_erase, hid]
  exact ⟨gone, fun k s e hs => gone (hs ▸ ((h.linked.deleteStream id dbOk).bound k s e).2)⟩

/-- There the stream and its subscription leave the registry although no record could be
deleted. -/
theorem unstored_stream_deleted :
    Reachable Lib.ascii unstoredSubscription ∧ (unstoredSubscription.subscriptions.lookup "sb-v").isSome ∧
      "es-u" ∉ (deleteStream unstoredSubscription "es-u" fun _ => false).1.streams ∧
      ∀ k s, (deleteStream unstoredSubscription "es-u" fun _ => false).1.subscriptions.lookup k = some s →
        s.info.stream ≠ "es-u" :=
  have h : Reachable Lib.ascii unstoredSubscription := .step _ _ (.step _ _ .empty)
  ⟨h, by decide, deleteStream_unregisters h "es-u" fun _ => false⟩

end FabconnectEvents
