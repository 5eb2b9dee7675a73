import FabconnectEvents.Manager

/-!
What `Init` recovers from a store whose records sit under their own ids, and the invariant
of runs on a store that never fails: the registries hold exactly what `Init` would recover.
-/
namespace FabconnectEvents

theorem hasPrefix_append (p u : String) : hasPrefix (p ++ u) p = true := by
  simp [hasPrefix, List.isPrefixOf_iff_prefix, String.data_append]

theorem hasPrefix_eq {k p q : String} (hp : hasPrefix k p = true) (hq : hasPrefix k q = true)
    (len : p.data.length = q.data.length) : p = q := by
  simp only [hasPrefix, List.isPrefixOf_iff_prefix] at hp hq
  exact String.ext ((List.prefix_of_prefix_length_le hp hq len.le).eq_of_length len)

theorem hasPrefix_ne {k p : String} (q : String) (hp : hasPrefix k p = true)
    (len : p.data.length = q.data.length) (ne : p ≠ q) : hasPrefix k q = false := by
  cases hq : hasPrefix k q
  · rfl
  · exact absurd (hasPrefix_eq hp hq len) ne

/-- A record sits under its own id, behind its kind's prefix. -/
def Keyed (k : String) : Record → Prop
  | .stream info => info.id = k ∧ hasPrefix k streamIDPrefix = true
  | .subscription info => info.id = k ∧ hasPrefix k subIDPrefix = true
  | .checkpoint _ => hasPrefix k checkpointIDPrefix = true

def WellKeyed (db : Store) : Prop := ∀ k r, db.lookup k = some r → Keyed k r

theorem WellKeyed.empty : WellKeyed ∅ := by
  intro k r h; simp [AList.lookup_empty] at h

theorem WellKeyed.insert {db : Store} (h : WellKeyed db) {k : String} {r : Record}
    (hr : Keyed k r) : WellKeyed (db.insert k r) := by
  intro k' r' h'
  by_cases e : k' = k
  · subst e; rw [AList.lookup_insert] at h'; cases h'; exact hr
  · rw [AList.lookup_insert_ne e] at h'; exact h k' r' h'

theorem WellKeyed.erase {db : Store} (h : WellKeyed db) (k : String) : WellKeyed (db.erase k) := by
  intro k' r' h'
  by_cases e : k' = k
  · subst e; simp [AList.lookup_erase] at h'
  · rw [AList.lookup_erase_ne e] at h'; exact h k' r' h'

theorem WellKeyed.asSubscription {db : Store} (h : WellKeyed db) {k : String}
    (hk : hasPrefix k streamIDPrefix = true) : (db.lookup k).bind Record.asSubscription = none := by
  cases e : db.lookup k with
  | none => rfl
  | some r =>
    cases r with
    | subscription info =>
      have := (h k _ e).2; rw [hasPrefix_ne subIDPrefix hk rfl (by decide)] at this; cases this
    | _ => rfl

theorem WellKeyed.asStream {db : Store} (h : WellKeyed db) {k : String}
    (hk : hasPrefix k subIDPrefix = true) : (db.lookup k).bind Record.asStream = none := by
  cases e : db.lookup k with
  | none => rfl
  | some r =>
    cases r with
    | stream info =>
      have := (h k _ e).2; rw [hasPrefix_ne subIDPrefix this rfl (by decide)] at hk; cases hk
    | _ => rfl

theorem lookup_foldl_insert {γ : Type} (f : String → Record → Option (String × γ))
    (l : List (Sigma fun _ : String => Record)) (nodup : l.NodupKeys)
    (own : ∀ s ∈ l, ∀ p, f s.1 s.2 = some p → p.1 = s.1) (acc : AList fun _ : String => γ)
    (id : String) :
    (l.foldl (fun acc s => addBinding acc (f s.1 s.2)) acc).lookup id =
      match (l.dlookup id).bind (f id) with
      | some p => some p.2
      | none => acc.lookup id := by
  induction l generalizing acc with
  | nil => rfl
  | cons s rest ih =>
    rw [List.nodupKeys_cons] at nodup
    rw [List.foldl_cons, ih nodup.2 (fun t ht => own t (.tail _ ht))]
    obtain ⟨k, r⟩ := s
    by_cases e : k = id
    · subst e
      rw [List.dlookup_cons_eq, List.dlookup_eq_none.mpr nodup.1]
      cases hf : f k r with
      | none => simp [hf, addBinding]
      | some p =>
        obtain rfl := own _ (.head _) p hf
        simp [hf, addBinding, AList.lookup_insert]
    · rw [List.dlookup_cons_ne _ _ (Ne.symm e)]
      cases (rest.dlookup id).bind (f id) with
      | some p => rfl
      | none =>
        cases hf : f k r with
        | none => simp [hf, addBinding]
        | some p =>
          obtain rfl := own _ (.head _) p hf
          simp [hf, addBinding, AList.lookup_insert_ne (Ne.symm e)]

theorem lookup_recoverInto {γ : Type} (f : String → Record → Option (String × γ)) (db : Store)
    (own : ∀ k r p, db.lookup k = some r → f k r = some p → p.1 = k) (id : String) :
    (recoverInto f db).lookup id = ((db.lookup id).bind (f id)).map Prod.snd := by
  rw [recoverInto, AList.foldl, lookup_foldl_insert f _ db.nodupKeys
    (fun s hs p hp => own s.1 s.2 p (AList.mem_lookup_iff.mpr hs) hp)]
  simp only [AList.lookup] at *
  cases (db.entries.dlookup id).bind (f id) <;> rfl

section
variable (lib : Lib)

theorem recoverStream_own {db : Store} (h : WellKeyed db) :
    ∀ k r p, db.lookup k = some r → recoverStream lib k r = some p → p.1 = k := by
  intro k r p hr hp
  simp only [recoverStream] at hp
  split at hp
  · split at hp
    · cases hp
    · rename_i info hinfo
      cases r with
      | stream i =>
        cases hinfo
        split at hp
        · cases hp
        · cases hp; exact (h k _ hr).1
      | _ => cases hinfo
  · cases hp

theorem recoverSubscription_own (streams : AList fun _ : String => EventStream) {db : Store}
    (h : WellKeyed db) :
    ∀ k r p, db.lookup k = some r → recoverSubscription streams k r = some p → p.1 = k := by
  intro k r p hr hp
  simp only [recoverSubscription] at hp
  split at hp
  · split at hp
    · cases hp
    · rename_i info hinfo
      cases r with
      | subscription i =>
        cases hinfo
        split at hp
        · cases hp
        · cases hp; exact (h k _ hr).1
      | _ => cases hinfo
  · cases hp

theorem lookup_recoverStreams {db : Store} (h : WellKeyed db)
    (settled : ∀ k info, db.lookup k = some (.stream info) → info.Settled lib) (id : String) :
    ((recoverStreams lib db).lookup id).map (·.spec) = (db.lookup id).bind Record.asStream := by
  rw [recoverStreams, lookup_recoverInto _ db (recoverStream_own lib h)]
  cases e : db.lookup id with
  | none => rfl
  | some r =>
    cases r with
    | stream info =>
      obtain ⟨-, hk⟩ := h id _ e
      simp [recoverStream, hk, Record.asStream, (settled id info e).newEventStream_eq,
        EventStream.started]
    | subscription info =>
      obtain ⟨-, hk⟩ := h id _ e
      simp [recoverStream, hasPrefix_ne streamIDPrefix hk rfl (by decide), Record.asStream]
    | checkpoint cp =>
      have hk : hasPrefix id checkpointIDPrefix = true := h id _ e
      simp [recoverStream, hasPrefix_ne streamIDPrefix hk rfl (by decide), Record.asStream]

theorem lookup_recoverSubscriptions {db : Store} (h : WellKeyed db)
    (streams : AList fun _ : String => EventStream)
    (valid : ∀ k info, db.lookup k = some (.subscription info) →
      info.channelId ≠ "" ∧ info.stream ∈ streams) (id : String) :
    ((recoverSubscriptions streams db).lookup id).map (·.info) =
      (db.lookup id).bind Record.asSubscription := by
  rw [recoverSubscriptions, lookup_recoverInto _ db (recoverSubscription_own streams h)]
  cases e : db.lookup id with
  | none => rfl
  | some r =>
    cases r with
    | subscription info =>
      obtain ⟨-, hk⟩ := h id _ e
      obtain ⟨c, b⟩ := valid id info e
      simp [recoverSubscription, hk, Record.asSubscription, newSubscription, c, b]
    | stream info =>
      obtain ⟨-, hk⟩ := h id _ e
      simp [recoverSubscription, hasPrefix_ne subIDPrefix hk rfl (by decide), Record.asSubscription]
    | checkpoint cp =>
      have hk : hasPrefix id checkpointIDPrefix = true := h id _ e
      simp [recoverSubscription, hasPrefix_ne subIDPrefix hk rfl (by decide), Record.asSubscription]

/-- What runs on a store that never fails keep: the registries hold exactly the stored records,
every registered spec is settled and its stream not stopped, and every subscription names a
channel and a registered stream. -/
structure Coherent (m : Manager) : Prop where
  keyed : WellKeyed m.db
  streams : ∀ id, (m.streams.lookup id).map (·.spec) = (m.db.lookup id).bind Record.asStream
  running : ∀ id a, m.streams.lookup id = some a → a.spec.Settled lib ∧ a.stopped = false
  subscriptions : ∀ id,
    (m.subscriptions.lookup id).map (·.info) = (m.db.lookup id).bind Record.asSubscription
  bound : ∀ id s, m.subscriptions.lookup id = some s → s.info.channelId ≠ "" ∧ s.info.stream ∈ m.streams

/-- The registries equal what `Init` recovers from the store. -/
def Agrees (m : Manager) : Prop :=
  (∀ id, (m.streams.lookup id).map (·.spec) = ((init lib m.db).streams.lookup id).map (·.spec)) ∧
  ∀ id, (m.subscriptions.lookup id).map (·.info) =
    ((init lib m.db).subscriptions.lookup id).map (·.info)

variable {lib}

theorem mem_iff_of_map_eq {β γ : Type} {s : AList fun _ : String => β} {t : AList fun _ : String => γ}
    {f : β → StreamInfo} {g : γ → StreamInfo} (h : ∀ id, (s.lookup id).map f = (t.lookup id).map g)
    (id : String) : id ∈ s ↔ id ∈ t := by
  simpa [← AList.lookup_isSome] using congrArg Option.isSome (h id)

theorem Coherent.stored_settled {m : Manager} (h : Coherent lib m) :
    ∀ k info, m.db.lookup k = some (.stream info) → info.Settled lib := by
  intro k info e
  have hs := h.streams k
  rw [e] at hs
  obtain ⟨a, ha, rfl⟩ := Option.map_eq_some'.mp hs
  exact (h.running k a ha).1

theorem Coherent.recovered_streams {m : Manager} (h : Coherent lib m) (id : String) :
    ((recoverStreams lib m.db).lookup id).map (·.spec) = (m.db.lookup id).bind Record.asStream :=
  lookup_recoverStreams lib h.keyed h.stored_settled id

theorem Coherent.recovered_subscriptions {m : Manager} (h : Coherent lib m) (id : String) :
    ((recoverSubscriptions (recoverStreams lib m.db) m.db).lookup id).map (·.info) =
      (m.db.lookup id).bind Record.asSubscription := by
  rw [lookup_recoverSubscriptions h.keyed]
  intro k info e
  have hs := h.subscriptions k
  rw [e] at hs
  obtain ⟨s, hsk, hsi⟩ := Option.map_eq_some'.mp hs
  obtain ⟨c, b⟩ := h.bound k s hsk
  rw [← hsi]
  exact ⟨c, (mem_iff_of_map_eq (fun id => (h.streams id).trans (h.recovered_streams id).symm) _).mp b⟩

theorem Coherent.agrees {m : Manager} (h : Coherent lib m) : Agrees lib m :=
  ⟨fun id => (h.streams id).trans (h.recovered_streams id).symm,
    fun id => (h.subscriptions id).trans (h.recovered_subscriptions id).symm⟩

theorem Coherent.spec_id {m : Manager} (h : Coherent lib m) {id : String} {a : EventStream}
    (ha : m.streams.lookup id = some a) : a.spec.id = id ∧ hasPrefix id streamIDPrefix = true := by
  have hs := h.streams id
  rw [ha] at hs
  obtain ⟨r, hr, hri⟩ := Option.bind_eq_some.mp hs.symm
  cases r with
  | stream info => cases hri; exact h.keyed id _ hr
  | _ => cases hri

theorem Coherent.info_id {m : Manager} (h : Coherent lib m) {id : String} {s : Subscription}
    (hs : m.subscriptions.lookup id = some s) : s.info.id = id ∧ hasPrefix id subIDPrefix = true := by
  have e := h.subscriptions id
  rw [hs] at e
  obtain ⟨r, hr, hri⟩ := Option.bind_eq_some.mp e.symm
  cases r with
  | subscription info => cases hri; exact h.keyed id _ hr
  | _ => cases hri

theorem Coherent.putStream {m : Manager} (h : Coherent lib m) (a : EventStream)
    (hs : a.spec.Settled lib) (hr : a.stopped = false) (hk : hasPrefix a.spec.id streamIDPrefix = true) :
    Coherent lib { m with
      streams := m.streams.insert a.spec.id a
      db := m.db.insert a.spec.id (.stream a.spec) } where
  keyed := h.keyed.insert ⟨rfl, hk⟩
  streams id := by
    by_cases e : id = a.spec.id
    · subst e; simp [AList.lookup_insert, Record.asStream]
    · simp [AList.lookup_insert_ne e, h.streams id]
  running id b hb := by
    by_cases e : id = a.spec.id
    · subst e; rw [AList.lookup_insert] at hb; cases hb; exact ⟨hs, hr⟩
    · rw [AList.lookup_insert_ne e] at hb; exact h.running id b hb
  subscriptions id := by
    by_cases e : id = a.spec.id
    · subst e
      simp only [AList.lookup_insert, Option.some_bind, Record.asSubscription]
      rw [h.subscriptions, h.keyed.asSubscription hk]
    · simp [AList.lookup_insert_ne e, h.subscriptions id]
  bound id s hs' := by
    obtain ⟨c, b⟩ := h.bound id s hs'
    exact ⟨c, (AList.mem_insert _).mpr (.inr b)⟩

theorem Coherent.setStream {m : Manager} (h : Coherent lib m) {id : String} {a a' : EventStream}
    (ha : m.streams.lookup id = some a) (spec : a'.spec = a.spec) (stop : a'.stopped = a.stopped) :
    Coherent lib { m with streams := m.streams.insert id a' } where
  keyed := h.keyed
  streams k := by
    by_cases e : k = id
    · subst e; rw [AList.lookup_insert, ← h.streams, ha]; simp [spec]
    · simp [AList.lookup_insert_ne e, h.streams k]
  running k b hb := by
    by_cases e : k = id
    · subst e; rw [AList.lookup_insert] at hb; cases hb
      rw [spec, stop]; exact h.running k a ha
    · rw [AList.lookup_insert_ne e] at hb; exact h.running k b hb
  subscriptions := h.subscriptions
  bound k s hs := by
    obtain ⟨c, b⟩ := h.bound k s hs
    exact ⟨c, (AList.mem_insert _).mpr (.inr b)⟩

theorem Coherent.addStream {m : Manager} (h : Coherent lib m) (body : Option StreamInfo)
    (uuid now : String) : Coherent lib (addStream lib m body uuid now fun _ => true).1 := by
  unfold FabconnectEvents.addStream
  cases body with
  | none => exact h
  | some spec =>
    dsimp only
    split
    · exact h
    · rename_i s hs
      have hk : hasPrefix s.id streamIDPrefix = true := by
        rw [newEventStream_id hs]; exact hasPrefix_append _ _
      exact h.putStream (.started s) (newEventStream_settled hs) rfl hk

theorem Coherent.suspendStream {m : Manager} (h : Coherent lib m) (id : String) :
    Coherent lib (suspendStream m id fun _ => true).1 := by
  unfold FabconnectEvents.suspendStream
  split
  · exact h
  · rename_i a ha
    obtain ⟨hid, hk⟩ := h.spec_id ha
    obtain ⟨hs, hr⟩ := h.running id a ha
    have := h.putStream { a with spec := { a.spec with suspended := true } } (hs.suspended true) hr
      (by rw [← hid] at hk; exact hk)
    simpa [hid] using this

theorem Coherent.resumeStream {m : Manager} (h : Coherent lib m) (id : String) (drained : Bool) :
    Coherent lib (resumeStream m id drained fun _ => true).1 := by
  unfold FabconnectEvents.resumeStream
  split
  · exact h
  · rename_i a ha
    split
    · exact h
    obtain ⟨hid, hk⟩ := h.spec_id ha
    obtain ⟨hs, hr⟩ := h.running id a ha
    have := h.putStream { a with spec := { a.spec with suspended := false }, interruptClosed := false }
      (hs.suspended false) hr (by rw [← hid] at hk; exact hk)
    simpa [hid] using this

theorem Coherent.updateStream {m : Manager} (h : Coherent lib m) (id : String)
    (body : Option StreamInfo) (settles : Bool)
    (mode : ∀ md, (updateStream lib m id body settles fun _ => true).2 ≠
      .fail ⟨.eventStreamsInvalidDistributionMode md, 500⟩) :
    Coherent lib (updateStream lib m id body settles fun _ => true).1 := by
  unfold FabconnectEvents.updateStream at mode ⊢
  cases ha : m.streams.lookup id with
  | none => simpa [ha] using h
  | some a =>
  cases body with
  | none => simpa [ha] using h
  | some req =>
  simp only [ha] at mode ⊢
  obtain ⟨hid, hk⟩ := h.spec_id ha
  obtain ⟨hs, -⟩ := h.running id a ha
  rcases hu : a.update lib req settles with ⟨a', r⟩
  rw [hu] at mode
  dsimp only at mode ⊢
  obtain ⟨stop, (⟨s, rfl, sp, us⟩ | ⟨e, rfl, us⟩ | ⟨hr, sp⟩)⟩ := EventStream.update_spec lib hu
  · obtain ⟨hs', -, hid'⟩ := updateSpec_keeps hs req s (by rw [us]; rfl)
    have key : id = a'.spec.id := by rw [sp, hid', hid]
    have := h.putStream a' (sp ▸ hs') (stop.trans (h.running id a ha).2) (key ▸ hk)
    simp only [persistStream_true]
    rw [key, ← sp]
    exact this
  · have same := updateSpec_rejected us (fun md e => mode md (by rw [e]))
    exact h.setStream ha same stop
  · rcases hr with rfl | rfl <;> exact h.setStream ha sp stop

theorem Coherent.putSubscription {m : Manager} (h : Coherent lib m) (key : String) (sub : Subscription)
    (hid : sub.info.id = key) (hk : hasPrefix key subIDPrefix = true) (c : sub.info.channelId ≠ "")
    (b : sub.info.stream ∈ m.streams) :
    Coherent lib { m with
      subscriptions := m.subscriptions.insert key sub
      db := m.db.insert key (.subscription sub.info) } where
  keyed := h.keyed.insert ⟨hid, hk⟩
  streams id := by
    by_cases e : id = key
    · subst e
      simp only [AList.lookup_insert, Option.some_bind, Record.asStream]
      rw [h.streams, h.keyed.asStream hk]
    · simp [AList.lookup_insert_ne e, h.streams id]
  running := h.running
  subscriptions id := by
    by_cases e : id = key
    · subst e; simp [AList.lookup_insert, Record.asSubscription]
    · simp [AList.lookup_insert_ne e, h.subscriptions id]
  bound id s hs := by
    by_cases e : id = key
    · subst e; rw [AList.lookup_insert] at hs; cases hs; exact ⟨c, b⟩
    · rw [AList.lookup_insert_ne e] at hs; exact h.bound id s hs

theorem Coherent.eraseSubscription {m : Manager} (h : Coherent lib m) {key : String}
    {sub : Subscription} (hs : m.subscriptions.lookup key = some sub) :
    Coherent lib { m with
      subscriptions := m.subscriptions.erase key
      db := m.db.erase key } where
  keyed := h.keyed.erase key
  streams id := by
    by_cases e : id = key
    · subst e
      rw [AList.lookup_erase, h.streams, h.keyed.asStream (h.info_id hs).2]
      rfl
    · simp [AList.lookup_erase_ne e, h.streams id]
  running := h.running
  subscriptions id := by
    by_cases e : id = key
    · subst e; simp [AList.lookup_erase]
    · simp [AList.lookup_erase_ne e, h.subscriptions id]
  bound id s hs' := by
    by_cases e : id = key
    · subst e; simp [AList.lookup_erase] at hs'
    · rw [AList.lookup_erase_ne e] at hs'; exact h.bound id s hs'

theorem Coherent.addSubscription {m : Manager} (h : Coherent lib m) (body : Option SubscriptionInfo)
    (uuid now : String) : Coherent lib (addSubscription m body uuid now fun _ => true).1 := by
  unfold FabconnectEvents.addSubscription
  cases body with
  | none => exact h
  | some spec =>
    dsimp only
    split
    · exact h
    split
    · exact h
    split
    · exact h
    rename_i sub hsub
    obtain ⟨rfl, c, b⟩ := newSubscription_ok hsub
    exact h.putSubscription _ _ rfl (hasPrefix_append _ _) c b

theorem Coherent.resetSubscription {m : Manager} (h : Coherent lib m) (id : String)
    (body : Option String) : Coherent lib (resetSubscriptionREST m id body fun _ => true).1 := by
  unfold resetSubscriptionREST
  cases hs : m.subscriptions.lookup id with
  | none => simpa [hs] using h
  | some sub =>
  cases body with
  | none => simpa [hs] using h
  | some ib =>
  obtain ⟨hid, hk⟩ := h.info_id hs
  obtain ⟨c, b⟩ := h.bound id sub hs
  have := h.putSubscription id { sub with
    info := { sub.info with fromBlock :=
      if ib = "" ∨ ib = fromBlockNewest then fromBlockNewest else ib }
    resetRequested := true } hid hk c b
  simpa [hs, FabconnectEvents.resetSubscription, AList.insert_insert, hid] using this

theorem Coherent.deleteSubscription {m : Manager} (h : Coherent lib m) (id : String) :
    Coherent lib (deleteSubscriptionREST m id fun _ => true).1 := by
  unfold deleteSubscriptionREST
  cases hs : m.subscriptions.lookup id with
  | none => simpa [hs] using h
  | some sub =>
  have := h.eraseSubscription hs
  simpa [hs, (h.info_id hs).1] using this

theorem deleteSubscriptionsOf_healthy (sid : String) :
    ∀ (l : List (Sigma fun _ : String => Subscription)) (m : Manager), (∀ s ∈ l, s.2.info.id = s.1) →
      (deleteSubscriptionsOf sid (fun _ => true) l m).streams = m.streams ∧
      (∀ k, (∃ s ∈ l, s.1 = k ∧ s.2.info.stream = sid) →
        (deleteSubscriptionsOf sid (fun _ => true) l m).subscriptions.lookup k = none ∧
        (deleteSubscriptionsOf sid (fun _ => true) l m).db.lookup k = none) ∧
      (∀ k, (¬∃ s ∈ l, s.1 = k ∧ s.2.info.stream = sid) →
        (deleteSubscriptionsOf sid (fun _ => true) l m).subscriptions.lookup k =
          m.subscriptions.lookup k ∧
        (deleteSubscriptionsOf sid (fun _ => true) l m).db.lookup k = m.db.lookup k)
  | [], m, _ => ⟨rfl, fun k e => by simp at e, fun k _ => ⟨rfl, rfl⟩⟩
  | s :: rest, m, own => by
    have own' : ∀ t ∈ rest, t.2.info.id = t.1 := fun t ht => own t (.tail _ ht)
    simp only [deleteSubscriptionsOf]
    by_cases hs : s.2.info.stream = sid
    · simp only [hs, if_true, deleteSubscription_true, own s (.head _)]
      obtain ⟨st, gone, kept⟩ := deleteSubscriptionsOf_healthy sid rest _ own'
      refine ⟨st, fun k e => ?_, fun k e => ?_⟩
      · by_cases hk : ∃ t ∈ rest, t.1 = k ∧ t.2.info.stream = sid
        · exact gone k hk
        · obtain ⟨t, ht, rfl, h2⟩ := e
          rcases List.mem_cons.mp ht with rfl | ht
          · rw [(kept _ hk).1, (kept _ hk).2]; simp [AList.lookup_erase]
          · exact absurd ⟨t, ht, rfl, h2⟩ hk
      · have hne : s.1 ≠ k := fun e' => e ⟨s, .head _, e', hs⟩
        have hk : ¬∃ t ∈ rest, t.1 = k ∧ t.2.info.stream = sid :=
          fun ⟨t, ht, h1, h2⟩ => e ⟨t, .tail _ ht, h1, h2⟩
        rw [(kept k hk).1, (kept k hk).2]
        simp [AList.lookup_erase_ne (Ne.symm hne)]
    · simp only [hs, if_false]
      obtain ⟨st, gone, kept⟩ := deleteSubscriptionsOf_healthy sid rest m own'
      refine ⟨st, fun k e => gone k ?_, fun k e => kept k ?_⟩
      · obtain ⟨t, ht, h1, h2⟩ := e
        rcases List.mem_cons.mp ht with rfl | ht
        · exact absurd h2 hs
        · exact ⟨t, ht, h1, h2⟩
      · exact fun ⟨t, ht, h1, h2⟩ => e ⟨t, .tail _ ht, h1, h2⟩

theorem lookup_erase_of_ne {β : Type} {s : AList fun _ : String => β} {a k : String} (e : k ≠ a) :
    (s.erase a).lookup k = s.lookup k := AList.lookup_erase_ne e

theorem Coherent.no_stream_at {m : Manager} (h : Coherent lib m) {k p : String}
    (hp : hasPrefix k p = true) (len : p.data.length = streamIDPrefix.data.length)
    (ne : p ≠ streamIDPrefix) : m.streams.lookup k = none := by
  cases e : m.streams.lookup k with
  | none => rfl
  | some a => have := (h.spec_id e).2; rw [hasPrefix_ne _ hp len ne] at this; cases this

theorem Coherent.no_subscription_at {m : Manager} (h : Coherent lib m) {k p : String}
    (hp : hasPrefix k p = true) (len : p.data.length = subIDPrefix.data.length)
    (ne : p ≠ subIDPrefix) : m.subscriptions.lookup k = none := by
  cases e : m.subscriptions.lookup k with
  | none => rfl
  | some s => have := (h.info_id e).2; rw [hasPrefix_ne _ hp len ne] at this; cases this

theorem Coherent.deleteStream {m : Manager} (h : Coherent lib m) (id : String) :
    Coherent lib (deleteStream m id fun _ => true).1 := by
  unfold FabconnectEvents.deleteStream
  cases ha : m.streams.lookup id with
  | none => simpa [ha] using h
  | some a =>
  obtain ⟨hid, hk⟩ := h.spec_id ha
  have stop := (h.running id a ha).2
  simp only [ha, stop, hid, Bool.false_eq_true, if_false, Bool.not_true, if_true]
  have own : ∀ s ∈ m.subscriptions.entries, s.2.info.id = s.1 :=
    fun s hs => (h.info_id (AList.mem_lookup_iff.mpr hs)).1
  obtain ⟨st, gone, kept⟩ := deleteSubscriptionsOf_healthy id m.subscriptions.entries m own
  generalize deleteSubscriptionsOf id (fun _ => true) m.subscriptions.entries m = m1 at st gone kept
  have cpk := hasPrefix_append checkpointIDPrefix id
  have cpne : checkpointIDPrefix ++ id ≠ id := fun e => by
    rw [e, hasPrefix_ne checkpointIDPrefix hk rfl (by decide)] at cpk; cases cpk
  have dsub : ∀ k, (∃ s ∈ m.subscriptions.entries, s.1 = k ∧ s.2.info.stream = id) →
      ∃ s, m.subscriptions.lookup k = some s := fun k ⟨s, hs, e, _⟩ =>
    ⟨s.2, e ▸ AList.mem_lookup_iff.mpr hs⟩
  have dnos : ∀ k, (∃ s ∈ m.subscriptions.entries, s.1 = k ∧ s.2.info.stream = id) →
      m.streams.lookup k = none := fun k d => by
    obtain ⟨s, hs⟩ := dsub k d
    exact h.no_stream_at (h.info_id hs).2 rfl (by decide)
  refine ⟨fun k r e => ?_, fun k => ?_, fun k b e => ?_, fun k => ?_, fun k s e => ?_⟩
  · by_cases k1 : k = checkpointIDPrefix ++ id
    · subst k1; simp [AList.lookup_erase] at e
    rw [lookup_erase_of_ne k1] at e
    by_cases k2 : k = id
    · subst k2; simp [AList.lookup_erase] at e
    rw [lookup_erase_of_ne k2] at e
    by_cases d : ∃ s ∈ m.subscriptions.entries, s.1 = k ∧ s.2.info.stream = id
    · rw [(gone k d).2] at e; cases e
    · rw [(kept k d).2] at e; exact h.keyed k r e
  · by_cases k2 : k = id
    · subst k2; simp [AList.lookup_erase, lookup_erase_of_ne cpne.symm]
    rw [st, lookup_erase_of_ne k2]
    by_cases k1 : k = checkpointIDPrefix ++ id
    · subst k1; rw [h.no_stream_at cpk rfl (by decide)]; simp [AList.lookup_erase]
    rw [lookup_erase_of_ne k1, lookup_erase_of_ne k2]
    by_cases d : ∃ s ∈ m.subscriptions.entries, s.1 = k ∧ s.2.info.stream = id
    · rw [dnos k d, (gone k d).2]; rfl
    · rw [(kept k d).2, h.streams]
  · rw [st] at e
    by_cases k2 : k = id
    · subst k2; simp [AList.lookup_erase] at e
    rw [lookup_erase_of_ne k2] at e
    exact h.running k b e
  · by_cases d : ∃ s ∈ m.subscriptions.entries, s.1 = k ∧ s.2.info.stream = id
    · rw [(gone k d).1]
      by_cases k1 : k = checkpointIDPrefix ++ id
      · subst k1; simp [AList.lookup_erase]
      rw [lookup_erase_of_ne k1]
      by_cases k2 : k = id
      · subst k2; simp [AList.lookup_erase]
      rw [lookup_erase_of_ne k2, (gone k d).2]; rfl
    rw [(kept k d).1]
    by_cases k1 : k = checkpointIDPrefix ++ id
    · subst k1; rw [h.no_subscription_at cpk rfl (by decide)]; simp [AList.lookup_erase]
    rw [lookup_erase_of_ne k1]
    by_cases k2 : k = id
    · subst k2; rw [h.no_subscription_at hk rfl (by decide)]; simp [AList.lookup_erase]
    rw [lookup_erase_of_ne k2, (kept k d).2, h.subscriptions]
  · have d : ¬∃ s ∈ m.subscriptions.entries, s.1 = k ∧ s.2.info.stream = id := fun d => by
      rw [(gone k d).1] at e; cases e
    rw [(kept k d).1] at e
    obtain ⟨c, b⟩ := h.bound k s e
    refine ⟨c, AList.mem_erase.mpr ⟨fun se => d ⟨⟨k, s⟩, AList.mem_lookup_iff.mp e, rfl, se⟩, ?_⟩⟩
    rw [st]; exact b

theorem recoverStreams_running {db : Store} (h : WellKeyed db) {id : String} {a : EventStream}
    (e : (recoverStreams lib db).lookup id = some a) : a.spec.Settled lib ∧ a.stopped = false := by
  rw [recoverStreams, lookup_recoverInto _ db (recoverStream_own lib h)] at e
  obtain ⟨p, hp, rfl⟩ := Option.map_eq_some'.mp e
  obtain ⟨r, -, hr⟩ := Option.bind_eq_some.mp hp
  simp only [recoverStream] at hr
  split at hr
  · split at hr
    · cases hr
    · split at hr
      · cases hr
      · rename_i spec hs; cases hr; exact ⟨newEventStream_settled hs, rfl⟩
  · cases hr

theorem recoverSubscriptions_bound {db : Store} (h : WellKeyed db)
    (streams : AList fun _ : String => EventStream) {id : String} {s : Subscription}
    (e : (recoverSubscriptions streams db).lookup id = some s) :
    s.info.channelId ≠ "" ∧ s.info.stream ∈ streams := by
  rw [recoverSubscriptions, lookup_recoverInto _ db (recoverSubscription_own streams h)] at e
  obtain ⟨p, hp, rfl⟩ := Option.map_eq_some'.mp e
  obtain ⟨r, -, hr⟩ := Option.bind_eq_some.mp hp
  simp only [recoverSubscription] at hr
  split at hr
  · split at hr
    · cases hr
    · split at hr
      · cases hr
      · rename_i sub hs; cases hr
        obtain ⟨rfl, c, b⟩ := newSubscription_ok hs
        exact ⟨c, b⟩
  · cases hr

theorem Coherent.init {m : Manager} (h : Coherent lib m) : Coherent lib (init lib m.db) where
  keyed := h.keyed
  streams := h.recovered_streams
  running _ _ e := recoverStreams_running h.keyed e
  subscriptions := h.recovered_subscriptions
  bound _ _ e := recoverSubscriptions_bound h.keyed _ e

theorem Coherent.empty : Coherent lib .empty where
  keyed := .empty
  streams _ := rfl
  running _ _ e := by simp [Manager.empty, AList.lookup_empty] at e
  subscriptions _ := rfl
  bound _ _ e := by simp [Manager.empty, AList.lookup_empty] at e

def sampleSpec : StreamInfo :=
  { createdISO8601 := "t", id := "es-u", name := "", path := "/eventstreams/es-u",
    suspended := false, type := "websocket", batchSize := 1, batchTimeoutMS := 1,
    errorHandling := "block", retryTimeoutSec := 0, blockedRetryDelaySec := 1, webhook := none,
    webSocket := some ⟨"", ""⟩, timestamps := false, timestampCacheSize := 1 }

theorem addStream_sampleSpec (m : Manager) (dbOk : String → Bool) :
    addStream lib m (some sampleSpec) "u" "t" dbOk =
      persistStream { m with streams := m.streams.insert "es-u" (.started sampleSpec) } sampleSpec
        (dbOk "es-u") sampleSpec := by
  have hs : newEventStream lib sampleSpec = .ok sampleSpec :=
    StreamInfo.Settled.newEventStream_eq
      ⟨by decide, ⟨by decide, by decide, by decide, by decide, by decide, by decide⟩, .inr ⟨rfl, rfl⟩⟩
  have hb : { sampleSpec with
      id := streamIDPrefix ++ "u"
      createdISO8601 := "t"
      path := streamPathPrefix ++ "/" ++ (streamIDPrefix ++ "u") } = sampleSpec := by decide
  simp only [addStream, hb, hs]
  rfl

variable (lib)

/-- Managers reached from an empty store by operations other than `Close` whose store calls
all succeed and which include no update rejected for its websocket distribution mode. -/
inductive Healthy : Manager → Prop where
  | empty : Healthy .empty
  | step {m : Manager} (op : Op) : Healthy m → op ≠ .close →
      (∀ md, (m.run lib (fun _ => true) op).2 ≠ .fail ⟨.eventStreamsInvalidDistributionMode md, 500⟩) →
      Healthy (m.run lib (fun _ => true) op).1

variable {lib}

theorem Coherent.run {m : Manager} (h : Coherent lib m) (op : Op) (hc : op ≠ .close)
    (mode : ∀ md, (m.run lib (fun _ => true) op).2 ≠
      .fail ⟨.eventStreamsInvalidDistributionMode md, 500⟩) :
    Coherent lib (m.run lib (fun _ => true) op).1 := by
  cases op with
  | addStream body uuid now => exact h.addStream body uuid now
  | updateStream id body settles =>
    exact h.updateStream id body settles fun md e => mode md (by simp [Manager.run, e, Outcome.status])
  | suspendStream id => exact h.suspendStream id
  | resumeStream id drained => exact h.resumeStream id drained
  | deleteStream id => exact h.deleteStream id
  | addSubscription body uuid now => exact h.addSubscription body uuid now
  | resetSubscription id body => exact h.resetSubscription id body
  | deleteSubscription id => exact h.deleteSubscription id
  | close => exact absurd rfl hc
  | init => exact h.init

theorem Healthy.coherent {m : Manager} (h : Healthy lib m) : Coherent lib m := by
  induction h with
  | empty => exact .empty
  | step op _ hc mode ih => exact ih.run op hc mode

/-- On a store whose every put and delete succeeds, after each operation the registries equal
what `Init` would recover from the store (runs with an update rejected for its websocket
distribution mode apart). -/
theorem healthy_registries_agree {m : Manager} (h : Healthy lib m) : Agrees lib m :=
  h.coherent.agrees

theorem created_stream_registries_agree :
    Agrees Lib.ascii (Manager.empty.run Lib.ascii (fun _ => true) (.addStream (some sampleSpec) "u" "t")).1 :=
  healthy_registries_agree (.step _ .empty (fun h => by cases h)
    (fun _ => by simp [Manager.run, addStream_sampleSpec, Outcome.status]))

theorem Coherent.not_agrees {m m' : Manager} (h : Coherent lib m) (db : m'.db = m.db) (id : String)
    (ne : (m'.streams.lookup id).map (·.spec) ≠ (m.streams.lookup id).map (·.spec)) :
    ¬ Agrees lib m' := fun ag =>
  ne ((ag.1 id).trans (by rw [db]; exact (h.recovered_streams id).trans (h.streams id).symm))

end

theorem failed_suspend_breaks_agreement : ∃ body : StreamInfo, ∀ lib : Lib,
    let m := (addStream lib .empty (some body) "u" "t" fun _ => true).1
    (suspendStream m "es-u" fun _ => false).2 = .fail ⟨.eventStreamsCreateStreamStoreFailed, 500⟩ ∧
      ¬ Agrees lib (suspendStream m "es-u" fun _ => false).1 := by
  refine ⟨sampleSpec, fun lib => ?_⟩
  have coh := (Coherent.empty : Coherent lib .empty).addStream (some sampleSpec) "u" "t"
  simp only [addStream_sampleSpec, persistStream_true] at coh ⊢
  exact ⟨rfl, coh.not_agrees rfl "es-u" (by decide)⟩

end FabconnectEvents
