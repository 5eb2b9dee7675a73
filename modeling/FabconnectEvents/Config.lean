import FabconnectEvents.Registry

/-!
What every stream spec the manager holds satisfies, whatever the store answers: each is one
`newEventStream` maps to itself, so it is within the limits, of one of the two types and, on a
websocket stream, has a valid distribution mode; and no operation but the `AddStream` that
creates an id gives that id a type.
-/
namespace FabconnectEvents

/-- `m` holds type `t` for stream `id`, in its registry or in a stored stream record. -/
def HasType (m : Manager) (id t : String) : Prop :=
  (∃ a, m.streams.lookup id = some a ∧ a.spec.type = t) ∨
    ∃ k info, m.db.lookup k = some (.stream info) ∧ info.id = id ∧ info.type = t

def Op.Creates (op : Op) (id : String) : Prop :=
  ∃ body uuid now, op = .addStream body uuid now ∧ id = streamIDPrefix ++ uuid

theorem lookup_recoverInto_some {γ : Type} (f : String → Record → Option (String × γ)) (db : Store)
    {id : String} {x : γ} (h : (recoverInto f db).lookup id = some x) :
    ∃ k r, db.lookup k = some r ∧ f k r = some (id, x) := by
  suffices ∀ (l : List (Sigma fun _ : String => Record)) (acc : AList fun _ : String => γ),
      (∀ s ∈ l, db.lookup s.1 = some s.2) →
      (∀ id x, acc.lookup id = some x → ∃ k r, db.lookup k = some r ∧ f k r = some (id, x)) →
      ∀ id x, (l.foldl (fun acc s => addBinding acc (f s.1 s.2)) acc).lookup id = some x →
        ∃ k r, db.lookup k = some r ∧ f k r = some (id, x) from
    this db.entries ∅ (fun s hs => AList.mem_lookup_iff.mpr hs) (by simp [AList.lookup_empty]) id x h
  intro l
  induction l with
  | nil => exact fun acc _ hacc => hacc
  | cons s rest ih =>
    intro acc hl hacc
    refine ih _ (fun t ht => hl t (.tail _ ht)) fun id x e => ?_
    cases hf : f s.1 s.2 with
    | none => simp only [hf, addBinding] at e; exact hacc id x e
    | some p =>
      simp only [hf, addBinding] at e
      by_cases hid : id = p.1
      · subst hid; rw [AList.lookup_insert] at e; cases e
        exact ⟨s.1, s.2, hl s (.head _), hf⟩
      · rw [AList.lookup_insert_ne hid] at e; exact hacc id x e

section
variable (lib : Lib)

/-- Every registered spec sits under its id, and every registered or stored spec is settled. -/
structure Sound (m : Manager) : Prop where
  streams : ∀ id a, m.streams.lookup id = some a → a.spec.Settled lib ∧ a.spec.id = id
  stored : ∀ k info, m.db.lookup k = some (.stream info) → info.Settled lib

/-- Every stream spec `m'` holds is settled and has an id and a type that `m` held, or an id
that `fresh` allows. -/
structure Follows (m m' : Manager) (fresh : String → Prop) : Prop where
  streams : ∀ id a, m'.streams.lookup id = some a →
    a.spec.Settled lib ∧ a.spec.id = id ∧ (HasType m id a.spec.type ∨ fresh id)
  stored : ∀ k info, m'.db.lookup k = some (.stream info) →
    info.Settled lib ∧ (HasType m info.id info.type ∨ fresh info.id)

variable {lib} {m m₁ : Manager} {fresh : String → Prop}

theorem Follows.sound (h : Follows lib m m₁ fresh) : Sound lib m₁ :=
  ⟨fun id a e => ⟨(h.streams id a e).1, (h.streams id a e).2.1⟩, fun k info e => (h.stored k info e).1⟩

theorem Follows.hasType (h : Follows lib m m₁ fresh) {id t : String} :
    HasType m₁ id t → HasType m id t ∨ fresh id
  | .inl ⟨a, e, ht⟩ => ht ▸ (h.streams id a e).2.2
  | .inr ⟨k, info, e, hid, ht⟩ => hid ▸ ht ▸ (h.stored k info e).2

theorem Sound.follows (h : Sound lib m) (fresh : String → Prop) : Follows lib m m fresh :=
  ⟨fun id a e => ⟨(h.streams id a e).1, (h.streams id a e).2, .inl (.inl ⟨a, e, rfl⟩)⟩,
    fun k info e => ⟨h.stored k info e, .inl (.inr ⟨k, info, e, rfl, rfl⟩)⟩⟩

theorem Sound.empty : Sound lib .empty :=
  ⟨fun _ _ e => by simp [Manager.empty, AList.lookup_empty] at e,
    fun _ _ e => by simp [Manager.empty, AList.lookup_empty] at e⟩

theorem Follows.setStream (h : Follows lib m m₁ fresh) (id : String) (a : EventStream)
    (hs : a.spec.Settled lib) (hid : a.spec.id = id) (ht : HasType m id a.spec.type ∨ fresh id) :
    Follows lib m { m₁ with streams := m₁.streams.insert id a } fresh :=
  ⟨fun k b e => by
    by_cases hk : k = id
    · subst hk; rw [AList.lookup_insert] at e; cases e; exact ⟨hs, hid, ht⟩
    · rw [AList.lookup_insert_ne hk] at e; exact h.streams k b e, h.stored⟩

theorem Follows.eraseStream (h : Follows lib m m₁ fresh) (id : String) :
    Follows lib m { m₁ with streams := m₁.streams.erase id } fresh :=
  ⟨fun k b e => by
    by_cases hk : k = id
    · subst hk; simp [AList.lookup_erase] at e
    · rw [AList.lookup_erase_ne hk] at e; exact h.streams k b e, h.stored⟩

theorem Follows.putRecord (h : Follows lib m m₁ fresh) (k : String) (r : Record)
    (hr : ∀ info, r = .stream info → info.Settled lib ∧ (HasType m info.id info.type ∨ fresh info.id)) :
    Follows lib m { m₁ with db := m₁.db.insert k r } fresh :=
  ⟨h.streams, fun k' info e => by
    by_cases hk : k' = k
    · subst hk; rw [AList.lookup_insert] at e; exact hr info (Option.some.inj e)
    · rw [AList.lookup_insert_ne hk] at e; exact h.stored k' info e⟩

theorem Follows.eraseRecord (h : Follows lib m m₁ fresh) (k : String) :
    Follows lib m { m₁ with db := m₁.db.erase k } fresh :=
  ⟨h.streams, fun k' info e => by
    by_cases hk : k' = k
    · subst hk; simp [AList.lookup_erase] at e
    · rw [AList.lookup_erase_ne hk] at e; exact h.stored k' info e⟩

theorem Follows.persistStream (h : Follows lib m m₁ fresh) {spec : StreamInfo} (hs : spec.Settled lib)
    (ht : HasType m spec.id spec.type ∨ fresh spec.id) (ok : Bool) {α : Type} (x : α) :
    Follows lib m (persistStream m₁ spec ok x).1 fresh := by
  cases ok
  · exact h
  · exact h.putRecord _ _ fun info e => by cases e; exact ⟨hs, ht⟩

theorem Follows.deleteSubscription (h : Follows lib m m₁ fresh) (sub : Subscription) (ok : Bool) :
    Follows lib m (deleteSubscription m₁ sub ok).1 fresh := by
  cases ok
  · exact ⟨h.streams, h.stored⟩
  · exact ⟨(h.eraseRecord sub.info.id).1, (h.eraseRecord sub.info.id).2⟩

theorem Follows.deleteSubscriptionsOf (sid : String) (dbOk : String → Bool) :
    ∀ (l : List (Sigma fun _ : String => Subscription)) {m₁ : Manager}, Follows lib m m₁ fresh →
      Follows lib m (deleteSubscriptionsOf sid dbOk l m₁) fresh
  | [], _, h => h
  | s :: rest, m₁, h => by
    unfold FabconnectEvents.deleteSubscriptionsOf
    split
    · exact Follows.deleteSubscriptionsOf sid dbOk rest (h.deleteSubscription _ _)
    · exact Follows.deleteSubscriptionsOf sid dbOk rest h

theorem Follows.stopAll (hm : Sound lib m) :
    ∀ (l : List (Sigma fun _ : String => EventStream)) {m₁ : Manager}, (∀ s ∈ l, s ∈ m.streams.entries) →
      Follows lib m m₁ fresh → Follows lib m (FabconnectEvents.stopAll l m₁).1 fresh
  | [], _, _, h => h
  | s :: rest, m₁, hl, h => by
    unfold FabconnectEvents.stopAll
    split
    · exact h
    · have e := AList.mem_lookup_iff.mpr (hl s (.head _))
      exact Follows.stopAll hm rest (fun t ht => hl t (.tail _ ht)) (h.setStream _ _
        (hm.streams _ _ e).1 (hm.streams _ _ e).2 (.inl (.inl ⟨s.2, e, rfl⟩)))

theorem Record.stream_of_asStream {r : Record} {info : StreamInfo} (h : r.asStream = some info) :
    r = .stream info := by
  cases r <;> simp_all [Record.asStream]

theorem EventStream.update_keeps {a a' : EventStream} {req : StreamInfo} {settles : Bool}
    {r : Outcome StreamInfo} (hu : a.update lib req settles = (a', r)) (h : a.spec.Settled lib) :
    a'.spec.Settled lib ∧ a'.spec.type = a.spec.type ∧ a'.spec.id = a.spec.id ∧
      ∀ s, r = .ok s → s = a'.spec := by
  have k := updateSpec_keeps h req
  obtain ⟨-, ⟨s, rfl, rfl, hs⟩ | ⟨e, rfl, hs⟩ | ⟨hr, he⟩⟩ := EventStream.update_spec lib hu
  · rw [hs] at k
    exact ⟨(k _ rfl).1, (k _ rfl).2.1, (k _ rfl).2.2, fun _ e => (Outcome.ok.inj e).symm⟩
  · rw [hs] at k
    exact ⟨(k _ rfl).1, (k _ rfl).2.1, (k _ rfl).2.2, fun _ e => by cases e⟩
  · rw [he]
    exact ⟨h, rfl, rfl, fun _ e => by rcases hr with rfl | rfl <;> cases e⟩

theorem Sound.addStream (h : Sound lib m) (body : Option StreamInfo) (uuid now : String)
    (dbOk : String → Bool) :
    Follows lib m (addStream lib m body uuid now dbOk).1 (Op.addStream body uuid now).Creates := by
  cases body with
  | none => exact h.follows _
  | some spec =>
    unfold FabconnectEvents.addStream
    dsimp only
    split
    · exact h.follows _
    · rename_i s hs
      have created : (Op.addStream (some spec) uuid now).Creates s.id :=
        ⟨_, uuid, now, rfl, newEventStream_id hs⟩
      exact ((h.follows _).setStream s.id (.started s) (newEventStream_settled hs) rfl
        (.inr created)).persistStream (newEventStream_settled hs) (.inr created) _ _

theorem Sound.updateStream (h : Sound lib m) (id : String) (body : Option StreamInfo)
    (settles : Bool) (dbOk : String → Bool) :
    Follows lib m (updateStream lib m id body settles dbOk).1 fresh := by
  unfold FabconnectEvents.updateStream
  split; · exact h.follows _
  rename_i a ha
  split; · exact h.follows _
  rename_i req
  rcases hu : a.update lib req settles with ⟨a', r⟩
  obtain ⟨hsa, hid⟩ := h.streams id a ha
  obtain ⟨hs, ht, hi, hr⟩ := EventStream.update_keeps hu hsa
  have held : HasType m a'.spec.id a'.spec.type := by rw [hi, hid, ht]; exact .inl ⟨a, ha, rfl⟩
  have f := (h.follows fresh).setStream id a' hs (hi.trans hid) (.inl (hid ▸ hi ▸ held))
  dsimp only
  cases r with
  | ok s => obtain rfl := hr s rfl; exact f.persistStream hs (.inl held) _ _
  | _ => exact f

theorem Sound.suspendStream (h : Sound lib m) (id : String) (dbOk : String → Bool) :
    Follows lib m (suspendStream m id dbOk).1 fresh := by
  unfold FabconnectEvents.suspendStream
  split; · exact h.follows _
  rename_i a ha
  obtain ⟨hs, hid⟩ := h.streams id a ha
  have held : HasType m a.spec.id a.spec.type := by rw [hid]; exact .inl ⟨a, ha, rfl⟩
  exact ((h.follows _).setStream id { a with spec := { a.spec with suspended := true } }
    (hs.suspended true) hid (.inl (hid ▸ held))).persistStream (hs.suspended true) (.inl held) _ _

theorem Sound.resumeStream (h : Sound lib m) (id : String) (drained : Bool) (dbOk : String → Bool) :
    Follows lib m (resumeStream m id drained dbOk).1 fresh := by
  unfold FabconnectEvents.resumeStream
  split; · exact h.follows _
  rename_i a ha
  split; · exact h.follows _
  obtain ⟨hs, hid⟩ := h.streams id a ha
  have held : HasType m a.spec.id a.spec.type := by rw [hid]; exact .inl ⟨a, ha, rfl⟩
  exact ((h.follows _).setStream id
    { a with spec := { a.spec with suspended := false }, interruptClosed := false }
    (hs.suspended false) hid (.inl (hid ▸ held))).persistStream (hs.suspended false) (.inl held) _ _

theorem Sound.deleteStream (h : Sound lib m) (id : String) (dbOk : String → Bool) :
    Follows lib m (deleteStream m id dbOk).1 fresh := by
  unfold FabconnectEvents.deleteStream
  split; · exact h.follows _
  rename_i a _
  have f := (Follows.deleteSubscriptionsOf a.spec.id dbOk m.subscriptions.entries
    (h.follows fresh)).eraseStream a.spec.id
  dsimp only
  split_ifs
  · exact f
  · exact f
  · exact (f.eraseRecord _).eraseRecord _
  · exact f.eraseRecord _

theorem Follows.storeSubscription (h : Follows lib m m₁ fresh) {info : SubscriptionInfo} {ok : Bool}
    {db : Store} (e : storeSubscription m₁.db info ok = .ok db)
    (subs : AList fun _ : String => Subscription) :
    Follows lib m { m₁ with subscriptions := subs, db := db } fresh := by
  cases ok <;> simp only [FabconnectEvents.storeSubscription, Except.ok.injEq, if_true,
    Bool.false_eq_true, if_false, reduceCtorEq] at e
  subst e
  have f := h.putRecord info.id (.subscription info) fun _ e => by cases e
  exact ⟨f.1, f.2⟩

theorem Sound.addSubscription (h : Sound lib m) (body : Option SubscriptionInfo) (uuid now : String)
    (dbOk : String → Bool) : Follows lib m (addSubscription m body uuid now dbOk).1 fresh := by
  unfold FabconnectEvents.addSubscription
  split; · exact h.follows _
  dsimp only
  split; · exact h.follows _
  split; · exact h.follows _
  split; · exact h.follows _
  split
  · exact ⟨(h.follows fresh).1, (h.follows fresh).2⟩
  · rename_i e; exact (h.follows fresh).storeSubscription e _

theorem Follows.resetSubscription (h : Follows lib m m₁ fresh) (key : String) (sub : Subscription)
    (initialBlock : String) (ok : Bool) :
    Follows lib m (resetSubscription m₁ key sub initialBlock ok).1 fresh := by
  unfold FabconnectEvents.resetSubscription
  dsimp only
  split
  · exact ⟨h.1, h.2⟩
  · rename_i e; exact h.storeSubscription e _

theorem Sound.resetSubscription (h : Sound lib m) (id : String) (body : Option String)
    (dbOk : String → Bool) : Follows lib m (resetSubscriptionREST m id body dbOk).1 fresh := by
  unfold resetSubscriptionREST
  split; · exact h.follows _
  rename_i sub _
  split; · exact h.follows _
  rename_i initialBlock
  have f := (h.follows fresh).resetSubscription id sub initialBlock (dbOk sub.info.id)
  split <;> rename_i e <;> rw [e] at f <;> exact f

theorem Sound.deleteSubscription (h : Sound lib m) (id : String) (dbOk : String → Bool) :
    Follows lib m (deleteSubscriptionREST m id dbOk).1 fresh := by
  unfold deleteSubscriptionREST
  split; · exact h.follows _
  rename_i sub _
  have f := (h.follows fresh).deleteSubscription sub (dbOk sub.info.id)
  split <;> rename_i e <;> rw [e] at f <;> exact f

theorem Sound.close (h : Sound lib m) : Follows lib m (close m).1 fresh := by
  have f := Follows.stopAll h m.streams.entries (fun _ hs => hs) (h.follows fresh)
  unfold FabconnectEvents.close
  split <;> rename_i e <;> rw [e] at f
  · exact f
  · exact ⟨f.1, f.2⟩

theorem Sound.init (h : Sound lib m) : Follows lib m (init lib m.db) fresh := by
  refine ⟨fun id a e => ?_, fun k info e => ⟨h.stored k info e, .inl (.inr ⟨k, info, e, rfl, rfl⟩)⟩⟩
  obtain ⟨k, r, hr, hf⟩ := lookup_recoverInto_some _ _ e
  simp only [recoverStream] at hf
  split at hf <;> try cases hf
  split at hf; · cases hf
  rename_i info hinfo
  obtain rfl := Record.stream_of_asStream hinfo
  rw [(h.stored k info hr).newEventStream_eq] at hf
  cases hf
  exact ⟨h.stored k info hr, rfl, .inl (.inr ⟨k, info, hr, rfl, rfl⟩)⟩

theorem Sound.run (h : Sound lib m) (dbOk : String → Bool) :
    ∀ op : Op, Follows lib m (m.run lib dbOk op).1 op.Creates
  | .addStream body uuid now => h.addStream body uuid now dbOk
  | .updateStream id body settles => h.updateStream id body settles dbOk
  | .suspendStream id => h.suspendStream id dbOk
  | .resumeStream id drained => h.resumeStream id drained dbOk
  | .deleteStream id => h.deleteStream id dbOk
  | .addSubscription body uuid now => h.addSubscription body uuid now dbOk
  | .resetSubscription id body => h.resetSubscription id body dbOk
  | .deleteSubscription id => h.deleteSubscription id dbOk
  | .close => h.close
  | .init => h.init

theorem Reachable.sound (h : Reachable lib m) : Sound lib m := by
  induction h with
  | empty => exact .empty
  | step op dbOk _ ih => exact (ih.run dbOk op).sound

/-- In every reachable manager each registered and each stored stream spec is valid, and an
operation gives an id a type it did not hold only when it is the `AddStream` creating it. -/
theorem reachable_stream_specs_valid (h : Reachable lib m) :
    (∀ id a, m.streams.lookup id = some a → a.spec.Valid) ∧
    (∀ k info, m.db.lookup k = some (.stream info) → info.Valid) ∧
    ∀ (op : Op) dbOk id t, HasType (m.run lib dbOk op).1 id t → HasType m id t ∨ op.Creates id :=
  ⟨fun id a e => (h.sound.streams id a e).1.valid, fun k info e => (h.sound.stored k info e).valid,
    fun op dbOk _ _ => (h.sound.run dbOk op).hasType⟩

end

theorem created_stream_specs_valid :
    let m := (Manager.empty.run Lib.ascii (fun _ => true) (.addStream (some sampleSpec) "u" "t")).1
    (∀ id a, m.streams.lookup id = some a → a.spec.Valid) ∧
    (∀ k info, m.db.lookup k = some (.stream info) → info.Valid) ∧
    ∀ (op : Op) dbOk id t, HasType (m.run Lib.ascii dbOk op).1 id t → HasType m id t ∨ op.Creates id :=
  reachable_stream_specs_valid (.step _ _ .empty)

theorem webhook_stream_keeps_invalid_mode : ∃ body : StreamInfo, ∀ lib : Lib,
    lib.urlParses "http://h" = true →
    ∃ a, (addStream lib .empty (some body) "u" "t" fun _ => true).1.streams.lookup "es-u" = some a ∧
      ∃ w, a.spec.webSocket = some w ∧ ¬ ValidMode w.distributionMode := by
  let body : StreamInfo := { sampleSpec with
    type := "webhook"
    webhook := some ⟨"http://h", [], false, 1⟩
    webSocket := some ⟨"", "bad"⟩ }
  refine ⟨body, fun lib hp => ?_⟩
  have hs : newEventStream lib body = .ok body :=
    StreamInfo.Settled.newEventStream_eq ⟨by decide, ⟨by decide, by decide, by decide, by decide,
      by decide, by decide⟩, .inl ⟨rfl, _, rfl, by decide, hp, by decide⟩⟩
  have hb : { body with
      id := streamIDPrefix ++ "u"
      createdISO8601 := "t"
      path := streamPathPrefix ++ "/" ++ (streamIDPrefix ++ "u") } = body := by decide
  simp only [addStream, hb, hs]
  exact ⟨.started body, by simp [persistStream, storeStream, body, sampleSpec], _, rfl,
    by simp [ValidMode, distributionModeBroadcast, distributionModeWLD]⟩

end FabconnectEvents
