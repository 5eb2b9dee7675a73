import FabconnectEvents.Registry

/-!
What an operation leaves behind when it answers with an error, and what a second `Close`
does. The store is written after the registries change and nothing is rolled back, so only
the errors raised before any store call leave the manager as it was.
-/
namespace FabconnectEvents

/-- The errors a failed store call yields: the two wrapped put errors and the delete error. -/
def Err.fromStore : Err → Bool
  | .eventStreamsCreateStreamStoreFailed | .eventStreamsSubscribeStoreFailed | .storeFailed => true
  | _ => false

@[simp] theorem Outcome.status_fail {α : Type} {r : Outcome α} {e : RestError} :
    r.status = .fail e ↔ r = .fail e := by
  cases r <;> simp [Outcome.status]

theorem persistStream_fail {m : Manager} {spec : StreamInfo} {ok : Bool} {α : Type} {x : α}
    {e : RestError} (h : (persistStream m spec ok x).2 = .fail e) : e.err.fromStore = true := by
  cases ok <;> simp [persistStream, storeStream] at h
  subst h; rfl

theorem storeSubscription_error {db : Store} {info : SubscriptionInfo} {ok : Bool} {e : Err}
    (h : storeSubscription db info ok = .error e) : e.fromStore = true := by
  cases ok <;> simp [storeSubscription] at h
  subst h; rfl

theorem resetSubscription_error {m m' : Manager} {key : String} {sub : Subscription}
    {initialBlock : String} {ok : Bool} {e : Err}
    (h : resetSubscription m key sub initialBlock ok = (m', some e)) : e.fromStore = true := by
  cases ok <;> simp [resetSubscription, storeSubscription] at h
  rw [← h.2]; rfl

section
variable (lib : Lib) {m : Manager} {dbOk : String → Bool} {e : RestError}

theorem addStream_fail {body : Option StreamInfo} {uuid now : String}
    (store : e.err.fromStore = false) :
    (addStream lib m body uuid now dbOk).2 = .fail e → (addStream lib m body uuid now dbOk).1 = m := by
  unfold addStream
  split; · exact fun _ => rfl
  dsimp only
  split; · exact fun _ => rfl
  exact fun h => absurd (persistStream_fail h) (by simp [store])

theorem suspendStream_fail {id : String} (store : e.err.fromStore = false) :
    (suspendStream m id dbOk).2 = .fail e → (suspendStream m id dbOk).1 = m := by
  unfold suspendStream
  split; · exact fun _ => rfl
  exact fun h => absurd (persistStream_fail h) (by simp [store])

theorem resumeStream_fail {id : String} {drained : Bool} (store : e.err.fromStore = false) :
    (resumeStream m id drained dbOk).2 = .fail e → (resumeStream m id drained dbOk).1 = m := by
  unfold resumeStream
  split; · exact fun _ => rfl
  split; · exact fun _ => rfl
  exact fun h => absurd (persistStream_fail h) (by simp [store])

theorem addSubscription_fail {body : Option SubscriptionInfo} {uuid now : String}
    (store : e.err.fromStore = false) :
    (addSubscription m body uuid now dbOk).2 = .fail e → (addSubscription m body uuid now dbOk).1 = m := by
  unfold addSubscription
  split; · exact fun _ => rfl
  dsimp only
  split; · exact fun _ => rfl
  split; · exact fun _ => rfl
  split; · exact fun _ => rfl
  split
  · rename_i he; rintro ⟨⟩; simp [storeSubscription_error he] at store
  · rintro ⟨⟩

theorem resetSubscriptionREST_fail {id : String} {body : Option String}
    (store : e.err.fromStore = false) :
    (resetSubscriptionREST m id body dbOk).2 = .fail e → (resetSubscriptionREST m id body dbOk).1 = m := by
  unfold resetSubscriptionREST
  split; · exact fun _ => rfl
  split; · exact fun _ => rfl
  split
  · rename_i he; rintro ⟨⟩; simp [resetSubscription_error he] at store
  · rintro ⟨⟩

theorem deleteSubscriptionREST_fail {id : String} (store : e.err.fromStore = false) :
    (deleteSubscriptionREST m id dbOk).2 = .fail e → (deleteSubscriptionREST m id dbOk).1 = m := by
  unfold deleteSubscriptionREST deleteSubscription
  split; · exact fun _ => rfl
  cases dbOk _
  · rintro ⟨⟩; cases store
  · rintro ⟨⟩

theorem deleteStream_fail {id : String} (store : e.err.fromStore = false) :
    (deleteStream m id dbOk).2 = .fail e → (deleteStream m id dbOk).1 = m := by
  unfold deleteStream
  split; · exact fun _ => rfl
  dsimp only
  split_ifs <;> rintro ⟨⟩; cases store

theorem EventStream.update_fail {a a' : EventStream} {req : StreamInfo} {settles : Bool}
    (hu : a.update lib req settles = (a', .fail e)) :
    ∃ s, updateSpec lib a.spec req = .rejected e.err s ∧ a' = { a with interruptClosed := true, spec := s } := by
  unfold EventStream.update at hu
  split at hu; · cases hu
  split at hu; · cases hu
  dsimp only at hu
  split at hu <;> rename_i hs <;> cases hu
  exact ⟨_, hs, rfl⟩

theorem updateStream_fail {id : String} {body : Option StreamInfo} {settles : Bool}
    (store : e.err.fromStore = false) (mode : ∀ md, e.err ≠ .eventStreamsInvalidDistributionMode md) :
    (updateStream lib m id body settles dbOk).2 = .fail e →
      (updateStream lib m id body settles dbOk).1 = m ∨ ∃ a, m.streams.lookup id = some a ∧
        (updateStream lib m id body settles dbOk).1 =
          { m with streams := m.streams.insert id { a with interruptClosed := true } } := by
  unfold updateStream
  split; · exact fun _ => .inl rfl
  rename_i a ha
  split; · exact fun _ => .inl rfl
  rename_i req
  rcases hu : a.update lib req settles with ⟨a', r⟩
  dsimp only
  cases r with
  | ok spec => exact fun h => absurd (persistStream_fail h) (by simp [store])
  | fail e' =>
    rintro ⟨⟩
    obtain ⟨s, hs, rfl⟩ := EventStream.update_fail lib hu
    obtain rfl := updateSpec_rejected hs mode
    exact .inr ⟨a, ha, rfl⟩
  | panicked => rintro ⟨⟩
  | hung => rintro ⟨⟩

/-- What a client sees of the manager: each registered stream with its spec and stop state,
the subscriptions, the stored records and the closed flag. -/
structure KeepsRecords (m m' : Manager) : Prop where
  streams : ∀ id, (m'.streams.lookup id).map (fun a => (a.spec, a.stopped)) =
    (m.streams.lookup id).map fun a => (a.spec, a.stopped)
  subscriptions : m'.subscriptions = m.subscriptions
  db : m'.db = m.db
  closed : m'.closed = m.closed

theorem KeepsRecords.refl (m : Manager) : KeepsRecords m m := ⟨fun _ => rfl, rfl, rfl, rfl⟩

theorem KeepsRecords.interruptClosed {m : Manager} {id : String} {a : EventStream}
    (ha : m.streams.lookup id = some a) :
    KeepsRecords m { m with streams := m.streams.insert id { a with interruptClosed := true } } := by
  refine ⟨fun k => ?_, rfl, rfl, rfl⟩
  by_cases hk : k = id
  · subst hk; simp [AList.lookup_insert, ha]
  · simp [AList.lookup_insert_ne hk]

/-- An operation that answers with an error raised before any store call leaves every stream,
subscription and stored record as it was. Errors of the store, and updates rejected for their
websocket distribution mode, are outside this. -/
theorem failed_operation_keeps_manager {op : Op} (h : (m.run lib dbOk op).2 = .fail e)
    (store : e.err.fromStore = false)
    (mode : ∀ id body settles md, op = .updateStream id body settles →
      e.err ≠ .eventStreamsInvalidDistributionMode md) :
    KeepsRecords m (m.run lib dbOk op).1 := by
  have same : ∀ {m'}, m' = m → KeepsRecords m m' := fun h => h ▸ .refl m
  cases op with
  | addStream => exact same (addStream_fail lib store (Outcome.status_fail.mp h))
  | updateStream id body settles =>
    rcases updateStream_fail lib store (fun md => mode id body settles md rfl) (Outcome.status_fail.mp h) with
      h | ⟨a, ha, h⟩
    · exact same h
    · exact h ▸ .interruptClosed ha
  | suspendStream => exact same (suspendStream_fail store (Outcome.status_fail.mp h))
  | resumeStream => exact same (resumeStream_fail store (Outcome.status_fail.mp h))
  | deleteStream => exact same (deleteStream_fail store (Outcome.status_fail.mp h))
  | addSubscription => exact same (addSubscription_fail store (Outcome.status_fail.mp h))
  | resetSubscription => exact same (resetSubscriptionREST_fail store (Outcome.status_fail.mp h))
  | deleteSubscription => exact same (deleteSubscriptionREST_fail store (Outcome.status_fail.mp h))
  | close => simp only [Manager.run, close] at h; split at h <;> cases h
  | init => cases h

end

theorem missing_stream_update_keeps_manager :
    (Manager.empty.run Lib.ascii (fun _ => true) (.updateStream "es-x" none true)).2 =
        .fail ⟨.eventStreamsStreamNotFound "es-x", 404⟩ ∧
      KeepsRecords Manager.empty (Manager.empty.run Lib.ascii (fun _ => true) (.updateStream "es-x" none true)).1 :=
  ⟨rfl, failed_operation_keeps_manager Lib.ascii
    (show (Manager.empty.run Lib.ascii (fun _ => true) (.updateStream "es-x" none true)).2 =
      .fail ⟨.eventStreamsStreamNotFound "es-x", 404⟩ from rfl) rfl (fun _ _ _ _ _ => nofun)⟩

theorem failed_create_leaves_stream_registered : ∃ body : StreamInfo, ∀ lib : Lib,
    (addStream lib .empty (some body) "u" "t" fun _ => false).2 =
      .fail ⟨.eventStreamsCreateStreamStoreFailed, 500⟩ ∧
    "es-u" ∈ (addStream lib .empty (some body) "u" "t" fun _ => false).1.streams :=
  ⟨sampleSpec, fun lib => by simp [addStream_sampleSpec, persistStream, storeStream]⟩

/-- The first stream in the registry's order, the one `stop` visits first. -/
def firstStopped (m : Manager) : Option Bool := m.streams.entries.head?.map (·.2.stopped)

theorem stopAll_firstStopped : ∀ (l : List (Sigma fun _ : String => EventStream)) (m : Manager),
    firstStopped m = some true ∨ (l = m.streams.entries ∧ l ≠ []) →
      firstStopped (stopAll l m).1 = some true
  | [], _, h => h.resolve_right fun h => h.2 rfl
  | s :: rest, m, h => by
    unfold stopAll
    split
    · rename_i hs
      rcases h with h | ⟨he, -⟩
      · exact h
      · simp [firstStopped, ← he, hs]
    · exact stopAll_firstStopped rest _ (.inl (by simp [firstStopped]))

theorem close_of_firstStopped {m : Manager} (h : firstStopped m = some true) :
    (close m).2 = .panicked := by
  unfold firstStopped at h
  unfold close
  cases he : m.streams.entries with
  | nil => simp [he] at h
  | cons s rest => simp_all [stopAll]

theorem close_streams (m : Manager) : (close m).1.streams = (stopAll m.streams.entries m).1.streams := by
  unfold close; split <;> simp_all

theorem close_close_panics {m : Manager} (h : m.streams.entries ≠ []) : (close (close m).1).2 = .panicked :=
  close_of_firstStopped (by
    unfold firstStopped; rw [close_streams]
    exact stopAll_firstStopped _ m (.inr ⟨rfl, h⟩))

theorem second_close_panics : ∃ body : StreamInfo, ∀ lib : Lib,
    (close (close (addStream lib .empty (some body) "u" "t" fun _ => true).1).1).2 = .panicked :=
  ⟨sampleSpec, fun lib => close_close_panics (by simp [addStream_sampleSpec])⟩

end FabconnectEvents
