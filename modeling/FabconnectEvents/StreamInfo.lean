import Mathlib.Tactic.SplitIfs
import Mathlib.Tactic.Tauto

/-!
Stream configuration (`StreamInfo`), the defaults `newEventStream` writes into it, and the
patch `eventStream.update` applies once the handlers have stopped. uint64 fields are
unbounded `Nat`; `strings.ToLower` and `url.Parse` are the Go library's, taken as a `Lib`.
-/
namespace FabconnectEvents

/-- The Go library functions the stream code calls, with the facts about them it relies on:
`strings.ToLower` fixes the lower-case literals the code compares against. -/
structure Lib where
  toLower : String → String
  urlParses : String → Bool
  lower_webhook : toLower "webhook" = "webhook"
  lower_websocket : toLower "websocket" = "websocket"
  lower_block : toLower "block" = "block"
  lower_skip : toLower "skip" = "skip"

/-- A library to run the model with: ASCII lower-casing, and every URL parses. -/
def Lib.ascii : Lib where
  toLower s := ⟨s.data.map Char.toLower⟩
  urlParses _ := true
  lower_webhook := by decide
  lower_websocket := by decide
  lower_block := by decide
  lower_skip := by decide

/-- The error constants of the `errors` package (not in the source) that these paths raise. -/
inductive Err where
  | eventStreamsNoID
  | eventStreamsInvalidActionType (type : String)
  | eventStreamsInvalidDistributionMode (mode : String)
  | eventStreamsWebhookNoURL
  | eventStreamsWebhookInvalidURL
  | eventStreamsCannotUpdateType
  | eventStreamsWebhookResumeActive (suspended : Bool)
  | eventStreamsStreamNotFound (id : String)
  | eventStreamsSubscriptionNotFound (id : String)
  | eventStreamsCreateStreamStoreFailed
  | eventStreamsSubscribeStoreFailed
  | restGatewayEventStreamInvalid
  | restGatewaySubscriptionInvalid
  | missingParameter (name : String)
  | resetBodyInvalid
  | storeFailed
  deriving DecidableEq, Repr

def distributionModeBroadcast : String := "broadcast"
def distributionModeWLD : String := "workloadDistribution"
def fromBlockNewest : String := "newest"
def errorHandlingBlock : String := "block"
def errorHandlingSkip : String := "skip"
def maxBatchSize : Nat := 1000
def defaultTimestampCacheSize : Int := 1000

structure WebhookActionInfo where
  url : String
  headers : List (String × String)
  tlsSkipHostVerify : Bool
  requestTimeoutSec : Nat
  deriving DecidableEq, Repr

structure WebSocketActionInfo where
  topic : String
  distributionMode : String
  deriving DecidableEq, Repr

structure StreamInfo where
  createdISO8601 : String
  id : String
  name : String
  path : String
  suspended : Bool
  type : String
  batchSize : Nat
  batchTimeoutMS : Nat
  errorHandling : String
  retryTimeoutSec : Nat
  blockedRetryDelaySec : Nat
  webhook : Option WebhookActionInfo
  webSocket : Option WebSocketActionInfo
  timestamps : Bool
  timestampCacheSize : Int
  deriving DecidableEq, Repr

def validateWebSocket (w : WebSocketActionInfo) : Option Err :=
  if w.distributionMode ≠ "" ∧ w.distributionMode ≠ distributionModeBroadcast ∧
      w.distributionMode ≠ distributionModeWLD then
    some (.eventStreamsInvalidDistributionMode w.distributionMode)
  else none

/-- Modelled from the spec: `newWebhookAction` is not in the source. The spec asks for a
present, parseable `webhook.url` and defaults `requestTimeoutSec` to 120. -/
def newWebhookAction (lib : Lib) : Option WebhookActionInfo → Except Err WebhookActionInfo
  | none => .error .eventStreamsWebhookNoURL
  | some w =>
    if w.url = "" then .error .eventStreamsWebhookNoURL
    else if !lib.urlParses w.url then .error .eventStreamsWebhookInvalidURL
    else .ok { w with requestTimeoutSec := if w.requestTimeoutSec = 0 then 120 else w.requestTimeoutSec }

/-- The defaults `newEventStream` writes before it looks at the type. -/
def applyDefaults (lower : String → String) (spec : StreamInfo) : StreamInfo :=
  { spec with
    batchSize := if spec.batchSize = 0 then 1
      else if spec.batchSize > maxBatchSize then maxBatchSize else spec.batchSize
    batchTimeoutMS := if spec.batchTimeoutMS = 0 then 5000 else spec.batchTimeoutMS
    blockedRetryDelaySec := if spec.blockedRetryDelaySec = 0 then 30 else spec.blockedRetryDelaySec
    errorHandling := if lower spec.errorHandling = errorHandlingBlock then errorHandlingBlock
      else errorHandlingSkip
    timestampCacheSize := if spec.timestampCacheSize = 0 then defaultTimestampCacheSize
      else spec.timestampCacheSize }

@[simp] theorem applyDefaults_id (lower : String → String) (spec : StreamInfo) :
    (applyDefaults lower spec).id = spec.id := rfl

@[simp] theorem applyDefaults_type (lower : String → String) (spec : StreamInfo) :
    (applyDefaults lower spec).type = spec.type := rfl

@[simp] theorem applyDefaults_webhook (lower : String → String) (spec : StreamInfo) :
    (applyDefaults lower spec).webhook = spec.webhook := rfl

@[simp] theorem applyDefaults_webSocket (lower : String → String) (spec : StreamInfo) :
    (applyDefaults lower spec).webSocket = spec.webSocket := rfl

/-- The spec `newEventStream` leaves behind when it succeeds. `newWebSocketAction` is not
in the source and the spec names no way for it to fail. -/
def newEventStream (lib : Lib) (spec : StreamInfo) : Except Err StreamInfo :=
  if spec.id = "" then .error .eventStreamsNoID else
  let spec := applyDefaults lib.toLower spec
  let spec := { spec with type := lib.toLower spec.type }
  if spec.type = "webhook" then
    match newWebhookAction lib spec.webhook with
    | .error e => .error e
    | .ok w => .ok { spec with webhook := some w }
  else if spec.type = "websocket" then
    match spec.webSocket.bind validateWebSocket with
    | some e => .error e
    | none => .ok spec
  else .error (.eventStreamsInvalidActionType spec.type)

/-- How `update` ends once its handlers have stopped: the spec it returns, an error with the
spec as left in memory, or a nil dereference of a missing sub-config. -/
inductive UpdateResult where
  | ok (spec : StreamInfo)
  | rejected (err : Err) (spec : StreamInfo)
  | panicked
  deriving DecidableEq, Repr

def updateWebhook (lib : Lib) (cur : StreamInfo) : Option WebhookActionInfo → UpdateResult
  | none => .ok cur
  | some w =>
    if cur.type ≠ "webhook" then .ok cur
    else if w.url = "" then .rejected .eventStreamsWebhookNoURL cur
    else if !lib.urlParses w.url then .rejected .eventStreamsWebhookInvalidURL cur
    else match cur.webhook with
      | none => .panicked
      | some h => .ok { cur with webhook := some { h with
          url := w.url
          requestTimeoutSec := if w.requestTimeoutSec = 0 then 120 else w.requestTimeoutSec
          tlsSkipHostVerify := w.tlsSkipHostVerify
          headers := w.headers } }

/-- The topic is written before the distribution mode is validated. -/
def updateWebSocket (cur : StreamInfo) : Option WebSocketActionInfo → UpdateResult
  | none => .ok cur
  | some w =>
    if cur.type ≠ "websocket" then .ok cur
    else match cur.webSocket with
      | none => .panicked
      | some c =>
        match validateWebSocket w with
        | some e => .rejected e { cur with webSocket := some { c with topic := w.topic } }
        | none => .ok { cur with webSocket := some { c with
            topic := w.topic, distributionMode := w.distributionMode } }

def updateFields (lower : String → String) (cur req : StreamInfo) : StreamInfo :=
  { cur with
    batchSize := if cur.batchSize ≠ req.batchSize ∧ req.batchSize ≠ 0 ∧ req.batchSize < maxBatchSize
      then req.batchSize else cur.batchSize
    batchTimeoutMS := if cur.batchTimeoutMS ≠ req.batchTimeoutMS ∧ req.batchTimeoutMS ≠ 0
      then req.batchTimeoutMS else cur.batchTimeoutMS
    blockedRetryDelaySec :=
      if cur.blockedRetryDelaySec ≠ req.blockedRetryDelaySec ∧ req.blockedRetryDelaySec ≠ 0
      then req.blockedRetryDelaySec else cur.blockedRetryDelaySec
    errorHandling := if lower req.errorHandling = errorHandlingBlock then errorHandlingBlock
      else errorHandlingSkip
    name := if req.name ≠ "" ∧ cur.name ≠ req.name then req.name else cur.name
    timestamps := if cur.timestamps ≠ req.timestamps then req.timestamps else cur.timestamps }

/-- The body of `update` after `updateWG.Wait()`. -/
def updateSpec (lib : Lib) (cur req : StreamInfo) : UpdateResult :=
  if req.type ≠ "" ∧ req.type ≠ cur.type then .rejected .eventStreamsCannotUpdateType cur else
  match updateWebhook lib cur req.webhook with
  | .ok cur =>
    match updateWebSocket cur req.webSocket with
    | .ok cur => .ok (updateFields lib.toLower cur req)
    | r => r
  | r => r

def ValidMode (m : String) : Prop :=
  m = "" ∨ m = distributionModeBroadcast ∨ m = distributionModeWLD

/-- The numeric and enumerated fields as `newEventStream` leaves them. -/
structure StreamInfo.Limits (spec : StreamInfo) : Prop where
  batchSize_pos : 0 < spec.batchSize
  batchSize_le : spec.batchSize ≤ maxBatchSize
  batchTimeout_pos : 0 < spec.batchTimeoutMS
  blockedRetryDelay_pos : 0 < spec.blockedRetryDelaySec
  errorHandling : spec.errorHandling = errorHandlingBlock ∨ spec.errorHandling = errorHandlingSkip
  timestampCacheSize : spec.timestampCacheSize ≠ 0

/-- A spec `newEventStream` maps to itself: what recovery finds in the store must be one. -/
structure StreamInfo.Settled (lib : Lib) (spec : StreamInfo) : Prop where
  id : spec.id ≠ ""
  limits : spec.Limits
  action : (spec.type = "webhook" ∧ ∃ w, spec.webhook = some w ∧ w.url ≠ "" ∧
      lib.urlParses w.url = true ∧ w.requestTimeoutSec ≠ 0) ∨
    (spec.type = "websocket" ∧ spec.webSocket.bind validateWebSocket = none)

theorem validateWebSocket_eq_none {w : WebSocketActionInfo} :
    validateWebSocket w = none ↔ ValidMode w.distributionMode := by
  unfold validateWebSocket ValidMode
  split <;> simp only [reduceCtorEq, false_iff, true_iff, not_or] <;> tauto

theorem applyDefaults_limits (lower : String → String) (spec : StreamInfo) :
    (applyDefaults lower spec).Limits where
  batchSize_pos := by simp only [applyDefaults, maxBatchSize]; split_ifs <;> omega
  batchSize_le := by simp only [applyDefaults, maxBatchSize]; split_ifs <;> omega
  batchTimeout_pos := by simp only [applyDefaults]; split_ifs <;> omega
  blockedRetryDelay_pos := by simp only [applyDefaults]; split_ifs <;> omega
  errorHandling := by simp only [applyDefaults]; split_ifs <;> simp
  timestampCacheSize := by
    simp only [applyDefaults, defaultTimestampCacheSize]; split_ifs <;> simp_all

theorem applyDefaults_of_limits (lib : Lib) {spec : StreamInfo} (h : spec.Limits) :
    applyDefaults lib.toLower spec = spec := by
  obtain ⟨b1, b2, t, r, e, c⟩ := h
  have eh : (if lib.toLower spec.errorHandling = errorHandlingBlock then errorHandlingBlock
      else errorHandlingSkip) = spec.errorHandling := by
    rcases e with e | e <;> simp [e, errorHandlingBlock, errorHandlingSkip, lib.lower_block,
      lib.lower_skip]
  have bs : (if spec.batchSize = 0 then 1 else if spec.batchSize > maxBatchSize then maxBatchSize
      else spec.batchSize) = spec.batchSize := by simp only [maxBatchSize] at *; split_ifs <;> omega
  simp only [applyDefaults, eh, c, bs, Nat.pos_iff_ne_zero.mp t, Nat.pos_iff_ne_zero.mp r, if_false]

theorem newWebhookAction_ok {lib : Lib} {hook : Option WebhookActionInfo} {w : WebhookActionInfo}
    (h : newWebhookAction lib hook = .ok w) :
    ∃ v, hook = some v ∧ v.url ≠ "" ∧ lib.urlParses v.url = true ∧
      w = { v with requestTimeoutSec := if v.requestTimeoutSec = 0 then 120
        else v.requestTimeoutSec } := by
  cases hook with
  | none => simp [newWebhookAction] at h
  | some v =>
    by_cases h1 : v.url = ""
    · simp [newWebhookAction, h1] at h
    by_cases h2 : lib.urlParses v.url = true
    · simp only [newWebhookAction, h1, h2, if_false, Bool.not_true, Bool.false_eq_true,
        Except.ok.injEq] at h
      exact ⟨v, rfl, h1, h2, h.symm⟩
    · simp [newWebhookAction, h1, h2] at h

theorem StreamInfo.Limits.congr {a b : StreamInfo} (h : a.Limits)
    (bs : b.batchSize = a.batchSize) (bt : b.batchTimeoutMS = a.batchTimeoutMS)
    (br : b.blockedRetryDelaySec = a.blockedRetryDelaySec)
    (eh : b.errorHandling = a.errorHandling)
    (tc : b.timestampCacheSize = a.timestampCacheSize) : b.Limits := by
  obtain ⟨h1, h2, h3, h4, h5, h6⟩ := h
  exact ⟨bs ▸ h1, bs ▸ h2, bt ▸ h3, br ▸ h4, eh ▸ h5, tc ▸ h6⟩

theorem newEventStream_ok {lib : Lib} {spec s : StreamInfo} (h : newEventStream lib spec = .ok s) :
    spec.id ≠ "" ∧
      ((lib.toLower spec.type = "webhook" ∧ ∃ w, newWebhookAction lib spec.webhook = .ok w ∧
          s = { applyDefaults lib.toLower spec with type := "webhook", webhook := some w }) ∨
        (lib.toLower spec.type = "websocket" ∧ spec.webSocket.bind validateWebSocket = none ∧
          s = { applyDefaults lib.toLower spec with type := "websocket" })) := by
  simp only [newEventStream] at h
  split_ifs at h with hid hhook hsock
  · refine ⟨hid, .inl ⟨hhook, ?_⟩⟩
    split at h
    · cases h
    · rename_i w hw
      exact ⟨w, hw, by rw [← hhook]; exact (Except.ok.inj h).symm⟩
  · refine ⟨hid, .inr ⟨hsock, ?_⟩⟩
    split at h
    · cases h
    · rename_i hv
      exact ⟨hv, by rw [← hsock]; exact (Except.ok.inj h).symm⟩

theorem newEventStream_id {lib : Lib} {spec s : StreamInfo} (h : newEventStream lib spec = .ok s) :
    s.id = spec.id := by
  obtain ⟨-, (⟨-, w, -, rfl⟩ | ⟨-, -, rfl⟩)⟩ := newEventStream_ok h <;> rfl

theorem newEventStream_type {lib : Lib} {spec s : StreamInfo} (h : newEventStream lib spec = .ok s) :
    s.type = lib.toLower spec.type := by
  obtain ⟨-, (⟨ht, w, -, rfl⟩ | ⟨ht, -, rfl⟩)⟩ := newEventStream_ok h <;> exact ht.symm

theorem newEventStream_of_websocket {lib : Lib} {spec : StreamInfo} (hid : spec.id ≠ "")
    (ht : lib.toLower spec.type = "websocket") (hv : spec.webSocket.bind validateWebSocket = none) :
    newEventStream lib spec = .ok { applyDefaults lib.toLower spec with type := "websocket" } := by
  simp [newEventStream, hid, ht, hv]

theorem newEventStream_of_webhook {lib : Lib} {spec : StreamInfo} {w : WebhookActionInfo}
    (hid : spec.id ≠ "") (ht : lib.toLower spec.type = "webhook")
    (hw : newWebhookAction lib spec.webhook = .ok w) :
    newEventStream lib spec =
      .ok { applyDefaults lib.toLower spec with type := "webhook", webhook := some w } := by
  simp [newEventStream, hid, ht, hw]

theorem newEventStream_settled {lib : Lib} {spec s : StreamInfo}
    (h : newEventStream lib spec = .ok s) : s.Settled lib := by
  obtain ⟨hid, (⟨-, w, hw, rfl⟩ | ⟨-, hv, rfl⟩)⟩ := newEventStream_ok h
  · obtain ⟨v, -, hu, hp, rfl⟩ := newWebhookAction_ok hw
    refine ⟨hid, (applyDefaults_limits _ _).congr rfl rfl rfl rfl rfl, .inl ⟨rfl, _, rfl, hu, hp, ?_⟩⟩
    split_ifs <;> simp_all
  · exact ⟨hid, (applyDefaults_limits _ _).congr rfl rfl rfl rfl rfl, .inr ⟨rfl, hv⟩⟩

theorem eta_type {s : StreamInfo} {t : String} (ht : s.type = t) : { s with type := t } = s := by
  subst ht; rfl

theorem StreamInfo.Settled.newEventStream_eq {lib : Lib} {s : StreamInfo} (h : s.Settled lib) :
    newEventStream lib s = .ok s := by
  obtain ⟨hid, hl, (⟨ht, w, hw, hu, hp, hr⟩ | ⟨ht, hv⟩)⟩ := h
  · have hook : newWebhookAction lib s.webhook = .ok w := by
      simp [newWebhookAction, hw, hu, hp, hr]
    simp only [newEventStream, hid, applyDefaults_of_limits lib hl, ht, lib.lower_webhook, hook,
      ← hw, if_true, if_false]
    exact congrArg Except.ok (eta_type ht)
  · simp only [newEventStream, hid, applyDefaults_of_limits lib hl, ht, lib.lower_websocket, hv,
      if_true, if_false]
    exact congrArg Except.ok (eta_type ht)

/-- The shape of a stream spec: its limits, one of the two types, and a valid distribution
mode on a websocket stream's sub-config. -/
structure StreamInfo.Valid (spec : StreamInfo) : Prop where
  limits : spec.Limits
  type : spec.type = "webhook" ∨ spec.type = "websocket"
  webSocket : spec.type = "websocket" → ∀ w, spec.webSocket = some w → ValidMode w.distributionMode

theorem StreamInfo.Settled.valid {lib : Lib} {s : StreamInfo} (h : s.Settled lib) : s.Valid := by
  obtain ⟨-, hl, (⟨ht, -⟩ | ⟨ht, hv⟩)⟩ := h
  · exact ⟨hl, .inl ht, fun hw => absurd (ht.symm.trans hw) (by decide)⟩
  · refine ⟨hl, .inr ht, fun _ w hw => validateWebSocket_eq_none.mp ?_⟩
    simpa [hw] using hv

def UpdateResult.spec? : UpdateResult → Option StreamInfo
  | .ok s => some s
  | .rejected _ s => some s
  | .panicked => none

@[simp] theorem UpdateResult.spec?_ok (s : StreamInfo) : (UpdateResult.ok s).spec? = some s := rfl

@[simp] theorem UpdateResult.spec?_rejected (e : Err) (s : StreamInfo) :
    (UpdateResult.rejected e s).spec? = some s := rfl

/-- An update result keeps the current spec's settledness, type and id. -/
def Keeps (lib : Lib) (cur : StreamInfo) (r : UpdateResult) : Prop :=
  ∀ s, r.spec? = some s → s.Settled lib ∧ s.type = cur.type ∧ s.id = cur.id

theorem keeps_self {lib : Lib} {cur : StreamInfo} (h : cur.Settled lib) (e : Err) :
    Keeps lib cur (.ok cur) ∧ Keeps lib cur (.rejected e cur) := by
  constructor <;> rintro s ⟨⟩ <;> exact ⟨h, rfl, rfl⟩

theorem updateWebhook_keeps {lib : Lib} {cur : StreamInfo} (h : cur.Settled lib)
    (w : Option WebhookActionInfo) : Keeps lib cur (updateWebhook lib cur w) := by
  cases w with
  | none => exact (keeps_self h .storeFailed).1
  | some w =>
    simp only [updateWebhook]
    split
    · exact (keeps_self h .storeFailed).1
    split
    · exact (keeps_self h _).2
    split
    · exact (keeps_self h _).2
    rename_i ht hu hp
    split
    · rintro s ⟨⟩
    · rintro s ⟨⟩
      simp only [Bool.not_eq_eq_eq_not, Bool.not_true, Bool.not_eq_false] at hp
      refine ⟨⟨h.id, h.limits.congr rfl rfl rfl rfl rfl, .inl ⟨not_not.mp ht, _, rfl, hu, hp, ?_⟩⟩,
        rfl, rfl⟩
      show (if w.requestTimeoutSec = 0 then 120 else w.requestTimeoutSec) ≠ 0
      split <;> omega

theorem updateWebSocket_keeps {lib : Lib} {cur : StreamInfo} (h : cur.Settled lib)
    (w : Option WebSocketActionInfo) : Keeps lib cur (updateWebSocket cur w) := by
  cases w with
  | none => exact (keeps_self h .storeFailed).1
  | some w =>
    simp only [updateWebSocket]
    split
    · exact (keeps_self h .storeFailed).1
    rename_i ht
    have htw : cur.type = "websocket" := not_not.mp ht
    have ws := h.action.resolve_left (fun hw => absurd (htw.symm.trans hw.1) (by decide))
    split
    · rintro s ⟨⟩
    · rename_i c hc
      have hv : validateWebSocket c = none := by simpa [hc] using ws.2
      split <;> rintro s ⟨⟩
      · exact ⟨⟨h.id, h.limits.congr rfl rfl rfl rfl rfl, .inr ⟨ws.1, hv⟩⟩, rfl, rfl⟩
      · rename_i hw
        exact ⟨⟨h.id, h.limits.congr rfl rfl rfl rfl rfl, .inr ⟨ws.1, hw⟩⟩, rfl, rfl⟩

theorem updateFields_limits (lower : String → String) {cur : StreamInfo} (h : cur.Limits)
    (req : StreamInfo) : (updateFields lower cur req).Limits where
  batchSize_pos := by
    have := h.batchSize_pos; simp only [updateFields]; split_ifs <;> omega
  batchSize_le := by
    have := h.batchSize_le; simp only [updateFields, maxBatchSize] at *; split_ifs <;> omega
  batchTimeout_pos := by
    have := h.batchTimeout_pos; simp only [updateFields]; split_ifs <;> omega
  blockedRetryDelay_pos := by
    have := h.blockedRetryDelay_pos; simp only [updateFields]; split_ifs <;> omega
  errorHandling := by simp only [updateFields]; split_ifs <;> simp
  timestampCacheSize := h.timestampCacheSize

theorem updateSpec_keeps {lib : Lib} {cur : StreamInfo} (h : cur.Settled lib) (req : StreamInfo) :
    Keeps lib cur (updateSpec lib cur req) := by
  unfold updateSpec
  split_ifs
  · exact (keeps_self h _).2
  have k1 := updateWebhook_keeps h req.webhook
  split
  · rename_i c hc
    obtain ⟨hs, ht, hi⟩ := k1 c (by rw [hc]; rfl)
    have k2 := updateWebSocket_keeps hs req.webSocket
    split
    · rename_i d hd
      obtain ⟨hs', ht', hi'⟩ := k2 d (by rw [hd]; rfl)
      rintro s ⟨⟩
      exact ⟨⟨hs'.id, updateFields_limits _ hs'.limits req, hs'.action⟩, ht'.trans ht, hi'.trans hi⟩
    · intro s hs
      obtain ⟨a, b, c⟩ := k2 s hs
      exact ⟨a, b.trans ht, c.trans hi⟩
  · exact k1

theorem updateWebhook_rejected {lib : Lib} {cur s : StreamInfo} {w : Option WebhookActionInfo}
    {e : Err} (h : updateWebhook lib cur w = .rejected e s) : s = cur := by
  cases w with
  | none => cases h
  | some w =>
    simp only [updateWebhook] at h
    split_ifs at h <;> first | cases h; rfl | (split at h <;> cases h)

theorem validateWebSocket_eq_some {w : WebSocketActionInfo} {e : Err}
    (h : validateWebSocket w = some e) : e = .eventStreamsInvalidDistributionMode w.distributionMode := by
  unfold validateWebSocket at h
  split at h
  · cases h; rfl
  · cases h

theorem updateWebSocket_rejected {cur s : StreamInfo} {w : Option WebSocketActionInfo} {e : Err}
    (h : updateWebSocket cur w = .rejected e s) : ∃ mode, e = .eventStreamsInvalidDistributionMode mode := by
  cases w with
  | none => cases h
  | some w =>
    simp only [updateWebSocket] at h
    split at h
    · cases h
    · split at h
      · cases h
      · split at h
        · rename_i v
          cases h
          exact ⟨_, validateWebSocket_eq_some v⟩
        · cases h

theorem updateSpec_rejected {lib : Lib} {cur req s : StreamInfo} {e : Err}
    (h : updateSpec lib cur req = .rejected e s)
    (mode : ∀ m, e ≠ .eventStreamsInvalidDistributionMode m) : s = cur := by
  unfold updateSpec at h
  split_ifs at h
  · cases h; rfl
  · split at h
    · split at h
      · cases h
      · obtain ⟨m, rfl⟩ := updateWebSocket_rejected h
        exact absurd rfl (mode m)
    · exact updateWebhook_rejected h

theorem updateWebhook_suspended {lib : Lib} {cur s : StreamInfo} {w : Option WebhookActionInfo}
    (h : (updateWebhook lib cur w).spec? = some s) : s.suspended = cur.suspended := by
  cases w with
  | none => cases h; rfl
  | some w =>
    simp only [updateWebhook] at h
    repeat' split at h
    all_goals cases h
    all_goals rfl

theorem updateWebSocket_suspended {cur s : StreamInfo} {w : Option WebSocketActionInfo}
    (h : (updateWebSocket cur w).spec? = some s) : s.suspended = cur.suspended := by
  cases w with
  | none => cases h; rfl
  | some w =>
    simp only [updateWebSocket] at h
    repeat' split at h
    all_goals cases h
    all_goals rfl

theorem updateSpec_suspended {lib : Lib} {cur req s : StreamInfo}
    (h : (updateSpec lib cur req).spec? = some s) : s.suspended = cur.suspended := by
  unfold updateSpec at h
  split_ifs at h
  · cases h; rfl
  split at h
  · rename_i c hc
    have k1 := updateWebhook_suspended (s := c) (by rw [hc]; rfl)
    split at h
    · rename_i d hd
      cases h
      exact (updateWebSocket_suspended (s := d) (by rw [hd]; rfl)).trans k1
    · exact (updateWebSocket_suspended h).trans k1
  · exact updateWebhook_suspended h

theorem StreamInfo.Settled.suspended {lib : Lib} {s : StreamInfo} (h : s.Settled lib) (b : Bool) :
    ({ s with suspended := b } : StreamInfo).Settled lib :=
  ⟨h.id, h.limits.congr rfl rfl rfl rfl rfl, h.action⟩

end FabconnectEvents
