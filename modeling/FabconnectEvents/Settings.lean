import FabconnectEvents.StreamInfo
import Mathlib.Algebra.Group.Int

/-!
What the numeric and enumerated settings of a stream become: the patch `update` applies to them,
set against the normalisation `newEventStream` gives a new spec, and the `time.Duration` values
the goroutines compute from them. A `time.Duration` is an int64 count of nanoseconds; Go's
conversion of a uint64 setting and its product with a unit wrap modulo 2^64.
-/
namespace FabconnectEvents

theorem updateWebhook_ok {lib : Lib} {cur c : StreamInfo} {w : Option WebhookActionInfo}
    (h : updateWebhook lib cur w = .ok c) : c = { cur with webhook := c.webhook } := by
  cases w with
  | none => cases h; rfl
  | some w =>
    simp only [updateWebhook] at h
    repeat' split at h
    all_goals cases h
    all_goals rfl

theorem updateWebSocket_ok {cur c : StreamInfo} {w : Option WebSocketActionInfo}
    (h : updateWebSocket cur w = .ok c) : c = { cur with webSocket := c.webSocket } := by
  cases w with
  | none => cases h; rfl
  | some w =>
    simp only [updateWebSocket] at h
    repeat' split at h
    all_goals cases h
    all_goals rfl

theorem updateSpec_ok {lib : Lib} {cur req new : StreamInfo} (h : updateSpec lib cur req = .ok new) :
    ∃ c : StreamInfo, new = updateFields lib.toLower c req ∧
      c = { cur with webhook := c.webhook, webSocket := c.webSocket } := by
  unfold updateSpec at h
  split_ifs at h
  cases h₁ : updateWebhook lib cur req.webhook with
  | ok c₁ =>
    cases h₂ : updateWebSocket c₁ req.webSocket with
    | ok c₂ =>
      simp only [h₁, h₂, UpdateResult.ok.injEq] at h
      refine ⟨c₂, h.symm, ?_⟩
      rw [updateWebSocket_ok h₂, updateWebhook_ok h₁]
    | _ => simp [h₁, h₂] at h
  | _ => simp [h₁] at h

/-- What `update` makes of each setting: one left at its zero value keeps its value, and one
supplied takes the value `newEventStream` would normalise it to, except that a batch size of
`MaxBatchSize` or more is ignored where `newEventStream` clamps it. The error handling is
normalised whether it is supplied or not, so an empty one does not keep the current value. -/
structure Patched (lower : String → String) (cur req new : StreamInfo) : Prop where
  batchTimeoutMS : new.batchTimeoutMS =
    if req.batchTimeoutMS = 0 then cur.batchTimeoutMS else (applyDefaults lower req).batchTimeoutMS
  blockedRetryDelaySec : new.blockedRetryDelaySec =
    if req.blockedRetryDelaySec = 0 then cur.blockedRetryDelaySec
    else (applyDefaults lower req).blockedRetryDelaySec
  name : new.name = if req.name = "" then cur.name else (applyDefaults lower req).name
  batchSize_kept : req.batchSize = 0 ∨ maxBatchSize ≤ req.batchSize → new.batchSize = cur.batchSize
  batchSize_set : 0 < req.batchSize → req.batchSize < maxBatchSize →
    new.batchSize = (applyDefaults lower req).batchSize
  errorHandling : new.errorHandling = (applyDefaults lower req).errorHandling

theorem update_patches_settings {lib : Lib} {cur req new : StreamInfo}
    (accepted : updateSpec lib cur req = .ok new) : Patched lib.toLower cur req new := by
  obtain ⟨c, rfl, hc⟩ := updateSpec_ok accepted
  have bs : c.batchSize = cur.batchSize := by rw [hc]
  have bt : c.batchTimeoutMS = cur.batchTimeoutMS := by rw [hc]
  have br : c.blockedRetryDelaySec = cur.blockedRetryDelaySec := by rw [hc]
  have nm : c.name = cur.name := by rw [hc]
  clear hc accepted
  refine ⟨?_, ?_, ?_, fun h => ?_, fun h0 h1 => ?_, rfl⟩ <;>
    simp only [updateFields, applyDefaults, bs, bt, br, nm, maxBatchSize] at *
  · split_ifs <;> omega
  · split_ifs <;> omega
  · split_ifs <;> simp_all
  · split_ifs <;> omega
  · split_ifs <;> omega

def tenBatchSpec : StreamInfo :=
  { createdISO8601 := "t", id := "es-u", name := "", path := "/eventstreams/es-u",
    suspended := false, type := "websocket", batchSize := 10, batchTimeoutMS := 1,
    errorHandling := "block", retryTimeoutSec := 0, blockedRetryDelaySec := 1, webhook := none,
    webSocket := some ⟨"", ""⟩, timestamps := false, timestampCacheSize := 1 }

def batchSizeRequest (n : Nat) : StreamInfo :=
  { tenBatchSpec with
    type := ""
    webSocket := none
    batchSize := n
    batchTimeoutMS := 0
    blockedRetryDelaySec := 0 }

theorem resized_stream_patched :
    updateSpec Lib.ascii tenBatchSpec (batchSizeRequest 5) = .ok { tenBatchSpec with batchSize := 5 } ∧
      Patched Lib.ascii.toLower tenBatchSpec (batchSizeRequest 5) { tenBatchSpec with batchSize := 5 } :=
  ⟨rfl, update_patches_settings rfl⟩

/-- A batch size of exactly `MaxBatchSize` lies in the range the spec documents, and
`newEventStream` keeps it; `update` ignores it, and the stream keeps batches of ten. -/
theorem max_batch_size_update_ignored :
    newEventStream Lib.ascii { tenBatchSpec with batchSize := 1000 } =
        .ok { tenBatchSpec with batchSize := 1000 } ∧
      (applyDefaults Lib.ascii.toLower (batchSizeRequest 1000)).batchSize = 1000 ∧
      updateSpec Lib.ascii tenBatchSpec (batchSizeRequest 1000) = .ok tenBatchSpec :=
  ⟨rfl, rfl, rfl⟩

/-- Go's int64 arithmetic: a result modulo 2^64, read in `[-2^63, 2^63)`. -/
def wrap64 (x : Int) : Int := (x + 2 ^ 63) % 2 ^ 64 - 2 ^ 63

/-- `time.Millisecond` and `time.Second`, in nanoseconds. -/
def millisecond : Int := 1000000

def second : Int := 1000000000

/-- `time.Duration(v) * unit` for a uint64 setting `v`. -/
def duration (v : Nat) (unit : Int) : Int := wrap64 (wrap64 v * unit)

def batchTimeout (spec : StreamInfo) : Int := duration spec.batchTimeoutMS millisecond

def blockedRetryDelay (spec : StreamInfo) : Int := duration spec.blockedRetryDelaySec second

/-- `endTime` of `performActionWithRetry`, with `time.Time` as a count of nanoseconds. -/
def retryEndTime (spec : StreamInfo) (startTime : Int) : Int :=
  startTime + duration spec.retryTimeoutSec second

theorem wrap64_of_lt (x : Int) (lo : -2 ^ 63 ≤ x) (hi : x < 2 ^ 63) : wrap64 x = x := by
  unfold wrap64; omega

theorem wrap64_lt (x : Int) : wrap64 x < 2 ^ 63 := by
  unfold wrap64; omega

theorem duration_eq_iff (v : Nat) (unit : Int) (hu : 0 < unit) :
    duration v unit = v * unit ↔ v * unit < 2 ^ 63 := by
  constructor
  · intro h
    rw [← h]
    exact wrap64_lt _
  · intro h
    have hv : (v : Int) * 1 ≤ v * unit := Int.mul_le_mul_of_nonneg_left hu (Int.ofNat_nonneg v)
    have hp : 0 ≤ (v : Int) * unit := Int.mul_nonneg (Int.ofNat_nonneg v) (Int.le_of_lt hu)
    rw [duration, wrap64_of_lt v (by omega) (by omega), wrap64_of_lt _ (by omega) h]

/-- Each duration is its setting in nanoseconds exactly when that fits in an int64: a batch
timeout of at most 9223372036854 ms, a blocked-retry delay and a retry timeout of at most
9223372036 s. For those the timeout and the delay are positive and the retry deadline is not
before the start. -/
structure ExactDurations (spec : StreamInfo) (startTime : Int) : Prop where
  timeout_exact : batchTimeout spec = spec.batchTimeoutMS * millisecond ↔ spec.batchTimeoutMS ≤ 9223372036854
  delay_exact : blockedRetryDelay spec = spec.blockedRetryDelaySec * second ↔
    spec.blockedRetryDelaySec ≤ 9223372036
  deadline_exact : retryEndTime spec startTime = startTime + spec.retryTimeoutSec * second ↔
    spec.retryTimeoutSec ≤ 9223372036
  timeout_pos : spec.batchTimeoutMS ≤ 9223372036854 → 0 < batchTimeout spec
  delay_pos : spec.blockedRetryDelaySec ≤ 9223372036 → 0 < blockedRetryDelay spec
  deadline_after : spec.retryTimeoutSec ≤ 9223372036 → startTime ≤ retryEndTime spec startTime

/-- The durations of every spec `newEventStream` and `update` admit: neither bounds the three
uint64 settings, so exactness is a condition on the settings, and positivity only needs the
non-zero values both of them give. -/
theorem configured_durations_exact {spec : StreamInfo} (admitted : spec.Limits) (startTime : Int) :
    ExactDurations spec startTime := by
  have bt := duration_eq_iff spec.batchTimeoutMS millisecond (by decide)
  have br := duration_eq_iff spec.blockedRetryDelaySec second (by decide)
  have rt := duration_eq_iff spec.retryTimeoutSec second (by decide)
  have tpos := admitted.batchTimeout_pos
  have dpos := admitted.blockedRetryDelay_pos
  simp only [millisecond, second] at bt br rt
  constructor <;> simp only [batchTimeout, blockedRetryDelay, retryEndTime, millisecond, second]
  · omega
  · omega
  · omega
  · intro h; rw [bt.mpr (by omega)]; omega
  · intro h; rw [br.mpr (by omega)]; omega
  · intro h; rw [rt.mpr (by omega)]; omega

theorem default_durations_exact :
    (applyDefaults Lib.ascii.toLower tenBatchSpec).Limits ∧
      ExactDurations (applyDefaults Lib.ascii.toLower tenBatchSpec) 0 :=
  ⟨applyDefaults_limits _ _, configured_durations_exact (applyDefaults_limits _ _) 0⟩

/-- A batch timeout of 9223372036855 ms passes `newEventStream`, and the timeout
`batchDispatcher` computes from it wraps below zero. -/
theorem long_batch_timeout_wraps :
    newEventStream Lib.ascii { tenBatchSpec with batchTimeoutMS := 9223372036855 } =
        .ok { tenBatchSpec with batchTimeoutMS := 9223372036855 } ∧
      batchTimeout { tenBatchSpec with batchTimeoutMS := 9223372036855 } < 0 :=
  ⟨rfl, by decide⟩

end FabconnectEvents
