import Mathlib
import GeoWorld.Gateway.Pump
import GeoWorld.Library.Binary64

/-!
The divisions of the tick schedule. Configurations stand here in the number types of the
source, as their `validate` functions see them; a division is `none` when its divisor is
zero. The validators make the length of a tick positive, but the keyframe interval counted
in ticks is itself a quotient, and is zero when a tick is longer than the interval.
-/

namespace GeoWorld.Gateway

open WorldModel Library Projection

/-- `projection::ProjectionConfig`; the origin is the bits of its three doubles. -/
structure ProjectionSettings where
  dataFrequencyHz : UInt32 := 20
  slowFrequencyHz : UInt32 := 2
  keyframeIntervalSeconds : UInt32 := 5
  snapshotHistoryFrames : UInt64 := 256
  maxUnackedFrames : UInt64 := 256
  maxUnackedBytes : UInt64 := 16 * 1024 * 1024
  maxFeatureIdsPerEpoch : UInt32 := 1000000
  tickDtMicroseconds : Int64 := 20000
  maxUpdatesPerFrame : UInt64 := 0xFFFFFFFFFFFFFFFF
  enuOrigin : PositionEcef := ⟨0, 0, 0⟩
  deriving DecidableEq

/-- `gateway::GatewayConfig`; the extent is the bits of a double. -/
structure GatewaySettings where
  maxStateQueueBytes : UInt64 := 4 * 1024 * 1024
  maxReliableQueueBytes : UInt64 := 1024 * 1024
  ackTimeoutSeconds : UInt32 := 10
  heartbeatIntervalSeconds : UInt32 := 1
  streamTicketTtlSeconds : UInt32 := 30
  commandRatePerSession : UInt32 := 100
  commandLeadTicks : UInt64 := 1
  maxCommandLeadTicks : UInt64 := 5
  gatewayIoThreads : UInt32 := 2
  encodingWorkers : UInt32 := 4
  maxSessions : UInt64 := 1024
  maxAoiExtentMeters : UInt64 := 0x40F86A0000000000
  deriving DecidableEq

/-- A field check of `validate`: the diagnostic of the first one that fails is the answer. -/
def require (holds : Bool) (diagnostic : String) : Except String Unit :=
  if holds then .ok () else .error diagnostic

def ProjectionSettings.validate (config : ProjectionSettings) : Except String Unit := do
  require (config.dataFrequencyHz != 0) "projection: data_frequency_hz must be positive"
  require (config.slowFrequencyHz != 0) "projection: slow_frequency_hz must be positive"
  require (decide (config.slowFrequencyHz ≤ config.dataFrequencyHz))
    "projection: slow_frequency_hz must not exceed data_frequency_hz"
  require (config.keyframeIntervalSeconds != 0)
    "projection: keyframe_interval_seconds must be positive"
  require (config.snapshotHistoryFrames != 0)
    "projection: snapshot_history_frames must be positive"
  require (config.maxUnackedFrames != 0) "projection: max_unacked_frames must be positive"
  require (config.maxUnackedBytes != 0) "projection: max_unacked_bytes must be positive"
  require (config.maxFeatureIdsPerEpoch != 0)
    "projection: max_feature_ids_per_epoch must be positive"
  require (decide (0 < config.tickDtMicroseconds))
    "projection: tick_dt_microseconds must be positive"
  require (!(Binary64.equal config.enuOrigin.x 0 && Binary64.equal config.enuOrigin.y 0 &&
    Binary64.equal config.enuOrigin.z 0)) "projection: enu_origin is not configured"

def GatewaySettings.validate (config : GatewaySettings) : Except String Unit := do
  require (config.maxStateQueueBytes != 0) "gateway: max_state_queue_bytes must be positive"
  require (config.maxReliableQueueBytes != 0)
    "gateway: max_reliable_queue_bytes must be positive"
  require (config.ackTimeoutSeconds != 0) "gateway: ack_timeout_seconds must be positive"
  require (config.heartbeatIntervalSeconds != 0)
    "gateway: heartbeat_interval_seconds must be positive"
  require (config.streamTicketTtlSeconds != 0)
    "gateway: stream_ticket_ttl_seconds must be positive"
  require (config.commandRatePerSession != 0)
    "gateway: command_rate_per_session must be positive"
  require (config.commandLeadTicks != 0) "gateway: command_lead_ticks must be positive"
  require (!decide (config.maxCommandLeadTicks < config.commandLeadTicks))
    "gateway: max_command_lead_ticks must be at least command_lead_ticks"
  require (config.gatewayIoThreads != 0) "gateway: gateway_io_threads must be positive"
  require (config.encodingWorkers != 0) "gateway: encoding_workers must be positive"
  require (config.maxSessions != 0) "gateway: max_sessions must be positive"
  require (!Binary64.lessEqual config.maxAoiExtentMeters 0)
    "gateway: max_aoi_extent_meters must be positive"

/-- The configuration an engine works with. -/
def ProjectionSettings.config (settings : ProjectionSettings) (geometry : Geometry) :
    ProjectionConfig where
  dataFrequencyHz := settings.dataFrequencyHz.toNat
  slowFrequencyHz := settings.slowFrequencyHz.toNat
  keyframeIntervalSeconds := settings.keyframeIntervalSeconds.toNat
  snapshotHistoryFrames := settings.snapshotHistoryFrames.toNat
  maxUnackedFrames := settings.maxUnackedFrames.toNat
  maxUnackedBytes := settings.maxUnackedBytes.toNat
  maxFeatureIdsPerEpoch := settings.maxFeatureIdsPerEpoch.toNat
  tickDtMicroseconds := settings.tickDtMicroseconds.toUInt64.toNat
  maxUpdatesPerFrame := settings.maxUpdatesPerFrame.toNat
  geometry := geometry

section Divisions

/-- An unsigned division; `none` is a zero divisor. -/
def divide (value divisor : UInt64) : Option UInt64 :=
  if divisor = 0 then none else some (value / divisor)

def remainder (value divisor : UInt64) : Option UInt64 :=
  if divisor = 0 then none else some (value % divisor)

namespace ProjectionSettings

variable (settings : ProjectionSettings)

def keyframeIntervalTicks : Option UInt64 :=
  divide (settings.keyframeIntervalSeconds.toUInt64 * 1000000)
    settings.tickDtMicroseconds.toUInt64

def keyframeDue (connection : ConnectionProjection) (tick : UInt64) : Option Bool := do
  let interval ← settings.keyframeIntervalTicks
  if connection.nextKeyframeTick ≠ 0 then
    return decide (tick ≥ connection.nextKeyframeTick)
  let phase ← remainder (connectionIdHash connection.id) interval
  return decide (tick + phase ≥ connection.lastKeyframeTick + interval)

/-- The tick `build_frame` sets for the next periodic keyframe. -/
def nextKeyframeTick (connection : ConnectionProjection) (forced : Bool) (tick : UInt64) :
    Option UInt64 := do
  let interval ← settings.keyframeIntervalTicks
  let phase ← if forced then remainder (connectionIdHash connection.id) interval else some 0
  return tick + interval - phase

/-- The divisor of `interval_ticks`: the product of two doubles, a whole number. -/
def intervalDivisor (frequencyHz : UInt32) : ℕ :=
  Binary64.nearest (Binary64.nearest settings.tickDtMicroseconds.toInt.natAbs *
    Binary64.nearest frequencyHz.toNat)

def intervalTicks (geometry : Geometry) (frequencyHz : UInt32) : Option UInt64 :=
  if settings.intervalDivisor frequencyHz = 0 then none
  else some (max 1 (geometry.roundedIntervalTicks frequencyHz.toNat))

/-- The frequency the update loop asks `interval_ticks` about. -/
def updateFrequencyHz : FrequencyClass → UInt32
  | .slow => settings.slowFrequencyHz
  | _ => settings.dataFrequencyHz

/-- The timeout and the heartbeat interval `pump` computes. -/
def pumpTicks (gateway : GatewaySettings) : Option (UInt64 × UInt64) := do
  let timeout ← divide (gateway.ackTimeoutSeconds.toUInt64 * 1000000)
    settings.tickDtMicroseconds.toUInt64
  let heartbeat ← divide (gateway.heartbeatIntervalSeconds.toUInt64 * 1000000)
    settings.tickDtMicroseconds.toUInt64
  return (timeout, heartbeat)

end ProjectionSettings

end Divisions

section Zero

/-- No division or remainder of the schedule has a zero divisor, for any connection, tick and
frequency class. -/
structure DividesSafely (settings : ProjectionSettings) (gateway : GatewaySettings)
    (geometry : Geometry) : Prop where
  interval : settings.keyframeIntervalTicks.isSome
  due : ∀ connection tick, (settings.keyframeDue connection tick).isSome
  next : ∀ connection forced tick, (settings.nextKeyframeTick connection forced tick).isSome
  rate : ∀ frequency,
    (settings.intervalTicks geometry (settings.updateFrequencyHz frequency)).isSome
  pump : (settings.pumpTicks gateway).isSome

theorem divide_eq {value divisor : UInt64} (nonzero : divisor ≠ 0) :
    divide value divisor = some (value / divisor) := if_neg nonzero

theorem remainder_isSome {value divisor : UInt64} :
    (remainder value divisor).isSome ↔ divisor ≠ 0 := by
  unfold remainder
  split <;> simp_all

theorem require_bind {α : Type} {holds : Bool} {diagnostic : String}
    {next : Unit → Except String α} {result : α} :
    (require holds diagnostic >>= next) = .ok result ↔ holds ∧ next () = .ok result := by
  cases holds <;> simp [require, bind, Except.bind]

theorem require_ok {holds : Bool} {diagnostic : String} :
    require holds diagnostic = .ok () ↔ holds := by
  cases holds <;> simp [require]

namespace ProjectionSettings

variable {settings : ProjectionSettings}

/-- What the schedule needs of an accepted configuration. -/
theorem validate_ok (valid : settings.validate = .ok ()) :
    settings.dataFrequencyHz ≠ 0 ∧ settings.slowFrequencyHz ≠ 0 ∧
      0 < settings.tickDtMicroseconds.toInt := by
  simp only [validate, require_bind, require_ok, bne_iff_ne, ne_eq, decide_eq_true_eq] at valid
  obtain ⟨data, slow, -, -, -, -, -, -, dt, -⟩ := valid
  exact ⟨data, slow, Int64.lt_iff_toInt_lt.mp dt⟩

theorem dt_value (positive : 0 < settings.tickDtMicroseconds.toInt) :
    (settings.tickDtMicroseconds.toUInt64.toNat : ℤ) = settings.tickDtMicroseconds.toInt := by
  have nonnegative : 0 ≤ settings.tickDtMicroseconds := Int64.le_iff_toInt_le.mpr positive.le
  rw [← Int64.toNat_toBitVec, Int64.toNat_toBitVec_of_le nonnegative]
  exact Int.toNat_of_nonneg positive.le

theorem seconds_value (seconds : UInt32) :
    (seconds.toUInt64 * 1000000).toNat = seconds.toNat * 1000000 := by
  have bound := seconds.toNat_lt
  rw [UInt64.toNat_mul, UInt32.toNat_toUInt64]
  exact Nat.mod_eq_of_lt (by change seconds.toNat * 1000000 < 2 ^ 64; omega)

theorem dt_nonzero (positive : 0 < settings.tickDtMicroseconds.toInt) :
    settings.tickDtMicroseconds.toUInt64 ≠ 0 := by
  intro zero
  have value := dt_value positive
  rw [zero] at value
  change (0 : ℤ) = _ at value
  omega

/-- The keyframe interval in ticks is zero just when a tick is longer than it. -/
theorem keyframeIntervalTicks_eq (positive : 0 < settings.tickDtMicroseconds.toInt) :
    ∃ interval, settings.keyframeIntervalTicks = some interval ∧
      (interval ≠ 0 ↔
        settings.tickDtMicroseconds.toInt ≤ settings.keyframeIntervalSeconds.toNat * 1000000) := by
  refine ⟨_, divide_eq (dt_nonzero positive), ?_⟩
  rw [ne_eq, ← UInt64.toNat_inj, UInt64.toNat_div, seconds_value]
  have value := dt_value positive
  change ¬ _ / _ = 0 ↔ _
  rw [Nat.div_eq_zero_iff]
  omega

theorem intervalDivisor_pos (positive : 0 < settings.tickDtMicroseconds.toInt)
    {frequencyHz : UInt32} (nonzero : frequencyHz ≠ 0) :
    0 < settings.intervalDivisor frequencyHz := by
  have frequency : 0 < frequencyHz.toNat :=
    Nat.pos_of_ne_zero fun zero => nonzero (UInt32.toNat_inj.mp zero)
  refine Binary64.nearest_pos (Nat.mul_pos (Binary64.nearest_pos ?_)
    (Binary64.nearest_pos frequency))
  omega

end ProjectionSettings

/-- Where the divisions are defined they are the ones of the engine and the pump. -/
theorem divisions_agree {settings : ProjectionSettings} {geometry : Geometry}
    {engine : ProjectionEngine} (configured : engine.config = settings.config geometry) :
    (∀ interval, settings.keyframeIntervalTicks = some interval →
      engine.keyframeIntervalTicks = interval) ∧
    (∀ connection tick due, settings.keyframeDue connection tick = some due →
      engine.keyframeDue connection tick = due) ∧
    (∀ connection visible forced tick next,
      settings.nextKeyframeTick connection forced tick = some next →
      (engine.keyframeConnection connection visible forced tick).nextKeyframeTick = next) ∧
    ∀ (core : PumpCore) (gateway : GatewaySettings) (ticks : UInt64 × UInt64),
      core.engine = engine → settings.pumpTicks gateway = some ticks →
      ticks = (core.ticksOf gateway.ackTimeoutSeconds.toUInt64,
        core.ticksOf gateway.heartbeatIntervalSeconds.toUInt64) := by
  have intervals : ∀ interval, settings.keyframeIntervalTicks = some interval →
      engine.keyframeIntervalTicks = interval := by
    intro interval found
    rw [ProjectionSettings.keyframeIntervalTicks, divide] at found
    split at found
    · cases found
    · obtain rfl := Option.some.inj found
      rw [ProjectionEngine.keyframeIntervalTicks, configured, ← UInt64.toNat_inj,
        UInt64.toNat_div, ProjectionSettings.seconds_value, UInt64.toNat_ofNat']
      refine Nat.mod_eq_of_lt ((Nat.div_le_self _ _).trans_lt ?_)
      have bound := settings.keyframeIntervalSeconds.toNat_lt
      change settings.keyframeIntervalSeconds.toNat * 1000000 < 2 ^ 64
      omega
  have phases : ∀ (value divisor rest : UInt64), remainder value divisor = some rest →
      rest = value % divisor := by
    intro value divisor rest found
    rw [remainder] at found
    split at found
    · cases found
    · exact (Option.some.inj found).symm
  refine ⟨intervals, fun connection tick due found => ?_,
    fun connection visible forced tick next found => ?_, fun core gateway ticks same found => ?_⟩
  · obtain ⟨interval, divided, found⟩ := Option.bind_eq_some_iff.mp found
    rw [ProjectionEngine.keyframeDue, intervals interval divided]
    split at found
    · rename_i scheduled
      rw [if_pos scheduled]
      exact Option.some.inj found
    · rename_i scheduled
      obtain ⟨phase, divided, found⟩ := Option.bind_eq_some_iff.mp found
      rw [if_neg scheduled, ← phases _ _ _ divided]
      exact Option.some.inj found
  · obtain ⟨interval, divided, found⟩ := Option.bind_eq_some_iff.mp found
    change tick + engine.keyframeIntervalTicks -
      (if forced then connectionIdHash connection.id % engine.keyframeIntervalTicks else 0) = next
    rw [intervals interval divided]
    cases forced with
    | true =>
      obtain ⟨phase, rest, found⟩ := Option.bind_eq_some_iff.mp found
      rw [← Option.some.inj found, phases _ _ _ rest]
      rfl
    | false => exact Option.some.inj found
  · obtain ⟨timeout, first, found⟩ := Option.bind_eq_some_iff.mp found
    obtain ⟨heartbeat, second, found⟩ := Option.bind_eq_some_iff.mp found
    obtain rfl := Option.some.inj found
    have dt : UInt64.ofNat core.engine.config.tickDtMicroseconds =
        settings.tickDtMicroseconds.toUInt64 := by
      rw [same, configured]
      exact UInt64.ofNat_toNat
    rw [divide] at first second
    split at first
    · cases first
    · rename_i nonzero
      rw [if_neg nonzero] at second
      rw [PumpCore.ticksOf, PumpCore.ticksOf, dt, Option.some.inj first, Option.some.inj second]

/-- Accepted configurations divide safely just when a keyframe interval is at least a tick;
nothing is asked of the gateway, whose divisors are the length of a tick. -/
theorem dividesSafely_iff {settings : ProjectionSettings} (gateway : GatewaySettings)
    (geometry : Geometry) (valid : settings.validate = .ok ()) :
    DividesSafely settings gateway geometry ↔
      settings.tickDtMicroseconds.toInt ≤
        settings.keyframeIntervalSeconds.toNat * 1000000 := by
  obtain ⟨data, slow, positive⟩ := ProjectionSettings.validate_ok valid
  obtain ⟨interval, found, nonzero⟩ := ProjectionSettings.keyframeIntervalTicks_eq positive
  rw [← nonzero]
  constructor
  · intro safe
    have due := safe.due { id := 1 } 0
    simp only [ProjectionSettings.keyframeDue, found, Option.bind_eq_bind, Option.bind_some] at due
    rw [if_neg (by simp)] at due
    exact remainder_isSome.mp (Option.isSome_of_isSome_bind due)
  · intro ticks
    have phase (value : UInt64) : ∃ rest, remainder value interval = some rest :=
      Option.isSome_iff_exists.mp (remainder_isSome.mpr ticks)
    refine ⟨Option.isSome_iff_exists.mpr ⟨interval, found⟩, fun connection tick => ?_,
      fun connection forced tick => ?_, fun frequency => ?_, ?_⟩
    · obtain ⟨rest, same⟩ := phase (connectionIdHash connection.id)
      simp only [ProjectionSettings.keyframeDue, found, same, Option.bind_eq_bind,
        Option.bind_some]
      split <;> rfl
    · obtain ⟨rest, same⟩ := phase (connectionIdHash connection.id)
      simp only [ProjectionSettings.nextKeyframeTick, found, same, Option.bind_eq_bind,
        Option.bind_some]
      split <;> rfl
    · have frequent : settings.updateFrequencyHz frequency ≠ 0 := by cases frequency <;> assumption
      rw [ProjectionSettings.intervalTicks,
        if_neg (ProjectionSettings.intervalDivisor_pos positive frequent).ne']
      rfl
    · have dt := ProjectionSettings.dt_nonzero positive
      simp only [ProjectionSettings.pumpTicks, divide_eq dt, Option.bind_eq_bind,
        Option.bind_some]
      rfl

/-- Ticks of two seconds and a keyframe every second. -/
def slowTicks : ProjectionSettings :=
  { keyframeIntervalSeconds := 1, tickDtMicroseconds := 2000000,
    enuOrigin := ⟨0x3FF0000000000000, 0, 0⟩ }

theorem slowTicks_unsafe : ¬ DividesSafely slowTicks {} originGeometry := by
  rw [dividesSafely_iff {} originGeometry (by decide +kernel)]
  decide

theorem accepted_config_divides_by_zero :
    ¬ ∀ (settings : ProjectionSettings) (gateway : GatewaySettings) (geometry : Geometry),
      settings.validate = .ok () → gateway.validate = .ok () →
      DividesSafely settings gateway geometry := by
  intro safe
  have due := (safe slowTicks {} originGeometry (by decide +kernel) (by decide +kernel)).due
    { id := 1 } 0
  exact absurd due (by decide +kernel)

end Zero

end GeoWorld.Gateway
