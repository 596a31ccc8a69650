import Mathlib.Tactic.Common

/-!
# The engine's configuration

`validateEngineConfig` checks a configuration, `makeEffectiveEngineOptions` fills in the
defaults for what it leaves open (0) and makes the limits fit each other.  The number of
processors, which the standard library reports, is a parameter.

What the rest relies on is one fact about the result: a payload of the greatest length the
framer admits, with its length field, fits the receive ring.
-/

namespace HyperNet.Core

inductive LogLevel where
  | Trace
  | Debug
  | Info
  | Warn
  | Error
  | Fatal
deriving DecidableEq, Repr

structure EngineConfig where
  listenAddress : String := "0.0.0.0"
  listenPort : UInt16 := 9000
  listenBacklog : UInt32 := 0
  workerThreads : UInt32 := 0
  reusePort : Bool := true
  logFilePath : String := ""
  logLevel : LogLevel := .Info
  metricsHttpAddress : String := "127.0.0.1"
  metricsHttpPort : UInt16 := 0
  idleTimeoutMs : UInt32 := 60000
  heartbeatIntervalMs : UInt32 := 15000
  shutdownDrainTimeoutMs : UInt32 := 0
  shutdownPollIntervalMs : UInt32 := 0
  tickResolutionMs : UInt32 := 0
  timerSlots : UInt64 := 0
  maxEpollEvents : UInt32 := 0
  bufferBlockSize : UInt64 := 0
  bufferBlockCount : UInt64 := 0
  recvRingCapacity : UInt64 := 0
  sendRingCapacity : UInt64 := 0
  maxPayloadLen : UInt32 := 0

def effectiveWorkerThreads (hardwareConcurrency : UInt32) (config : EngineConfig) : UInt32 :=
  if config.workerThreads ≠ 0 then config.workerThreads
  else if hardwareConcurrency = 0 then 1 else hardwareConcurrency

/-- `throwConfigError` unless the condition holds. -/
def require (condition : Prop) [Decidable condition] (detail : String) : Except String Unit :=
  if condition then .ok () else .error ("[EngineConfig] " ++ detail)

/-- The check of a field whose 0 stands for the default. -/
def atLeast (n : Nat) (value : Nat) (detail : String) : Except String Unit :=
  require (¬ (value ≠ 0 ∧ value < n)) detail

def validateEngineConfig (hardwareConcurrency : UInt32) (config : EngineConfig) :
    Except String Unit := do
  require (¬ (config.listenAddress = "" ∧ config.listenPort ≠ 0))
    "listenAddress must not be empty when listenPort != 0"
  require (config.listenPort.toNat ≤ 65535) "listenPort must be in [0, 65535]"
  require (¬ (config.metricsHttpPort ≠ 0 ∧ config.metricsHttpPort = config.listenPort ∧
    config.listenPort ≠ 0)) "metricsHttpPort must not be equal to listenPort"
  atLeast 1 config.workerThreads.toNat "workerThreads must be >= 1 when specified"
  atLeast 1 config.tickResolutionMs.toNat "tickResolutionMs must be >= 1 when specified"
  atLeast 1 config.timerSlots.toNat "timerSlots must be >= 1 when specified"
  atLeast 1 config.maxEpollEvents.toNat "maxEpollEvents must be >= 1 when specified"
  atLeast 256 config.bufferBlockSize.toNat
    "bufferBlockSize is too small (min 256 bytes when specified)"
  atLeast 1 config.bufferBlockCount.toNat "bufferBlockCount must be >= 1 when specified)"
  atLeast 1024 config.recvRingCapacity.toNat
    "recvRingCapacity is too small (min 1024 bytes when specified)"
  atLeast 1024 config.sendRingCapacity.toNat
    "sendRingCapacity is too small (min 1024 bytes when specified)"
  atLeast 1 config.maxPayloadLen.toNat "maxPayloadLen must be >= 1 when specified"
  require (¬ (config.listenPort ≠ 0 ∧ 1 < effectiveWorkerThreads hardwareConcurrency config ∧
    config.reusePort = false))
    "reusePort must be enabled when effective workerThreads > 1 (SO_REUSEPORT required)"

/-! ## Effective options -/

namespace Defaults

def kTickResolutionMs : UInt32 := 10
def kTimerSlots : UInt64 := 1024
def kMaxEpollEvents : Int32 := 64
def kBufferBlockSize : UInt64 := 4096
def kBufferBlockCount : UInt64 := 1024
def kRecvRingCapacity : UInt64 := 64 * 1024
def kSendRingCapacity : UInt64 := 64 * 1024
def kMaxPayloadLen : UInt32 := 1024 * 1024
def kListenBacklog : Int32 := 128

end Defaults

open Defaults

/-- The fields of `WorkerOptions` and the structures in it that are derived from the
configuration. -/
structure WorkerOptions where
  tickResolution : Int64
  slotCount : UInt64
  blockSize : UInt64
  blockCount : UInt64
  maxEpollEvents : Int32
  recvCapacity : UInt64
  sendCapacity : UInt64
  maxPayloadLen : UInt32

structure EngineOptions where
  workerCount : UInt32
  listenBacklog : Int32
  workerDefaults : WorkerOptions
  /-- In milliseconds. -/
  shutdownDrainTimeout : UInt32
  /-- In milliseconds. -/
  shutdownPollInterval : UInt32

/-- A field of the options: the configured value, or the default where that is 0, and the
default again should the result be 0. -/
def override {α : Type} [OfNat α 0] [DecidableEq α] (given dflt : α) : α :=
  let v := if given ≠ 0 then given else dflt
  if v = 0 then dflt else v

/-- A count clamped to the range of `int`. -/
def clampToInt (v : UInt32) : Int32 := (if 2147483647 < v then 2147483647 else v).toInt32

def makeEffectiveEngineOptions (hardwareConcurrency : UInt32) (cfg : EngineConfig) :
    EngineOptions :=
  let workerCount := effectiveWorkerThreads hardwareConcurrency cfg
  let tickResolution : Int64 := (if cfg.tickResolutionMs ≠ 0 then cfg.tickResolutionMs
    else kTickResolutionMs).toUInt64.toInt64
  let maxEpollEvents : Int32 :=
    if cfg.maxEpollEvents ≠ 0 then clampToInt cfg.maxEpollEvents else kMaxEpollEvents
  let recvCap := override cfg.recvRingCapacity kRecvRingCapacity
  let maxPayloadLen := override cfg.maxPayloadLen kMaxPayloadLen
  let cap32 : UInt32 := if 0xFFFFFFFF < recvCap - 4 then 0xFFFFFFFF else (recvCap - 4).toUInt32
  { workerCount := if workerCount = 0 then 1 else workerCount
    listenBacklog :=
      if cfg.listenBacklog ≠ 0 then clampToInt cfg.listenBacklog else kListenBacklog
    workerDefaults :=
      { tickResolution :=
          if tickResolution ≤ 0 then kTickResolutionMs.toUInt64.toInt64 else tickResolution
        slotCount := override cfg.timerSlots kTimerSlots
        blockSize := override cfg.bufferBlockSize kBufferBlockSize
        blockCount := override cfg.bufferBlockCount kBufferBlockCount
        maxEpollEvents := if maxEpollEvents ≤ 0 then kMaxEpollEvents else maxEpollEvents
        recvCapacity := recvCap
        sendCapacity := override cfg.sendRingCapacity kSendRingCapacity
        maxPayloadLen := if 4 < recvCap then min maxPayloadLen cap32 else maxPayloadLen }
    shutdownDrainTimeout :=
      if cfg.shutdownDrainTimeoutMs ≠ 0 then cfg.shutdownDrainTimeoutMs else 3000
    shutdownPollInterval :=
      if cfg.shutdownPollIntervalMs ≠ 0 then cfg.shutdownPollIntervalMs else 50 }

/-! ## The limits fit each other -/

theorem of_require {condition : Prop} [Decidable condition] {detail : String}
    (h : require condition detail = .ok ()) : condition := by
  rw [require] at h
  split at h
  · assumption
  · cases h

/-- A sequence of checks is passed if each is. -/
theorem check_seq {first rest : Except String Unit} (h : (do first; rest) = .ok ()) :
    first = .ok () ∧ rest = .ok () := by
  cases first with
  | error e => cases h
  | ok u => exact ⟨rfl, h⟩

/-- An accepted receive ring is left to the default or has at least 1024 bytes. -/
theorem recvRingCapacity_of_valid {hardwareConcurrency : UInt32} {config : EngineConfig}
    (h : validateEngineConfig hardwareConcurrency config = .ok ()) :
    config.recvRingCapacity = 0 ∨ 1024 ≤ config.recvRingCapacity.toNat := by
  rw [validateEngineConfig] at h
  iterate 9 obtain ⟨-, h⟩ := check_seq h
  have hrecv := of_require (check_seq h).1
  rcases Nat.eq_zero_or_pos config.recvRingCapacity.toNat with h0 | hpos
  · exact .inl (UInt64.toNat_inj.1 h0)
  · exact .inr (by omega)

theorem override_ne_zero {given dflt : UInt64} (h : given ≠ 0) : override given dflt = given := by
  simp [override, h]

theorem override_zero (dflt : UInt64) : override 0 dflt = dflt := by
  simp [override]

/-- The greatest payload and its length field fit the receive ring. -/
theorem maxPayloadLen_le {hardwareConcurrency : UInt32} {cfg : EngineConfig}
    (h : validateEngineConfig hardwareConcurrency cfg = .ok ()) :
    let opt := (makeEffectiveEngineOptions hardwareConcurrency cfg).workerDefaults
    opt.maxPayloadLen.toNat + 4 ≤ opt.recvCapacity.toNat := by
  have hcap : 1024 ≤ (override cfg.recvRingCapacity kRecvRingCapacity).toNat := by
    rcases recvRingCapacity_of_valid h with h0 | h1024
    · rw [h0, override_zero]
      decide
    · rwa [override_ne_zero]
      rintro h0
      rw [h0] at h1024
      exact absurd h1024 (by decide)
  dsimp only [makeEffectiveEngineOptions]
  generalize override cfg.recvRingCapacity kRecvRingCapacity = recvCap at hcap ⊢
  generalize override cfg.maxPayloadLen kMaxPayloadLen = len
  have hfour : (4 : UInt64).toNat = 4 := rfl
  have hlt : 4 < recvCap := UInt64.lt_iff_toNat_lt.2 (by omega)
  have hsub : (recvCap - 4).toNat = recvCap.toNat - 4 :=
    UInt64.toNat_sub_of_le _ _ (UInt64.le_of_lt hlt)
  rw [if_pos hlt]
  have hcap32 : (if 0xFFFFFFFF < recvCap - 4 then (0xFFFFFFFF : UInt32)
      else (recvCap - 4).toUInt32).toNat ≤ recvCap.toNat - 4 := by
    split
    case isTrue hbig =>
      have := UInt64.lt_iff_toNat_lt.1 hbig
      rw [hsub] at this
      exact Nat.le_of_lt this
    case isFalse =>
      rw [UInt64.toNat_toUInt32, hsub]
      exact Nat.mod_le _ _
  generalize (if 0xFFFFFFFF < recvCap - 4 then (0xFFFFFFFF : UInt32)
    else (recvCap - 4).toUInt32) = cap32 at hcap32 ⊢
  have hmin : (min len cap32).toNat ≤ cap32.toNat := by
    change (if len ≤ cap32 then len else cap32).toNat ≤ _
    split
    exacts [UInt32.le_iff_toNat_le.1 ‹_›, Nat.le_refl _]
  omega

/-- What the components built from the options rely on. -/
structure WorkerOptions.Usable (opt : WorkerOptions) : Prop where
  tickResolution : 0 < opt.tickResolution
  slotCount : 0 < opt.slotCount
  blockSize : 0 < opt.blockSize
  blockCount : 0 < opt.blockCount
  maxEpollEvents : 0 < opt.maxEpollEvents
  recvCapacity : 0 < opt.recvCapacity
  sendCapacity : 0 < opt.sendCapacity
  maxPayloadLen : opt.maxPayloadLen.toNat + 4 ≤ opt.recvCapacity.toNat

theorem override_pos {given dflt : UInt64} (h : 0 < dflt) : 0 < override given dflt := by
  unfold override
  generalize (if given ≠ 0 then given else dflt) = v
  dsimp only
  split
  · exact h
  next hne => exact UInt64.pos_iff_ne_zero.mpr hne

theorem workerDefaults_usable {hardwareConcurrency : UInt32} {cfg : EngineConfig}
    (h : validateEngineConfig hardwareConcurrency cfg = .ok ()) :
    (makeEffectiveEngineOptions hardwareConcurrency cfg).workerDefaults.Usable where
  tickResolution := by
    have hpos : ∀ v : Int64, 0 < if v ≤ 0 then kTickResolutionMs.toUInt64.toInt64 else v := by
      intro v
      split
      · decide
      next hv => exact Int64.not_le.mp hv
    exact hpos _
  slotCount := override_pos (by decide)
  blockSize := override_pos (by decide)
  blockCount := override_pos (by decide)
  maxEpollEvents := by
    have hpos : ∀ v : Int32, 0 < if v ≤ 0 then kMaxEpollEvents else v := by
      intro v
      split
      · decide
      next hv => exact Int32.not_le.mp hv
    exact hpos _
  recvCapacity := override_pos (by decide)
  sendCapacity := override_pos (by decide)
  maxPayloadLen := maxPayloadLen_le h

end HyperNet.Core
