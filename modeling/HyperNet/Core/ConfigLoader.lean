import HyperNet.Core.Options

/-!
# Loading a configuration

`ConfigLoader::load` takes a file from the command line, has it parsed and puts what it finds there
into a `GlobalConfig`.  The TOML library is the type `Node` of what it parses and the conversions of
`node::value`; the files are a parameter.

The integers of a file have 64 bits and a sign, the fields of the configuration mostly not.  Most
conversions check the range, and two do not: the number of connections of the load generator, and
the copy of the number of workers for the gateway.  `loaded_exactly_iff` says that these are all.
-/

namespace HyperNet.Core

/-! ## Parsed files -/

/-- A parsed value.  Of a floating-point number only the integer is kept that it is equal to, and of
a date or an array nothing. -/
inductive Node where
  | integer (v : Int64)
  | floating (whole : Option Int64)
  | boolean (b : Bool)
  | string (s : String)
  | table (entries : List (String × Node))
  | other

abbrev Table := List (String × Node)

namespace Table

variable (t : Table) (key : String)

/-- `value<std::int64_t>()`: numbers that are integers, and flags. -/
def int? : Option Int64 :=
  match t.lookup key with
  | some (.integer v) => some v
  | some (.floating whole) => whole
  | some (.boolean b) => some (if b = true then 1 else 0)
  | _ => none

/-- `value<bool>()`: flags, and integers as such. -/
def bool? : Option Bool :=
  match t.lookup key with
  | some (.integer v) => some (v ≠ 0)
  | some (.boolean b) => some b
  | _ => none

/-- `value<std::string>()`. -/
def string? : Option String :=
  match t.lookup key with
  | some (.string s) => some s
  | _ => none

/-- `as_table()`. -/
def table? : Option Table :=
  match t.lookup key with
  | some (.table entries) => some entries
  | _ => none

/-- The integer that is written there. -/
def integer? : Option Int64 :=
  match t.lookup key with
  | some (.integer v) => some v
  | _ => none

end Table

/-! ## Configurations -/

structure ExchangeSimConfig where
  fep_host : String := "127.0.0.1"
  fep_port : UInt16 := 9000
  autoScope : Bool := false
  connection_count : Int32 := 1

structure FepConfig where
  upstream_host : String := ""
  upstream_port : UInt16 := 0
  worker_threads : UInt16 := 0
  handoff_mode : Bool := false

structure GlobalConfig where
  engine : EngineConfig := {}
  sim : ExchangeSimConfig := {}
  fep : FepConfig := {}

inductive LoadError where
  | invalid_argument (what : String)
  | runtime_error (what : String)
deriving DecidableEq, Repr

def parseLogLevel (s : String) : Except LoadError LogLevel :=
  let v := s.toLower
  if v = "trace" then .ok .Trace
  else if v = "debug" then .ok .Debug
  else if v = "info" then .ok .Info
  else if v = "warn" ∨ v = "warning" then .ok .Warn
  else if v = "error" then .ok .Error
  else if v = "fatal" then .ok .Fatal
  else .error (.invalid_argument ("Invalid log_level: " ++ s))

/-! ## Checked conversions -/

def checkedPortFromI64 (v : Int64) (key : String) : Except LoadError UInt16 :=
  if v < 0 ∨ 65535 < v then
    .error (.invalid_argument (key ++ " out of range (0..65535): " ++ toString v))
  else .ok v.toUInt64.toUInt16

def checkedUIntFromI64 (v : Int64) (key : String) : Except LoadError UInt32 :=
  if v < 0 ∨ 4294967295 < v then
    .error (.invalid_argument (key ++ " out of range: " ++ toString v))
  else .ok v.toUInt64.toUInt32

def checkedSizeFromI64 (v : Int64) (key : String) : Except LoadError UInt64 :=
  if v < 0 then
    .error (.invalid_argument (key ++ " must be non-negative: " ++ toString v))
  else .ok v.toUInt64

/-- A field that keeps what it has if the key has no integer. -/
def readInt {α : Type} (t : Table) (key : String) (checked : Int64 → String → Except LoadError α)
    (field : α) : Except LoadError α :=
  match t.int? key with
  | none => .ok field
  | some v => checked v key

def readLogLevel (t : Table) (key : String) (field : LogLevel) : Except LoadError LogLevel :=
  match t.string? key with
  | none => .ok field
  | some s => parseLogLevel s

/-- A flag that may also be written as an integer. -/
def readFlag (t : Table) (key : String) (field : Bool) : Bool :=
  match t.bool? key with
  | some b => b
  | none =>
    match t.int? key with
    | some i => decide (i ≠ 0)
    | none => field

def requireTable (root : Table) (name : String) : Except LoadError Table :=
  match root.table? name with
  | none => .error (.runtime_error ("Missing required [" ++ name ++ "] section"))
  | some t => .ok t

/-! ## From the file to the configuration -/

/-- Each field is set from one key, in the order of the source. -/
def applyEngineToml (cfg : GlobalConfig) (root : Table) : Except LoadError GlobalConfig := do
  let engine ← requireTable root "engine"
  let c := cfg.engine
  let listenPort ← readInt engine "listen_port" checkedPortFromI64 c.listenPort
  let metricsHttpPort ← readInt engine "metrics_port" checkedPortFromI64 c.metricsHttpPort
  let workerThreads ← readInt engine "worker_threads" checkedUIntFromI64 c.workerThreads
  let logLevel ← readLogLevel engine "log_level" c.logLevel
  let listenAddress := (engine.string? "listen_address").getD c.listenAddress
  let listenBacklog ← readInt engine "listen_backlog" checkedUIntFromI64 c.listenBacklog
  let reusePort := readFlag engine "reuse_port" c.reusePort
  let logFilePath := (engine.string? "log_file_path").getD c.logFilePath
  let metricsHttpAddress := (engine.string? "metrics_http_address").getD c.metricsHttpAddress
  let idleTimeoutMs ← readInt engine "idle_timeout_ms" checkedUIntFromI64 c.idleTimeoutMs
  let heartbeatIntervalMs ←
    readInt engine "heartbeat_interval_ms" checkedUIntFromI64 c.heartbeatIntervalMs
  let shutdownDrainTimeoutMs ←
    readInt engine "shutdown_drain_timeout_ms" checkedUIntFromI64 c.shutdownDrainTimeoutMs
  let shutdownPollIntervalMs ←
    readInt engine "shutdown_poll_interval_ms" checkedUIntFromI64 c.shutdownPollIntervalMs
  let tickResolutionMs ← readInt engine "tick_resolution_ms" checkedUIntFromI64 c.tickResolutionMs
  let timerSlots ← readInt engine "timer_slots" checkedSizeFromI64 c.timerSlots
  let maxEpollEvents ← readInt engine "max_epoll_events" checkedUIntFromI64 c.maxEpollEvents
  let bufferBlockSize ← readInt engine "buffer_block_size" checkedSizeFromI64 c.bufferBlockSize
  let bufferBlockCount ← readInt engine "buffer_block_count" checkedSizeFromI64 c.bufferBlockCount
  let recvRingCapacity ← readInt engine "recv_ring_capacity" checkedSizeFromI64 c.recvRingCapacity
  let sendRingCapacity ← readInt engine "send_ring_capacity" checkedSizeFromI64 c.sendRingCapacity
  let maxPayloadLen ← readInt engine "max_payload_len" checkedUIntFromI64 c.maxPayloadLen
  .ok { cfg with
    engine :=
      { listenAddress, listenPort, listenBacklog, workerThreads, reusePort, logFilePath, logLevel,
        metricsHttpAddress, metricsHttpPort, idleTimeoutMs, heartbeatIntervalMs,
        shutdownDrainTimeoutMs, shutdownPollIntervalMs, tickResolutionMs, timerSlots,
        maxEpollEvents, bufferBlockSize, bufferBlockCount, recvRingCapacity, sendRingCapacity,
        maxPayloadLen } }

/-- The section of the load generator, under one of its names. -/
def simTable (app : Table) : Option Table :=
  match app.table? "loadgen" with
  | some t => some t
  | none =>
    match app.table? "exchange_sim" with
    | some t => some t
    | none => app.table? "client"

/-- The port has two names, the second for files without the first. -/
def readSimPort (sim : Table) (field : UInt16) : Except LoadError UInt16 :=
  match sim.int? "fep_port" with
  | some v => checkedPortFromI64 v "fep_port"
  | none => readInt sim "upstream_port" checkedPortFromI64 field

/-- The number of connections is cast, not checked. -/
def applySimToml (sim : Table) (c : ExchangeSimConfig) : Except LoadError ExchangeSimConfig := do
  let fep_host := match sim.string? "fep_host" with
    | some s => s
    | none => (sim.string? "upstream_host").getD c.fep_host
  let fep_port ← readSimPort sim c.fep_port
  let autoScope := (sim.bool? "auto_scope").getD c.autoScope
  let connection_count := match sim.int? "connection_count" with
    | some v => v.toInt32
    | none => c.connection_count
  .ok { fep_host, fep_port, autoScope, connection_count }

/-- The number of workers is copied into a narrower field. -/
def applyFepToml (fep : Table) (engine : EngineConfig) (c : FepConfig) :
    Except LoadError FepConfig := do
  let upstream_host := (fep.string? "upstream_host").getD c.upstream_host
  let upstream_port ← readInt fep "upstream_port" checkedPortFromI64 c.upstream_port
  let handoff_mode := (fep.bool? "handoff_mode").getD c.handoff_mode
  .ok { upstream_host, upstream_port, worker_threads := engine.workerThreads.toUInt16,
        handoff_mode }

/-- A section that may be missing. -/
def applySection {α : Type} (section? : Option Table) (apply : Table → α → Except LoadError α)
    (c : α) : Except LoadError α :=
  match section? with
  | none => .ok c
  | some t => apply t c

def applyAppToml (cfg : GlobalConfig) (root : Table) : Except LoadError GlobalConfig :=
  match root.table? "app" with
  | none => .ok cfg
  | some app => do
      let sim ← applySection (simTable app) applySimToml cfg.sim
      let fep ← applySection (app.table? "fep_gateway") (applyFepToml · cfg.engine) cfg.fep
      .ok { cfg with sim, fep }

def checkEngine (hardwareConcurrency : UInt32) (cfg : GlobalConfig) : Except LoadError Unit :=
  match validateEngineConfig hardwareConcurrency cfg.engine with
  | .error what => .error (.invalid_argument what)
  | .ok () => .ok ()

def validateFailFast (hardwareConcurrency : UInt32) (cfg : GlobalConfig) (root : Table) :
    Except LoadError Unit :=
  if 65535 < cfg.engine.listenPort.toNat then
    .error (.runtime_error "listen_port out of range")
  else
    match root.table? "app" with
    | none => checkEngine hardwareConcurrency cfg
    | some app =>
      if (simTable app).isSome = true ∧ cfg.sim.fep_host = "" then
        .error (.runtime_error "Config Error: Loadgen requires 'fep_host'")
      else if (simTable app).isSome = true ∧ cfg.sim.fep_port = 0 then
        .error (.runtime_error "Config Error: Loadgen requires 'fep_port'")
      else checkEngine hardwareConcurrency cfg

/-- The steps 3 and 4 of `load`. -/
def applyToml (hardwareConcurrency : UInt32) (root : Table) : Except LoadError GlobalConfig := do
  let cfg ← applyEngineToml {} root
  let cfg ← applyAppToml cfg root
  validateFailFast hardwareConcurrency cfg root
  .ok cfg

/-! ## The command line -/

/-- The path behind `--config`. -/
def scanCliForConfigPath : List String → Except LoadError (Option String)
  | [] => .ok none
  | arg :: args =>
    if arg = "--config" ∨ arg = "-c" then
      match args with
      | [] => .error (.runtime_error "--config requires a path")
      | path :: _ =>
        if path = "" then .error (.runtime_error "--config requires a path")
        else .ok (some path)
    else scanCliForConfigPath args

/-- How a call of `load` ends. -/
inductive Loading where
  /-- Help was asked for. -/
  | exits
  | throws (e : LoadError)
  | returns (cfg : GlobalConfig)

/-- What the file system and the parser have for a path: no file, an error or a table. -/
abbrev Files := String → Option (Except String Table)

/-- `args` are those behind the name of the program. -/
def load (hardwareConcurrency : UInt32) (files : Files) (args : List String) : Loading :=
  if "--help" ∈ args ∨ "-h" ∈ args then .exits
  else
    match scanCliForConfigPath args with
    | .error e => .throws e
    | .ok none => .throws (.runtime_error "Missing required argument: --config <path.toml>")
    | .ok (some path) =>
      match files path with
      | none => .throws (.runtime_error ("Config file not found: " ++ path))
      | some (.error what) => .throws (.runtime_error ("TOML Parse Error: " ++ what))
      | some (.ok root) =>
        match applyToml hardwareConcurrency root with
        | .error e => .throws e
        | .ok cfg => .returns cfg

/-! ## The integers of a file and the fields they are for -/

/-- The keys that an integer is read from. -/
inductive IntKey where
  | listen_port
  | metrics_port
  | worker_threads
  | listen_backlog
  | reuse_port
  | idle_timeout_ms
  | heartbeat_interval_ms
  | shutdown_drain_timeout_ms
  | shutdown_poll_interval_ms
  | tick_resolution_ms
  | timer_slots
  | max_epoll_events
  | buffer_block_size
  | buffer_block_count
  | recv_ring_capacity
  | send_ring_capacity
  | max_payload_len
  | sim_fep_port
  | sim_upstream_port
  | connection_count
  | fep_upstream_port
deriving DecidableEq, Repr

namespace Table

variable (root : Table)

def simSection : Option Table := (root.table? "app").bind simTable

def fepSection : Option Table := (root.table? "app").bind (·.table? "fep_gateway")

end Table

namespace IntKey

/-- The integer given for a key that is read. -/
def given (root : Table) : IntKey → Option Int64
  | listen_port => engine "listen_port"
  | metrics_port => engine "metrics_port"
  | worker_threads => engine "worker_threads"
  | listen_backlog => engine "listen_backlog"
  | reuse_port => engine "reuse_port"
  | idle_timeout_ms => engine "idle_timeout_ms"
  | heartbeat_interval_ms => engine "heartbeat_interval_ms"
  | shutdown_drain_timeout_ms => engine "shutdown_drain_timeout_ms"
  | shutdown_poll_interval_ms => engine "shutdown_poll_interval_ms"
  | tick_resolution_ms => engine "tick_resolution_ms"
  | timer_slots => engine "timer_slots"
  | max_epoll_events => engine "max_epoll_events"
  | buffer_block_size => engine "buffer_block_size"
  | buffer_block_count => engine "buffer_block_count"
  | recv_ring_capacity => engine "recv_ring_capacity"
  | send_ring_capacity => engine "send_ring_capacity"
  | max_payload_len => engine "max_payload_len"
  | sim_fep_port => root.simSection.bind (·.integer? "fep_port")
  -- the second name is looked up only if the first has no integer
  | sim_upstream_port => root.simSection.bind fun sim =>
    if (sim.int? "fep_port").isSome = true then none else sim.integer? "upstream_port"
  | connection_count => root.simSection.bind (·.integer? "connection_count")
  | fep_upstream_port => root.fepSection.bind (·.integer? "upstream_port")
where
  engine (key : String) : Option Int64 := (root.table? "engine").bind (·.integer? key)

/-- Every field that comes from the key holds the integer; a flag holds whether it is not 0. -/
def Held (root : Table) (cfg : GlobalConfig) (v : Int64) : IntKey → Prop
  | listen_port => (cfg.engine.listenPort.toNat : Int) = v.toInt
  | metrics_port => (cfg.engine.metricsHttpPort.toNat : Int) = v.toInt
  | worker_threads => (cfg.engine.workerThreads.toNat : Int) = v.toInt ∧
      (root.fepSection.isSome = true → (cfg.fep.worker_threads.toNat : Int) = v.toInt)
  | listen_backlog => (cfg.engine.listenBacklog.toNat : Int) = v.toInt
  | reuse_port => cfg.engine.reusePort = true ↔ v.toInt ≠ 0
  | idle_timeout_ms => (cfg.engine.idleTimeoutMs.toNat : Int) = v.toInt
  | heartbeat_interval_ms => (cfg.engine.heartbeatIntervalMs.toNat : Int) = v.toInt
  | shutdown_drain_timeout_ms => (cfg.engine.shutdownDrainTimeoutMs.toNat : Int) = v.toInt
  | shutdown_poll_interval_ms => (cfg.engine.shutdownPollIntervalMs.toNat : Int) = v.toInt
  | tick_resolution_ms => (cfg.engine.tickResolutionMs.toNat : Int) = v.toInt
  | timer_slots => (cfg.engine.timerSlots.toNat : Int) = v.toInt
  | max_epoll_events => (cfg.engine.maxEpollEvents.toNat : Int) = v.toInt
  | buffer_block_size => (cfg.engine.bufferBlockSize.toNat : Int) = v.toInt
  | buffer_block_count => (cfg.engine.bufferBlockCount.toNat : Int) = v.toInt
  | recv_ring_capacity => (cfg.engine.recvRingCapacity.toNat : Int) = v.toInt
  | send_ring_capacity => (cfg.engine.sendRingCapacity.toNat : Int) = v.toInt
  | max_payload_len => (cfg.engine.maxPayloadLen.toNat : Int) = v.toInt
  | sim_fep_port | sim_upstream_port => (cfg.sim.fep_port.toNat : Int) = v.toInt
  | connection_count => cfg.sim.connection_count.toInt = v.toInt
  | fep_upstream_port => (cfg.fep.upstream_port.toNat : Int) = v.toInt

end IntKey

/-! ## Conversions that keep the integer -/

theorem of_bind {ε α β : Type} {x : Except ε α} {f : α → Except ε β} {b : β}
    (h : (x >>= f) = .ok b) : ∃ a, x = .ok a ∧ f a = .ok b := by
  cases x with
  | error e => cases h
  | ok a => exact ⟨a, rfl, h⟩

theorem toNat_toUInt64 {v : Int64} (h : 0 ≤ v.toInt) : (v.toUInt64.toNat : Int) = v.toInt := by
  have hcond := BitVec.toInt_eq_toNat_cond v.toBitVec
  have hlt := v.toBitVec.isLt
  change (v.toBitVec.toNat : Int) = v.toBitVec.toInt
  change 0 ≤ v.toBitVec.toInt at h
  omega

/-- A conversion that throws or keeps the integer. -/
def Exact {α : Type} (toNat : α → Nat) (checked : Int64 → String → Except LoadError α) : Prop :=
  ∀ {v key a}, checked v key = .ok a → (toNat a : Int) = v.toInt

theorem exact_checkedPort : Exact UInt16.toNat checkedPortFromI64 := by
  intro v key a h
  unfold checkedPortFromI64 at h
  split at h
  · cases h
  next hrange =>
    cases h
    rw [not_or, Int64.lt_iff_toInt_lt, Int64.lt_iff_toInt_lt] at hrange
    have hpos : 0 ≤ v.toInt := Int.not_lt.mp hrange.1
    have hle : v.toInt ≤ 65535 := Int.not_lt.mp hrange.2
    have hsame := toNat_toUInt64 hpos
    rw [UInt64.toNat_toUInt16]
    omega

theorem exact_checkedUInt : Exact UInt32.toNat checkedUIntFromI64 := by
  intro v key a h
  unfold checkedUIntFromI64 at h
  split at h
  · cases h
  next hrange =>
    cases h
    rw [not_or, Int64.lt_iff_toInt_lt, Int64.lt_iff_toInt_lt] at hrange
    have hpos : 0 ≤ v.toInt := Int.not_lt.mp hrange.1
    have hle : v.toInt ≤ 4294967295 := Int.not_lt.mp hrange.2
    have hsame := toNat_toUInt64 hpos
    rw [UInt64.toNat_toUInt32]
    omega

theorem exact_checkedSize : Exact UInt64.toNat checkedSizeFromI64 := by
  intro v key a h
  unfold checkedSizeFromI64 at h
  split at h
  · cases h
  next hrange =>
    cases h
    rw [Int64.lt_iff_toInt_lt] at hrange
    exact toNat_toUInt64 (Int.not_lt.mp hrange)

theorem Table.int?_of_integer? {t : Table} {key : String} {v : Int64}
    (h : t.integer? key = some v) : t.int? key = some v := by
  unfold integer? at h
  unfold int?
  split at h
  next hfound => rw [hfound]; exact h
  · cases h

theorem readFlag_of_integer? {t : Table} {key : String} {field : Bool} {v : Int64}
    (h : t.integer? key = some v) : readFlag t key field = decide (v ≠ 0) := by
  have hflag : t.bool? key = some (decide (v ≠ 0)) := by
    unfold Table.integer? at h
    split at h
    next hfound =>
      cases h
      rw [Table.bool?, hfound]
    · cases h
  rw [readFlag, hflag]

theorem Exact.readInt {α : Type} {toNat : α → Nat}
    {checked : Int64 → String → Except LoadError α} (hexact : Exact toNat checked) {t : Table}
    {key : String} {field a : α} {v : Int64} (h : Core.readInt t key checked field = .ok a)
    (hgiven : t.integer? key = some v) : (toNat a : Int) = v.toInt := by
  rw [Core.readInt, Table.int?_of_integer? hgiven] at h
  exact hexact h

/-! ## What the sections leave -/

/-- Each field of an accepted section is the conversion of its key. -/
structure EngineRead (engine : Table) (c c' : EngineConfig) : Prop where
  listenPort : readInt engine "listen_port" checkedPortFromI64 c.listenPort = .ok c'.listenPort
  metricsHttpPort :
    readInt engine "metrics_port" checkedPortFromI64 c.metricsHttpPort = .ok c'.metricsHttpPort
  workerThreads :
    readInt engine "worker_threads" checkedUIntFromI64 c.workerThreads = .ok c'.workerThreads
  listenBacklog :
    readInt engine "listen_backlog" checkedUIntFromI64 c.listenBacklog = .ok c'.listenBacklog
  reusePort : ∀ v, engine.integer? "reuse_port" = some v → c'.reusePort = decide (v ≠ 0)
  idleTimeoutMs :
    readInt engine "idle_timeout_ms" checkedUIntFromI64 c.idleTimeoutMs = .ok c'.idleTimeoutMs
  heartbeatIntervalMs : readInt engine "heartbeat_interval_ms" checkedUIntFromI64
    c.heartbeatIntervalMs = .ok c'.heartbeatIntervalMs
  shutdownDrainTimeoutMs : readInt engine "shutdown_drain_timeout_ms" checkedUIntFromI64
    c.shutdownDrainTimeoutMs = .ok c'.shutdownDrainTimeoutMs
  shutdownPollIntervalMs : readInt engine "shutdown_poll_interval_ms" checkedUIntFromI64
    c.shutdownPollIntervalMs = .ok c'.shutdownPollIntervalMs
  tickResolutionMs : readInt engine "tick_resolution_ms" checkedUIntFromI64
    c.tickResolutionMs = .ok c'.tickResolutionMs
  timerSlots : readInt engine "timer_slots" checkedSizeFromI64 c.timerSlots = .ok c'.timerSlots
  maxEpollEvents :
    readInt engine "max_epoll_events" checkedUIntFromI64 c.maxEpollEvents = .ok c'.maxEpollEvents
  bufferBlockSize : readInt engine "buffer_block_size" checkedSizeFromI64
    c.bufferBlockSize = .ok c'.bufferBlockSize
  bufferBlockCount : readInt engine "buffer_block_count" checkedSizeFromI64
    c.bufferBlockCount = .ok c'.bufferBlockCount
  recvRingCapacity : readInt engine "recv_ring_capacity" checkedSizeFromI64
    c.recvRingCapacity = .ok c'.recvRingCapacity
  sendRingCapacity : readInt engine "send_ring_capacity" checkedSizeFromI64
    c.sendRingCapacity = .ok c'.sendRingCapacity
  maxPayloadLen :
    readInt engine "max_payload_len" checkedUIntFromI64 c.maxPayloadLen = .ok c'.maxPayloadLen

theorem of_applyEngineToml {cfg cfg' : GlobalConfig} {root : Table}
    (h : applyEngineToml cfg root = .ok cfg') :
    ∃ engine, root.table? "engine" = some engine ∧ EngineRead engine cfg.engine cfg'.engine := by
  unfold applyEngineToml at h
  obtain ⟨engine, hengine, h⟩ := of_bind h
  obtain ⟨listenPort, hlistenPort, h⟩ := of_bind h
  obtain ⟨metricsHttpPort, hmetricsHttpPort, h⟩ := of_bind h
  obtain ⟨workerThreads, hworkerThreads, h⟩ := of_bind h
  obtain ⟨logLevel, -, h⟩ := of_bind h
  obtain ⟨listenBacklog, hlistenBacklog, h⟩ := of_bind h
  obtain ⟨idleTimeoutMs, hidleTimeoutMs, h⟩ := of_bind h
  obtain ⟨heartbeatIntervalMs, hheartbeatIntervalMs, h⟩ := of_bind h
  obtain ⟨shutdownDrainTimeoutMs, hshutdownDrainTimeoutMs, h⟩ := of_bind h
  obtain ⟨shutdownPollIntervalMs, hshutdownPollIntervalMs, h⟩ := of_bind h
  obtain ⟨tickResolutionMs, htickResolutionMs, h⟩ := of_bind h
  obtain ⟨timerSlots, htimerSlots, h⟩ := of_bind h
  obtain ⟨maxEpollEvents, hmaxEpollEvents, h⟩ := of_bind h
  obtain ⟨bufferBlockSize, hbufferBlockSize, h⟩ := of_bind h
  obtain ⟨bufferBlockCount, hbufferBlockCount, h⟩ := of_bind h
  obtain ⟨recvRingCapacity, hrecvRingCapacity, h⟩ := of_bind h
  obtain ⟨sendRingCapacity, hsendRingCapacity, h⟩ := of_bind h
  obtain ⟨maxPayloadLen, hmaxPayloadLen, h⟩ := of_bind h
  cases h
  refine ⟨engine, ?_, ?_⟩
  · unfold requireTable at hengine
    split at hengine
    · cases hengine
    next hfound => rw [hfound]; exact congrArg some (Except.ok.inj hengine)
  · refine ⟨hlistenPort, hmetricsHttpPort, hworkerThreads, hlistenBacklog, ?_, hidleTimeoutMs,
      hheartbeatIntervalMs, hshutdownDrainTimeoutMs, hshutdownPollIntervalMs, htickResolutionMs,
      htimerSlots, hmaxEpollEvents, hbufferBlockSize, hbufferBlockCount, hrecvRingCapacity,
      hsendRingCapacity, hmaxPayloadLen⟩
    intro v hgiven
    exact readFlag_of_integer? hgiven

theorem of_applySimToml {sim : Table} {c c' : ExchangeSimConfig}
    (h : applySimToml sim c = .ok c') :
    readSimPort sim c.fep_port = .ok c'.fep_port ∧
      ∀ v, sim.int? "connection_count" = some v → c'.connection_count = v.toInt32 := by
  unfold applySimToml at h
  obtain ⟨port, hport, h⟩ := of_bind h
  cases h
  refine ⟨hport, ?_⟩
  intro v hgiven
  dsimp only
  rw [hgiven]

theorem of_applyFepToml {fep : Table} {engine : EngineConfig} {c c' : FepConfig}
    (h : applyFepToml fep engine c = .ok c') :
    readInt fep "upstream_port" checkedPortFromI64 c.upstream_port = .ok c'.upstream_port ∧
      c'.worker_threads = engine.workerThreads.toUInt16 := by
  unfold applyFepToml at h
  obtain ⟨port, hport, h⟩ := of_bind h
  cases h
  exact ⟨hport, rfl⟩

/-- The section of the engine is not touched, and the others are applied if they are there. -/
theorem of_applyAppToml {cfg cfg' : GlobalConfig} {root : Table}
    (h : applyAppToml cfg root = .ok cfg') :
    cfg'.engine = cfg.engine ∧
      (∀ sim, root.simSection = some sim → applySimToml sim cfg.sim = .ok cfg'.sim) ∧
      (∀ fep, root.fepSection = some fep →
        applyFepToml fep cfg.engine cfg.fep = .ok cfg'.fep) := by
  unfold applyAppToml at h
  split at h
  next hnone =>
    cases h
    refine ⟨rfl, ?_, ?_⟩ <;> intro t ht
    · rw [Table.simSection, hnone] at ht
      cases ht
    · rw [Table.fepSection, hnone] at ht
      cases ht
  next app happ =>
    obtain ⟨sim, hsim, h⟩ := of_bind h
    obtain ⟨fep, hfep, h⟩ := of_bind h
    cases h
    refine ⟨rfl, ?_, ?_⟩ <;> intro t ht
    · rw [Table.simSection, happ, Option.bind_some] at ht
      rwa [ht, applySection] at hsim
    · rw [Table.fepSection, happ, Option.bind_some] at ht
      rwa [ht, applySection] at hfep

/-- The three parts of an accepted file. -/
theorem of_applyToml {hardwareConcurrency : UInt32} {root : Table} {cfg : GlobalConfig}
    (h : applyToml hardwareConcurrency root = .ok cfg) :
    ∃ engine, root.table? "engine" = some engine ∧ EngineRead engine {} cfg.engine ∧
      (∀ sim, root.simSection = some sim → ∃ c, applySimToml sim c = .ok cfg.sim) ∧
      (∀ fep, root.fepSection = some fep → ∃ c, applyFepToml fep cfg.engine c = .ok cfg.fep) := by
  unfold applyToml at h
  obtain ⟨cfg₁, hengine, h⟩ := of_bind h
  obtain ⟨cfg₂, happ, h⟩ := of_bind h
  obtain ⟨-, -, h⟩ := of_bind h
  cases h
  obtain ⟨engine, hfound, hread⟩ := of_applyEngineToml hengine
  obtain ⟨hsame, hsim, hfep⟩ := of_applyAppToml happ
  rw [← hsame] at hread hfep
  exact ⟨engine, hfound, hread, fun t ht => ⟨_, hsim t ht⟩, fun t ht => ⟨_, hfep t ht⟩⟩

/-! ## Which integers are kept -/

namespace IntKey

/-- Where a conversion is not checked, the integer fits the field. -/
def Fits (root : Table) (v : Int64) : IntKey → Prop
  | connection_count => -2147483648 ≤ v.toInt ∧ v.toInt ≤ 2147483647
  | worker_threads => root.fepSection.isSome = true → v.toInt ≤ 65535
  | _ => True

theorem of_engine {root engine : Table} (hengine : root.table? "engine" = some engine)
    {key : String} {v : Int64} (h : given.engine root key = some v) :
    engine.integer? key = some v := by
  rwa [given.engine, hengine, Option.bind_some] at h

theorem connection_count_iff (v : Int64) :
    v.toInt32.toInt = v.toInt ↔ -2147483648 ≤ v.toInt ∧ v.toInt ≤ 2147483647 := by
  rw [Int64.toInt_toInt32]
  constructor
  · intro h
    have hle := Int.le_bmod (x := v.toInt) (m := 2 ^ 32) (by decide)
    have hlt := Int.bmod_lt (x := v.toInt) (m := 2 ^ 32) (by decide)
    omega
  · rintro ⟨hle, hlt⟩
    exact Int.bmod_eq_of_le (by omega) (by omega)

theorem worker_threads_iff {n : UInt32} {v : Int64} (h : (n.toNat : Int) = v.toInt) :
    (n.toUInt16.toNat : Int) = v.toInt ↔ v.toInt ≤ 65535 := by
  rw [UInt32.toNat_toUInt16]
  omega

/-- The fields that come from a key hold the integer given for it exactly if it fits. -/
theorem held_iff {hardwareConcurrency : UInt32} {root : Table} {cfg : GlobalConfig}
    (h : applyToml hardwareConcurrency root = .ok cfg) {key : IntKey} {v : Int64}
    (hgiven : key.given root = some v) : key.Held root cfg v ↔ key.Fits root v := by
  obtain ⟨engine, hengine, hread, hsim, hfep⟩ := of_applyToml h
  have hport {key : String} {field a : UInt16}
      (hread : readInt engine key checkedPortFromI64 field = .ok a)
      (hgiven : given.engine root key = some v) : (a.toNat : Int) = v.toInt :=
    exact_checkedPort.readInt hread (of_engine hengine hgiven)
  have huint {key : String} {field a : UInt32}
      (hread : readInt engine key checkedUIntFromI64 field = .ok a)
      (hgiven : given.engine root key = some v) : (a.toNat : Int) = v.toInt :=
    exact_checkedUInt.readInt hread (of_engine hengine hgiven)
  have hsize {key : String} {field a : UInt64}
      (hread : readInt engine key checkedSizeFromI64 field = .ok a)
      (hgiven : given.engine root key = some v) : (a.toNat : Int) = v.toInt :=
    exact_checkedSize.readInt hread (of_engine hengine hgiven)
  cases key with
  | listen_port => exact iff_true_intro (hport hread.listenPort hgiven)
  | metrics_port => exact iff_true_intro (hport hread.metricsHttpPort hgiven)
  | listen_backlog => exact iff_true_intro (huint hread.listenBacklog hgiven)
  | idle_timeout_ms => exact iff_true_intro (huint hread.idleTimeoutMs hgiven)
  | heartbeat_interval_ms => exact iff_true_intro (huint hread.heartbeatIntervalMs hgiven)
  | shutdown_drain_timeout_ms => exact iff_true_intro (huint hread.shutdownDrainTimeoutMs hgiven)
  | shutdown_poll_interval_ms => exact iff_true_intro (huint hread.shutdownPollIntervalMs hgiven)
  | tick_resolution_ms => exact iff_true_intro (huint hread.tickResolutionMs hgiven)
  | max_epoll_events => exact iff_true_intro (huint hread.maxEpollEvents hgiven)
  | max_payload_len => exact iff_true_intro (huint hread.maxPayloadLen hgiven)
  | timer_slots => exact iff_true_intro (hsize hread.timerSlots hgiven)
  | buffer_block_size => exact iff_true_intro (hsize hread.bufferBlockSize hgiven)
  | buffer_block_count => exact iff_true_intro (hsize hread.bufferBlockCount hgiven)
  | recv_ring_capacity => exact iff_true_intro (hsize hread.recvRingCapacity hgiven)
  | send_ring_capacity => exact iff_true_intro (hsize hread.sendRingCapacity hgiven)
  | worker_threads =>
    have hsame := huint hread.workerThreads hgiven
    refine (and_iff_right hsame).trans (forall_congr' fun hsome => ?_)
    obtain ⟨fep, hfound⟩ := Option.isSome_iff_exists.mp hsome
    obtain ⟨c, happly⟩ := hfep fep hfound
    rw [(of_applyFepToml happly).2]
    exact worker_threads_iff hsame
  | reuse_port =>
    refine iff_true_intro ?_
    rw [Held, hread.reusePort v (of_engine hengine hgiven), decide_eq_true_iff, ne_eq, ne_eq,
      ← Int64.toInt_inj]
    rfl
  | sim_fep_port =>
    obtain ⟨sim, hfound, hinteger⟩ := Option.bind_eq_some_iff.mp hgiven
    obtain ⟨c, happly⟩ := hsim sim hfound
    have hread := (of_applySimToml happly).1
    rw [readSimPort, Table.int?_of_integer? hinteger] at hread
    exact iff_true_intro (exact_checkedPort hread)
  | sim_upstream_port =>
    obtain ⟨sim, hfound, hinteger⟩ := Option.bind_eq_some_iff.mp hgiven
    obtain ⟨c, happly⟩ := hsim sim hfound
    have hread := (of_applySimToml happly).1
    split at hinteger
    · cases hinteger
    next hnone =>
      rw [readSimPort, Option.not_isSome_iff_eq_none.mp hnone] at hread
      exact iff_true_intro (exact_checkedPort.readInt hread hinteger)
  | connection_count =>
    obtain ⟨sim, hfound, hinteger⟩ := Option.bind_eq_some_iff.mp hgiven
    obtain ⟨c, happly⟩ := hsim sim hfound
    rw [Held, (of_applySimToml happly).2 v (Table.int?_of_integer? hinteger)]
    exact connection_count_iff v
  | fep_upstream_port =>
    obtain ⟨fep, hfound, hinteger⟩ := Option.bind_eq_some_iff.mp hgiven
    obtain ⟨c, happly⟩ := hfep fep hfound
    exact iff_true_intro (exact_checkedPort.readInt (of_applyFepToml happly).1 hinteger)

end IntKey

/-- A call that returns has found a file and applied it. -/
theorem of_load {hardwareConcurrency : UInt32} {files : Files} {args : List String}
    {cfg : GlobalConfig} (h : load hardwareConcurrency files args = .returns cfg) :
    ∃ path root, scanCliForConfigPath args = .ok (some path) ∧ files path = some (.ok root) ∧
      applyToml hardwareConcurrency root = .ok cfg := by
  unfold load at h
  split at h
  · cases h
  · split at h
    · cases h
    · cases h
    next path hpath =>
      split at h
      · cases h
      · cases h
      next root hroot =>
        split at h
        · cases h
        next happly =>
          cases h
          exact ⟨path, root, hpath, hroot, happly⟩

/-- In the configuration that is loaded from a file, all fields that come from a key hold the
integer the file gives for it, exactly if it is within `int` for the number of connections, and at
most 65535 for the number of workers of a gateway. -/
theorem loaded_exactly_iff {hardwareConcurrency : UInt32} {files : Files} {args : List String}
    {cfg : GlobalConfig} (h : load hardwareConcurrency files args = .returns cfg) :
    ∃ path root, scanCliForConfigPath args = .ok (some path) ∧ files path = some (.ok root) ∧
      ∀ key v, key.given root = some v → (IntKey.Held root cfg v key ↔ key.Fits root v) := by
  obtain ⟨path, root, hpath, hroot, happly⟩ := of_load h
  exact ⟨path, root, hpath, hroot, fun _ _ hgiven => IntKey.held_iff happly hgiven⟩

/-- A file for a load generator that is its own gateway. -/
def sampleFiles (workers connections : Int64) : Files := fun path =>
  if path = "c.toml" then
    some (.ok [("engine", .table [("worker_threads", .integer workers)]),
      ("app", .table [("client", .table [("connection_count", .integer connections)]),
        ("fep_gateway", .table [])])])
  else none

/-- A file with two workers and ten connections. -/
theorem loaded_exactly_iff_sample :
    ∃ cfg, load 1 (sampleFiles 2 10) ["--config", "c.toml"] = .returns cfg ∧
      ∃ path root, scanCliForConfigPath ["--config", "c.toml"] = .ok (some path) ∧
        sampleFiles 2 10 path = some (.ok root) ∧
        ∀ key v, key.given root = some v → (IntKey.Held root cfg v key ↔ key.Fits root v) := by
  have hload : ∃ cfg, load 1 (sampleFiles 2 10) ["--config", "c.toml"] = .returns cfg := ⟨_, rfl⟩
  obtain ⟨cfg, hcfg⟩ := hload
  exact ⟨cfg, hcfg, loaded_exactly_iff hcfg⟩

/-- Of 65537 workers the gateway is told 1, and of `2 ^ 32 + 1` connections the load generator
opens 1. -/
theorem loaded_cut :
    ∃ cfg, load 1 (sampleFiles 65537 4294967297) ["--config", "c.toml"] = .returns cfg ∧
      cfg.engine.workerThreads = 65537 ∧ cfg.fep.worker_threads = 1 ∧
      cfg.sim.connection_count = 1 :=
  ⟨_, rfl, rfl, rfl, rfl⟩

end HyperNet.Core
