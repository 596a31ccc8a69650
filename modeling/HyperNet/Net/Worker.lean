import HyperNet.Lib.Reentrant
import HyperNet.Net.EventLoop
import HyperNet.Net.SendPath
import HyperNet.Protocol.Framer

/-!
# The sessions of one worker

`Session` and `SessionManager` (`engine/src/hypernet/net/Session.cpp`,
`SessionManager.cpp`) as functions on the state of a worker.  The two classes call
each other and the application calls back into both, so all functions work on one
record `World`; `obj` is the heap of session objects and `sessions` is
`sessions_`.

Each function takes `app`, what the application does when it is called: it is
handed the callback and the state, and whatever it does before it returns is in the
state it gives back.  The model of an application proper is in the last section: a
`Script` of calls into the manager, whose own callbacks are scripts again.

The kernel is the answers it gives: `writes` for `sendmsg` and `writev`, `ctls` for
`epoll_ctl`, and a `RecvScript` for the `recvmsg` of one readiness event.  Which
descriptors are open is kept in `isOpen`; the kernel never hands out an open one.
It completes at most `arrivals` connections, so that results for workers of any
finite lifetime can be told from those that only hold up to some number of sessions.

The worker's thread runs alone on this state, so the source's checks of the calling
thread are left out, and so are the branches for a missing ring, application or
loop: a session has its rings from `create` on, and the other two are set before
the first connection.  The last fields of `Session` and `World` are history: no
function reads them.
-/

namespace HyperNet.Net

open Buffer Protocol Reentrant

/-! ## State -/

inductive SessionState where
  | connected
  | closing
  | closed
deriving DecidableEq, Repr

/-- A packet as the application hands it over. -/
structure Packet where
  opcode : UInt16
  body : List UInt8
deriving DecidableEq, Repr

/-- Its bytes on the wire. -/
def Packet.frame (p : Packet) : List UInt8 := Protocol.frame p.opcode p.body

/-- The wire bytes of a sequence of packets. -/
def frames (ps : List Packet) : List UInt8 := (ps.map Packet.frame).flatten

structure Session where
  id : UInt64
  /-- `socket_`; `-1` once closed. -/
  fd : Int
  state : SessionState
  recvRing : Ring
  sendRing : Ring
  currentEpollMask : UInt32
  idleTimeoutMs : UInt32 := 0
  heartbeatIntervalMs : UInt32 := 0
  lastRxAt : Nat := 0
  idleTimerArmed : Bool := false
  heartbeatTimerArmed : Bool := false
  /-- The bytes the kernel took. -/
  sent : List UInt8 := []
  /-- What the last write to the socket returned. -/
  lastWrite : Option WriteResult := none
  /-- The bytes the kernel delivered. -/
  received : List UInt8 := []
  /-- The packets whose `sendPacketU16` returned `true`, in order. -/
  accepted : List Packet := []
  /-- How many of them there were when bytes last arrived. -/
  acceptedAtRx : Nat := 0
  /-- The packet of the call in progress, or of the one that ended the session. -/
  inCall : Option Packet := none
  /-- The payloads passed to `dispatchOnMessage`. -/
  payloads : List (List UInt8) := []
  /-- The calls of `Dispatcher::dispatch` made for them. -/
  dispatched : List Packet := []
  /-- What `beginClose_` was called with. -/
  closeReason : Option String := none
  /-- A handler or a reply ended the session while a message was dispatched. -/
  closedInDispatch : Bool := false

/-- The history of a call of `sendPacketU16`: it begins, … -/
def Session.enterCall (s : Session) (packet : Packet) : Session := { s with inCall := some packet }

/-- … and returns `true`. -/
def Session.acceptCall (s : Session) (packet : Packet) : Session :=
  { s with accepted := s.accepted ++ [packet], inCall := none }

instance : Inhabited Session :=
  ⟨{ id := 0, fd := -1, state := .closed, recvRing := .make 1 (by decide),
     sendRing := .make 1 (by decide), currentEpollMask := 0 }⟩

/-- Who a descriptor is registered for: a session object, or one of the acceptor,
the wake-up descriptor and the dials. -/
inductive Handler where
  | session (o : Nat)
  | other (tag : Nat)
deriving DecidableEq, Repr

inductive TimerKind where
  | idle
  | heartbeat
deriving DecidableEq, Repr

/-- A callback in the timer wheel; its session is held weakly.  When it was asked for is
history. -/
structure Timer where
  obj : Nat
  kind : TimerKind
  delayMs : Nat
  askedAt : Nat
deriving DecidableEq, Repr

/-- What the application is told about its sessions. -/
inductive AppEvent where
  | started (o : Nat)
  | ended (o : Nat)
deriving DecidableEq, Repr

/-- The hooks of a controller for the sessions of its worker. -/
inductive Hook where
  | onSessionStart
  | onSessionEnd
deriving DecidableEq, Repr

/-- A call of a hook, and whether the manager still had the session. -/
structure HookCall where
  child : Nat
  hook : Hook
  id : UInt64
  listed : Bool
deriving DecidableEq, Repr

/-- The parameters of a manager; `handled` is the key set of the dispatcher. -/
structure Config where
  ownerWorkerId : UInt32
  recvRingCapacity : Nat
  sendRingCapacity : Nat
  maxPayloadLen : UInt32
  idleTimeoutMs : UInt32 := 0
  heartbeatIntervalMs : UInt32 := 0
  handled : UInt16 → Bool

structure World where
  cfg : Config
  loop : EventLoop Handler := .empty
  isOpen : Int → Bool := fun _ => false
  /-- The heap: objects `0, …, created - 1`. -/
  obj : Nat → Session := fun _ => default
  created : Nat := 0
  sessions : List (UInt64 × Nat) := []
  localCounter : UInt64 := 1
  currentConnections : Int := 0
  errors : Nat := 0
  rxMessages : Nat := 0
  /-- The clock, in nanoseconds. -/
  now : Nat := 0
  timers : List Timer := []
  writes : List WriteResult := []
  ctls : List (Option Nat) := []
  /-- How many connections the kernel will still complete. -/
  arrivals : Nat := 0
  /-- How often `onAccepted` was called. -/
  accepts : Nat := 0
  /-- The calls of `onSessionStart` and `onSessionEnd`. -/
  trace : List AppEvent := []
  /-- The calls an application made of its controllers' hooks. -/
  hookCalls : List HookCall := []

/-- The calls an application receives; `onDialed` is the callback of a dial. -/
inductive Callback where
  | onSessionStart (id : UInt64)
  | onSessionEnd (id : UInt64)
  | onMessage (id : UInt64) (opcode : UInt16) (body : List UInt8)
  | onDialed (id : UInt64)

/-- The arguments `body, bodyLen` of a send. -/
inductive Body where
  | bytes (data : List UInt8)
  | null (len : Nat)

def Body.len : Body → Nat
  | .bytes data => data.length
  | .null len => len

def Body.isNull : Body → Bool
  | .bytes _ => false
  | .null _ => true

def Body.data : Body → List UInt8
  | .bytes data => data
  | .null _ => []

def baseEpollMask : UInt32 :=
  makeEventMask [Event.read, Event.edgeTriggered, Event.error, Event.hangup, Event.readHangup]

/-- The events a pending dial waits for. -/
def dialEpollMask : UInt32 :=
  makeEventMask [Event.write, Event.edgeTriggered, Event.error, Event.hangup, Event.readHangup]

namespace World

def setObj (w : World) (o : Nat) (s : Session) : World :=
  { w with obj := fun o' => if o' = o then s else w.obj o' }

def modify (w : World) (o : Nat) (f : Session → Session) : World := w.setObj o (f (w.obj o))

def setLoop (w : World) (loop : EventLoop Handler) : World := { w with loop }

/-- The next answer of `epoll_ctl`; success where none is left. -/
def ctl (w : World) : Option Nat := w.ctls.headD none

def popCtl (w : World) : World := { w with ctls := w.ctls.tail }

def removeFd (w : World) (fd : Int) : World := (w.setLoop (w.loop.removeFd w.ctl fd).1).popCtl

def closeFd (w : World) (fd : Int) : World :=
  { w with isOpen := fun fd' => if fd' = fd then false else w.isOpen fd' }

/-- `Socket::close`. -/
def closeSocket (w : World) (o : Nat) : World :=
  (w.closeFd (w.obj o).fd).modify o fun s => { s with fd := -1 }

/-- `sessions_.find`. -/
def find (w : World) (id : UInt64) : Option Nat := w.sessions.lookup id

def addTimer (w : World) (t : Timer) : World := { w with timers := w.timers ++ [t] }

/-- `EngineMetrics::onError`. -/
def onError (w : World) : World := { w with errors := w.errors + 1 }

/-- `EngineMetrics::onConnectionOpened`, and `onSessionStart` is about to be called. -/
def sessionStarted (w : World) (o : Nat) : World :=
  { w with currentConnections := w.currentConnections + 1, trace := w.trace ++ [.started o] }

/-- `EngineMetrics::onConnectionClosed`, and `onSessionEnd` is about to be called. -/
def sessionEnded (w : World) (o : Nat) : World :=
  { w with currentConnections := w.currentConnections - 1, trace := w.trace ++ [.ended o] }

/-- `sessions_.emplace`, which does not replace an entry. -/
def emplace (w : World) (id : UInt64) (o : Nat) : World :=
  if (w.find id).isNone = true then { w with sessions := w.sessions ++ [(id, o)] } else w

/-- `sessions_.erase`. -/
def erase (w : World) (id : UInt64) : World :=
  { w with sessions := w.sessions.filter (·.1 ≠ id) }

/-- `nextSessionId_` has been called once more. -/
def issueId (w : World) : World :=
  { w with localCounter := w.localCounter + 1, accepts := w.accepts + 1 }

/-- A new object on the heap. -/
def allocate (w : World) (s : Session) : World :=
  { w with created := w.created + 1 }.setObj w.created s

/-- A descriptor the kernel hands out. -/
def openFd (w : World) (fd : Int) : World :=
  { w with isOpen := fun fd' => if fd' = fd then true else w.isOpen fd' }

/-- One of the connections to come. -/
def arrive (w : World) : World := { w with arrivals := w.arrivals - 1 }

/-- The descriptor is registered for something else than a session. -/
def isOther (w : World) (fd : Int) : Bool :=
  match w.loop.fdContexts fd with
  | some ctx =>
    match ctx.handler with
    | .session _ => false
    | .other _ => true
  | none => false

/-- An acceptor, the wake-up descriptor or a dial registers a new descriptor, and
closes it again where that fails. -/
def registerOther (w : World) (fd : Int) (events : UInt32) (tag : Nat) : World :=
  if fd < 0 ∨ w.isOpen fd = true then w
  else
    match w.loop.addFd w.ctl fd events (some (.other tag)) with
    | (loop, some _) => (w.setLoop loop).popCtl
    | (loop, none) => (w.setLoop loop).popCtl.openFd fd

/-- Such a descriptor is removed and closed. -/
def releaseOther (w : World) (fd : Int) : World :=
  if w.isOther fd = true then (w.removeFd fd).closeFd fd else w

end World

/-! ## Closing -/

section Source

variable (app : Callback → World → World)

def isNormalCloseReason (reason : String) : Bool :=
  reason == "peer_close" || reason == "worker_shutdown" || reason == "epoll_hup" ||
    reason == "epoll_rdhup" || reason == "idle_timeout" || reason == "heartbeat_timeout"

def onSessionClosed (id : UInt64) (w : World) : World :=
  match w.find id with
  | none => w
  | some o => app (.onSessionEnd (w.obj o).id) ((w.erase id).sessionEnded o)

/-- What `beginClose_` and `closeFromManager_` do alike: `Closing`, the registration
and the socket go, `Closed`. -/
def takeDown (o : Nat) (reason : String) (w : World) : World :=
  let w := w.modify o fun s => { s with state := .closing }
  let fd := (w.obj o).fd
  let w := if 0 ≤ fd then w.removeFd fd else w
  let w := w.closeSocket o
  w.modify o fun s => { s with state := .closed, closeReason := some reason }

def beginClose (o : Nat) (reason : String) (err : Nat) (w : World) : World :=
  if (w.obj o).state = .closed then w
  else if (w.obj o).state = .closing then w
  else
    let w := takeDown o reason w
    let w := if err ≠ 0 ∨ isNormalCloseReason reason = false then w.onError else w
    onSessionClosed app (w.obj o).id w

def closeFromManager (o : Nat) (reason : String) (w : World) : World :=
  if (w.obj o).state = .closed then w else takeDown o reason w

def closeByPolicy (id : UInt64) (reason : Option String) (err : Nat) (w : World) : World :=
  match w.find id with
  | none => w
  | some o => beginClose app o (reason.getD "policy_close") err w

/-- `closeAllByPolicy`; `order` is the order in which the hash map is iterated. -/
def closeAllByPolicy (reason : Option String) (err : Nat) (order : List UInt64) (w : World) :
    World :=
  let keys := w.sessions.map Prod.fst
  let ids := if order.isPerm keys = true then order else keys
  ids.foldl (fun w id => closeByPolicy app id reason err w) w

/-! ## Sending -/

/-- The mask a session asks for. -/
def interestMask (enable : Bool) : UInt32 :=
  if enable = true then baseEpollMask ||| Event.write else baseEpollMask

def setWriteInterest (o : Nat) (enable : Bool) (w : World) : World :=
  let s := w.obj o
  if s.state ≠ .connected then w
  else
    let desired := interestMask enable
    if s.currentEpollMask = desired then w
    else if s.fd < 0 then w
    else
      match w.loop.updateFd w.ctl s.fd desired with
      | (loop, some e) => beginClose app o "epoll_mod_failed" e (w.setLoop loop).popCtl
      | (loop, none) =>
        (w.setLoop loop).popCtl.modify o fun s => { s with currentEpollMask := desired }

/-- The send side of a session. -/
def World.pipe (w : World) (o : Nat) : Pipe :=
  ⟨(w.obj o).sendRing, (w.obj o).sent, w.writes, (w.obj o).lastWrite⟩

def World.setWrites (w : World) (writes : List WriteResult) : World := { w with writes }

def World.setPipe (w : World) (o : Nat) (p : Pipe) : World :=
  (w.setWrites p.answers).modify o fun s =>
    { s with sendRing := p.ring, sent := p.sent, lastWrite := p.last }

def enqueuePacketU16Coalesced (o : Nat) (lenHdr4 opHdr2 : List UInt8) (body : Body) (w : World) :
    World × Bool :=
  let s := w.obj o
  if s.state ≠ .connected then (w, false)
  else if 0 < body.len ∧ body.isNull = true then
    (beginClose app o "send_invalid_body" 0 w, false)
  else
    match sendCoalesced s.sendRing s.sent [lenHdr4, opHdr2, body.data] w.writes with
    | (p, .close reason err) => (beginClose app o reason err (w.setPipe o p), false)
    | (p, .interest enable) =>
      let w := setWriteInterest app o enable (w.setPipe o p)
      (w, decide ((w.obj o).state = .connected))

def sendPacketU16 (id : UInt64) (opcode : UInt16) (body : Body) (w : World) : World × Bool :=
  let payloadLen := MessageHeader.payloadLenForBody body.len
  if MessageHeader.kMaxPayloadLenU64 < payloadLen then (w, false)
  else
    match w.find id with
    | none => (w, false)
    | some o =>
      let hdr : MessageHeader := ⟨UInt32.ofNat payloadLen, opcode⟩
      let packet : Packet := ⟨opcode, body.data⟩
      let w := w.modify o (·.enterCall packet)
      match enqueuePacketU16Coalesced app o hdr.encodeLen hdr.encodeOpcode body w with
      | (w, false) => (w, false)
      | (w, true) => (w.modify o (·.acceptCall packet), true)

def onWritable (o : Nat) (w : World) : World :=
  let s := w.obj o
  if s.state ≠ .connected then w
  else
    match flushSend s.sendRing s.sent s.lastWrite w.writes with
    | (p, .close reason err) => beginClose app o reason err (w.setPipe o p)
    | (p, .keep) => setWriteInterest app o (!p.ring.empty) (w.setPipe o p)

/-! ## Receiving -/

/-- The history of a message's dispatch: did a handler or a reply end the session? -/
def World.noteClosed (w : World) (o : Nat) : World :=
  if (w.obj o).state = .connected then w
  else w.modify o fun s => { s with closedInDispatch := true }

/-- `dispatchOnMessage` for a message of session object `o`. -/
def dispatchOnMessage (o : Nat) (message : List UInt8) (w : World) : World :=
  let id := (w.obj o).id
  let w := { w with rxMessages := w.rxMessages + 1 }.modify o fun s =>
    { s with payloads := s.payloads ++ [message] }
  match splitOpcodeU16Be message with
  | none => closeByPolicy app id (some "invalid_opcode_prefix") 0 w
  | some (opcode, body) =>
    if opcode = kOpcodePing then (sendPacketU16 app id kOpcodePong (.null 0) w).1.noteClosed o
    else if opcode = kOpcodePong then w
    else
      let w := w.modify o fun s => { s with dispatched := s.dispatched ++ [⟨opcode, body⟩] }
      if w.cfg.handled opcode = true then (app (.onMessage id opcode body) w).noteClosed o
      else closeByPolicy app id (some "unknown_opcode") 0 w

def dispatchInjected (id : UInt64) (opcode : UInt16) (body : List UInt8) (w : World) : World :=
  match w.find id with
  | none => w
  | some _ =>
    if w.cfg.handled opcode = true then app (.onMessage id opcode body) w
    else closeByPolicy app id (some "unknown_injected_opcode") 0 w

/-- The loop of `processRecvFrames_`: `true` where more bytes are awaited. -/
def processRecvFrames (o : Nat) : (fuel : Nat) → World → World × Bool
  | 0, w => (w, true)
  | fuel + 1, w =>
    match tryFrame w.cfg.maxPayloadLen (w.obj o).recvRing with
    | (recvRing, .needMore) => (w.modify o fun s => { s with recvRing }, true)
    | (recvRing, .invalid _) =>
      (beginClose app o "framer_invalid" 0 (w.modify o fun s => { s with recvRing }), false)
    | (recvRing, .framed message) =>
      let w := dispatchOnMessage app o message (w.modify o fun s => { s with recvRing })
      if (w.obj o).state ≠ .connected then (w, false) else processRecvFrames o fuel w

/-- How many bytes a `recvmsg` is to deliver, or an interruption. -/
inductive Cut where
  | eintr
  | upTo (n : Nat)
deriving DecidableEq, Repr

/-- What `recvmsg` reports once the bytes that have arrived are read. -/
inductive RecvEnd where
  | eagain
  | zero
  | failed (err : Nat)
deriving DecidableEq, Repr

/-- The `recvmsg` calls of one readiness event: the bytes that have arrived, how
they are cut, and what follows them.  Where the list of cuts ends, `recvmsg`
delivers as much as there is room for. -/
structure RecvScript where
  queue : List UInt8
  cuts : List Cut
  ending : RecvEnd
deriving DecidableEq, Repr

/-- The result of one `recvmsg`. -/
inductive RecvResult where
  | data (n : Nat)
  | eintr
  | ended (ending : RecvEnd)
deriving DecidableEq, Repr

/-- One `recvmsg` into `offered` bytes of room: at least one byte if any has
arrived. -/
def RecvScript.recvmsg (script : RecvScript) (offered : Nat) : RecvResult × RecvScript :=
  let room := min offered script.queue.length
  match script.cuts with
  | .eintr :: cuts => (.eintr, { script with cuts })
  | .upTo n :: cuts =>
    if script.queue = [] then (.ended script.ending, script)
    else (.data (taken n room), { script with cuts, queue := script.queue.drop (taken n room) })
  | [] =>
    if script.queue = [] then (.ended script.ending, script)
    else (.data (taken room room), { script with queue := script.queue.drop (taken room room) })

/-- The loop of `onReadable_`. -/
def onReadableLoop (o : Nat) : (fuel : Nat) → RecvScript → World → World
  | 0, _, w => w
  | fuel + 1, script, w =>
    let recvRing := (w.obj o).recvRing
    let iov := recvRing.writeIov recvRing.freeSpace
    if iov.length = 0 then beginClose app o "recv_overflow" 0 w
    else
      match script.recvmsg (RingBuffer.offered iov) with
      | (.data n, script') =>
        -- the fragments are filled, `commitWrite`, `touchRx_`
        let w := w.modify o fun s => { s with
          recvRing := recvRing.receive recvRing.freeSpace script.queue n
          received := s.received ++ script.queue.take n
          acceptedAtRx := s.accepted.length
          lastRxAt := w.now }
        match processRecvFrames app o ((w.obj o).recvRing.available + 1) w with
        | (w, false) => w
        | (w, true) => onReadableLoop o fuel script' w
      | (.eintr, script') => onReadableLoop o fuel script' w
      | (.ended .zero, _) => beginClose app o "peer_close" 0 w
      | (.ended .eagain, _) => w
      | (.ended (.failed e), _) => beginClose app o "recv_error" e w

/-- `onReadable_`; each turn of its loop takes a cut or a byte. -/
def onReadable (o : Nat) (script : RecvScript) (w : World) : World :=
  if (w.obj o).state ≠ .connected then w
  else onReadableLoop app o (script.queue.length + script.cuts.length + 1) script w

def onErrorEvent (o : Nat) (events : UInt32) (w : World) : World :=
  if (w.obj o).state ≠ .connected then w
  else if events &&& Event.error ≠ 0 then beginClose app o "epoll_err" 0 w
  else if events &&& (Event.hangup ||| Event.readHangup) ≠ 0 then
    beginClose app o
      (if events &&& Event.readHangup ≠ 0 then "epoll_rdhup" else "epoll_hup") 0 w
  else beginClose app o "epoll_unknown" 0 w

/-- `Session::handleEvent`. -/
def handleEvent (o : Nat) (events : UInt32) (script : RecvScript) (w : World) : World :=
  if (w.obj o).state = .closed then w
  else
    let w := if events &&& Event.read ≠ 0 then onReadable app o script w else w
    if events &&& Event.read ≠ 0 ∧ (w.obj o).state ≠ .connected then w
    else
      let w := if events &&& Event.write ≠ 0 then onWritable app o w else w
      if events &&& Event.write ≠ 0 ∧ (w.obj o).state ≠ .connected then w
      else if events &&& (Event.error ||| Event.hangup ||| Event.readHangup) ≠ 0 then
        onErrorEvent app o events w
      else w

/-! ## Timers -/

def armIdleTimerAfter (o : Nat) (delayMs : Nat) (w : World) : World :=
  let s := w.obj o
  if s.idleTimeoutMs = 0 ∨ s.state ≠ .connected ∨ s.idleTimerArmed = true then w
  else (w.addTimer ⟨o, .idle, delayMs, w.now⟩).modify o fun s => { s with idleTimerArmed := true }

def armHeartbeatTimerAfter (o : Nat) (delayMs : Nat) (w : World) : World :=
  let s := w.obj o
  if s.heartbeatIntervalMs = 0 ∨ s.state ≠ .connected ∨ s.heartbeatTimerArmed = true then w
  else
    (w.addTimer ⟨o, .heartbeat, delayMs, w.now⟩).modify o fun s =>
      { s with heartbeatTimerArmed := true }

def startTimeouts (o : Nat) (idleTimeoutMs heartbeatIntervalMs : UInt32) (w : World) : World :=
  let w := w.modify o fun s => { s with idleTimeoutMs, heartbeatIntervalMs, lastRxAt := w.now }
  let w := if 0 < idleTimeoutMs then armIdleTimerAfter o idleTimeoutMs.toNat w else w
  if 0 < heartbeatIntervalMs then armHeartbeatTimerAfter o heartbeatIntervalMs.toNat w else w

/-- The time since the last received bytes, in whole milliseconds. -/
def World.elapsedMs (w : World) (o : Nat) : Nat := (w.now - (w.obj o).lastRxAt) / 1000000

def onIdleTimer (o : Nat) (w : World) : World :=
  let w := w.modify o fun s => { s with idleTimerArmed := false }
  let s := w.obj o
  if s.idleTimeoutMs = 0 ∨ s.state ≠ .connected then w
  else
    let elapsed := w.elapsedMs o
    if s.idleTimeoutMs.toNat ≤ elapsed then beginClose app o "idle_timeout" 0 w
    else
      let remaining := s.idleTimeoutMs.toNat - elapsed
      armIdleTimerAfter o (if remaining = 0 then 1 else remaining) w

def onHeartbeatTimer (o : Nat) (w : World) : World :=
  let w := w.modify o fun s => { s with heartbeatTimerArmed := false }
  let s := w.obj o
  if s.heartbeatIntervalMs = 0 ∨ s.state ≠ .connected then w
  else
    let kMaxMissed := 2
    let elapsed := w.elapsedMs o
    let interval := s.heartbeatIntervalMs.toNat
    let timeout := interval * kMaxMissed
    if timeout ≤ elapsed then beginClose app o "heartbeat_timeout" 0 w
    else if interval ≤ elapsed then
      let w := (sendPacketU16 app s.id kOpcodePing (.null 0) w).1
      let next := min (timeout - elapsed) interval
      armHeartbeatTimerAfter o (if next = 0 then 1 else next) w
    else
      let remaining := interval - elapsed
      armHeartbeatTimerAfter o (if remaining = 0 then 1 else remaining) w

/-! ## New sessions and shutdown -/

def nextSessionId (w : World) : UInt64 := (w.cfg.ownerWorkerId.toUInt64 <<< 32) ||| w.localCounter

/-- `SessionHandle::ownerWorkerFromId`. -/
def ownerWorkerFromId (sid : UInt64) : Int32 := ((sid >>> 32) &&& 0xFFFFFFFF).toUInt32.toInt32

/-- `Session::create`: `none` where the rings cannot be made, for want of memory or
of a capacity. -/
def createSession (cfg : Config) (id : UInt64) (fd : Int) (now : Nat) (memory : Bool) :
    Option Session :=
  if h : memory = true ∧ 0 < cfg.recvRingCapacity ∧ 0 < cfg.sendRingCapacity then
    some { id, fd, state := .connected, recvRing := .make cfg.recvRingCapacity h.2.1,
           sendRing := .make cfg.sendRingCapacity h.2.2, currentEpollMask := baseEpollMask,
           lastRxAt := now }
  else none

/-- `onAccepted` for a socket on `fd`, with the id of the handle it returns; `0` for
the invalid handle.  A session that is not kept closes its socket on the way out. -/
def onAccepted (fd : Int) (memory : Bool) (w : World) : World × UInt64 :=
  let id := nextSessionId w
  let w := w.issueId
  match createSession w.cfg id fd w.now memory with
  | none => ((w.closeFd fd).onError, 0)
  | some session =>
    let o := w.created
    match w.loop.addFd w.ctl fd baseEpollMask (some (.session o)) with
    | (loop, some _) => (((w.setLoop loop).popCtl.closeFd fd).onError, 0)
    | (loop, none) =>
      let w := (w.setLoop loop).popCtl.allocate session
      let kept := (w.find id).isNone
      let w := w.emplace id o
      let w := startTimeouts o w.cfg.idleTimeoutMs w.cfg.heartbeatIntervalMs w
      let w := app (.onSessionStart id) (w.sessionStarted o)
      (if kept = true then w else w.closeSocket o, id)

/-- `shutdownInOwnerThread`: the descriptors of the dials still pending go first,
then every session, without a word to the application. -/
def shutdownInOwnerThread (dials : List Int) (w : World) : World :=
  let w := dials.foldl World.releaseOther w
  let w := w.sessions.foldl (fun w entry => closeFromManager entry.2 "worker_shutdown" w) w
  { w with sessions := [] }

/-- A timer runs out; its session may be gone by then. -/
def fireTimer (i : Nat) (w : World) : World :=
  match w.timers[i]? with
  | none => w
  | some timer =>
    let w := { w with timers := w.timers.eraseIdx i }
    if w.sessions.any (·.2 = timer.obj) = true then
      match timer.kind with
      | .idle => onIdleTimer app timer.obj w
      | .heartbeat => onHeartbeatTimer app timer.obj w
    else w

end Source

/-! ## Applications and runs -/

/-- What an application can call from its callbacks.  A dial may connect at once,
and then becomes a session on the spot, or be left pending. -/
inductive Api where
  | sendPacketU16 (id : UInt64) (opcode : UInt16) (body : Body)
  | beginClose (id : UInt64) (reason : Option String) (err : Nat)
  | closeAllByPolicy (reason : Option String) (err : Nat) (order : List UInt64)
  | dispatchInjected (id : UInt64) (opcode : UInt16) (body : List UInt8)
  | dialConnected (fd : Int) (memory : Bool)
  | dialPending (fd : Int) (tag : Nat)

/-- A connection arrives on a fresh descriptor. -/
def acceptFresh (app : Callback → World → World) (fd : Int) (memory : Bool) (w : World) :
    World × UInt64 :=
  if fd < 0 ∨ w.isOpen fd = true ∨ w.arrivals = 0 then (w, 0)
  else onAccepted app fd memory (w.arrive.openFd fd)

def call (a : Api) (app : Callback → World → World) (w : World) : World :=
  match a with
  | .sendPacketU16 id opcode body => (Net.sendPacketU16 app id opcode body w).1
  | .beginClose id reason err => closeByPolicy app id reason err w
  | .closeAllByPolicy reason err order => Net.closeAllByPolicy app reason err order w
  | .dispatchInjected id opcode body => Net.dispatchInjected app id opcode body w
  | .dialConnected fd memory =>
    let accepted := acceptFresh app fd memory w
    app (.onDialed accepted.2) accepted.1
  | .dialPending fd tag => w.registerOther fd dialEpollMask tag

/-- Application code that runs to its end. -/
abbrev Client := Script Api Callback World

/-- What the event loop does next. -/
inductive Input where
  | accept (fd : Int) (memory : Bool)
  | registerOther (fd : Int) (events : UInt32) (tag : Nat)
  | releaseOther (fd : Int)
  | dialOk (fd : Int) (memory : Bool)
  | dialFailed (fd : Int)
  | ready (ev : ReadyEvent) (script : RecvScript)
  | timer (i : Nat)
  | task (client : Client)

/-- One step of the event loop: the input, the application's reactions, the
kernel's answers and the time. -/
structure Step where
  input : Input
  user : Callback → World → Client := fun _ _ => .done
  writes : List WriteResult := []
  ctls : List (Option Nat) := []
  now : Nat := 0

/-- The application of a step, as the source's functions see it. -/
def Step.app (t : Step) : Callback → World → World := respond call t.user

def Input.exec (app : Callback → World → World) (w : World) : Input → World
  | .accept fd memory => (acceptFresh app fd memory w).1
  | .registerOther fd events tag => w.registerOther fd events tag
  | .releaseOther fd => w.releaseOther fd
  | .dialOk fd memory =>
    if w.isOther fd = true ∧ 0 < w.arrivals then
      let accepted := onAccepted app fd memory (w.arrive.removeFd fd)
      app (.onDialed accepted.2) accepted.1
    else w
  | .dialFailed fd => app (.onDialed 0) (w.releaseOther fd)
  | .ready ev script =>
    match w.loop.fdContexts ev.fd with
    | some ctx =>
      match ctx.handler with
      | .session o => handleEvent app o ev.events script w
      | .other _ => w
    | none => w
  | .timer i => fireTimer app i w
  | .task client => client.run call w

def step (w : World) (t : Step) : World :=
  t.input.exec t.app { w with writes := t.writes, ctls := t.ctls, now := max w.now t.now }

/-- A worker's run from its construction, with at most `arrivals` connections. -/
def run (cfg : Config) (arrivals : Nat) (steps : List Step) : World :=
  steps.foldl step { cfg, arrivals }

/-- A worker with small rings that handles every message, for runs on fixed inputs. -/
def sampleConfig : Config :=
  { ownerWorkerId := 1, recvRingCapacity := 8, sendRingCapacity := 8, maxPayloadLen := 8,
    handled := fun _ => true }

end HyperNet.Net
