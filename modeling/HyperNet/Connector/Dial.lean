import HyperNet.Lib.Ledger
import HyperNet.Lib.Reentrant
import HyperNet.Net.EventLoop

/-!
# Outbound connections

The dialing half of `ConnectorManager`
(`engine/src/hypernet/connector/ConnectorManager.cpp`): `dialTcpSession` files a dial in
`dials_` and starts an attempt, which ends at once, by a readiness event of its socket or by
one of two kinds of timers.

A dial works on what is shared with the rest of the worker: the table of the event loop, the
descriptors of the process, and the `SessionManager` that takes over a connected socket
(`onAccepted`, `engine/src/hypernet/net/SessionManager.cpp`).  Of these the model has the
parts a dial can meet: descriptors are reused once they are closed, `epoll_ctl`, `socket` and
`connect` answer as they like, the id of a new session may be in use, and other connections
come and go.  `SO_ERROR` belongs to the socket, and reading it clears it.

The application is in control during `onSessionStart`, `onSessionEnd` and the callbacks of
dials, and may dial and close sessions from there.

The options `tcpNoDelay` and the peer's address have no effect on any of this, and
`isTimeout` is only logged; they are left out.  Sockets and dials are numbered, and the
fields of `Dialer` below `sockets` that are marked so are history.
-/

namespace HyperNet.Connector

open Reentrant

abbrev DialId := UInt64

structure DialTcpOptions where
  host : String
  port : UInt16 := 0
  timeoutMs : UInt32 := 3000
  retryDelayMs : UInt32 := 200
  retryOnce : Bool := false
deriving DecidableEq, Repr

/-- A socket: its descriptor and its number. -/
structure Socket where
  fd : Int
  serial : Nat
deriving DecidableEq, Repr

/-- The `err` of a callback: a text, or `strerror` of an error number. -/
inductive DialError where
  | text (s : String)
  | errno (e : Nat)
deriving DecidableEq, Repr

/-- What a callback is called with; the session id `0` is the invalid handle. -/
structure Dialed where
  ok : Bool
  session : UInt64
  err : DialError
deriving DecidableEq, Repr

structure DialState (κ : Type) where
  opt : DialTcpOptions
  cb : κ
  attemptIndex : UInt32 := 0
  connectedEventRegistered : Bool := false
  completed : Bool := false
  /-- `none` for the invalid socket. -/
  sock : Option Socket := none
  /-- The number of the dial. -/
  serial : Nat

/-- The timers of dials, with their delay. -/
inductive DialTimer where
  /-- `dialStartAttempt_` -/
  | retry (id : DialId) (attempt : UInt32) (delay : Nat)
  /-- `dialTimeout_` -/
  | timeout (id : DialId) (expectedAttempt : UInt32) (delay : Nat)
deriving DecidableEq, Repr

/-- Who a socket is registered for. -/
inductive DialHandler where
  | dial (id : DialId) (socket : Nat)
  | session (socket : Nat)
deriving DecidableEq, Repr

/-- The calls an application receives. -/
inductive DialCallback (κ : Type) where
  | onSessionStart (id : UInt64)
  | onSessionEnd (id : UInt64)
  | dialed (cb : κ) (r : Dialed)

structure Dialer (κ : Type) where
  dials : DialId → Option (DialState κ) := fun _ => none
  nextDialId : DialId := 1
  timers : List DialTimer := []
  /-- Calls of `dialTcpSession` from other threads. -/
  posted : List (DialTcpOptions × Option κ) := []
  loop : Net.EventLoop DialHandler := .empty
  ownerWorkerId : UInt32 := 0
  localCounter : UInt64 := 1
  /-- `sessions_`, by the sockets they own. -/
  sessions : List (UInt64 × Socket) := []
  /-- The socket a descriptor stands for. -/
  files : Int → Option Nat := fun _ => none
  /-- What `SO_ERROR` of a socket would report. -/
  soError : Nat → Nat := fun _ => 0
  /-- What `socket` will return, `none` for a failure, … -/
  fds : List (Option Int) := []
  /-- … the `errno` of `connect`, `none` for success, … -/
  connects : List (Option Nat) := []
  /-- … that of `epoll_ctl`, … -/
  ctls : List (Option Nat) := []
  /-- … whether `getsockopt` works … -/
  sockopts : List Bool := []
  /-- … and whether a session can be made. -/
  memory : List Bool := []
  /-- How many sockets there have been. -/
  sockets : Nat := 0
  /-- History: how often `onAccepted` was called. -/
  accepts : Nat := 0
  /-- History: how often `nextDialId_` was used. -/
  issued : Nat := 0
  /-- History: the dials that were accepted or refused. -/
  requests : List (DialTcpOptions × κ) := []
  /-- History: the callbacks that have returned, with the number of their dial. -/
  invoked : List (Nat × κ × Dialed) := []
  /-- History: the sockets opened for dials, with the number of the dial. -/
  openedFor : List (Nat × Nat) := []
  /-- History: the calls of `connect`, by the number of the dial. -/
  attempts : List Nat := []
  /-- History: the dials of which an attempt was torn down by a retry that was not
  scheduled for the attempt before it. -/
  torn : List Nat := []
  /-- History: the sockets that `connect` connected at once. -/
  immediate : List Nat := []
  /-- History: the sockets whose `SO_ERROR` was reported to be other than 0. -/
  reported : List Nat := []
  /-- History: the dials and sockets reported with `ok = true`. -/
  promoted : List (Nat × Nat) := []
  /-- History: the sockets of sessions whose id was in use. -/
  collided : List Nat := []

def EINPROGRESS : Nat := 115

/-- A dial that has given up its socket and is done. -/
def DialState.finished {κ : Type} (st : DialState κ) : DialState κ :=
  { st with
    connectedEventRegistered := if st.sock.isSome = true then false else st.connectedEventRegistered
    sock := none, completed := true }

/-- The events a dial waits for. -/
def dialMask : UInt32 :=
  Net.makeEventMask [Net.Event.write, Net.Event.edgeTriggered, Net.Event.error, Net.Event.hangup,
    Net.Event.readHangup]

/-- The events a session waits for. -/
def sessionMask : UInt32 :=
  Net.makeEventMask [Net.Event.read, Net.Event.edgeTriggered, Net.Event.error, Net.Event.hangup,
    Net.Event.readHangup]

namespace Dialer

variable {κ : Type}

/-! ## The parts of the state -/

def setDial (w : Dialer κ) (id : DialId) (st : DialState κ) : Dialer κ :=
  { w with dials := fun id' => if id' = id then some st else w.dials id' }

/-- `dials_.erase`. -/
def erase (w : Dialer κ) (id : DialId) : Dialer κ :=
  { w with dials := fun id' => if id' = id then none else w.dials id' }

def addTimer (w : Dialer κ) (t : DialTimer) : Dialer κ := { w with timers := w.timers ++ [t] }

def setLoop (w : Dialer κ) (loop : Net.EventLoop DialHandler) : Dialer κ := { w with loop }

/-- The next answer of `epoll_ctl`; success where none is left. -/
def ctl (w : Dialer κ) : Option Nat := w.ctls.headD none

def popCtl (w : Dialer κ) : Dialer κ := { w with ctls := w.ctls.tail }

def removeFd (w : Dialer κ) (fd : Int) : Dialer κ := (w.setLoop (w.loop.removeFd w.ctl fd).1).popCtl

/-- `Socket::close`. -/
def close (w : Dialer κ) (fd : Int) : Dialer κ :=
  { w with files := fun fd' => if fd' = fd then none else w.files fd' }

/-- A new socket on a descriptor that is free. -/
def openSocket (w : Dialer κ) (fd : Int) : Dialer κ :=
  { w with files := fun fd' => if fd' = fd then some w.sockets else w.files fd'
           sockets := w.sockets + 1 }

/-- `Socket::createTcpIPv4` for a dial: the kernel hands out a free descriptor, or fails. -/
def socket (w : Dialer κ) (serial : Nat) : Dialer κ × Option Socket :=
  match w.fds.headD none with
  | none => ({ w with fds := w.fds.tail }, none)
  | some fd =>
    if fd < 0 ∨ (w.files fd).isSome = true then ({ w with fds := w.fds.tail }, none)
    else
      ({ w.openSocket fd with
          fds := w.fds.tail, openedFor := w.openedFor ++ [(w.sockets, serial)] },
        some ⟨fd, w.sockets⟩)

/-- `Socket::connect`, with the `errno` of a failure. -/
def connect (w : Dialer κ) (serial : Nat) (client : Socket) : Dialer κ × Option Nat :=
  match w.connects.headD (some EINPROGRESS) with
  | none => ({ w with connects := w.connects.tail, attempts := w.attempts ++ [serial],
                      immediate := w.immediate ++ [client.serial] }, none)
  | some e => ({ w with connects := w.connects.tail, attempts := w.attempts ++ [serial] }, some e)

/-- `getsockopt(fd, SOL_SOCKET, SO_ERROR)`, which clears the error it reports. -/
def getsockopt (w : Dialer κ) (fd : Int) : Dialer κ × Option Nat :=
  match w.files fd, w.sockopts.headD true with
  | some n, true =>
    ({ w with soError := fun n' => if n' = n then 0 else w.soError n'
              sockopts := w.sockopts.tail
              reported := if w.soError n = 0 then w.reported else w.reported ++ [n] },
      some (w.soError n))
  | _, _ => ({ w with sockopts := w.sockopts.tail }, none)

/-! ## Sessions -/

def nextSessionId (w : Dialer κ) : UInt64 := (w.ownerWorkerId.toUInt64 <<< 32) ||| w.localCounter

/-- `sessions_.find`. -/
def find (w : Dialer κ) (id : UInt64) : Option Socket := w.sessions.lookup id

section Source

variable (app : DialCallback κ → Dialer κ → Dialer κ)

/-- A session is listed under its id, unless that is in use. -/
def list (w : Dialer κ) (id : UInt64) (s : Socket) : Dialer κ :=
  if (w.find id).isNone = true then { w with sessions := w.sessions ++ [(id, s)] }
  else { w with collided := w.collided ++ [s.serial] }

/-- `SessionManager::onAccepted`, with the id of the handle it returns.  A session that is
not kept closes its socket on the way out. -/
def onAccepted (sock : Option Socket) (w : Dialer κ) : Dialer κ × UInt64 :=
  let id := w.nextSessionId
  let created := w.memory.headD true
  let w := { w with
    localCounter := w.localCounter + 1, memory := w.memory.tail, accepts := w.accepts + 1 }
  match sock with
  | none => (w, 0)
  | some s =>
    if created = false then (w.close s.fd, 0)
    else
      match w.loop.addFd w.ctl s.fd sessionMask (some (.session s.serial)) with
      | (loop, some _) => ((w.setLoop loop).popCtl.close s.fd, 0)
      | (loop, none) =>
        let w := (w.setLoop loop).popCtl
        let kept := (w.find id).isNone
        let w := app (.onSessionStart id) (w.list id s)
        (if kept = true then w else w.close s.fd, id)

/-- A session ends: its registration, its socket and its entry go. -/
def closeSession (id : UInt64) (w : Dialer κ) : Dialer κ :=
  match w.find id with
  | none => w
  | some s =>
    let w := (w.removeFd s.fd).close s.fd
    app (.onSessionEnd id) { w with sessions := w.sessions.filter (·.1 ≠ id) }

/-! ## Dials -/

/-- The registration of a dial's socket goes, if it has one. -/
def deregister (st : DialState κ) (w : Dialer κ) : Dialer κ :=
  match st.sock with
  | some s => if st.connectedEventRegistered = true then w.removeFd s.fd else w
  | none => w

/-- `sock.close()` for the socket of a dial. -/
def closeSock (st : DialState κ) (w : Dialer κ) : Dialer κ :=
  match st.sock with
  | some s => w.close s.fd
  | none => w

/-- The callback is called, then the dial leaves the table. -/
def conclude (id : DialId) (st : DialState κ) (r : Dialed) (w : Dialer κ) : Dialer κ :=
  let w := app (.dialed st.cb r) w
  { w.erase id with invoked := w.invoked ++ [(st.serial, st.cb, r)] }

def finishDialFail (id : DialId) (attemptIndex : UInt32) (err : DialError) (w : Dialer κ) :
    Dialer κ :=
  match w.dials id with
  | none => w
  | some st =>
    if st.completed = true ∨ st.attemptIndex ≠ attemptIndex then w
    else
      let w := closeSock st (deregister st w)
      conclude app id st.finished ⟨false, 0, err⟩ (w.setDial id st.finished)

def finishDialOk (id : DialId) (attemptIndex : UInt32) (w : Dialer κ) : Dialer κ :=
  match w.dials id with
  | none => w
  | some st =>
    if st.completed = true ∨ st.attemptIndex ≠ attemptIndex then w
    else
      match onAccepted app st.sock ((deregister st w).setDial id st.finished) with
      | (w, h) =>
        if h = 0 then
          conclude app id st.finished
            ⟨false, 0, .text "dial connected but failed to create session"⟩ w
        else
          conclude app id st.finished ⟨true, h, .text ""⟩
            { w with
              promoted := w.promoted ++ st.sock.toList.map fun s => (st.serial, s.serial) }

/-- What is left of an earlier attempt goes. -/
def tearDown (st : DialState κ) (attemptIndex : UInt32) (w : Dialer κ) : Dialer κ :=
  let w := closeSock st (deregister st w)
  if st.sock.isSome = true ∧ ¬ st.attemptIndex < attemptIndex then
    { w with torn := w.torn ++ [st.serial] }
  else w

/-- `dialStartAttempt_` from `connect` on; its `client` is closed when the function returns,
unless the dial has it. -/
def connectClient (id : DialId) (attemptIndex : UInt32) (st : DialState κ) (client : Socket)
    (w : Dialer κ) : Dialer κ :=
  match w.connect st.serial client with
  | (w, none) => finishDialOk app id attemptIndex (w.setDial id { st with sock := some client })
  | (w, some e) =>
    if e ≠ EINPROGRESS then
      if st.opt.retryOnce = true ∧ attemptIndex = 0 then
        (w.addTimer (.retry id 1 st.opt.retryDelayMs.toNat)).close client.fd
      else (finishDialFail app id attemptIndex (.errno e) w).close client.fd
    else
      match w.loop.addFd w.ctl client.fd dialMask (some (.dial id client.serial)) with
      | (loop, some _) =>
        finishDialFail app id attemptIndex (.text "addFd failed")
          ((w.setLoop loop).popCtl.close client.fd)
      | (loop, none) =>
        let w := (w.setLoop loop).popCtl.setDial id
          { st with sock := some client, connectedEventRegistered := true }
        if 0 < st.opt.timeoutMs then
          w.addTimer (.timeout id attemptIndex st.opt.timeoutMs.toNat)
        else w

/-- `dialStartAttempt_` from `createTcpIPv4` on. -/
def createClient (id : DialId) (attemptIndex : UInt32) (st : DialState κ) (w : Dialer κ) :
    Dialer κ :=
  match w.socket st.serial with
  | (w, none) => finishDialFail app id attemptIndex (.text "socket() failed") w
  | (w, some client) => connectClient app id attemptIndex st client w

def dialStartAttempt (id : DialId) (attemptIndex : UInt32) (w : Dialer κ) : Dialer κ :=
  match w.dials id with
  | none => w
  | some st =>
    if st.completed = true then w
    else
      let w := tearDown st attemptIndex w
      let st := { st with sock := none, connectedEventRegistered := false, attemptIndex }
      createClient app id attemptIndex st (w.setDial id st)

/-- `DialState::handleEvent`. -/
def handleEvent (id : DialId) (fd : Int) (w : Dialer κ) : Dialer κ :=
  match w.dials id with
  | none => w
  | some st =>
    if st.completed = true then w
    else
      match w.getsockopt fd with
      | (w, none) =>
        finishDialFail app id st.attemptIndex (.text "getsockopt(SO_ERROR) failed") w
      | (w, some soErr) =>
        if soErr ≠ 0 then
          if st.opt.retryOnce = true ∧ st.attemptIndex = 0 then
            w.addTimer (.retry id (st.attemptIndex + 1) st.opt.retryDelayMs.toNat)
          else finishDialFail app id st.attemptIndex (.errno soErr) w
        else finishDialOk app id st.attemptIndex w

def dialTimeout (id : DialId) (expectedAttempt : UInt32) (w : Dialer κ) : Dialer κ :=
  match w.dials id with
  | none => w
  | some st =>
    if st.completed = true ∨ st.attemptIndex ≠ expectedAttempt then w
    else if st.opt.retryOnce = true ∧ expectedAttempt = 0 then
      w.addTimer (.retry id 1 st.opt.retryDelayMs.toNat)
    else finishDialFail app id expectedAttempt (.text "dial timeout") w

/-- A new dial is filed, unless its id is in use: `emplace` does not replace an entry, and the
new state is dropped with its callback. -/
def emplace (id : DialId) (opt : DialTcpOptions) (cb : κ) (w : Dialer κ) : Dialer κ :=
  if (w.dials id).isSome = true then w
  else { w.setDial id { opt, cb, serial := w.requests.length } with
           requests := w.requests ++ [(opt, cb)] }

/-- `dialTcpSession` in the owner thread. -/
def dialTcpSession (opt : DialTcpOptions) (cb : Option κ) (w : Dialer κ) : Dialer κ :=
  match cb with
  | none => w
  | some cb =>
    if opt.host = "" ∨ opt.port = 0 then
      let r : Dialed := ⟨false, 0, .text "dialTcpSession: invalid host/port"⟩
      let w := app (.dialed cb r) w
      { w with requests := w.requests ++ [(opt, cb)]
               invoked := w.invoked ++ [(w.requests.length, cb, r)] }
    else
      let id := w.nextDialId
      let w := { w with nextDialId := id + 1, issued := w.issued + 1 }
      dialStartAttempt app id 0 (w.emplace id opt cb)

/-- One of the armed timers fires. -/
def fire (i : Nat) (w : Dialer κ) : Dialer κ :=
  match w.timers[i]? with
  | none => w
  | some t =>
    let w := { w with timers := w.timers.eraseIdx i }
    match t with
    | .retry id attempt _ => dialStartAttempt app id attempt w
    | .timeout id expectedAttempt _ => dialTimeout app id expectedAttempt w

/-- The loop passes a readiness event on to the dial it is registered for.  What sessions
make of theirs is left to `closeSession`. -/
def ready (fd : Int) (w : Dialer κ) : Dialer κ :=
  match w.loop.fdContexts fd with
  | none => w
  | some ctx =>
    match ctx.handler with
    | .dial id _ => handleEvent app id fd w
    | .session _ => w

/-- A connection from outside. -/
def accept (fd : Int) (w : Dialer κ) : Dialer κ :=
  if fd < 0 ∨ (w.files fd).isSome = true then w
  else (onAccepted app (some ⟨fd, w.sockets⟩) (w.openSocket fd)).1

/-- The loop runs the next posted call. -/
def runTask (w : Dialer κ) : Dialer κ :=
  match w.posted with
  | [] => w
  | (opt, cb) :: posted => dialTcpSession app opt cb { w with posted }

end Source

end Dialer

/-! ## Applications and runs -/

/-- What an application can call from its callbacks. -/
inductive DialApi (κ : Type) where
  | dialTcpSession (opt : DialTcpOptions) (cb : Option κ)
  | closeSession (id : UInt64)

variable {κ : Type}

def Dialer.call (a : DialApi κ) (app : DialCallback κ → Dialer κ → Dialer κ) (w : Dialer κ) :
    Dialer κ :=
  match a with
  | .dialTcpSession opt cb => Dialer.dialTcpSession app opt cb w
  | .closeSession id => Dialer.closeSession app id w

/-- Application code that runs to its end. -/
abbrev DialClient (κ : Type) := Script (DialApi κ) (DialCallback κ) (Dialer κ)

/-- What happens next. -/
inductive DialInput (κ : Type) where
  /-- Another thread calls `dialTcpSession`. -/
  | post (opt : DialTcpOptions) (cb : Option κ)
  | runTask
  | ready (fd : Int)
  | timer (i : Nat)
  /-- The kernel notes an error of a socket. -/
  | socketError (socket : Nat) (err : Nat)
  | accept (fd : Int)
  | closeSession (id : UInt64)
  /-- The application runs, in a task or a handler of its own. -/
  | task (client : DialClient κ)

/-- A step of the event loop: the input, the application's reactions and the answers of the
kernel. -/
structure DialStep (κ : Type) where
  input : DialInput κ
  user : DialCallback κ → Dialer κ → DialClient κ := fun _ _ => .done
  fds : List (Option Int) := []
  connects : List (Option Nat) := []
  ctls : List (Option Nat) := []
  sockopts : List Bool := []
  memory : List Bool := []

/-- The application of a step, as the source's functions see it. -/
def DialStep.app (t : DialStep κ) : DialCallback κ → Dialer κ → Dialer κ :=
  respond Dialer.call t.user

def DialInput.exec (app : DialCallback κ → Dialer κ → Dialer κ) (w : Dialer κ) :
    DialInput κ → Dialer κ
  | .post opt cb => { w with posted := w.posted ++ [(opt, cb)] }
  | .runTask => w.runTask app
  | .ready fd => w.ready app fd
  | .timer i => w.fire app i
  | .socketError n err => { w with soError := fun n' => if n' = n then err else w.soError n' }
  | .accept fd => w.accept app fd
  | .closeSession id => w.closeSession app id
  | .task client => client.run Dialer.call w

namespace Dialer

/-- The state with the answers the kernel gives in a step. -/
def answered (w : Dialer κ) (t : DialStep κ) : Dialer κ :=
  { w with fds := t.fds, connects := t.connects, ctls := t.ctls, sockopts := t.sockopts,
           memory := t.memory }

def step (w : Dialer κ) (t : DialStep κ) : Dialer κ := t.input.exec t.app (w.answered t)

/-- A run of the dials of a worker, from its construction. -/
def run (ownerWorkerId : UInt32) (steps : List (DialStep κ)) : Dialer κ :=
  steps.foldl step { ownerWorkerId }

/-- The dials as a ledger. -/
def ledger (w : Dialer κ) : Ledger DialId κ Dialed where
  requests := w.requests.map fun q => some q.2
  table id := (w.dials id).map fun st => (st.serial, some st.cb)
  answers := w.invoked

end Dialer

end HyperNet.Connector
