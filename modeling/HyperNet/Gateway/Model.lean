import HyperNet.App.Delivery
import HyperNet.Net.Effects

/-!
# The gateway

The workers of the gateway application: `FepGatewayApplication` with its two controllers,
for the role hello and for the benchmark, over the session manager and the registry of each
worker and the slots of `UpstreamGateway`.  A worker dials the exchange once it is started
and keeps the session in its slot; clients are accepted as they come.  A handler runs to
its end on its own worker, so an event of a worker is one step; what is for a session of
another worker is posted to it.  Sending to a session can end it on the spot (`fails`), and
any session can end at any time.  A worker may read the slot of another one late: it gets a
value the slot has had.

`wire` is what has been handed to a session for sending, `log` what a worker has received
and sent; both are there for the statements, and so are the sessions that have `ended`.
-/

namespace HyperNet.Fep

open App (SessionId SessionHandle ConnState Registry ownerOf)

/-- The role is a byte of the packet, so it may be none of the three. -/
inductive PeerRole where
  | Client
  | Gateway
  | Exchange
  | unknown (byte : UInt8)
  deriving DecidableEq

inductive HelloResult where
  | Ok
  | Reject
  deriving DecidableEq

/-- The fields of a `PerfPingPkt`, and of a `PerfPongPkt`. -/
structure PerfPkt where
  clientSid : UInt64
  seq : UInt64
  t1 : UInt64 := 0
  t2 : UInt64 := 0
  t3 : UInt64 := 0
  t4 : UInt64 := 0
  deriving DecidableEq

inductive Packet where
  | roleHelloAck (result : HelloResult) (role : PeerRole)
  | perfPing (pkt : PerfPkt)
  | perfPong (pkt : PerfPkt)
  deriving DecidableEq

/-- A session of the manager: whether it was dialed, and what it was given to send. -/
structure Conn where
  dialed : Bool
  wire : List Packet := []
  deriving DecidableEq

/-- What is posted to a worker. -/
inductive Task where
  | sendTo (sid : SessionId) (packet : Packet)
  | close (sid : SessionId)
  deriving DecidableEq

inductive Entry where
  | received (sid : SessionId) (packet : Packet)
  | sent (sid : SessionId) (packet : Packet)
  deriving DecidableEq

/-- A worker: its session manager, its registry, its slot with the values it has had, and
its queue. -/
structure Worker where
  accepts : Nat := 0
  sessions : AList fun _ : SessionId => Conn := ∅
  reg : Registry := {}
  slot : SessionId := 0
  past : List SessionId := [0]
  tasks : List Task := []
  ended : List Conn := []
  log : List Entry := []

namespace Worker

variable (w : Worker) (sid : SessionId)

/-! ## One worker -/

/-- `UpstreamGateway::setForWorker`. -/
def setForWorker : Worker := { w with slot := sid, past := sid :: w.past }

/-- `onAccepted`, with `runtime_.onSessionStart`: the id of the handle it returns, 0 for the
invalid one.  A session under an id in use is not kept. -/
def onAccepted (wid : Nat) (dialed created : Bool) : Worker × SessionId :=
  let id := Net.sessionId (UInt32.ofNat wid) (w.accepts + 1)
  let w := { w with accepts := w.accepts + 1 }
  if created then
    ({ w with
        sessions := if id ∈ w.sessions then w.sessions else w.sessions.insert id ⟨dialed, []⟩
        reg := w.reg.add 0 0 ⟨id, wid⟩ }, id)
  else (w, 0)

/-- `finishDialOk_`, with the callback of `onServerStart`. -/
def finishDialOk (wid : Nat) (created : Bool) : Worker :=
  let (w, id) := w.onAccepted wid true created
  if id = 0 then w else w.setForWorker id

/-- `FepGatewayApplication::onSessionEnd`: the hello controller, the runtime, and the slot
once more. -/
def onSessionEnd : Worker :=
  let w := if w.slot ≠ 0 ∧ w.slot = sid then w.setForWorker 0 else w
  let w := { w with reg := w.reg.remove sid }
  if sid ≠ 0 ∧ sid = w.slot then w.setForWorker 0 else w

/-- A session that is there ends. -/
def beginClose : Worker :=
  match w.sessions.lookup sid with
  | none => w
  | some conn =>
    { w with sessions := w.sessions.erase sid, ended := conn :: w.ended }.onSessionEnd sid

/-- The session gets the packet to send. -/
def write (conn : Conn) (packet : Packet) : Worker :=
  { w with
    sessions := w.sessions.insert sid { conn with wire := conn.wire ++ [packet] }
    log := w.log ++ [.sent sid packet] }

/-- `SessionManager::sendPacketU16`. -/
def sendPacketU16 (packet : Packet) (fails : Bool) : Worker :=
  match w.sessions.lookup sid with
  | none => w
  | some conn =>
    let w := w.write sid conn packet
    if fails then w.beginClose sid else w

/-- `sendToLocal_`, and what a posted `sendTo` does on the worker it is for: the handles of
the registry are the worker's own, so the router sends at once. -/
def sendToLocal (packet : Packet) (fails : Bool) : Worker :=
  match w.reg.tryGetHandle sid with
  | none => w
  | some h => w.sendPacketU16 h.id packet fails

def setState (st : ConnState) : Worker := { w with reg := w.reg.setState sid st }

/-- The state of the session's context. -/
def stateOf : Option ConnState := (w.reg.tryGetContext sid).map (·.state)

def receive (packet : Packet) : Worker := { w with log := w.log ++ [.received sid packet] }

def post (task : Task) : Worker := { w with tasks := w.tasks ++ [task] }

end Worker

/-! ## All workers -/

abbrev State (n : Nat) := Fin n → Worker

namespace State

variable {n : Nat} (g : State n)

def modify (w : Fin n) (f : Worker → Worker) : State n := Function.update g w (f (g w))

/-- `SessionService::sendTo`. -/
def sendTo (cw : Fin n) (sid : SessionId) (packet : Packet) (fails : Bool) : State n :=
  match ownerOf n sid with
  | none => g
  | some owner =>
    if cw = owner then g.modify cw (·.sendToLocal sid packet fails)
    else g.modify owner (·.post (.sendTo sid packet))

/-- `SessionService::close`. -/
def close (cw : Fin n) (sid : SessionId) : State n :=
  match ownerOf n sid with
  | none => g
  | some owner =>
    if cw = owner then g.modify cw (·.beginClose sid) else g.modify owner (·.post (.close sid))

/-- The end of `onRoleHello_`: the session is taken as handshaked and told so. -/
def acknowledge (wid : Fin n) (sid : SessionId) (role : PeerRole) (fails : Bool) : State n :=
  (g.modify wid (·.setState sid .Handshaked)).sendTo wid sid (.roleHelloAck .Ok role) fails

def onRoleHello (wid : Fin n) (sid : SessionId) (role : PeerRole) (fails : Bool) : State n :=
  let localUp := (g wid).slot
  if role = .Exchange then
    if localUp ≠ 0 ∧ sid ≠ localUp then g.close wid sid
    else
      (if localUp = 0 then g.modify wid (·.setForWorker sid) else g).acknowledge wid sid role fails
  else if localUp ≠ 0 ∧ sid = localUp then g.close wid sid
  else g.acknowledge wid sid role fails

/-- The slot of a worker as another one sees it. -/
def getForWorker (wid idx : Fin n) (stale : SessionId) : SessionId :=
  if idx ≠ wid ∧ stale ∈ (g idx).past then stale else (g idx).slot

/-- The worker whose slot a ping goes by. -/
def route (handoff : Bool) (wid : Fin n) (sid : SessionId) : Fin n :=
  if handoff then ⟨sid.toNat % n, Nat.mod_lt _ wid.pos⟩ else wid

def onPerfPing (handoff : Bool) (wid : Fin n) (sid : SessionId) (pkt : PerfPkt) (now : UInt64)
    (stale : SessionId) (fails : Bool) : State n :=
  let upstreamSid := g.getForWorker wid (route handoff wid sid) stale
  if upstreamSid = 0 then g
  else g.sendTo wid upstreamSid (.perfPing { pkt with clientSid := sid, t2 := now }) fails

def onPerfPong (wid : Fin n) (pkt : PerfPkt) (now : UInt64) (fails : Bool) : State n :=
  if pkt.clientSid = 0 then g
  else g.sendTo wid pkt.clientSid (.perfPong { pkt with t4 := now }) fails

/-- The next posted task. -/
def drainTask (w : Fin n) (fails : Bool) : State n :=
  match (g w).tasks with
  | [] => g
  | .sendTo sid packet :: rest =>
    g.modify w fun s => { s with tasks := rest }.sendToLocal sid packet fails
  | .close sid :: rest => g.modify w fun s => { s with tasks := rest }.beginClose sid

end State

/-- What happens on a worker: a client connects, the dial completes, a packet arrives from a
session, a session ends, a posted task runs. -/
inductive Event (n : Nat) where
  | accept (w : Fin n) (created : Bool)
  | dialOk (w : Fin n) (created : Bool)
  | roleHello (w : Fin n) (sid : SessionId) (role : PeerRole) (fails : Bool)
  | perfPing (w : Fin n) (sid : SessionId) (pkt : PerfPkt) (now : UInt64) (stale : SessionId)
      (fails : Bool)
  | perfPong (w : Fin n) (sid : SessionId) (pkt : PerfPkt) (now : UInt64) (fails : Bool)
  | sessionEnd (w : Fin n) (sid : SessionId)
  | task (w : Fin n) (fails : Bool)

namespace State

variable {n : Nat} (handoff : Bool) (g : State n)

/-- A packet from a session that is there; it is handled if the session's state is the one
the handler is bound to. -/
def onPacket (w : Fin n) (sid : SessionId) (packet : Packet) (handle : State n → State n) :
    State n :=
  if sid ∈ (g w).sessions then
    let g := g.modify w (·.receive sid packet)
    if (g w).stateOf sid = some .Handshaked then handle g else g
  else g

def step : Event n → State n
  | .accept w created => g.modify w fun s => (s.onAccepted w false created).1
  | .dialOk w created => g.modify w (·.finishDialOk w created)
  | .roleHello w sid role fails =>
    if sid ∈ (g w).sessions ∧ (g w).stateOf sid = some .Connected then
      g.onRoleHello w sid role fails
    else g
  | .perfPing w sid pkt now stale fails =>
    g.onPacket w sid (.perfPing pkt) (·.onPerfPing handoff w sid pkt now stale fails)
  | .perfPong w sid pkt now fails =>
    g.onPacket w sid (.perfPong pkt) (·.onPerfPong w pkt now fails)
  | .sessionEnd w sid => g.modify w (·.beginClose sid)
  | .task w fails => g.drainTask w fails

def init (n : Nat) : State n := fun _ => {}

def run (es : List (Event n)) : State n := es.foldl (step handoff) (init n)

end State

/-! ## What an event does

An event does a few things to the worker it happens on, and may post a task to another.
`Keeps` lists them, each with what is known when it is done: a property of the workers that
all of them keep is kept by the event. -/

section Rule

variable {n : Nat} {handoff : Bool} {g : State n} {e : Event n} {I : Fin n → Worker → Prop}
  {sid : SessionId}

/-- Every worker has the property. -/
def State.All (I : Fin n → Worker → Prop) (g : State n) : Prop := ∀ v, I v (g v)

/-- The session a ping is for. -/
def State.upstreamFor (handoff : Bool) (g : State n) (w : Fin n) (sid stale : SessionId) :
    SessionId :=
  g.getForWorker w (State.route handoff w sid) stale

structure Keeps (handoff : Bool) (g : State n) (e : Event n) (I : Fin n → Worker → Prop) :
    Prop where
  accepted : ∀ w created, e = .accept w created → I w (g w) →
    I w ((g w).onAccepted w false created).1
  dialed : ∀ w created, e = .dialOk w created → I w (g w) → I w ((g w).finishDialOk w created)
  closed : ∀ v s sid, I v s → I v (s.beginClose sid)
  /-- A session claims the exchange's role while the slot is empty. -/
  claimed : ∀ v s sid, sid ∈ s.sessions → s.slot = 0 → I v s → I v (s.setForWorker sid)
  acknowledged : ∀ v s sid role fails, sid ∈ s.sessions → (role = .Exchange → s.slot = sid) →
    ownerOf n sid = some v → I v s →
      I v ((s.setState sid .Handshaked).sendToLocal sid (.roleHelloAck .Ok role) fails)
  /-- The acknowledgement goes to the worker that the id names. -/
  misdirected : ∀ v s sid, sid ∈ s.sessions → ownerOf n sid ≠ some v → I v s →
    I v (s.setState sid .Handshaked)
  postedAck : ∀ w v s sid role, sid ∈ (g w).sessions → w ≠ v → ownerOf n sid = some v → I v s →
    I v (s.post (.sendTo sid (.roleHelloAck .Ok role)))
  receivedPing : ∀ w sid pkt now stale fails, e = .perfPing w sid pkt now stale fails →
    sid ∈ (g w).sessions → I w (g w) → I w ((g w).receive sid (.perfPing pkt))
  receivedPong : ∀ w sid pkt now fails, e = .perfPong w sid pkt now fails →
    sid ∈ (g w).sessions → I w (g w) → I w ((g w).receive sid (.perfPong pkt))
  forwarded : ∀ w sid pkt now stale fails, e = .perfPing w sid pkt now stale fails →
    sid ∈ (g w).sessions → (g w).stateOf sid = some .Handshaked →
    ownerOf n (g.upstreamFor handoff w sid stale) = some w →
    I w ((g w).receive sid (.perfPing pkt)) →
      I w (((g w).receive sid (.perfPing pkt)).sendToLocal (g.upstreamFor handoff w sid stale)
        (.perfPing { pkt with clientSid := sid, t2 := now }) fails)
  answered : ∀ v s sid pkt fails, ownerOf n sid = some v → I v s →
    I v (s.sendToLocal sid (.perfPong pkt) fails)
  postedPing : ∀ v s sid pkt, ownerOf n sid = some v → I v s →
    I v (s.post (.sendTo sid (.perfPing pkt)))
  postedPong : ∀ v s sid pkt, ownerOf n sid = some v → I v s →
    I v (s.post (.sendTo sid (.perfPong pkt)))
  postedClose : ∀ v s sid, I v s → I v (s.post (.close sid))
  popped : ∀ v s task rest, s.tasks = task :: rest → I v s → I v { s with tasks := rest }
  delivered : ∀ w fails sid packet rest, e = .task w fails →
    (g w).tasks = .sendTo sid packet :: rest → I w (g w) → I w { g w with tasks := rest } →
      I w ({ g w with tasks := rest }.sendToLocal sid packet fails)

theorem State.All.modify (h : g.All I) {w : Fin n} {f : Worker → Worker} (hw : I w (f (g w))) :
    (g.modify w f).All I := by
  intro v
  by_cases hv : v = w
  · subst hv
    rw [State.modify, Function.update_self]
    exact hw
  · rw [State.modify, Function.update_of_ne hv]
    exact h v

theorem State.modify_self (g : State n) (w : Fin n) (f : Worker → Worker) :
    g.modify w f w = f (g w) := Function.update_self ..

theorem State.All.sendTo {g : State n} (h : g.All I) {cw : Fin n} {packet : Packet} {fails : Bool}
    (hlocal : ownerOf n sid = some cw → I cw ((g cw).sendToLocal sid packet fails))
    (hpost : ∀ v, ownerOf n sid = some v → cw ≠ v → I v ((g v).post (.sendTo sid packet))) :
    (g.sendTo cw sid packet fails).All I := by
  unfold State.sendTo
  split
  · exact h
  case h_2 owner howner =>
    split
    case isTrue heq => exact h.modify (hlocal (heq ▸ howner))
    case isFalse hne => exact h.modify (hpost owner howner hne)

theorem Keeps.close (hk : Keeps handoff g e I) (h : g.All I) (cw : Fin n) (sid : SessionId) :
    (g.close cw sid).All I := by
  unfold State.close
  split
  · exact h
  case h_2 owner _ =>
    split
    case isTrue => exact h.modify (hk.closed cw _ sid (h cw))
    case isFalse => exact h.modify (hk.postedClose owner _ sid (h owner))

/-- The state before is that of the event but for the slot of the worker. -/
theorem Keeps.acknowledge (hk : Keeps handoff g e I) {g' : State n} (h : g'.All I) {w : Fin n}
    {role : PeerRole} (fails : Bool) (hsid : sid ∈ (g' w).sessions) (hg : sid ∈ (g w).sessions)
    (hrole : role = .Exchange → (g' w).slot = sid) : (g'.acknowledge w sid role fails).All I := by
  rw [State.acknowledge]
  unfold State.sendTo
  split
  case h_1 hnone =>
    exact h.modify (hk.misdirected w _ sid hsid (by rw [hnone]; exact nofun) (h w))
  case h_2 owner howner =>
    split
    case isTrue heq =>
      subst heq
      intro v
      by_cases hv : v = w
      · subst hv
        rw [State.modify_self, State.modify_self]
        exact hk.acknowledged v _ sid role fails hsid hrole howner (h v)
      · rw [State.modify, Function.update_of_ne hv, State.modify, Function.update_of_ne hv]
        exact h v
    case isFalse hne =>
      have hset : (g'.modify w (·.setState sid .Handshaked)).All I :=
        h.modify (hk.misdirected w _ sid hsid
          (fun heq => hne (Option.some.inj (heq.symm.trans howner))) (h w))
      exact hset.modify (hk.postedAck w owner _ sid role hg hne howner (hset owner))

theorem Keeps.onRoleHello (hk : Keeps handoff g e I) (h : g.All I) {w : Fin n}
    (hsid : sid ∈ (g w).sessions) (role : PeerRole) (fails : Bool) :
    (g.onRoleHello w sid role fails).All I := by
  rw [State.onRoleHello]
  split
  case isTrue hrole =>
    split
    case isTrue => exact hk.close h w sid
    case isFalse hfree =>
      split
      case isTrue hzero =>
        refine hk.acknowledge (h.modify (hk.claimed w _ sid hsid hzero (h w))) fails ?_ hsid ?_
        · rw [State.modify_self]
          exact hsid
        · exact fun _ => by rw [State.modify_self]; rfl
      case isFalse hzero =>
        refine hk.acknowledge h fails hsid hsid fun _ => ?_
        by_contra hne
        exact hfree ⟨hzero, Ne.symm hne⟩
  case isFalse hrole =>
    split
    · exact hk.close h w sid
    · exact hk.acknowledge h fails hsid hsid fun heq => absurd heq hrole

theorem State.upstreamFor_receive (handoff : Bool) (g : State n) (w : Fin n)
    (x sid stale : SessionId) (packet : Packet) :
    (g.modify w (·.receive x packet)).upstreamFor handoff w sid stale =
      g.upstreamFor handoff w sid stale := by
  have hslot : ∀ v, (g.modify w (·.receive x packet) v).slot = (g v).slot ∧
      (g.modify w (·.receive x packet) v).past = (g v).past := by
    intro v
    by_cases hv : v = w
    · subst hv
      rw [State.modify_self]
      exact ⟨rfl, rfl⟩
    · rw [State.modify, Function.update_of_ne hv]
      exact ⟨rfl, rfl⟩
  rw [State.upstreamFor, State.upstreamFor, State.getForWorker, State.getForWorker, (hslot _).1,
    (hslot _).2]

theorem State.All.onPacket (h : g.All I) {w : Fin n} {packet : Packet} {handle : State n → State n}
    (hreceive : sid ∈ (g w).sessions → I w ((g w).receive sid packet))
    (hhandle : sid ∈ (g w).sessions → (g w).stateOf sid = some .Handshaked →
      (g.modify w (·.receive sid packet)).All I →
        (handle (g.modify w (·.receive sid packet))).All I) :
    (g.onPacket w sid packet handle).All I := by
  rw [State.onPacket]
  split
  case isFalse => exact h
  case isTrue hsid =>
    have hreceived : (g.modify w (·.receive sid packet)).All I := h.modify (hreceive hsid)
    dsimp only
    split
    case isTrue hstate =>
      rw [State.modify_self] at hstate
      exact hhandle hsid hstate hreceived
    case isFalse => exact hreceived

/-- The rule: what all that an event does keeps, the event keeps. -/
theorem Keeps.step (hk : Keeps handoff g e I) (h : g.All I) : (g.step handoff e).All I := by
  cases e with
  | accept w created =>
    rw [State.step]
    exact h.modify (hk.accepted w created rfl (h w))
  | dialOk w created =>
    rw [State.step]
    exact h.modify (hk.dialed w created rfl (h w))
  | roleHello w sid role fails =>
    rw [State.step]
    split
    case isTrue hsid => exact hk.onRoleHello h hsid.1 role fails
    case isFalse => exact h
  | perfPing w sid pkt now stale fails =>
    rw [State.step]
    refine h.onPacket (fun hsid => hk.receivedPing w sid pkt now stale fails rfl hsid (h w))
      fun hsid hstate hreceived => ?_
    rw [State.onPerfPing]
    split
    · exact hreceived
    · refine hreceived.sendTo (fun howner => ?_) fun v howner _ =>
        hk.postedPing v _ _ _ howner (hreceived v)
      have hw := hreceived w
      rw [State.modify_self] at hw ⊢
      have hup := State.upstreamFor_receive handoff g w sid sid stale (.perfPing pkt)
      rw [State.upstreamFor] at hup
      rw [hup] at howner ⊢
      exact hk.forwarded w sid pkt now stale fails rfl hsid hstate howner hw
  | perfPong w sid pkt now fails =>
    rw [State.step]
    refine h.onPacket (fun hsid => hk.receivedPong w sid pkt now fails rfl hsid (h w))
      fun _ _ hreceived => ?_
    rw [State.onPerfPong]
    split
    · exact hreceived
    · exact hreceived.sendTo (fun howner => hk.answered w _ _ _ fails howner (hreceived w))
        fun v howner _ => hk.postedPong v _ _ _ howner (hreceived v)
  | sessionEnd w sid =>
    rw [State.step]
    exact h.modify (hk.closed w _ sid (h w))
  | task w fails =>
    rw [State.step]
    unfold State.drainTask
    split
    · exact h
    case h_2 sid packet rest htasks =>
      exact h.modify (hk.delivered w fails sid packet rest rfl htasks (h w)
        (hk.popped w _ _ rest htasks (h w)))
    case h_3 sid rest htasks =>
      exact h.modify (hk.closed w _ sid (hk.popped w _ _ rest htasks (h w)))

end Rule

end HyperNet.Fep
