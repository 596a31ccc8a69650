import HyperNet.Gateway.Upstream

/-!
# The gateway among its peers

The gateway of `Gateway.Model` with the processes at the far ends of its sessions.  Load generators
connect to it, and each of its workers dials the exchange once.  A peer says hello when its session
starts, with the role it has, and takes the acknowledgement as the end of the handshake.  From then
on a load generator sends pings and the exchange answers each that it gets.

The two directions of a connection are queues.  What the gateway has written to a session reaches
the peer in this order, and the other way round; should the connection break, the rest is not read.
All processes read one clock, as they do on one machine.
-/

namespace HyperNet.Fep

open App (SessionId SessionHandle ConnState Registry ownerOf)

/-- What a peer sends to the gateway. -/
inductive Request where
  | roleHelloReq (role : PeerRole)
  | perfPing (pkt : PerfPkt)
  | perfPong (pkt : PerfPkt)
deriving DecidableEq

/-- The far end of a session of the gateway: a load generator or the exchange, by its role. -/
structure Peer (n : Nat) where
  /-- The worker of the gateway that has the session. -/
  worker : Fin n
  role : PeerRole
  state : ConnState := .Connected
  closed : Bool := false
  /-- How much it has got of what the gateway has sent it. -/
  taken : Nat := 0
  /-- What it has sent and the gateway has not read. -/
  requests : List Request := []
  /-- The pings it has sent, and the pongs it has handled with the time of each. -/
  pings : List PerfPkt := []
  answers : List (PerfPkt × UInt64) := []

namespace Peer

variable {n : Nat} (p : Peer n)

/-- `onSessionStart` of the hello controllers. -/
def start (worker : Fin n) (role : PeerRole) : Peer n where
  worker := worker
  role := role
  requests := [.roleHelloReq role]

/-- `BenchmarkExchangeController::onPerfPing`. -/
def answer (pkt : PerfPkt) (now : UInt64) : PerfPkt where
  clientSid := pkt.clientSid
  seq := pkt.seq
  t1 := pkt.t1
  t2 := pkt.t2
  t3 := now

/-- `onRoleHelloAck_`, which is bound to the state `Connected`. -/
def onRoleHelloAck (result : HelloResult) : Peer n :=
  if p.state = .Connected ∧ result = .Ok then { p with state := .Handshaked } else p

/-- A packet of the gateway.  The exchange has a handler for pings and the load generator one for
pongs, both bound to the state `Handshaked`; for another opcode the session is closed. -/
def receive (now : UInt64) : Packet → Peer n
  | .roleHelloAck result _ => p.onRoleHelloAck result
  | .perfPing pkt =>
    if p.role = .Exchange then
      if p.state = .Handshaked then
        { p with requests := p.requests ++ [.perfPong (answer pkt now)] }
      else p
    else { p with closed := true }
  | .perfPong pkt =>
    if p.role = .Exchange then { p with closed := true }
    else if p.state = .Handshaked then { p with answers := p.answers ++ [(pkt, now)] }
    else p

/-- The load generator sends a ping; in throughput mode it leaves out the time. -/
def ping (seq : UInt64) (timed : Bool) (now : UInt64) : Peer n :=
  if p.role = .Client ∧ p.state = .Handshaked ∧ p.closed = false then
    let pkt : PerfPkt := { clientSid := 0, seq := seq, t1 := if timed then now else 0 }
    { p with requests := p.requests ++ [.perfPing pkt], pings := p.pings ++ [pkt] }
  else p

end Peer

/-- The gateway, its peers by the ids the gateway has given their sessions, and the clock. -/
structure Deployment (n : Nat) where
  gateway : State n := State.init n
  peers : SessionId → Option (Peer n) := fun _ => none
  /-- The sessions that were dialed; 0 if the dial has not brought one. -/
  dials : Fin n → Option SessionId := fun _ => none
  clock : UInt64 := 0

/-- What happens next: time goes on, a load generator connects, a dial completes, the gateway reads
the next packet of a peer, runs a posted task or ends a session, a peer gets the next packet of the
gateway, or a load generator sends a ping. -/
inductive Move (n : Nat) where
  | tick (now : UInt64)
  | connect (w : Fin n) (created : Bool)
  | dialOk (w : Fin n) (created : Bool)
  | deliver (sid stale : SessionId) (fails : Bool)
  | task (w : Fin n) (fails : Bool)
  | sessionEnd (w : Fin n) (sid : SessionId)
  | take (sid : SessionId)
  | ping (sid : SessionId) (seq : UInt64) (timed : Bool)
deriving DecidableEq

/-- The packets among the log's entries that were for a session. -/
def sentTo (sid : SessionId) (log : List Entry) : List Packet :=
  log.filterMap fun
    | .sent x packet => if x = sid then some packet else none
    | .received .. => none

/-- The packet as an event of the gateway. -/
def Request.event {n : Nat} (w : Fin n) (sid stale : SessionId) (now : UInt64) (fails : Bool) :
    Request → Event n
  | .roleHelloReq role => .roleHello w sid role fails
  | .perfPing pkt => .perfPing w sid pkt now stale fails
  | .perfPong pkt => .perfPong w sid pkt now fails

namespace Deployment

variable {n : Nat} (handoff : Bool) (s : Deployment n)

/-- What the gateway has sent to a peer that has not got it. -/
def inFlight (sid : SessionId) : List Packet :=
  match s.peers sid with
  | none => []
  | some p => (sentTo sid (s.gateway p.worker).log).drop p.taken

/-- A peer at the far end of a new session, unless there is no session. -/
def join (id : SessionId) (p : Peer n) : SessionId → Option (Peer n) :=
  if id = 0 then s.peers else Function.update s.peers id (some p)

def setPeer (sid : SessionId) (p : Peer n) : Deployment n :=
  { s with peers := Function.update s.peers sid (some p) }

def step : Move n → Deployment n
  -- the clock is steady
  | .tick now => { s with clock := if s.clock ≤ now then now else s.clock }
  | .connect w created =>
    let id := ((s.gateway w).onAccepted w false created).2
    { s with
      gateway := s.gateway.step handoff (.accept w created)
      peers := s.join id (.start w .Client) }
  | .dialOk w created =>
    match s.dials w with
    | some _ => s
    | none =>
      let id := ((s.gateway w).onAccepted w true created).2
      { s with
        gateway := s.gateway.step handoff (.dialOk w created)
        peers := s.join id (.start w .Exchange)
        dials := Function.update s.dials w (some id) }
  | .deliver sid stale fails =>
    match s.peers sid with
    | none => s
    | some p =>
      match p.requests with
      | [] => s
      | request :: rest =>
        { s.setPeer sid { p with requests := rest } with
          gateway := s.gateway.step handoff
            (request.event p.worker sid stale s.clock fails) }
  | .task w fails => { s with gateway := s.gateway.step handoff (.task w fails) }
  | .sessionEnd w sid => { s with gateway := s.gateway.step handoff (.sessionEnd w sid) }
  | .take sid =>
    match s.peers sid with
    | none => s
    | some p =>
      if p.closed = true then s
      else
        match s.inFlight sid with
        | [] => s
        | packet :: _ =>
          s.setPeer sid (Peer.receive { p with taken := p.taken + 1 } s.clock packet)
  | .ping sid seq timed =>
    match s.peers sid with
    | none => s
    | some p => s.setPeer sid (p.ping seq timed s.clock)

def run (moves : List (Move n)) : Deployment n := moves.foldl (step handoff) {}

end Deployment

/-! ## What an event of the gateway does to its traffic -/

/-- The tasks that are posted and the packets that were sent. -/
@[ext] structure Traffic (n : Nat) where
  tasks : Fin n → List Task
  sent : Fin n → SessionId → List Packet

namespace Traffic

variable {n : Nat} (t : Traffic n)

def post (w : Fin n) (task : Task) : Traffic n :=
  { t with tasks := Function.update t.tasks w (t.tasks w ++ [task]) }

def pop (w : Fin n) : Traffic n :=
  { t with tasks := Function.update t.tasks w (t.tasks w).tail }

def write (w : Fin n) (sid : SessionId) (packet : Packet) : Traffic n :=
  { t with
    sent := Function.update t.sent w
      (Function.update (t.sent w) sid (t.sent w sid ++ [packet])) }

end Traffic

def State.traffic {n : Nat} (g : State n) : Traffic n where
  tasks w := (g w).tasks
  sent w sid := sentTo sid (g w).log

@[simp] theorem sentTo_received (sid x : SessionId) (log : List Entry) (packet : Packet) :
    sentTo sid (log ++ [.received x packet]) = sentTo sid log := by
  simp [sentTo]

theorem sentTo_sent (sid x : SessionId) (log : List Entry) (packet : Packet) :
    sentTo sid (log ++ [.sent x packet]) =
      if x = sid then sentTo sid log ++ [packet] else sentTo sid log := by
  by_cases h : x = sid <;> simp [sentTo, h]

/-! ### One worker -/

namespace Worker

variable {w : Worker}

/-- The number of accepted sessions, and the sessions the slot has named. -/
structure Within (named : SessionId → Prop) (accepts : Nat) (w : Worker) : Prop where
  accepts : w.accepts = accepts
  past : ∀ sid ∈ w.past, sid = 0 ∨ named sid
  slot : w.slot = 0 ∨ named w.slot

variable {named : SessionId → Prop} {k : Nat} {sid : SessionId} {packet : Packet}

section

variable (h : w.Within named k)
include h

theorem Within.congr {w' : Worker} (haccepts : w'.accepts = w.accepts) (hpast : w'.past = w.past)
    (hslot : w'.slot = w.slot) : w'.Within named k :=
  ⟨haccepts.trans h.accepts, hpast ▸ h.past, hslot ▸ h.slot⟩

theorem Within.setForWorker (hsid : sid = 0 ∨ named sid) :
    (w.setForWorker sid).Within named k where
  accepts := h.accepts
  past x hx := by
    rcases List.mem_cons.mp hx with rfl | hx
    · exact hsid
    · exact h.past x hx
  slot := hsid

theorem Within.onSessionEnd (sid : SessionId) : (w.onSessionEnd sid).Within named k := by
  have hfirst : (if w.slot ≠ 0 ∧ w.slot = sid then w.setForWorker 0 else w).Within named k := by
    split
    · exact h.setForWorker (.inl rfl)
    · exact h
  rw [Worker.onSessionEnd]
  dsimp only
  generalize (if w.slot ≠ 0 ∧ w.slot = sid then w.setForWorker 0 else w) = s at hfirst ⊢
  have hremoved : Within named k { s with reg := s.reg.remove sid } := hfirst.congr rfl rfl rfl
  split
  · exact hremoved.setForWorker (.inl rfl)
  · exact hremoved

theorem Within.beginClose (sid : SessionId) : (w.beginClose sid).Within named k := by
  rw [Worker.beginClose]
  split
  · exact h
  case h_2 conn _ =>
    have hended : Within named k
        { w with sessions := w.sessions.erase sid, ended := conn :: w.ended } :=
      h.congr rfl rfl rfl
    exact hended.onSessionEnd sid

theorem Within.sendToLocal (sid : SessionId) (packet : Packet) (fails : Bool) :
    (w.sendToLocal sid packet fails).Within named k := by
  rw [Worker.sendToLocal]
  split
  · exact h
  case h_2 handle _ =>
    rw [Worker.sendPacketU16]
    split
    · exact h
    case h_2 conn _ =>
      have hwrite : (w.write handle.id conn packet).Within named k := h.congr rfl rfl rfl
      dsimp only
      split
      · exact hwrite.beginClose _
      · exact hwrite

theorem Within.onAccepted (wid : Nat) (dialed created : Bool) :
    (w.onAccepted wid dialed created).1.Within named (k + 1) := by
  have hcount : w.accepts + 1 = k + 1 := congrArg (· + 1) h.accepts
  rw [Worker.onAccepted]
  split
  · exact ⟨hcount, h.past, h.slot⟩
  · exact ⟨hcount, h.past, h.slot⟩

theorem Within.finishDialOk {wid : Nat} {created : Bool}
    (hid : named (w.onAccepted wid true created).2) :
    (w.finishDialOk wid created).Within named (k + 1) := by
  have haccepted := h.onAccepted wid true created
  rw [Worker.finishDialOk]
  dsimp only
  split
  · exact haccepted
  · exact haccepted.setForWorker (.inr hid)

end

/-- Sending to a session writes the packet or does nothing to the traffic. -/
theorem Coherent.traffic_sendToLocal (h : w.Coherent) (sid : SessionId) (packet : Packet)
    (fails : Bool) : (w.sendToLocal sid packet fails).tasks = w.tasks ∧
      ((w.sendToLocal sid packet fails).log = w.log ∨
        (w.sendToLocal sid packet fails).log = w.log ++ [.sent sid packet]) := by
  refine h.sendToLocal_rule
    (P := fun s => s.tasks = w.tasks ∧ (s.log = w.log ∨ s.log = w.log ++ [.sent sid packet]))
    (fun _ => ⟨rfl, .inl rfl⟩) fails (fun conn _ _ => ⟨rfl, .inr rfl⟩) fun s hs => ?_
  rw [tasks_beginClose, log_beginClose]
  exact hs

end Worker

/-! ### All workers -/

namespace State

variable {n : Nat} {handoff : Bool} {g : State n} {named : Fin n → SessionId → Prop}
  {k : Fin n → Nat} {w : Fin n} {sid : SessionId} {packet : Packet}

def Within (named : Fin n → SessionId → Prop) (k : Fin n → Nat) (g : State n) : Prop :=
  g.All fun v s => s.Within (named v) (k v)

theorem traffic_update (g : State n) (w : Fin n) (f : Worker → Worker) : (g.modify w f).traffic =
    { tasks := Function.update g.traffic.tasks w (f (g w)).tasks
      sent := Function.update g.traffic.sent w fun x => sentTo x (f (g w)).log } :=
  Traffic.ext (funext (Function.apply_update (fun _ s => s.tasks) g w _))
    (funext (Function.apply_update (fun _ (s : Worker) x => sentTo x s.log) g w _))

/-- What leaves the tasks and the packets of a worker as they are. -/
theorem traffic_modify {f : Worker → Worker} (htasks : (f (g w)).tasks = (g w).tasks)
    (hlog : ∀ x, sentTo x (f (g w)).log = sentTo x (g w).log) :
    (g.modify w f).traffic = g.traffic := by
  rw [traffic_update, htasks, funext hlog]
  exact Traffic.ext (Function.update_eq_self ..) (Function.update_eq_self ..)

theorem traffic_modify_post (g : State n) (w : Fin n) (task : Task) :
    (g.modify w (·.post task)).traffic = g.traffic.post w task := by
  rw [traffic_update]
  exact Traffic.ext rfl (Function.update_eq_self ..)

/-- One packet more. -/
theorem traffic_modify_sent {f : Worker → Worker} (htasks : (f (g w)).tasks = (g w).tasks)
    (hlog : (f (g w)).log = (g w).log ++ [.sent sid packet]) :
    (g.modify w f).traffic = g.traffic.write w sid packet := by
  rw [traffic_update, htasks, hlog]
  refine Traffic.ext (Function.update_eq_self ..) (congrArg (Function.update _ w) ?_)
  funext x
  by_cases hx : x = sid
  · subst hx
    simp [traffic, sentTo_sent]
  · simp [traffic, sentTo_sent, hx, Ne.symm hx]

/-- What sending does: nothing, or the packet is written, or it is posted to another worker. -/
inductive Sends (t : Traffic n) (cw : Fin n) (sid : SessionId) (packet : Packet) :
    Traffic n → Prop where
  | dropped : Sends t cw sid packet t
  | written (howner : ownerOf n sid = some cw) : Sends t cw sid packet (t.write cw sid packet)
  | posted (v : Fin n) (howner : ownerOf n sid = some v) (hv : v ≠ cw) :
      Sends t cw sid packet (t.post v (.sendTo sid packet))

theorem sends_sendTo (hg : g.All fun _ s => s.Coherent) (cw : Fin n) (sid : SessionId)
    (packet : Packet) (fails : Bool) :
    Sends g.traffic cw sid packet (g.sendTo cw sid packet fails).traffic := by
  rw [State.sendTo]
  split
  · exact .dropped
  case h_2 owner howner =>
    split
    case isTrue heq =>
      subst heq
      obtain ⟨htasks, hlog | hlog⟩ := (hg cw).traffic_sendToLocal sid packet fails
      · rw [traffic_modify htasks fun x => by rw [hlog]]
        exact .dropped
      · rw [traffic_modify_sent htasks hlog]
        exact .written howner
    case isFalse hne =>
      rw [traffic_modify_post]
      exact .posted owner howner (Ne.symm hne)

theorem Within.mono {named' : Fin n → SessionId → Prop} (h : g.Within named k)
    (hnamed : ∀ v sid, named v sid → named' v sid) : g.Within named' k := fun v =>
  ⟨(h v).accepts, fun sid hsid => ((h v).past sid hsid).imp id (hnamed v sid),
    (h v).slot.imp id (hnamed v _)⟩

theorem Within.modify (h : g.Within named k) {f : Worker → Worker}
    (hw : (f (g w)).Within (named w) (k w)) : (g.modify w f).Within named k :=
  State.All.modify h hw

theorem Within.sendTo (h : g.Within named k) (cw : Fin n) (sid : SessionId) (packet : Packet)
    (fails : Bool) : (g.sendTo cw sid packet fails).Within named k :=
  State.All.sendTo h (fun _ => (h cw).sendToLocal sid packet fails)
    fun v _ _ => (h v).congr rfl rfl rfl

theorem Within.close (h : g.Within named k) (cw : Fin n) (sid : SessionId) :
    (g.close cw sid).Within named k := by
  rw [State.close]
  split
  · exact h
  case h_2 owner _ =>
    split
    · exact h.modify ((h cw).beginClose sid)
    · exact h.modify ((h owner).congr rfl rfl rfl)

/-- What the gateway does to its traffic when a peer says hello. -/
inductive Greets (t : Traffic n) (cw : Fin n) (sid : SessionId) : Traffic n → Prop where
  | closed : Greets t cw sid t
  | postedClose (v : Fin n) : Greets t cw sid (t.post v (.close sid))
  | acknowledged (role : PeerRole) {t' : Traffic n}
      (h : Sends t cw sid (.roleHelloAck .Ok role) t') : Greets t cw sid t'

theorem greets_close (g : State n) (cw : Fin n) (sid : SessionId) :
    Greets g.traffic cw sid (g.close cw sid).traffic := by
  rw [State.close]
  split
  · exact .closed
  · split
    · rw [traffic_modify (by simp) (by simp)]
      exact .closed
    · rw [traffic_modify_post]
      exact .postedClose _

theorem greets_acknowledge (hg : g.All fun _ s => s.Coherent) (cw : Fin n)
    (sid : SessionId) (role : PeerRole) (fails : Bool) :
    Greets g.traffic cw sid (g.acknowledge cw sid role fails).traffic := by
  have hset : (g.modify cw (·.setState sid .Handshaked)).All fun _ s => s.Coherent :=
    hg.modify ((hg cw).setState sid .Handshaked)
  have hsends := sends_sendTo hset cw sid (.roleHelloAck .Ok role) fails
  have hsame : (g.modify cw (·.setState sid .Handshaked)).traffic = g.traffic :=
    traffic_modify rfl fun _ => rfl
  rw [hsame] at hsends
  exact .acknowledged role hsends

theorem greets_onRoleHello (hg : g.All fun _ s => s.Coherent)
    (hsid : sid ∈ (g w).sessions) (role : PeerRole) (fails : Bool) :
    Greets g.traffic w sid (g.onRoleHello w sid role fails).traffic := by
  rw [State.onRoleHello]
  split
  · split
    · exact greets_close g w sid
    · split
      · have hset : (g.modify w (·.setForWorker sid)).All fun _ s => s.Coherent :=
          hg.modify ((hg w).setForWorker (.inr hsid))
        have hack := greets_acknowledge hset w sid role fails
        have hsame : (g.modify w (·.setForWorker sid)).traffic = g.traffic :=
          traffic_modify rfl fun _ => rfl
        rw [hsame] at hack
        exact hack
      · exact greets_acknowledge hg w sid role fails
  · split
    · exact greets_close g w sid
    · exact greets_acknowledge hg w sid role fails

theorem Within.onRoleHello (h : g.Within named k) {role : PeerRole}
    (hrole : role = .Exchange → named w sid) (fails : Bool) :
    (g.onRoleHello w sid role fails).Within named k := by
  have hack : ∀ {g' : State n}, g'.Within named k →
      (g'.acknowledge w sid role fails).Within named k := fun h' =>
    Within.sendTo (h'.modify ((h' w).congr rfl rfl rfl)) w sid _ fails
  rw [State.onRoleHello]
  split
  case isTrue hexchange =>
    split
    · exact h.close w sid
    · split
      · exact hack (h.modify ((h w).setForWorker (.inr (hrole hexchange))))
      · exact hack h
  case isFalse =>
    split
    · exact h.close w sid
    · exact hack h

/-! ### Events -/

theorem traffic_accept (handoff : Bool) (g : State n) (w : Fin n) (created : Bool) :
    (g.step handoff (.accept w created)).traffic = g.traffic :=
  traffic_modify (by simp) (by simp)

theorem traffic_dialOk (handoff : Bool) (g : State n) (w : Fin n) (created : Bool) :
    (g.step handoff (.dialOk w created)).traffic = g.traffic :=
  traffic_modify (by simp) (by simp)

theorem traffic_sessionEnd (handoff : Bool) (g : State n) (w : Fin n) (sid : SessionId) :
    (g.step handoff (.sessionEnd w sid)).traffic = g.traffic :=
  traffic_modify (by simp) (by simp)

theorem greets_roleHello (hg : g.All fun _ s => s.Coherent) (handoff : Bool) (w : Fin n)
    (sid : SessionId) (role : PeerRole) (fails : Bool) :
    Greets g.traffic w sid (g.step handoff (.roleHello w sid role fails)).traffic := by
  rw [State.step]
  split
  case isTrue h => exact greets_onRoleHello hg h.1 role fails
  case isFalse => exact .closed

/-- A packet that is not handled leaves the traffic as it is. -/
theorem traffic_onPacket {handle : State n → State n} {R : Traffic n → Prop}
    (hsame : R g.traffic)
    (hhandle : ∀ g' : State n, g'.traffic = g.traffic → (g'.All fun _ s => s.Coherent) →
      (∀ v, (g' v).slot = (g v).slot ∧ (g' v).past = (g v).past) → R (handle g').traffic)
    (hg : g.All fun _ s => s.Coherent) : R (g.onPacket w sid packet handle).traffic := by
  have hreceived : (g.modify w (·.receive sid packet)).traffic = g.traffic :=
    traffic_modify rfl fun x => sentTo_received x sid _ packet
  rw [State.onPacket]
  split
  case isFalse => exact hsame
  case isTrue =>
    dsimp only
    split
    case isFalse =>
      rw [hreceived]
      exact hsame
    case isTrue =>
      refine hhandle _ hreceived (hg.modify ((hg w).receive sid packet)) fun v => ?_
      by_cases hv : v = w
      · subst hv
        rw [State.modify_self]
        exact ⟨rfl, rfl⟩
      · rw [State.modify, Function.update_of_ne hv]
        exact ⟨rfl, rfl⟩

theorem traffic_perfPing (hg : g.All fun _ s => s.Coherent) (handoff : Bool) (w : Fin n)
    (sid stale : SessionId) (pkt : PerfPkt) (now : UInt64) (fails : Bool) :
    (g.step handoff (.perfPing w sid pkt now stale fails)).traffic = g.traffic ∨
      g.upstreamFor handoff w sid stale ≠ 0 ∧
        Sends g.traffic w (g.upstreamFor handoff w sid stale)
          (.perfPing { pkt with clientSid := sid, t2 := now })
          (g.step handoff (.perfPing w sid pkt now stale fails)).traffic := by
  rw [State.step]
  refine traffic_onPacket (R := fun t => t = g.traffic ∨ _ ∧ Sends g.traffic w _ _ t) (.inl rfl)
    (fun g' htraffic hcoherent hslots => ?_) hg
  have hup : g'.getForWorker w (route handoff w sid) stale = g.upstreamFor handoff w sid stale := by
    rw [State.upstreamFor, State.getForWorker, State.getForWorker, (hslots _).1, (hslots _).2]
  rw [State.onPerfPing, hup]
  split
  · exact .inl htraffic
  case isFalse hzero =>
    rw [← htraffic]
    exact .inr ⟨hzero, sends_sendTo hcoherent w _ _ fails⟩

theorem traffic_perfPong (hg : g.All fun _ s => s.Coherent) (handoff : Bool) (w : Fin n)
    (sid : SessionId) (pkt : PerfPkt) (now : UInt64) (fails : Bool) :
    (g.step handoff (.perfPong w sid pkt now fails)).traffic = g.traffic ∨
      Sends g.traffic w pkt.clientSid (.perfPong { pkt with t4 := now })
        (g.step handoff (.perfPong w sid pkt now fails)).traffic := by
  rw [State.step]
  refine traffic_onPacket (R := fun t => t = g.traffic ∨ Sends g.traffic w _ _ t) (.inl rfl)
    (fun g' htraffic hcoherent _ => ?_) hg
  rw [State.onPerfPong]
  split
  · exact .inl htraffic
  · rw [← htraffic]
    exact .inr (sends_sendTo hcoherent w _ _ fails)

/-- What the next task of a worker does to the traffic. -/
inductive Runs (t : Traffic n) (w : Fin n) : Traffic n → Prop where
  | idle (h : t.tasks w = []) : Runs t w t
  | dropped (task : Task) (rest : List Task) (h : t.tasks w = task :: rest) : Runs t w (t.pop w)
  | written (sid : SessionId) (packet : Packet) (rest : List Task)
      (h : t.tasks w = .sendTo sid packet :: rest) : Runs t w ((t.pop w).write w sid packet)

theorem traffic_modify_pop (g : State n) {task : Task} {rest : List Task}
    (h : (g w).tasks = task :: rest) :
    (g.modify w ({ · with tasks := rest })).traffic = g.traffic.pop w := by
  rw [traffic_update]
  refine Traffic.ext ?_ (Function.update_eq_self ..)
  simp [traffic, Traffic.pop, h]

theorem modify_modify (g : State n) (w : Fin n) (f f' : Worker → Worker) :
    (g.modify w f).modify w f' = g.modify w fun s => f' (f s) := by
  rw [modify, modify, modify, Function.update_self, Function.update_idem]

theorem runs_task (hg : g.All fun _ s => s.Coherent) (handoff : Bool) (w : Fin n) (fails : Bool) :
    Runs g.traffic w (g.step handoff (.task w fails)).traffic := by
  rw [State.step, State.drainTask]
  split
  case h_1 htasks => exact .idle htasks
  case h_2 sid packet rest htasks =>
    rw [← modify_modify g w ({ · with tasks := rest }) (·.sendToLocal sid packet fails)]
    have hpop := traffic_modify_pop g htasks
    have hcoherent : (g.modify w ({ · with tasks := rest }) w).Coherent := by
      rw [State.modify_self]
      exact (hg w).pop rest
    obtain ⟨hsame, hlog | hlog⟩ := hcoherent.traffic_sendToLocal sid packet fails
    · rw [traffic_modify hsame fun x => by rw [hlog], hpop]
      exact .dropped _ rest htasks
    · rw [traffic_modify_sent hsame hlog, hpop]
      exact .written sid packet rest htasks
  case h_3 sid rest htasks =>
    rw [← modify_modify g w ({ · with tasks := rest }) (·.beginClose sid),
      traffic_modify (by simp) (by simp), traffic_modify_pop g htasks]
    exact .dropped _ rest htasks

/-! ### Ids and slots -/

section

variable (h : g.Within named k)
include h

theorem Within.step_of_quiet (e : Event n)
    (he : ∀ w created, e ≠ .accept w created ∧ e ≠ .dialOk w created)
    (hrole : ∀ w sid role fails, e = .roleHello w sid role fails → role = .Exchange → named w sid) :
    (g.step handoff e).Within named k := by
  cases e with
  | accept w created => exact absurd rfl (he w created).1
  | dialOk w created => exact absurd rfl (he w created).2
  | roleHello w sid role fails =>
    rw [State.step]
    split
    · exact h.onRoleHello (hrole w sid role fails rfl) fails
    · exact h
  | perfPing w sid pkt now stale fails =>
    rw [State.step]
    refine State.All.onPacket h (fun _ => (h w).congr rfl rfl rfl) fun _ _ h' => ?_
    rw [State.onPerfPing]
    split
    · exact h'
    · exact Within.sendTo h' w _ _ fails
  | perfPong w sid pkt now fails =>
    rw [State.step]
    refine State.All.onPacket h (fun _ => (h w).congr rfl rfl rfl) fun _ _ h' => ?_
    rw [State.onPerfPong]
    split
    · exact h'
    · exact Within.sendTo h' w _ _ fails
  | sessionEnd w sid =>
    rw [State.step]
    exact h.modify ((h w).beginClose sid)
  | task w fails =>
    have hpop : ∀ rest, Worker.Within (named w) (k w) { g w with tasks := rest } :=
      fun _ => (h w).congr rfl rfl rfl
    rw [State.step, State.drainTask]
    split
    · exact h
    case h_2 sid packet rest _ => exact h.modify ((hpop rest).sendToLocal sid packet fails)
    case h_3 sid rest _ => exact h.modify ((hpop rest).beginClose sid)

theorem Within.modify_succ {f : Worker → Worker} (hw : (f (g w)).Within (named w) (k w + 1)) :
    (g.modify w f).Within named (Function.update k w (k w + 1)) := by
  intro v
  by_cases hv : v = w
  · subst hv
    rw [State.modify_self, Function.update_self]
    exact hw
  · rw [State.modify, Function.update_of_ne hv, Function.update_of_ne hv]
    exact h v

theorem Within.accept (handoff : Bool) (w : Fin n) (created : Bool) :
    (g.step handoff (.accept w created)).Within named (Function.update k w (k w + 1)) := by
  rw [State.step]
  exact h.modify_succ ((h w).onAccepted w false created)

theorem Within.dialOk (handoff : Bool) (w : Fin n) (created : Bool)
    (hid : named w ((g w).onAccepted w true created).2) :
    (g.step handoff (.dialOk w created)).Within named (Function.update k w (k w + 1)) := by
  rw [State.step]
  exact h.modify_succ ((h w).finishDialOk hid)

end

end State

end HyperNet.Fep
