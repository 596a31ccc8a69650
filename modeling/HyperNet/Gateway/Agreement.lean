import HyperNet.Gateway.EndToEnd
import HyperNet.Gateway.Traffic

/-!
# The handshake agrees

The gateway and a peer keep a state of their session each, and each of them discards a packet that
comes in another state than its handler is bound to.  The states change at different times: the
gateway's when it reads the hello, the peer's when it gets the acknowledgement.  Here it is shown
that nothing falls in between.  As long as a session is open, its handshake is in one of three
phases, and in each of them whatever the peer has sent finds the state it is handled in.
-/

namespace HyperNet.Fep

open App (SessionId ConnState Registry ownerOf)

/-! ## Acknowledgements -/

/-- The role that a packet acknowledges. -/
def Packet.ack : Packet → Option PeerRole
  | .roleHelloAck .Ok role => some role
  | _ => none

def acks (packets : List Packet) : List PeerRole := packets.filterMap Packet.ack

@[simp] theorem acks_nil : acks [] = [] := rfl

@[simp] theorem acks_append (packets more : List Packet) :
    acks (packets ++ more) = acks packets ++ acks more := List.filterMap_append

theorem acks_cons_none {packet : Packet} (h : packet.ack = none) (rest : List Packet) :
    acks (packet :: rest) = acks rest := List.filterMap_cons_none h

theorem acks_cons_some {packet : Packet} {role : PeerRole} (h : packet.ack = some role)
    (rest : List Packet) : acks (packet :: rest) = role :: acks rest := List.filterMap_cons_some h

/-- How far a peer and the gateway are with their handshake, by the state of the session at the
gateway and what is on its way to the peer. -/
inductive Handshake {n : Nat} (p : Peer n) (state : Option ConnState) (inFlight : List Packet) :
    Prop where
  /-- The hello is on its way, and nothing else. -/
  | offered (hpeer : p.state = .Connected) (hgateway : state = some .Connected)
      (hrequests : p.requests = [.roleHelloReq p.role]) (hacks : acks inFlight = [])
  /-- The acknowledgement is on its way. -/
  | accepted (hpeer : p.state = .Connected) (hgateway : state = some .Handshaked)
      (hrequests : p.requests = []) (hacks : acks inFlight = [p.role])
  | done (hpeer : p.state = .Handshaked) (hgateway : state = some .Handshaked)
      (hrequests : ∀ role, .roleHelloReq role ∉ p.requests) (hacks : acks inFlight = [])

namespace Handshake

variable {n : Nat} {p p' : Peer n} {state : Option ConnState} {inFlight inFlight' : List Packet}

/-- The phase depends on the state, the role and the requests of the peer only. -/
theorem congr (h : Handshake p state inFlight) (hstate : p'.state = p.state)
    (hrole : p'.role = p.role) (hrequests : p'.requests = p.requests)
    (hacks : acks inFlight' = acks inFlight) : Handshake p' state inFlight' := by
  cases h with
  | offered hpeer hgateway hreq hnone =>
    exact .offered (hstate.trans hpeer) hgateway (by rw [hrequests, hrole, hreq])
      (hacks.trans hnone)
  | accepted hpeer hgateway hreq hone =>
    exact .accepted (hstate.trans hpeer) hgateway (hrequests.trans hreq)
      (by rw [hacks, hrole, hone])
  | done hpeer hgateway hreq hnone =>
    exact .done (hstate.trans hpeer) hgateway (by rw [hrequests]; exact hreq)
      (hacks.trans hnone)

/-- A handshaked peer sends what it likes but no hello. -/
theorem send (h : Handshake p state inFlight) (hstate : p.state = .Handshaked)
    (hstate' : p'.state = p.state) {request : Request}
    (hrequests : p'.requests = p.requests ++ [request])
    (hrequest : ∀ role, request ≠ .roleHelloReq role) (hacks : acks inFlight' = acks inFlight) :
    Handshake p' state inFlight' := by
  cases h with
  | offered hpeer | accepted hpeer => cases hpeer.symm.trans hstate
  | done _ hgateway hreq hnone =>
    refine .done (hstate'.trans hstate) hgateway (fun role hmem => ?_) (hacks.trans hnone)
    rw [hrequests] at hmem
    rcases List.mem_append.mp hmem with hmem | hmem
    · exact hreq role hmem
    · exact hrequest role (List.mem_singleton.mp hmem).symm

/-- The gateway reads another request than a hello. -/
theorem read (h : Handshake p state inFlight) {request : Request} {rest : List Request}
    (hrequests : p.requests = request :: rest)
    (hrequest : ∀ role, request ≠ .roleHelloReq role) :
    Handshake (Deployment.read p rest) state inFlight := by
  cases h with
  | offered _ _ hreq =>
    cases hreq.symm.trans hrequests
    exact absurd rfl (hrequest p.role)
  | accepted _ _ hreq => cases hreq.symm.trans hrequests
  | done hpeer hgateway hreq hnone =>
    refine .done hpeer hgateway (fun role hmem => hreq role ?_) hnone
    rw [hrequests]
    exact List.mem_cons_of_mem request hmem

/-- The peer gets the next packet. -/
theorem receive {packet : Packet} {rest : List Packet} (h : Handshake p state (packet :: rest))
    (now : UInt64) : Handshake ((Deployment.took p).receive now packet) state rest := by
  cases packet with
  | roleHelloAck result role =>
    rw [Peer.receive, Peer.onRoleHelloAck]
    cases result with
    | Reject =>
      rw [if_neg fun hc => by cases hc.2]
      exact h.congr rfl rfl rfl (acks_cons_none rfl rest).symm
    | Ok =>
      -- the acknowledgement is on its way in the second phase only
      have hcons : acks (.roleHelloAck .Ok role :: rest) = role :: acks rest :=
        acks_cons_some rfl rest
      cases h with
      | offered _ _ _ hacks => cases hcons.symm.trans hacks
      | accepted hpeer hgateway hreq hacks =>
        have hrest : acks rest = [] := (List.cons.inj (hcons.symm.trans hacks)).2
        rw [if_pos ⟨hpeer, rfl⟩]
        refine .done rfl hgateway (fun role' hmem => ?_) hrest
        change .roleHelloReq role' ∈ p.requests at hmem
        rw [hreq] at hmem
        cases hmem
      | done _ _ _ hacks => cases hcons.symm.trans hacks
  | perfPing pkt =>
    have hrest : acks rest = acks (.perfPing pkt :: rest) := (acks_cons_none rfl rest).symm
    rw [Peer.receive]
    split
    · split
      case isTrue hstate => exact h.send hstate rfl rfl (fun _ heq => by cases heq) hrest
      case isFalse => exact h.congr rfl rfl rfl hrest
    · exact h.congr rfl rfl rfl hrest
  | perfPong pkt =>
    have hrest : acks rest = acks (.perfPong pkt :: rest) := (acks_cons_none rfl rest).symm
    rw [Peer.receive]
    split
    · exact h.congr rfl rfl rfl hrest
    · split
      · exact h.congr rfl rfl rfl hrest
      · exact h.congr rfl rfl rfl hrest

/-- The state that the handler of a request is bound to. -/
def boundTo : Request → ConnState
  | .roleHelloReq _ => .Connected
  | .perfPing _ | .perfPong _ => .Handshaked

/-- No request is discarded for the state of the session. -/
theorem state_of_mem (h : Handshake p state inFlight) {request : Request}
    (hmem : request ∈ p.requests) : state = some (boundTo request) := by
  cases h with
  | offered _ hgateway hreq =>
    rw [hreq] at hmem
    rw [List.mem_singleton.mp hmem]
    exact hgateway
  | accepted _ _ hreq =>
    rw [hreq] at hmem
    cases hmem
  | done _ hgateway hreq =>
    cases request with
    | roleHelloReq role => exact absurd hmem (hreq role)
    | perfPing pkt | perfPong pkt => exact hgateway

end Handshake

/-! ## One worker -/

namespace Worker

variable {w w' w'' : Worker} {x sid : SessionId} {packet : Packet}

/-- A session has ended or is as it was, and has got no acknowledgement to send. -/
structure Same (x : SessionId) (w w' : Worker) : Prop where
  mem : x ∈ w'.sessions → x ∈ w.sessions
  state : x ∈ w'.sessions → w'.stateOf x = w.stateOf x
  sent : ∃ more, sentTo x w'.log = sentTo x w.log ++ more ∧ acks more = []

theorem Same.trans (h : Same x w w') (h' : Same x w' w'') : Same x w w'' where
  mem hx := h.mem (h'.mem hx)
  state hx := (h'.state hx).trans (h.state (h'.mem hx))
  sent := by
    obtain ⟨more, hsent, hmore⟩ := h.sent
    obtain ⟨more', hsent', hmore'⟩ := h'.sent
    exact ⟨more ++ more', by rw [hsent', hsent, List.append_assoc], by simp [hmore, hmore']⟩

/-- What leaves the manager, the registry and the packets of the session. -/
theorem same_of_eq (hsessions : w'.sessions = w.sessions) (hreg : w'.reg = w.reg)
    (hlog : sentTo x w'.log = sentTo x w.log) : Same x w w' where
  mem hx := hsessions ▸ hx
  state _ := by rw [stateOf, stateOf, hreg]
  sent := ⟨[], by rw [hlog, List.append_nil], rfl⟩

theorem same_beginClose (w : Worker) (x sid : SessionId) : Same x w (w.beginClose sid) where
  mem hx := ((mem_beginClose w sid x).mp hx).2
  state hx := stateOf_beginClose w ((mem_beginClose w sid x).mp hx).1
  sent := ⟨[], by rw [log_beginClose, List.append_nil], rfl⟩

theorem same_setState (w : Worker) (hx : x ≠ sid) (st : ConnState) :
    Same x w (w.setState sid st) where
  mem hmem := hmem
  state _ := stateOf_setState_ne w hx st
  sent := ⟨[], (List.append_nil _).symm, rfl⟩

theorem same_write {conn : Conn} (hconn : w.sessions.lookup sid = some conn)
    (hpacket : x = sid → packet.ack = none) : Same x w (w.write sid conn packet) where
  mem hx := (mem_write hconn packet).mp hx
  state _ := rfl
  sent := by
    rw [Worker.write, sentTo_sent]
    split
    case isTrue heq => exact ⟨[packet], rfl, acks_cons_none (hpacket heq.symm) []⟩
    case isFalse => exact ⟨[], (List.append_nil _).symm, rfl⟩

theorem Coherent.same_sendToLocal (h : w.Coherent) (fails : Bool)
    (hpacket : x = sid → packet.ack = none) : Same x w (w.sendToLocal sid packet fails) :=
  h.sendToLocal_rule (fun _ => same_of_eq rfl rfl rfl) fails
    (fun _ _ hconn => same_write hconn hpacket) fun s hs => hs.trans (same_beginClose s x sid)

theorem same_onAccepted (w : Worker) {wid : Nat} {dialed created : Bool}
    (hx : x ≠ (w.onAccepted wid dialed created).2) :
    Same x w (w.onAccepted wid dialed created).1 := by
  rw [Worker.onAccepted] at hx ⊢
  split
  case isFalse => exact same_of_eq rfl rfl rfl
  case isTrue hcreated =>
    rw [if_pos hcreated] at hx
    refine ⟨fun hmem => (mem_keep.mp hmem).resolve_left hx, fun _ => ?_, [], ?_, rfl⟩
    · rw [stateOf, stateOf, Registry.tryGetContext, Registry.find_add, if_neg hx]
      rfl
    · exact (List.append_nil _).symm

theorem same_finishDialOk (w : Worker) {wid : Nat} {created : Bool}
    (hx : x ≠ (w.onAccepted wid true created).2) : Same x w (w.finishDialOk wid created) := by
  have haccepted := same_onAccepted w hx
  rw [Worker.finishDialOk]
  dsimp only
  split
  · exact haccepted
  · exact haccepted.trans (same_of_eq rfl rfl rfl)

/-- A new session is in the state `Connected`. -/
theorem stateOf_onAccepted (w : Worker) (wid : Nat) (dialed : Bool) :
    (w.onAccepted wid dialed true).1.stateOf (w.onAccepted wid dialed true).2 =
      some .Connected := by
  rw [stateOf, Registry.tryGetContext, Worker.onAccepted, if_pos rfl, Registry.find_add, if_pos rfl]
  rfl

theorem stateOf_finishDialOk (w : Worker) (wid : Nat) :
    (w.finishDialOk wid true).stateOf (w.onAccepted wid true true).2 = some .Connected := by
  have haccepted := stateOf_onAccepted w wid true
  rw [Worker.finishDialOk]
  dsimp only
  split
  · exact haccepted
  · exact haccepted

/-- The sessions of `P` go on, and no acknowledgement is posted. -/
structure Steady (P : SessionId → Prop) (w w' : Worker) : Prop where
  coherent : w'.Coherent
  tasks : ∀ sid packet, .sendTo sid packet ∈ w'.tasks → packet.ack = none
  same : ∀ x, P x → Same x w w'

namespace Steady

variable {P : SessionId → Prop} (h : Steady P w w')
include h

theorem of_tasks (hcoherent : w''.Coherent) (htasks : ∀ task ∈ w''.tasks, task ∈ w'.tasks)
    (hsame : ∀ x, P x → Same x w' w'') :
    Steady P w w'' where
  coherent := hcoherent
  tasks sid packet hmem := h.tasks sid packet (htasks _ hmem)
  same x hx := (h.same x hx).trans (hsame x hx)

theorem beginClose (sid : SessionId) : Steady P w (w'.beginClose sid) :=
  h.of_tasks (h.coherent.beginClose sid) (fun _ hmem => tasks_beginClose w' sid ▸ hmem)
    fun x _ => same_beginClose w' x sid

theorem receive (sid : SessionId) (packet : Packet) : Steady P w (w'.receive sid packet) :=
  h.of_tasks (h.coherent.receive sid packet) (fun _ hmem => hmem) fun x _ =>
    same_of_eq rfl rfl (sentTo_received x sid _ packet)

theorem pop {task : Task} {rest : List Task} (htasks : w'.tasks = task :: rest) :
    Steady P w { w' with tasks := rest } :=
  h.of_tasks (h.coherent.pop rest) (fun _ hmem => htasks ▸ List.mem_cons_of_mem task hmem)
    fun _ _ => same_of_eq rfl rfl rfl

theorem setForWorker (hsid : sid = 0 ∨ sid ∈ w'.sessions) : Steady P w (w'.setForWorker sid) :=
  h.of_tasks (h.coherent.setForWorker hsid) (fun _ hmem => hmem) fun _ _ => same_of_eq rfl rfl rfl

theorem setState (hsid : ∀ x, P x → x ≠ sid) (st : ConnState) : Steady P w (w'.setState sid st) :=
  h.of_tasks (h.coherent.setState sid st) (fun _ hmem => hmem) fun x hx =>
    same_setState w' (hsid x hx) st

theorem sendToLocal (fails : Bool) (hpacket : ∀ x, P x → x = sid → packet.ack = none) :
    Steady P w (w'.sendToLocal sid packet fails) := by
  refine h.of_tasks (h.coherent.sendToLocal sid packet fails) (fun task hmem => ?_) fun x hx =>
    h.coherent.same_sendToLocal fails (hpacket x hx)
  rw [(h.coherent.traffic_sendToLocal sid packet fails).1] at hmem
  exact hmem

theorem post {task : Task} (htask : ∀ sid packet, task = .sendTo sid packet → packet.ack = none) :
    Steady P w (w'.post task) where
  coherent := h.coherent.post task
  tasks sid packet hmem := by
    rcases List.mem_append.mp hmem with hmem | hmem
    · exact h.tasks sid packet hmem
    · exact htask sid packet (List.mem_singleton.mp hmem).symm
  same x hx := (h.same x hx).trans (same_of_eq rfl rfl rfl)

end Steady

/-! ### A hello that is not refused -/

/-- What is left to do for such a hello. -/
def greet (w : Worker) (sid : SessionId) (role : PeerRole) (fails : Bool) : Worker :=
  ((if role = .Exchange ∧ w.slot = 0 then w.setForWorker sid else w).setState sid
    .Handshaked).sendToLocal sid (.roleHelloAck .Ok role) fails

theorem stateOf_setState (hw : w.Coherent) (hsid : sid ∈ w.sessions) (st : ConnState) :
    (w.setState sid st).stateOf sid = some st := by
  obtain ⟨rec, hrec⟩ := Option.isSome_iff_exists.mp ((hw.stored sid).mpr hsid)
  rw [stateOf, Registry.tryGetContext, Worker.setState, Registry.setState, Registry.modifyContext,
    hrec, Registry.find, AList.lookup_insert]
  rfl

/-- The session is acknowledged. -/
structure Acknowledged (sid : SessionId) (role : PeerRole) (w w' : Worker) : Prop where
  state : sid ∈ w'.sessions → w'.stateOf sid = some .Handshaked
  sent : sentTo sid w'.log = sentTo sid w.log ++ [.roleHelloAck .Ok role]

section

variable (h : w.Coherent) (hsid : sid ∈ w.sessions)
include h hsid

/-- A packet for a session that is there is written, whether or not the session then ends. -/
theorem Coherent.sendToLocal_eq (hzero : sid ≠ 0) (packet : Packet) (fails : Bool) :
    ∃ conn, w.sessions.lookup sid = some conn ∧
      w.sendToLocal sid packet fails =
        if fails then (w.write sid conn packet).beginClose sid else w.write sid conn packet := by
  obtain ⟨conn, hconn⟩ := Option.isSome_iff_exists.mp (AList.lookup_isSome.mpr hsid)
  refine ⟨conn, hconn, ?_⟩
  rcases h.tryGetHandle sid with ⟨-, hnone⟩ | ⟨handle, hhandle, rfl, -⟩
  · exact absurd hsid (hnone.resolve_left hzero)
  · rw [Worker.sendToLocal, hhandle]
    dsimp only
    rw [Worker.sendPacketU16, hconn]

theorem Coherent.acknowledged_sendToLocal (hzero : sid ≠ 0)
    (hstate : w.stateOf sid = some .Handshaked) (role : PeerRole) (fails : Bool) :
    Acknowledged sid role w (w.sendToLocal sid (.roleHelloAck .Ok role) fails) := by
  obtain ⟨conn, hconn, heq⟩ := h.sendToLocal_eq hsid hzero (.roleHelloAck .Ok role) fails
  have hsent : sentTo sid (w.write sid conn (.roleHelloAck .Ok role)).log =
      sentTo sid w.log ++ [.roleHelloAck .Ok role] := by
    rw [Worker.write, sentTo_sent, if_pos rfl]
  rw [heq]
  cases fails with
  | false => exact ⟨fun _ => hstate, hsent⟩
  | true =>
    refine ⟨fun hmem => absurd rfl ((mem_beginClose _ sid sid).mp hmem).1, ?_⟩
    rw [if_pos rfl, log_beginClose, hsent]

theorem Coherent.claim (role : PeerRole) :
    (if role = .Exchange ∧ w.slot = 0 then w.setForWorker sid else w).Coherent := by
  split
  · exact h.setForWorker (.inr hsid)
  · exact h

theorem Coherent.acknowledged_greet (hzero : sid ≠ 0) (role : PeerRole) (fails : Bool) :
    Acknowledged sid role w (w.greet sid role fails) := by
  have hclaim := h.claim hsid role
  have hmem : sid ∈ (if role = .Exchange ∧ w.slot = 0 then w.setForWorker sid else w).sessions := by
    split <;> exact hsid
  have hlog : (if role = .Exchange ∧ w.slot = 0 then w.setForWorker sid else w).log = w.log := by
    split <;> rfl
  rw [greet]
  generalize (if role = .Exchange ∧ w.slot = 0 then w.setForWorker sid else w) = c at *
  obtain ⟨hstate, hsent⟩ := (hclaim.setState sid .Handshaked).acknowledged_sendToLocal hmem hzero
    (stateOf_setState hclaim hmem .Handshaked) role fails
  exact ⟨hstate, hsent.trans (congrArg (sentTo sid · ++ _) hlog)⟩

/-- The session is kept if the acknowledgement can be sent. -/
theorem Coherent.mem_greet (hzero : sid ≠ 0) (role : PeerRole) :
    sid ∈ (w.greet sid role false).sessions := by
  have hclaim := h.claim hsid role
  have hmem : sid ∈ (if role = .Exchange ∧ w.slot = 0 then w.setForWorker sid else w).sessions := by
    split <;> exact hsid
  rw [greet]
  generalize (if role = .Exchange ∧ w.slot = 0 then w.setForWorker sid else w) = c at *
  obtain ⟨conn, hconn, heq⟩ := (hclaim.setState sid .Handshaked).sendToLocal_eq hmem hzero
    (.roleHelloAck .Ok role) false
  rw [heq]
  exact (mem_write hconn _).mpr hmem

end

theorem Steady.greet {P : SessionId → Prop} (h : Steady P w w') (hsid : sid ∈ w'.sessions)
    (hP : ∀ x, P x → x ≠ sid) (role : PeerRole) (fails : Bool) :
    Steady P w (w'.greet sid role fails) := by
  have hclaim : Steady P w
      (if role = .Exchange ∧ w'.slot = 0 then w'.setForWorker sid else w') := by
    split
    · exact h.setForWorker (.inr hsid)
    · exact h
  exact (hclaim.setState hP .Handshaked).sendToLocal fails fun x hx heq => absurd heq (hP x hx)

end Worker

/-! ## All workers -/

namespace State

variable {n : Nat} {handoff : Bool} {g g' : State n} {w : Fin n} {sid : SessionId}
  {packet : Packet} {P : SessionId → Prop}

/-- Every worker goes on with the sessions of `P`. -/
def Steady (P : SessionId → Prop) (g g' : State n) : Prop := g'.All fun v => (g v).Steady P

/-- The hello of a session that may have the role is acknowledged. -/
theorem onRoleHello_eq_greet {role : PeerRole} (howner : ownerOf n sid = some w)
    (hexchange : role = .Exchange → (g w).slot = 0 ∨ (g w).slot = sid)
    (hclient : role ≠ .Exchange → (g w).slot = 0 ∨ (g w).slot ≠ sid) (fails : Bool) :
    g.onRoleHello w sid role fails = g.modify w (·.greet sid role fails) := by
  have hack : ∀ c : State n, c.acknowledge w sid role fails = c.modify w fun v =>
      (v.setState sid .Handshaked).sendToLocal sid (.roleHelloAck .Ok role) fails := by
    intro c
    rw [acknowledge, sendTo, howner]
    dsimp only
    rw [if_pos rfl, modify_modify]
  rw [onRoleHello]
  by_cases hrole : role = .Exchange
  · have hfree : ¬((g w).slot ≠ 0 ∧ sid ≠ (g w).slot) := fun hne =>
      (hexchange hrole).elim hne.1 fun heq => hne.2 heq.symm
    rw [if_pos hrole, if_neg hfree]
    by_cases hslot : (g w).slot = 0
    · rw [if_pos hslot, hack, modify_modify, modify, modify, Worker.greet, if_pos ⟨hrole, hslot⟩]
    · rw [if_neg hslot, hack, modify, modify, Worker.greet, if_neg fun hc => hslot hc.2]
  · have hfree : ¬((g w).slot ≠ 0 ∧ sid = (g w).slot) := fun hne =>
      (hclient hrole).elim hne.1 fun hslot => hslot hne.2.symm
    rw [if_neg hrole, if_neg hfree, hack, modify, modify, Worker.greet,
      if_neg fun hc => hrole hc.1]

theorem Steady.sendTo (h : Steady P g g') (cw : Fin n) (sid : SessionId) (fails : Bool)
    (hpacket : packet.ack = none) : Steady P g (g'.sendTo cw sid packet fails) :=
  State.All.sendTo h (fun _ => (h cw).sendToLocal fails fun _ _ _ => hpacket) fun v _ _ =>
    (h v).post fun _ _ heq => by cases heq; exact hpacket

/-- What is not about a new session or a hello. -/
def Quiet : Event n → Prop
  | .accept .. | .dialOk .. | .roleHello .. => False
  | _ => True

theorem Steady.step (h : Steady P g g) {e : Event n} (he : Quiet e) :
    Steady P g (g.step handoff e) := by
  cases e with
  | accept w created | dialOk w created | roleHello w sid role fails => exact he.elim
  | perfPing w sid pkt now stale fails =>
    rw [State.step]
    refine State.All.onPacket h (fun _ => (h w).receive sid _) fun _ _ h' => ?_
    rw [onPerfPing]
    split
    · exact h'
    · exact Steady.sendTo h' w _ fails rfl
  | perfPong w sid pkt now fails =>
    rw [State.step]
    refine State.All.onPacket h (fun _ => (h w).receive sid _) fun _ _ h' => ?_
    rw [onPerfPong]
    split
    · exact h'
    · exact Steady.sendTo h' w _ fails rfl
  | sessionEnd w sid =>
    rw [State.step]
    exact State.All.modify h ((h w).beginClose sid)
  | task w fails =>
    rw [State.step, drainTask]
    split
    · exact h
    case h_2 sid packet rest htasks =>
      have hpacket : packet.ack = none := (h w).tasks sid packet (htasks ▸ List.mem_cons_self)
      exact State.All.modify h (((h w).pop htasks).sendToLocal fails fun _ _ _ => hpacket)
    case h_3 sid rest htasks => exact State.All.modify h (((h w).pop htasks).beginClose sid)

theorem Steady.accept (h : Steady P g g) (handoff : Bool) {w : Fin n} {created : Bool}
    (hP : ∀ x, P x → x ≠ ((g w).onAccepted w false created).2) :
    Steady P g (g.step handoff (.accept w created)) := by
  rw [State.step]
  refine State.All.modify h ((h w).of_tasks ((h w).coherent.onAccepted w false created)
    (fun _ hmem => ?_) fun x hx => Worker.same_onAccepted (g w) (hP x hx))
  rw [Worker.tasks_onAccepted] at hmem
  exact hmem

theorem Steady.dialOk (h : Steady P g g) (handoff : Bool) {w : Fin n} {created : Bool}
    (hP : ∀ x, P x → x ≠ ((g w).onAccepted w true created).2) :
    Steady P g (g.step handoff (.dialOk w created)) := by
  rw [State.step]
  refine State.All.modify h ((h w).of_tasks ((h w).coherent.finishDialOk w created)
    (fun _ hmem => ?_) fun x hx => Worker.same_finishDialOk (g w) (hP x hx))
  rw [Worker.tasks_finishDialOk] at hmem
  exact hmem

end State

/-! ## The gateway and its peers -/

namespace Deployment

variable {n : Nat} {handoff : Bool} {s s' : Deployment n} {sid : SessionId} {p p' : Peer n}
  {w : Fin n} {g' : State n}

/-- The handshakes of the sessions that are open, and no peer has met a packet that it has no
handler for. -/
structure Agreed (s : Deployment n) : Prop where
  tasks : ∀ w sid packet, .sendTo sid packet ∈ (s.gateway w).tasks → packet.ack = none
  opened : ∀ sid p, s.peers sid = some p → p.closed = false
  phase : ∀ sid p, s.peers sid = some p → sid ∈ (s.gateway p.worker).sessions →
    Handshake p ((s.gateway p.worker).stateOf sid) (s.inFlight sid)

theorem inFlight_of_peer (hp : s.peers sid = some p) :
    s.inFlight sid = (sentTo sid (s.gateway p.worker).log).drop p.taken := by
  rw [inFlight, hp]

/-- What is sent comes behind what is on its way. -/
theorem Sound.drop_append (hs : s.Sound) (hp : s.peers sid = some p) (more : List Packet) :
    (sentTo sid (s.gateway p.worker).log ++ more).drop p.taken = s.inFlight sid ++ more := by
  rw [inFlight_of_peer hp]
  exact List.drop_append_of_le_length (hs.taken sid p hp)

theorem Agreed.steady (h : s.Agreed) (hwired : s.Wired) (P : SessionId → Prop) :
    State.Steady P s.gateway s.gateway := fun v =>
  ⟨hwired.coherent v, h.tasks v, fun _ _ => Worker.same_of_eq rfl rfl rfl⟩

/-- A session that goes on stays in its phase. -/
theorem Agreed.phase_same (h : s.Agreed) (hs : s.Sound) (hp : s.peers sid = some p) {v : Worker}
    (hsame : (s.gateway p.worker).Same sid v) (hmem : sid ∈ v.sessions) :
    Handshake p (v.stateOf sid) ((sentTo sid v.log).drop p.taken) := by
  obtain ⟨more, hsent, hmore⟩ := hsame.sent
  have hphase := h.phase sid p hp (hsame.mem hmem)
  rw [hsame.state hmem]
  refine hphase.congr rfl rfl rfl ?_
  rw [hsent, hs.drop_append hp, acks_append, hmore, List.append_nil]

theorem Agreed.gateway (h : s.Agreed) (hs : s.Sound)
    (hg : State.Steady (fun _ => True) s.gateway g') : Agreed { s with gateway := g' } where
  tasks v := (hg v).tasks
  opened := h.opened
  phase sid p hp hmem := by
    rw [inFlight_of_peer (s := { s with gateway := g' }) hp]
    exact h.phase_same hs hp ((hg p.worker).same sid trivial) hmem

theorem Agreed.goOn (h : s.Agreed) (hs : s.Sound) (hp : s.peers sid = some p)
    (hworker : p'.worker = p.worker) (hopened : p'.closed = false)
    (hg : State.Steady (· ≠ sid) s.gateway g')
    (hphase : sid ∈ (g' p.worker).sessions →
      Handshake p' ((g' p.worker).stateOf sid) ((sentTo sid (g' p.worker).log).drop p'.taken)) :
    (s.goOn sid p' g').Agreed := by
  have hcases : ∀ x q, (s.goOn sid p' g').peers x = some q →
      x = sid ∧ q = p' ∨ x ≠ sid ∧ s.peers x = some q := by
    intro x q hq
    by_cases hx : x = sid
    · subst hx
      simp only [Deployment.goOn, setPeer, Function.update_self, Option.some.injEq] at hq
      exact .inl ⟨rfl, hq.symm⟩
    · simp only [Deployment.goOn, setPeer, Function.update_of_ne hx] at hq
      exact .inr ⟨hx, hq⟩
  constructor
  case tasks => exact fun v => (hg v).tasks
  case opened =>
    intro x q hq
    rcases hcases x q hq with ⟨-, rfl⟩ | ⟨-, hq⟩
    · exact hopened
    · exact h.opened x q hq
  case phase =>
    intro x q hq hmem
    rw [inFlight_of_peer hq]
    rcases hcases x q hq with ⟨rfl, rfl⟩ | ⟨hx, hq⟩
    · rw [hworker] at hmem ⊢
      exact hphase hmem
    · exact h.phase_same hs hq ((hg q.worker).same x hx) hmem

/-! ### Reading a request -/

section Deliver

variable {request : Request} {rest : List Request}
variable (h : s.Agreed) (hinv : s.Inv handoff) (hp : s.peers sid = some p)
  (hr : p.requests = request :: rest)
include h hinv hp hr

theorem Agreed.deliver_perf (hrequest : ∀ role, request ≠ .roleHelloReq role) (stale : SessionId)
    (fails : Bool) : (s.step handoff (.deliver sid stale fails)).Agreed := by
  have hquiet : State.Quiet (request.event p.worker sid stale s.clock fails) := by
    cases request with
    | roleHelloReq role => exact absurd rfl (hrequest role)
    | perfPing pkt | perfPong pkt => trivial
  rw [step_deliver hp hr]
  refine h.goOn hinv.sound hp rfl (h.opened sid p hp)
    ((h.steady hinv.wired _).step hquiet) fun hmem => ?_
  have hsteady : State.Steady (fun _ => True) s.gateway (s.gateway.step handoff _) :=
    (h.steady hinv.wired _).step hquiet
  have hsame := (hsteady p.worker).same sid trivial
  exact (h.phase_same hinv.sound hp hsame hmem).read hr hrequest

omit h hr in
/-- Nobody claims a role that is another's. -/
theorem Inv.hello_free : (p.role = .Exchange →
      (s.gateway p.worker).slot = 0 ∨ (s.gateway p.worker).slot = sid) ∧
    (p.role ≠ .Exchange →
      (s.gateway p.worker).slot = 0 ∨ (s.gateway p.worker).slot ≠ sid) := by
  have hslot := (hinv.wired.slots p.worker).slot
  refine ⟨fun hrole => hslot.imp id fun hdial => ?_, fun hrole => hslot.imp id fun hdial heq => ?_⟩
  · exact Option.some.inj (hdial.symm.trans (hinv.wired.exchange sid p hp hrole))
  · rw [heq] at hdial
    obtain ⟨q, hq, -, hexchange⟩ := hinv.wired.dialed _ sid hdial (hinv.wired.owner sid p hp).1
    cases hp.symm.trans hq
    exact hrole hexchange

/-- The hello of an open session is read in the first phase and acknowledged. -/
theorem Agreed.step_hello {role : PeerRole} (hrequest : request = .roleHelloReq role)
    (hmem : sid ∈ (s.gateway p.worker).sessions) (stale : SessionId) (fails : Bool) :
    p.requests = [.roleHelloReq p.role] ∧ p.state = .Connected ∧ acks (s.inFlight sid) = [] ∧
      s.step handoff (.deliver sid stale fails) =
        s.goOn sid (read p []) (s.gateway.modify p.worker (·.greet sid p.role fails)) := by
  subst hrequest
  have hhead : .roleHelloReq role ∈ p.requests := hr ▸ List.mem_cons_self
  cases h.phase sid p hp hmem with
  | accepted _ _ hreq => cases hreq.symm.trans hr
  | done _ _ hreq => exact absurd hhead (hreq role)
  | offered hpeer hgateway hreq hacks =>
    have hcons := hreq.symm.trans hr
    cases hcons
    obtain ⟨hexchange, hclient⟩ := hinv.hello_free hp
    refine ⟨hreq, hpeer, hacks, ?_⟩
    rw [step_deliver hp hr, Request.event, State.step, if_pos ⟨hmem, hgateway⟩,
      State.onRoleHello_eq_greet (hinv.wired.owner sid p hp).2 hexchange hclient]

theorem Agreed.deliver_hello {role : PeerRole} (hrequest : request = .roleHelloReq role)
    (stale : SessionId) (fails : Bool) :
    (s.step handoff (.deliver sid stale fails)).Agreed := by
  have hsteady := h.steady hinv.wired (· ≠ sid)
  by_cases hmem : sid ∈ (s.gateway p.worker).sessions
  · obtain ⟨hreq, hpeer, hacks, hstep⟩ := h.step_hello hinv hp hr hrequest hmem stale fails
    obtain ⟨hstate, hsent⟩ := (hinv.wired.coherent p.worker).acknowledged_greet hmem
      (hinv.wired.owner sid p hp).1 p.role fails
    rw [hstep]
    refine h.goOn hinv.sound hp rfl (h.opened sid p hp)
      (State.All.modify hsteady ((hsteady p.worker).greet hmem (fun _ hx => hx) p.role fails))
      fun hopen => ?_
    rw [State.modify_self] at hopen ⊢
    refine .accepted hpeer (hstate hopen) rfl ?_
    change acks (List.drop p.taken _) = [p.role]
    rw [hsent, hinv.sound.drop_append hp, acks_append, hacks]
    rfl
  · -- the session has ended, and the hello is for nobody
    subst hrequest
    rw [step_deliver hp hr, Request.event, State.step, if_neg fun hc => hmem hc.1]
    exact h.goOn hinv.sound hp rfl (h.opened sid p hp) hsteady fun hc => absurd hc hmem

end Deliver

theorem Agreed.deliver (h : s.Agreed) (hinv : s.Inv handoff) (sid stale : SessionId)
    (fails : Bool) : (s.step handoff (.deliver sid stale fails)).Agreed := by
  cases hp : s.peers sid with
  | none =>
    rw [step, hp]
    exact h
  | some p =>
    cases hr : p.requests with
    | nil =>
      simp only [step, hp, hr]
      exact h
    | cons request rest =>
      cases request with
      | roleHelloReq role => exact h.deliver_hello hinv hp hr rfl stale fails
      | perfPing pkt | perfPong pkt =>
        exact h.deliver_perf hinv hp hr (fun _ heq => by cases heq) stale fails

/-! ### A peer goes on -/

section Take

variable {packet : Packet} {rest : List Packet}

/-- A peer is sent what it has a handler for. -/
theorem Inv.opened_receive (hinv : s.Inv handoff) (hp : s.peers sid = some p)
    (hflight : s.inFlight sid = packet :: rest) (now : UInt64) :
    ((took p).receive now packet).closed = p.closed := by
  have hpacket := hinv.packetOk hp hflight
  cases packet with
  | roleHelloAck result role =>
    rw [Peer.receive, Peer.onRoleHelloAck]
    split <;> rfl
  | perfPing pkt =>
    obtain ⟨q, hq, -, hexchange⟩ := hinv.wired.dialed _ sid hpacket.content.1.1
      (hinv.wired.owner sid p hp).1
    cases hp.symm.trans hq
    rw [Peer.receive, if_pos (show (took p).role = _ from hexchange)]
    split <;> rfl
  | perfPong pkt =>
    obtain ⟨⟨rfl, q, hq, hclient⟩, -⟩ := hpacket.content
    cases hp.symm.trans hq
    have hrole : (took p).role ≠ .Exchange := by
      rw [show (took p).role = _ from hclient]
      exact PeerRole.noConfusion
    rw [Peer.receive, if_neg hrole]
    split <;> rfl

/-- The peer has got the packet, and the rest is on its way. -/
theorem step_take (hp : s.peers sid = some p) (hopened : p.closed = false)
    (hflight : s.inFlight sid = packet :: rest) : s.step handoff (.take sid) =
      s.goOn sid ((took p).receive s.clock packet) s.gateway := by
  rw [step, hp]
  dsimp only
  rw [if_neg (ne_true_of_eq_false hopened), hflight]
  rfl

theorem Takes.taken {now : UInt64} (h : Takes p now packet p') : p'.taken = p.taken + 1 := by
  cases h with
  | kept _ _ _ _ htaken => exact htaken
  | answered | handled => rfl

theorem drop_took (hp : s.peers sid = some p) (hflight : s.inFlight sid = packet :: rest)
    (now : UInt64) : (sentTo sid (s.gateway p.worker).log).drop
      ((took p).receive now packet).taken = rest := by
  rw [inFlight_of_peer hp] at hflight
  rw [(takes_receive p now packet).taken, ← List.drop_drop, hflight]
  rfl

theorem Agreed.take (h : s.Agreed) (hinv : s.Inv handoff) (sid : SessionId) :
    (s.step handoff (.take sid)).Agreed := by
  cases hp : s.peers sid with
  | none =>
    simp only [step, hp]
    exact h
  | some p =>
    have hopened := h.opened sid p hp
    cases hflight : s.inFlight sid with
    | nil =>
      simp only [step, hp, hopened, hflight]
      exact h
    | cons packet rest =>
      rw [step_take hp hopened hflight]
      refine h.goOn hinv.sound hp (takes_receive p s.clock packet).same.1
        ((hinv.opened_receive hp hflight s.clock).trans hopened) (h.steady hinv.wired _)
        fun hmem => ?_
      have hphase := h.phase sid p hp hmem
      rw [hflight] at hphase
      rw [drop_took hp hflight]
      exact hphase.receive s.clock

end Take

theorem Agreed.ping (h : s.Agreed) (hinv : s.Inv handoff) (sid : SessionId) (seq : UInt64)
    (timed : Bool) : (s.step handoff (.ping sid seq timed)).Agreed := by
  rw [step]
  split
  · exact h
  case h_2 p hp =>
    rw [Peer.ping]
    split
    case isFalse =>
      rw [setPeer, Function.update_eq_self_iff.mpr hp.symm]
      exact h
    case isTrue hready =>
      refine h.goOn hinv.sound hp rfl (h.opened sid p hp) (h.steady hinv.wired _) fun hmem => ?_
      have hphase := h.phase sid p hp hmem
      rw [inFlight_of_peer hp] at hphase
      exact hphase.send hready.2.1 rfl rfl (fun _ heq => by cases heq) rfl

/-! ### A peer joins -/

theorem Agreed.join {created : Bool} {role : PeerRole} (h : s.Agreed) (hinv : s.Inv handoff)
    (hj : Joins s s' w (s.newId w created) role) (hnone : s.peers (s.newId w created) = none)
    (hg : State.Steady (· ≠ s.newId w created) s.gateway s'.gateway)
    (hstate : created = true → (s'.gateway w).stateOf (s.newId w created) = some .Connected) :
    s'.Agreed := by
  constructor
  case tasks => exact fun v => (hg v).tasks
  case opened =>
    intro sid p hp
    rw [hj.peers] at hp
    rcases join_some hp with ⟨-, -, rfl⟩ | hp
    · rfl
    · exact h.opened sid p hp
  case phase =>
    intro sid p hp hmem
    rw [inFlight_of_peer hp]
    rw [hj.peers] at hp
    rcases join_some hp with ⟨rfl, hzero, rfl⟩ | hp
    · have hcreated : created = true := by
        cases created with
        | true => rfl
        | false => exact absurd rfl hzero
      have hsent : sentTo (s.newId w created) (s'.gateway w).log = [] := by
        have hsame := congrArg (fun t => t.sent w (s.newId w created)) hj.traffic
        exact hsame.trans (hinv.sound.sent_of_none hnone w)
      exact .offered rfl (hstate hcreated) rfl (congrArg acks hsent)
    · refine h.phase_same hinv.sound hp ((hg p.worker).same sid ?_) hmem
      rintro rfl
      cases hnone.symm.trans hp

theorem Agreed.connect (h : s.Agreed) (hinv : s.Inv handoff) (hn : n ≤ 2 ^ 31)
    (hw : (s.gateway w).InBounds w) (created : Bool) :
    (s.step handoff (.connect w created)).Agreed := by
  refine h.join hinv (joins_connect hinv.wired w created) (hinv.wired.peers_newId hn hw created)
    ((h.steady hinv.wired _).accept handoff fun x hx => ?_) fun hcreated => ?_
  · rw [onAccepted_id]
    exact hx
  · subst hcreated
    rw [← onAccepted_id s w false true]
    change (s.gateway.modify w _ w).stateOf _ = _
    rw [State.modify_self]
    exact Worker.stateOf_onAccepted (s.gateway w) w false

theorem Agreed.dialOk (h : s.Agreed) (hinv : s.Inv handoff) (hn : n ≤ 2 ^ 31)
    (hw : (s.gateway w).InBounds w) (hdial : s.dials w = none) (created : Bool) :
    (s.step handoff (.dialOk w created)).Agreed := by
  have hgateway : (s.step handoff (.dialOk w created)).gateway =
      s.gateway.step handoff (.dialOk w created) := by
    rw [step, hdial]
  refine h.join hinv (joins_dialOk hinv.wired hdial created)
    (hinv.wired.peers_newId hn hw created) ?_ fun hcreated => ?_
  · rw [hgateway]
    refine (h.steady hinv.wired _).dialOk handoff fun x hx => ?_
    rw [onAccepted_id]
    exact hx
  · subst hcreated
    rw [hgateway, ← onAccepted_id s w true true, State.step, State.modify_self]
    exact Worker.stateOf_finishDialOk (s.gateway w) w

/-! ### Whole runs -/

theorem Agreed.step (h : s.Agreed) (hinv : s.Inv handoff) (hn : n ≤ 2 ^ 31) (m : Move n)
    (hm : s.InBounds m) : (s.step handoff m).Agreed := by
  cases m with
  | tick now => exact ⟨h.tasks, h.opened, h.phase⟩
  | connect w created => exact h.connect hinv hn hm created
  | dialOk w created =>
    cases hw : s.dials w with
    | some x =>
      rw [Deployment.step, hw]
      exact h
    | none => exact h.dialOk hinv hn hm hw created
  | deliver sid stale fails => exact h.deliver hinv sid stale fails
  | task w fails | sessionEnd w sid =>
    exact h.gateway hinv.sound ((h.steady hinv.wired _).step trivial)
  | take sid => exact h.take hinv sid
  | ping sid seq timed => exact h.ping hinv sid seq timed

theorem agreed_init : ({} : Deployment n).Agreed where
  tasks _ _ _ hmem := by cases hmem
  opened _ _ hp := by cases hp
  phase _ _ hp := by cases hp

theorem agreed_run (hn : n ≤ 2 ^ 31) (handoff : Bool) (moves : List (Move n))
    (hopened : ∀ w, Fep.opened w moves < 2 ^ 32) :
    (run handoff moves).Inv handoff ∧ (run handoff moves).Agreed :=
  run_rule (I := fun s => s.Inv handoff ∧ s.Agreed) ⟨inv_init handoff, agreed_init⟩
    (fun _ m h hm => ⟨h.1.step hn m hm, h.2.step h.1 hn m hm⟩) moves hopened

/-- A peer that gets all that is on its way to it. -/
theorem takes_all (hn : n ≤ 2 ^ 31) (hinv : s.Inv handoff) (h : s.Agreed)
    (hp : s.peers sid = some p) :
    ∃ s', (List.replicate (s.inFlight sid).length (.take sid)).foldl (step handoff) s = s' ∧
      s'.Agreed ∧ s'.gateway = s.gateway ∧ s'.inFlight sid = [] ∧
      ∃ p', s'.peers sid = some p' ∧ p'.worker = p.worker := by
  generalize hflight : s.inFlight sid = packets
  induction packets generalizing s p with
  | nil => exact ⟨s, rfl, h, rfl, hflight, p, hp, rfl⟩
  | cons packet rest ih =>
    have hstep : s.step handoff (.take sid) = _ := step_take hp (h.opened sid p hp) hflight
    have hworker := (takes_receive p s.clock packet).same.1
    have hp' : (s.step handoff (.take sid)).peers sid =
        some ((took p).receive s.clock packet) := by
      rw [hstep]
      exact Function.update_self ..
    have hgateway : (s.step handoff (.take sid)).gateway = s.gateway := by
      rw [hstep]
      rfl
    have hrest : (s.step handoff (.take sid)).inFlight sid = rest := by
      rw [inFlight_of_peer hp', hgateway, hworker]
      exact drop_took hp hflight s.clock
    obtain ⟨s', hrun, hagreed, hsame, hnil, q, hq, hqw⟩ :=
      ih (hinv.step hn (.take sid) trivial) (h.step hinv hn (.take sid) trivial) hp' hrest
    exact ⟨s', hrun, hagreed, hsame.trans hgateway, hnil, q, hq, hqw.trans hworker⟩

/-- A handshake of which all that was sent has arrived is done. -/
theorem Agreed.done (h : s.Agreed) (hp : s.peers sid = some p)
    (hmem : sid ∈ (s.gateway p.worker).sessions)
    (hstate : (s.gateway p.worker).stateOf sid = some .Handshaked) (hnil : s.inFlight sid = []) :
    p.state = .Handshaked := by
  have hphase := h.phase sid p hp hmem
  rw [hstate, hnil] at hphase
  cases hphase with
  | offered _ hgateway => cases hgateway
  | accepted _ _ _ hacks => cases hacks
  | done hpeer => exact hpeer

/-- Gateway and peer both have the handshake behind them. -/
def Shaken (s : Deployment n) (w : Fin n) (sid : SessionId) : Prop :=
  ∃ p, s.peers sid = some p ∧ p.worker = w ∧ p.state = .Handshaked ∧
    sid ∈ (s.gateway w).sessions ∧ (s.gateway w).stateOf sid = some .Handshaked

/-- Once the gateway has acknowledged, the peer has only to get what is on its way. -/
theorem Agreed.finish (h : s.Agreed) (hn : n ≤ 2 ^ 31) (hinv : s.Inv handoff)
    (hp : s.peers sid = some p) (hmem : sid ∈ (s.gateway p.worker).sessions)
    (hstate : (s.gateway p.worker).stateOf sid = some .Handshaked) :
    ∃ more : List (Move n), (∀ m ∈ more, m = .take sid) ∧
      more.length = (s.inFlight sid).length ∧
      (more.foldl (Deployment.step handoff) s).Shaken p.worker sid := by
  obtain ⟨s', hrun, hagreed, hgateway, hnil, p', hp', hworker⟩ := takes_all hn hinv h hp
  refine ⟨_, fun m hm => (List.mem_replicate.mp hm).2, List.length_replicate, ?_⟩
  rw [hrun]
  rw [← hgateway] at hmem hstate
  refine ⟨p', hp', hworker, hagreed.done hp' ?_ ?_ hnil, hmem, hstate⟩
  · rw [hworker]
    exact hmem
  · rw [hworker]
    exact hstate

/-- As long as the gateway has not acknowledged, the hello is to be read. -/
theorem Agreed.hello_of_ne (h : s.Agreed) (hp : s.peers sid = some p)
    (hmem : sid ∈ (s.gateway p.worker).sessions)
    (hstate : (s.gateway p.worker).stateOf sid ≠ some .Handshaked) :
    p.requests = [.roleHelloReq p.role] := by
  cases h.phase sid p hp hmem with
  | offered _ _ hreq => exact hreq
  | accepted _ hgateway | done _ hgateway => exact absurd hgateway hstate

/-- Reading it, the gateway acknowledges. -/
theorem Agreed.greeted (h : s.Agreed) (hinv : s.Inv handoff) (hp : s.peers sid = some p)
    (hr : p.requests = [.roleHelloReq p.role]) (hmem : sid ∈ (s.gateway p.worker).sessions) :
    ∃ p', (s.step handoff (.deliver sid 0 false)).peers sid = some p' ∧ p'.worker = p.worker ∧
      sid ∈ ((s.step handoff (.deliver sid 0 false)).gateway p.worker).sessions ∧
      ((s.step handoff (.deliver sid 0 false)).gateway p.worker).stateOf sid =
        some .Handshaked ∧
      ((s.step handoff (.deliver sid 0 false)).inFlight sid).length =
        (s.inFlight sid).length + 1 := by
  obtain ⟨-, -, -, hstep⟩ := h.step_hello hinv hp hr rfl hmem 0 false
  have hzero := (hinv.wired.owner sid p hp).1
  have hcoherent := hinv.wired.coherent p.worker
  obtain ⟨hstate, hsent⟩ := hcoherent.acknowledged_greet hmem hzero p.role false
  have hkept := hcoherent.mem_greet hmem hzero p.role
  have hp' : (s.goOn sid (read p []) (s.gateway.modify p.worker
      (·.greet sid p.role false))).peers sid = some (read p []) := Function.update_self ..
  have hworker : (s.goOn sid (read p []) (s.gateway.modify p.worker
      (·.greet sid p.role false))).gateway p.worker =
        (s.gateway p.worker).greet sid p.role false :=
    State.modify_self s.gateway p.worker (·.greet sid p.role false)
  rw [hstep]
  refine ⟨read p [], hp', rfl, ?_, ?_, ?_⟩
  · rw [hworker]
    exact hkept
  · rw [hworker]
    exact hstate hkept
  · rw [inFlight_of_peer hp']
    change (List.drop p.taken (sentTo sid (State.modify _ _ _ p.worker).log)).length = _
    rw [State.modify_self, hsent, hinv.sound.drop_append hp, List.length_append]
    rfl

end Deployment

/-! ## The results -/

/-- Whatever the order in which the processes and their queues are served and wherever sessions
end: while a session is open, gateway and peer are in one phase of its handshake, whatever the peer
has sent is handled in the state that the session has, and no peer is ever sent a packet that it
closes the session for. -/
theorem handshake_agrees {n : Nat} (hn : n ≤ 2 ^ 31) (handoff : Bool) (moves : List (Move n))
    (hopened : ∀ w, opened w moves < 2 ^ 32) (sid : SessionId) (p : Peer n)
    (hp : (Deployment.run handoff moves).peers sid = some p) :
    p.closed = false ∧
      (sid ∈ ((Deployment.run handoff moves).gateway p.worker).sessions →
        Handshake p (((Deployment.run handoff moves).gateway p.worker).stateOf sid)
            ((Deployment.run handoff moves).inFlight sid) ∧
          ∀ request ∈ p.requests,
            ((Deployment.run handoff moves).gateway p.worker).stateOf sid =
              some (Handshake.boundTo request)) := by
  obtain ⟨-, hagreed⟩ := Deployment.agreed_run hn handoff moves hopened
  refine ⟨hagreed.opened sid p hp, fun hmem => ?_⟩
  have hphase := hagreed.phase sid p hp hmem
  exact ⟨hphase, fun _ hrequest => hphase.state_of_mem hrequest⟩

theorem handshake_agrees_accepted :
    Handshake (⟨⟨0, Nat.one_pos⟩, .Client, .Connected, false, 0, [], [], []⟩ : Peer 1)
      (some .Handshaked) [.roleHelloAck .Ok .Client] :=
  ((handshake_agrees (by decide) false [.connect ⟨0, Nat.one_pos⟩ true, .deliver 1 0 false]
    (by decide) 1 _ rfl).2 (by decide)).1

/-- Nobody is refused and nothing is waited for in vain: from every state in which a session is
open, reading the hello and getting what is on its way to the peer brings its handshake to its
end. -/
theorem handshake_completes {n : Nat} (hn : n ≤ 2 ^ 31) (handoff : Bool) (moves : List (Move n))
    (hopened : ∀ w, opened w moves < 2 ^ 32) (sid : SessionId) (p : Peer n)
    (hp : (Deployment.run handoff moves).peers sid = some p)
    (hopen : sid ∈ ((Deployment.run handoff moves).gateway p.worker).sessions) :
    ∃ more : List (Move n), (∀ m ∈ more, m = .deliver sid 0 false ∨ m = .take sid) ∧
      more.length ≤ ((Deployment.run handoff moves).inFlight sid).length + 2 ∧
      (Deployment.run handoff (moves ++ more)).Shaken p.worker sid := by
  obtain ⟨hinv, hagreed⟩ := Deployment.agreed_run hn handoff moves hopened
  have hrun : ∀ more, Deployment.run handoff (moves ++ more) =
      more.foldl (Deployment.step handoff) (Deployment.run handoff moves) := fun more =>
    List.foldl_append
  simp only [hrun]
  generalize Deployment.run handoff moves = s at hp hopen hinv hagreed
  by_cases hstate : (s.gateway p.worker).stateOf sid = some .Handshaked
  case pos =>
    obtain ⟨more, hmoves, hlength, hshaken⟩ := hagreed.finish hn hinv hp hopen hstate
    exact ⟨more, fun m hm => .inr (hmoves m hm), by omega, hshaken⟩
  case neg =>
    have hr := hagreed.hello_of_ne hp hopen hstate
    obtain ⟨p₁, hp₁, hworker, hopen₁, hstate₁, hlength₁⟩ := hagreed.greeted hinv hp hr hopen
    rw [← hworker] at hopen₁ hstate₁ ⊢
    obtain ⟨more, hmoves, hlength, hshaken⟩ :=
      (hagreed.step hinv hn (.deliver sid 0 false) trivial).finish hn
        (hinv.step hn (.deliver sid 0 false) trivial) hp₁ hopen₁ hstate₁
    refine ⟨.deliver sid 0 false :: more, fun m hm => ?_, ?_, hshaken⟩
    · rcases List.mem_cons.mp hm with rfl | hm
      · exact .inl rfl
      · exact .inr (hmoves m hm)
    · rw [List.length_cons]
      omega

theorem handshake_completes_connect :
    ∃ more : List (Move 1), (∀ m ∈ more, m = .deliver 1 0 false ∨ m = .take 1) ∧
      more.length ≤ 2 ∧
      (Deployment.run false (.connect ⟨0, Nat.one_pos⟩ true :: more)).Shaken ⟨0, Nat.one_pos⟩ 1 :=
  handshake_completes (by decide) false [.connect ⟨0, Nat.one_pos⟩ true] (by decide) 1
    (.start ⟨0, Nat.one_pos⟩ .Client) rfl (by decide)

end HyperNet.Fep
