import HyperNet.Gateway.Links

/-!
# Connections

What holds between the gateway and its peers throughout a run.  `Wired` is about who is connected:
the id of a session names the worker that has it and is given once, the exchange is at the far end
of the session that a worker has dialed, and the slot of a worker names no other session.  `Sound`
is about what is under way: a ping goes to the upstream session and a pong to the session it names,
and the times in them are in order.
-/

namespace HyperNet.Fep

open App (SessionId ConnState Registry ownerOf)

namespace Deployment

variable {n : Nat} {handoff : Bool} {s s' : Deployment n} {sid : SessionId} {p : Peer n}
  {w : Fin n}

/-- The packets a peer has sent and the gateway has not read. -/
def requests (s : Deployment n) (sid : SessionId) : List Request :=
  match s.peers sid with
  | none => []
  | some p => p.requests

/-- The pongs a load generator has handled on a session, with the time of each. -/
def answers (s : Deployment n) (sid : SessionId) : List (PerfPkt × UInt64) :=
  match s.peers sid with
  | none => []
  | some p => p.answers

/-- The pings a load generator has sent on a session. -/
def pings (s : Deployment n) (sid : SessionId) : List PerfPkt :=
  match s.peers sid with
  | none => []
  | some p => p.pings

/-- The queues, for some traffic of the gateway. -/
def linksOf (s : Deployment n) (t : Traffic n) : Links n where
  requests := s.requests
  tasks := t.tasks
  inFlight sid :=
    match s.peers sid with
    | none => []
    | some p => (t.sent p.worker sid).drop p.taken
  answers := s.answers
  dials := s.dials
  pings := s.pings

def links (s : Deployment n) : Links n := s.linksOf s.gateway.traffic

/-! ## Who is connected -/

/-- The sessions and their peers. -/
structure Wired (s : Deployment n) : Prop where
  coherent : s.gateway.All fun _ v => v.Coherent
  slots : s.gateway.Within (fun v x => s.dials v = some x) fun v => (s.gateway v).accepts
  owner : ∀ sid p, s.peers sid = some p → sid ≠ 0 ∧ ownerOf n sid = some p.worker
  issued : ∀ sid p, s.peers sid = some p → ∃ c, 0 < c ∧ c ≤ (s.gateway p.worker).accepts ∧
    c < Net.idSpace (UInt32.ofNat p.worker) ∧ sid = Net.sessionId (UInt32.ofNat p.worker) c
  dialed : ∀ v sid, s.dials v = some sid → sid ≠ 0 →
    ∃ p, s.peers sid = some p ∧ p.worker = v ∧ p.role = .Exchange
  exchange : ∀ sid p, s.peers sid = some p → p.role = .Exchange → s.dials p.worker = some sid

theorem Wired.coherent_step (h : s.Wired) (handoff : Bool) (e : Event n) :
    (s.gateway.step handoff e).All fun _ v => v.Coherent :=
  (keeps_coherent handoff s.gateway e).step h.coherent

/-- Whose a peer is does not change. -/
def SamePeers (s s' : Deployment n) : Prop :=
  ∀ sid, (s'.peers sid).map (fun p => (p.worker, p.role)) =
    (s.peers sid).map fun p => (p.worker, p.role)

theorem SamePeers.of_some (h : SamePeers s s') {p' : Peer n} (hp : s'.peers sid = some p') :
    ∃ p, s.peers sid = some p ∧ p.worker = p'.worker ∧ p.role = p'.role := by
  have hsid := h sid
  rw [hp] at hsid
  obtain ⟨p, hp, heq⟩ := Option.map_eq_some_iff.mp hsid.symm
  exact ⟨p, hp, congrArg Prod.fst heq, congrArg Prod.snd heq⟩

theorem SamePeers.symm (h : SamePeers s s') : SamePeers s' s := fun sid => (h sid).symm

theorem samePeers_setPeer {p' : Peer n} (hp : s.peers sid = some p) (hworker : p'.worker = p.worker)
    (hrole : p'.role = p.role) : SamePeers s (s.setPeer sid p') := by
  intro x
  by_cases hx : x = sid
  · subst hx
    simp [setPeer, hp, hworker, hrole]
  · simp [setPeer, hx]

/-- The gateway and the peers may go on as long as nobody joins. -/
theorem Wired.congr (h : s.Wired) (s' : Deployment n) (hpeers : SamePeers s s')
    (hdials : s'.dials = s.dials) (hcoherent : s'.gateway.All fun _ v => v.Coherent)
    (hslots : s'.gateway.Within (fun v x => s.dials v = some x)
      fun v => (s.gateway v).accepts) : s'.Wired where
  coherent := hcoherent
  slots v := by
    rw [hdials]
    exact ⟨rfl, (hslots v).past, (hslots v).slot⟩
  owner sid p' hp' := by
    obtain ⟨p, hp, hworker, -⟩ := hpeers.of_some hp'
    rw [← hworker]
    exact h.owner sid p hp
  issued sid p' hp' := by
    obtain ⟨p, hp, hworker, -⟩ := hpeers.of_some hp'
    rw [← hworker, (hslots p.worker).accepts]
    exact h.issued sid p hp
  dialed v sid hv hzero := by
    rw [hdials] at hv
    obtain ⟨p, hp, hworker, hrole⟩ := h.dialed v sid hv hzero
    obtain ⟨p', hp', hworker', hrole'⟩ := hpeers.symm.of_some hp
    exact ⟨p', hp', hworker'.trans hworker, hrole'.trans hrole⟩
  exchange sid p' hp' hrole := by
    obtain ⟨p, hp, hworker, hrole'⟩ := hpeers.of_some hp'
    rw [hdials, ← hworker]
    exact h.exchange sid p hp (hrole'.trans hrole)

/-- The upstream session is that of one worker. -/
theorem Wired.dialedBy (h : s.Wired) (hw : s.dials w = some sid) (hzero : sid ≠ 0) :
    ∀ v, s.dials v = some sid ↔ v = w := by
  intro v
  refine ⟨fun hv => ?_, fun hv => hv ▸ hw⟩
  obtain ⟨p, hp, hworker, -⟩ := h.dialed v sid hv hzero
  obtain ⟨p', hp', hworker', -⟩ := h.dialed w sid hw hzero
  cases hp.symm.trans hp'
  exact hworker.symm.trans hworker'

/-- The id of the next session of a worker is nobody's. -/
theorem Wired.fresh (h : s.Wired) (hn : n ≤ 2 ^ 31) (hw : (s.gateway w).InBounds w) :
    s.peers (Net.sessionId (UInt32.ofNat w) ((s.gateway w).accepts + 1)) = none := by
  obtain ⟨-, howner⟩ := Worker.owner_of_lt hw hn
  cases hp : s.peers (Net.sessionId (UInt32.ofNat w) ((s.gateway w).accepts + 1)) with
  | none => rfl
  | some p =>
    have hworker := (h.owner _ p hp).2
    rw [howner] at hworker
    cases hworker
    obtain ⟨c, hpos, hle, hlt, heq⟩ := h.issued _ p hp
    have hsame := Net.sessionId_inj (Net.le_of_lt_idSpace hw) (Net.le_of_lt_idSpace hlt)
      (Nat.succ_pos _) hpos heq
    omega

/-- The session that a connection gets: none if it could not be made. -/
def newId (s : Deployment n) (w : Fin n) (created : Bool) : SessionId :=
  if created then Net.sessionId (UInt32.ofNat w) ((s.gateway w).accepts + 1) else 0

theorem onAccepted_id (s : Deployment n) (w : Fin n) (dialed created : Bool) :
    ((s.gateway w).onAccepted w dialed created).2 = s.newId w created := by
  cases created <;> rfl

theorem Wired.peers_newId (h : s.Wired) (hn : n ≤ 2 ^ 31) (hw : (s.gateway w).InBounds w)
    (created : Bool) : s.peers (s.newId w created) = none := by
  cases created with
  | true => exact h.fresh hn hw
  | false =>
    cases hp : s.peers 0 with
    | none => exact hp
    | some p => exact absurd rfl (h.owner 0 p hp).1

theorem join_some {id : SessionId} {p p' : Peer n} (h : s.join id p sid = some p') :
    sid = id ∧ id ≠ 0 ∧ p' = p ∨ s.peers sid = some p' := by
  rw [join] at h
  split at h
  · exact .inr h
  case isFalse hid =>
    by_cases hsid : sid = id
    · subst hsid
      rw [Function.update_self] at h
      exact .inl ⟨rfl, hid, (Option.some.inj h).symm⟩
    · rw [Function.update_of_ne hsid] at h
      exact .inr h

theorem join_of_some {id : SessionId} (p : Peer n) {p' : Peer n} (hnone : s.peers id = none)
    (h : s.peers sid = some p') : s.join id p sid = some p' := by
  rw [join]
  split
  · exact h
  · rw [Function.update_of_ne, h]
    rintro rfl
    cases hnone.symm.trans h

/-- A peer joins: a load generator, or the exchange if its worker has dialed. -/
structure Joins (s s' : Deployment n) (w : Fin n) (id : SessionId) (role : PeerRole) : Prop where
  peers : s'.peers = s.join id (.start w role)
  dials : role = .Client ∧ s'.dials = s.dials ∨
    role = .Exchange ∧ s.dials w = none ∧ s'.dials = Function.update s.dials w (some id)
  coherent : s'.gateway.All fun _ v => v.Coherent
  slots : s'.gateway.Within (fun v x => s'.dials v = some x)
    (Function.update (fun v => (s.gateway v).accepts) w ((s.gateway w).accepts + 1))
  clock : s'.clock = s.clock
  traffic : s'.gateway.traffic = s.gateway.traffic

variable {created : Bool} {role : PeerRole}

theorem Joins.dials_of_some (hj : Joins s s' w sid role) {v : Fin n} {x : SessionId}
    (h : s.dials v = some x) : s'.dials v = some x := by
  rcases hj.dials with ⟨-, heq⟩ | ⟨-, hnone, heq⟩
  · rw [heq, h]
  · rw [heq, Function.update_of_ne, h]
    rintro rfl
    cases hnone.symm.trans h

theorem Joins.wired (hj : Joins s s' w (s.newId w created) role) (h : s.Wired) (hn : n ≤ 2 ^ 31)
    (hw : (s.gateway w).InBounds w) : s'.Wired := by
  have hfresh := h.peers_newId hn hw created
  have hid : s.newId w created ≠ 0 →
      s.newId w created = Net.sessionId (UInt32.ofNat w) ((s.gateway w).accepts + 1) := by
    intro hne
    cases created with
    | true => rfl
    | false => exact absurd rfl hne
  have hold : ∀ v, (s.gateway v).accepts ≤ (s'.gateway v).accepts := by
    intro v
    rw [(hj.slots v).accepts]
    by_cases hv : v = w
    · subst hv
      simp
    · simp [hv]
  constructor
  case coherent => exact hj.coherent
  case slots => exact fun v => ⟨rfl, (hj.slots v).past, (hj.slots v).slot⟩
  case owner =>
    intro sid p hp
    rw [hj.peers] at hp
    rcases join_some hp with ⟨rfl, hne, rfl⟩ | hp
    · obtain ⟨hzero, howner⟩ := Worker.owner_of_lt hw hn
      rw [hid hne]
      exact ⟨hzero, howner⟩
    · exact h.owner sid p hp
  case issued =>
    intro sid p hp
    rw [hj.peers] at hp
    rcases join_some hp with ⟨rfl, hne, rfl⟩ | hp
    · refine ⟨_, Nat.succ_pos _, ?_, hw, hid hne⟩
      change _ ≤ (s'.gateway w).accepts
      rw [(hj.slots w).accepts, Function.update_self]
    · obtain ⟨c, hpos, hle, hlt, heq⟩ := h.issued sid p hp
      exact ⟨c, hpos, hle.trans (hold _), hlt, heq⟩
  case dialed =>
    intro v sid hv hzero
    have hstays : s.dials v = some sid →
        ∃ p, s'.peers sid = some p ∧ p.worker = v ∧ p.role = .Exchange := by
      intro hv
      obtain ⟨p, hp, hp'⟩ := h.dialed v sid hv hzero
      exact ⟨p, by rw [hj.peers, join_of_some _ hfresh hp], hp'⟩
    rcases hj.dials with ⟨-, heq⟩ | ⟨rfl, hnone, heq⟩
    · rw [heq] at hv
      exact hstays hv
    · rw [heq] at hv
      by_cases hvw : v = w
      · subst hvw
        rw [Function.update_self] at hv
        cases hv
        exact ⟨.start v .Exchange, by rw [hj.peers, join, if_neg hzero, Function.update_self],
          rfl, rfl⟩
      · rw [Function.update_of_ne hvw] at hv
        exact hstays hv
  case exchange =>
    intro sid p hp hrole
    rw [hj.peers] at hp
    rcases join_some hp with ⟨rfl, hne, rfl⟩ | hp
    · rcases hj.dials with ⟨rfl, -⟩ | ⟨-, -, heq⟩
      · cases hrole
      · rw [heq]
        exact Function.update_self ..
    · exact hj.dials_of_some (h.exchange sid p hp hrole)

theorem joins_connect (h : s.Wired) (w : Fin n) (created : Bool) :
    Joins s (s.step handoff (.connect w created)) w (s.newId w created) .Client where
  peers := by rw [← onAccepted_id s w false created]; rfl
  dials := .inl ⟨rfl, rfl⟩
  coherent := h.coherent_step handoff (.accept w created)
  slots := h.slots.accept handoff w created
  clock := rfl
  traffic := State.traffic_accept handoff ..

theorem joins_dialOk (h : s.Wired) (hw : s.dials w = none) (created : Bool) :
    Joins s (s.step handoff (.dialOk w created)) w (s.newId w created) .Exchange := by
  have hstep : s.step handoff (.dialOk w created) =
      { s with
        gateway := s.gateway.step handoff (.dialOk w created)
        peers := s.join (s.newId w created) (.start w .Exchange)
        dials := Function.update s.dials w (some (s.newId w created)) } := by
    rw [Deployment.step, hw, ← onAccepted_id s w true created]
  rw [hstep]
  refine ⟨rfl, .inr ⟨rfl, hw, rfl⟩, h.coherent_step handoff (.dialOk w created), ?_, rfl,
    State.traffic_dialOk handoff ..⟩
  refine State.Within.dialOk (h.slots.mono fun v x hv => ?_) handoff w created ?_
  · dsimp only
    rw [Function.update_of_ne, hv]
    rintro rfl
    cases hw.symm.trans hv
  · dsimp only
    rw [Function.update_self, onAccepted_id]

/-! ## What is under way -/

/-- A load generator is at the far end of the session. -/
def IsClient (s : Deployment n) (sid : SessionId) : Prop :=
  ∃ p, s.peers sid = some p ∧ p.role = .Client

/-- A ping is for the upstream session and a pong for the load generator's that it names, and their
times are in order. -/
def ContentOk (s : Deployment n) (w : Fin n) (sid : SessionId) : Packet → Prop
  | .roleHelloAck .. => True
  | .perfPing pkt => (s.dials w = some sid ∧ s.IsClient pkt.clientSid) ∧
      pkt.t1 ≤ pkt.t2 ∧ pkt.t2 ≤ s.clock
  | .perfPong pkt => (sid = pkt.clientSid ∧ s.IsClient pkt.clientSid) ∧
      pkt.t1 ≤ pkt.t2 ∧ pkt.t2 ≤ pkt.t3 ∧ pkt.t3 ≤ pkt.t4 ∧ pkt.t4 ≤ s.clock

/-- A packet for a session of the worker. -/
structure PacketOk (s : Deployment n) (w : Fin n) (sid : SessionId) (packet : Packet) : Prop where
  owner : ownerOf n sid = some w
  peer : s.peers sid ≠ none
  content : s.ContentOk w sid packet

def TaskOk (s : Deployment n) (w : Fin n) : Task → Prop
  | .sendTo sid packet => s.PacketOk w sid packet
  | .close _ => True

/-- A peer sends what its role sends. -/
def RequestOk (s : Deployment n) (role : PeerRole) : Request → Prop
  | .roleHelloReq role' => role' = role
  | .perfPing pkt => role = .Client ∧ pkt.t1 ≤ s.clock
  | .perfPong pkt => (role = .Exchange ∧ s.IsClient pkt.clientSid) ∧
      pkt.t1 ≤ pkt.t2 ∧ pkt.t2 ≤ pkt.t3 ∧ pkt.t3 ≤ s.clock

/-- A pong that has been handled. -/
structure AnswerOk (sid : SessionId) (answer : PerfPkt × UInt64) : Prop where
  clientSid : answer.1.clientSid = sid
  t2 : answer.1.t1 ≤ answer.1.t2
  t3 : answer.1.t2 ≤ answer.1.t3
  t4 : answer.1.t3 ≤ answer.1.t4
  t5 : answer.1.t4 ≤ answer.2

structure TrafficOk (s : Deployment n) (t : Traffic n) : Prop where
  tasks : ∀ w, ∀ task ∈ t.tasks w, s.TaskOk w task
  sent : ∀ w sid, ∀ packet ∈ t.sent w sid, s.PacketOk w sid packet

structure Sound (s : Deployment n) : Prop where
  traffic : s.TrafficOk s.gateway.traffic
  requests : ∀ sid p, s.peers sid = some p → ∀ r ∈ p.requests, s.RequestOk p.role r
  answers : ∀ sid p, s.peers sid = some p → ∀ a ∈ p.answers, AnswerOk sid a
  taken : ∀ sid p, s.peers sid = some p →
    p.taken ≤ (s.gateway.traffic.sent p.worker sid).length

/-- Nobody is forgotten, and time goes on. -/
structure Grows (s s' : Deployment n) : Prop where
  peers : ∀ sid, s.peers sid ≠ none → s'.peers sid ≠ none
  clients : ∀ sid, s.IsClient sid → s'.IsClient sid
  dials : ∀ v sid, s.dials v = some sid → s'.dials v = some sid
  clock : s.clock ≤ s'.clock

theorem Grows.packetOk (hg : Grows s s') {packet : Packet} (h : s.PacketOk w sid packet) :
    s'.PacketOk w sid packet := by
  refine ⟨h.owner, hg.peers sid h.peer, ?_⟩
  have hcontent := h.content
  cases packet with
  | roleHelloAck result role => trivial
  | perfPing pkt =>
    obtain ⟨⟨hdial, hclient⟩, h2, hnow⟩ := hcontent
    exact ⟨⟨hg.dials w sid hdial, hg.clients _ hclient⟩, h2, UInt64.le_trans hnow hg.clock⟩
  | perfPong pkt =>
    obtain ⟨⟨hsid, hclient⟩, h2, h3, h4, hnow⟩ := hcontent
    exact ⟨⟨hsid, hg.clients _ hclient⟩, h2, h3, h4, UInt64.le_trans hnow hg.clock⟩

theorem Grows.requestOk (hg : Grows s s') {role : PeerRole} {request : Request}
    (h : s.RequestOk role request) : s'.RequestOk role request := by
  cases request with
  | roleHelloReq role' => exact h
  | perfPing pkt => exact ⟨h.1, UInt64.le_trans h.2 hg.clock⟩
  | perfPong pkt =>
    obtain ⟨⟨hrole, hclient⟩, h2, h3, hnow⟩ := h
    exact ⟨⟨hrole, hg.clients _ hclient⟩, h2, h3, UInt64.le_trans hnow hg.clock⟩

namespace TrafficOk

variable {t t' : Traffic n} {packet : Packet} {cw : Fin n} (h : s.TrafficOk t)
include h

theorem mono (hg : Grows s s') : s'.TrafficOk t where
  tasks w task htask := by
    have hok := h.tasks w task htask
    cases task with
    | close x => trivial
    | sendTo x packet => exact hg.packetOk hok
  sent w sid packet hpacket := hg.packetOk (h.sent w sid packet hpacket)

theorem post {task : Task} (htask : s.TaskOk w task) :
    s.TrafficOk (t.post w task) where
  tasks := by
    refine (Function.forall_update_iff _ fun v q => ∀ task ∈ q, s.TaskOk v task).mpr
      ⟨fun task' hmem => ?_, fun v _ => h.tasks v⟩
    rcases List.mem_append.mp hmem with hmem | hmem
    · exact h.tasks w task' hmem
    · rw [List.mem_singleton.mp hmem]
      exact htask
  sent := h.sent

theorem pop (w : Fin n) : s.TrafficOk (t.pop w) where
  tasks := by
    refine (Function.forall_update_iff _ fun v q => ∀ task ∈ q, s.TaskOk v task).mpr
      ⟨fun task hmem => ?_, fun v _ => h.tasks v⟩
    exact h.tasks w task (List.mem_of_mem_tail hmem)
  sent := h.sent

theorem write (hpacket : s.PacketOk w sid packet) :
    s.TrafficOk (t.write w sid packet) where
  tasks := h.tasks
  sent := by
    refine (Function.forall_update_iff _
      fun v (sent : SessionId → List Packet) => ∀ x, ∀ packet ∈ sent x, s.PacketOk v x packet).mpr
        ⟨?_, fun v _ => h.sent v⟩
    refine (Function.forall_update_iff _ fun x q => ∀ packet ∈ q, s.PacketOk w x packet).mpr
      ⟨fun packet' hmem => ?_, fun x _ => h.sent w x⟩
    rcases List.mem_append.mp hmem with hmem | hmem
    · exact h.sent w sid packet' hmem
    · rw [List.mem_singleton.mp hmem]
      exact hpacket

theorem sends (hs : State.Sends t cw sid packet t')
    (hpacket : ∀ v, ownerOf n sid = some v → s.PacketOk v sid packet) : s.TrafficOk t' := by
  cases hs with
  | dropped => exact h
  | written howner => exact h.write (hpacket cw howner)
  | posted v howner hv =>
    exact h.post (show s.TaskOk v (.sendTo sid packet) from hpacket v howner)

theorem greets (hs : State.Greets t cw sid t') (hsid : s.peers sid ≠ none) : s.TrafficOk t' := by
  cases hs with
  | closed => exact h
  | postedClose v => exact h.post trivial
  | acknowledged role hs => exact h.sends hs fun _ howner => ⟨howner, hsid, trivial⟩

theorem runs (hs : State.Runs t cw t') : s.TrafficOk t' := by
  cases hs with
  | idle => exact h
  | dropped => exact h.pop cw
  | written sid packet rest htasks =>
    have htask : s.TaskOk cw (.sendTo sid packet) :=
      h.tasks cw _ (htasks ▸ List.mem_cons_self)
    exact (h.pop cw).write htask

end TrafficOk

end Deployment

/-- What was sent stays sent. -/
def Traffic.Longer {n : Nat} (t t' : Traffic n) : Prop := ∀ w sid, t.sent w sid <+: t'.sent w sid

namespace Traffic.Longer

variable {n : Nat} {t t' : Traffic n} {cw : Fin n} {sid : SessionId} {packet : Packet}

theorem write (t : Traffic n) (w : Fin n) (sid : SessionId) (packet : Packet) :
    t.Longer (t.write w sid packet) := by
  intro v x
  by_cases hv : v = w
  · subst hv
    by_cases hx : x = sid
    · subst hx
      simp [Traffic.write]
    · simp [Traffic.write, hx]
  · simp [Traffic.write, hv]

theorem sends (hs : State.Sends t cw sid packet t') : t.Longer t' := by
  cases hs with
  | dropped => exact fun _ _ => List.prefix_rfl
  | written => exact write t cw sid packet
  | posted => exact fun _ _ => List.prefix_rfl

theorem greets (hs : State.Greets t cw sid t') : t.Longer t' := by
  cases hs with
  | closed | postedClose => exact fun _ _ => List.prefix_rfl
  | acknowledged role hs => exact sends hs

theorem runs (hs : State.Runs t cw t') : t.Longer t' := by
  cases hs with
  | idle | dropped => exact fun _ _ => List.prefix_rfl
  | written sid packet => exact write (t.pop cw) cw sid packet

end Traffic.Longer

end HyperNet.Fep
