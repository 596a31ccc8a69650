import HyperNet.Gateway.Connections
import HyperNet.Loadgen.Controller

/-!
# From the load generator and back

Load generators, gateway and exchange together: a load generator gets its pongs in the order of its
pings, each for one ping of its own and with the number and the time of that ping, and the times
that the three processes have put into a pong are in order.  So the hops that a load generator
reports add up to the round trip.

The queues of a deployment are a net of pipes: every move of the deployment passes an item on,
loses one or has one enter.
-/

namespace HyperNet.Fep

open App (SessionId ConnState ownerOf)

namespace Deployment

variable {n : Nat} {handoff : Bool} {s s' : Deployment n} {sid : SessionId} {p : Peer n}
  {w : Fin n} {t t' : Traffic n}

/-! ## The queues after a step -/

/-- The queues are those of the peers and of the gateway's traffic. -/
theorem linksOf_congr (hpeers : s'.peers = s.peers) (hdials : s'.dials = s.dials) :
    s'.linksOf t = s.linksOf t := by
  cases s
  cases s'
  cases hpeers
  cases hdials
  rfl

section

variable (hp : s.peers sid = some p)
include hp

theorem links_requests : s.links.requests sid = p.requests := by
  simp only [links, linksOf, requests, hp]

theorem links_answers : s.links.answers sid = p.answers := by
  simp only [links, linksOf, answers, hp]

theorem links_pings : s.links.pings sid = p.pings := by
  simp only [links, linksOf, pings, hp]

theorem linksOf_write {packet : Packet} (hworker : p.worker = w)
    (htaken : p.taken ≤ (t.sent w sid).length) :
    s.linksOf (t.write w sid packet) = (s.linksOf t).pushPacket sid packet := by
  refine Links.ext rfl rfl (funext fun x => ?_) rfl rfl rfl
  by_cases hx : x = sid
  · subst hx
    subst hworker
    simp [linksOf, Links.pushPacket, hp, Traffic.write, List.drop_append_of_le_length htaken]
  · have hsame : ∀ v, (t.write w sid packet).sent v x = t.sent v x := by
      intro v
      by_cases hv : v = w
      · subst hv
        simp [Traffic.write, hx]
      · simp [Traffic.write, hv]
    simp only [linksOf, Links.pushPacket, Function.update_of_ne hx, hsame]

end

/-- A peer goes on: its queues change, and no others. -/
theorem linksOf_setPeer (p' : Peer n) : (s.setPeer sid p').linksOf t =
    { s.linksOf t with
      requests := Function.update (s.linksOf t).requests sid p'.requests
      inFlight := Function.update (s.linksOf t).inFlight sid
        ((t.sent p'.worker sid).drop p'.taken)
      answers := Function.update (s.linksOf t).answers sid p'.answers
      pings := Function.update (s.linksOf t).pings sid p'.pings } := by
  refine Links.ext (funext fun x => ?_) rfl (funext fun x => ?_) (funext fun x => ?_) rfl
    (funext fun x => ?_)
  all_goals
    by_cases hx : x = sid
    · subst hx
      simp [linksOf, requests, answers, pings, setPeer]
    · simp [linksOf, requests, answers, pings, setPeer, hx]

/-- A ping is under way to the upstream session of one worker. -/
theorem PacketOk.dialedBy {packet : Packet} (h : s.PacketOk w sid packet) (hs : s.Wired) :
    ∀ pkt, packet = .perfPing pkt → (s.linksOf t).DialedBy sid w := by
  rintro pkt rfl
  obtain ⟨p, hp⟩ := Option.ne_none_iff_exists'.mp h.peer
  exact hs.dialedBy h.content.1.1 (hs.owner sid p hp).1

/-- A packet that is written comes to its place. -/
theorem net_write (hs : s.Wired) {packet : Packet} (hpacket : s.PacketOk w sid packet)
    (htaken : ∀ p, s.peers sid = some p → p.taken ≤ (t.sent p.worker sid).length) :
    (s.linksOf (t.write w sid packet)).net = (packet.located sid w).push (s.linksOf t).net := by
  obtain ⟨p, hp⟩ := Option.ne_none_iff_exists'.mp hpacket.peer
  have hworker : p.worker = w :=
    Option.some.inj ((hs.owner sid p hp).2.symm.trans hpacket.owner)
  rw [linksOf_write hp hworker (hworker ▸ htaken p hp)]
  exact Links.net_pushPacket (hpacket.dialedBy hs)

/-- What sending does to the net. -/
theorem net_sends (hs : s.Wired) {cw : Fin n} {packet : Packet}
    (hsends : State.Sends t cw sid packet t')
    (hpacket : ∀ v, ownerOf n sid = some v → s.PacketOk v sid packet)
    (htaken : ∀ p, s.peers sid = some p → p.taken ≤ (t.sent p.worker sid).length) :
    (s.linksOf t').net = (s.linksOf t).net ∨
      ownerOf n sid = some cw ∧
        (s.linksOf t').net = (packet.located sid cw).push (s.linksOf t).net ∨
      ∃ v, v ≠ cw ∧ ownerOf n sid = some v ∧
        (s.linksOf t').net = ((Task.sendTo sid packet).located v).push (s.linksOf t).net := by
  cases hsends with
  | dropped => exact .inl rfl
  | written howner =>
    exact .inr (.inl ⟨howner, net_write hs (hpacket cw howner) htaken⟩)
  | posted v howner hv =>
    exact .inr (.inr ⟨v, hv, howner, Links.net_pushTask (s.linksOf t) v _⟩)

theorem net_greets (hs : s.Wired) {cw : Fin n} (hgreets : State.Greets t cw sid t')
    (hsid : s.peers sid ≠ none)
    (htaken : ∀ p, s.peers sid = some p → p.taken ≤ (t.sent p.worker sid).length) :
    (s.linksOf t').net = (s.linksOf t).net := by
  cases hgreets with
  | closed => rfl
  | postedClose v => exact Links.net_pushTask (s.linksOf t) v (.close sid)
  | acknowledged role hsends =>
    have hpacket : ∀ v, ownerOf n sid = some v → s.PacketOk v sid (.roleHelloAck .Ok role) :=
      fun _ howner => ⟨howner, hsid, trivial⟩
    rcases net_sends hs hsends hpacket htaken with h | ⟨-, h⟩ | ⟨v, -, -, h⟩
    · exact h
    · exact h
    · exact h

/-! ## The invariant -/

structure Inv (handoff : Bool) (s : Deployment n) : Prop where
  wired : s.Wired
  sound : s.Sound
  reached : s.links.net.Reached (route handoff)

/-- Which worker's slot a ping goes by, and whom it finds there. -/
theorem Wired.upstreamFor (h : s.Wired) (sid stale : SessionId)
    (hzero : s.gateway.upstreamFor handoff w sid stale ≠ 0) :
    s.dials (State.route handoff w sid) = some (s.gateway.upstreamFor handoff w sid stale) := by
  have hslots := h.slots (State.route handoff w sid)
  rw [State.upstreamFor, State.getForWorker] at hzero ⊢
  split at hzero
  case isTrue hstale =>
    rw [if_pos hstale]
    exact (hslots.past stale hstale.2).resolve_left hzero
  case isFalse hstale =>
    rw [if_neg hstale]
    exact hslots.slot.resolve_left hzero

/-- The worker that a ping is sent to has the session. -/
theorem Wired.owner_of_dials (h : s.Wired) (hw : s.dials w = some sid) (hzero : sid ≠ 0) :
    ownerOf n sid = some w := by
  obtain ⟨p, hp, hworker, -⟩ := h.dialed w sid hw hzero
  rw [← hworker]
  exact (h.owner sid p hp).2

/-- A ping or pong is met on the way of the session it names. -/
theorem mem_route_item {net : Pipes.Net (Place n) SessionId Key} (h : net.Reached (route handoff))
    {place : Place n} {pkt : PerfPkt} {rest : List (SessionId × Key)}
    (hhead : net.queue place = pkt.item :: rest) : place ∈ route handoff pkt.clientSid := by
  have hroute := h.mem_route (route_nodup handoff) hhead
  exact hroute

/-! ## The gateway or a peer goes on -/

/-- A peer and the gateway go on together. -/
def goOn (s : Deployment n) (sid : SessionId) (p' : Peer n) (g' : State n) : Deployment n :=
  { s.setPeer sid p' with gateway := g' }

section GoOn

variable {p' : Peer n} {g' : State n}

theorem grows_goOn (hp : s.peers sid = some p) (p' : Peer n) (hrole : p'.role = p.role)
    (g' : State n) : Grows s (s.goOn sid p' g') where
  peers x hx := by
    by_cases hsid : x = sid
    · subst hsid
      simp [goOn, setPeer]
    · simp only [goOn, setPeer, Function.update_of_ne hsid]
      exact hx
  clients x hx := by
    obtain ⟨q, hq, hclient⟩ := hx
    by_cases hsid : x = sid
    · subst hsid
      cases hp.symm.trans hq
      exact ⟨p', Function.update_self .., hrole.trans hclient⟩
    · exact ⟨q, (Function.update_of_ne hsid ..).trans hq, hclient⟩
  dials _ _ h := h
  clock := UInt64.le_refl _

theorem Wired.goOn (h : s.Wired) (hp : s.peers sid = some p) (hworker : p'.worker = p.worker)
    (hrole : p'.role = p.role) (hcoherent : g'.All fun _ v => v.Coherent)
    (hslots : g'.Within (fun v x => s.dials v = some x) fun v => (s.gateway v).accepts) :
    (s.goOn sid p' g').Wired :=
  h.congr (s.goOn sid p' g') (samePeers_setPeer hp hworker hrole) rfl hcoherent hslots

theorem Sound.goOn (h : s.Sound) (hp : s.peers sid = some p) (hworker : p'.worker = p.worker)
    (hrole : p'.role = p.role) (htraffic : (s.goOn sid p' g').TrafficOk g'.traffic)
    (hlonger : s.gateway.traffic.Longer g'.traffic)
    (hrequests : ∀ r ∈ p'.requests, (s.goOn sid p' g').RequestOk p'.role r)
    (hanswers : ∀ a ∈ p'.answers, AnswerOk sid a)
    (htaken : p'.taken ≤ (s.gateway.traffic.sent p.worker sid).length) :
    (s.goOn sid p' g').Sound := by
  have hgrows := grows_goOn hp p' hrole g'
  have hcases : ∀ x q, (s.goOn sid p' g').peers x = some q →
      x = sid ∧ q = p' ∨ s.peers x = some q := by
    intro x q hq
    by_cases hx : x = sid
    · subst hx
      simp only [Deployment.goOn, setPeer, Function.update_self, Option.some.injEq] at hq
      exact .inl ⟨rfl, hq.symm⟩
    · simp only [Deployment.goOn, setPeer, Function.update_of_ne hx] at hq
      exact .inr hq
  constructor
  case traffic => exact htraffic
  case requests =>
    intro x q hq r hr
    rcases hcases x q hq with ⟨rfl, rfl⟩ | hq
    · exact hrequests r hr
    · exact hgrows.requestOk (h.requests x q hq r hr)
  case answers =>
    intro x q hq a ha
    rcases hcases x q hq with ⟨rfl, rfl⟩ | hq
    · exact hanswers a ha
    · exact h.answers x q hq a ha
  case taken =>
    intro x q hq
    rcases hcases x q hq with ⟨rfl, rfl⟩ | hq
    · rw [hworker]
      exact htaken.trans (hlonger _ _).length_le
    · exact (h.taken x q hq).trans (hlonger _ _).length_le

end GoOn

/-! ## Reading a request -/

section Deliver

variable {request : Request} {rest : List Request}

/-- The gateway has read the next request of a peer. -/
def read (p : Peer n) (rest : List Request) : Peer n := { p with requests := rest }

theorem step_deliver (hp : s.peers sid = some p) (hr : p.requests = request :: rest)
    (stale : SessionId) (fails : Bool) : s.step handoff (.deliver sid stale fails) =
      s.goOn sid (read p rest)
        (s.gateway.step handoff (request.event p.worker sid stale s.clock fails)) := by
  simp only [step, hp, hr]
  rfl

theorem linksOf_read (hp : s.peers sid = some p) (hr : p.requests = request :: rest)
    (g' : State n) :
    (s.goOn sid (read p rest) g').linksOf t = (s.linksOf t).popRequest sid := by
  refine (linksOf_setPeer (read p rest)).trans ?_
  refine Links.ext ?_ rfl ?_ ?_ rfl ?_
  · simp [Links.popRequest, linksOf, requests, hp, hr, read]
  · exact Function.update_eq_self_iff.mpr (by simp [linksOf, hp, read])
  · exact Function.update_eq_self_iff.mpr (by simp [linksOf, answers, hp, read])
  · exact Function.update_eq_self_iff.mpr (by simp [linksOf, pings, hp, read])

variable (h : s.Inv handoff) (hp : s.peers sid = some p) (hr : p.requests = request :: rest)
include h hp hr

/-- Who is connected stays, whatever the gateway reads. -/
theorem Inv.wired_deliver (stale : SessionId) (fails : Bool) :
    (s.goOn sid (read p rest)
      (s.gateway.step handoff (request.event p.worker sid stale s.clock fails))).Wired := by
  have hok : s.RequestOk p.role request :=
    h.sound.requests sid p hp request (hr ▸ List.mem_cons_self)
  refine h.wired.goOn hp rfl rfl (h.wired.coherent_step handoff _) ?_
  refine State.Within.step_of_quiet h.wired.slots _ (fun v created => ?_) ?_
  · cases request <;> constructor <;> intro heq <;> cases heq
  · rintro v x role fails' heq rfl
    cases request with
    | roleHelloReq role' =>
      cases heq
      exact h.wired.exchange sid p hp hok.symm
    | perfPing pkt | perfPong pkt => cases heq

/-- The rest of the invariant, for what the gateway does to its traffic. -/
theorem Inv.deliver {stale : SessionId} {fails : Bool}
    (htraffic : ∀ s' : Deployment n, s' = s.goOn sid (read p rest)
        (s.gateway.step handoff (request.event p.worker sid stale s.clock fails)) →
      s'.Wired → Grows s s' →
      s'.TrafficOk s'.gateway.traffic ∧ s.gateway.traffic.Longer s'.gateway.traffic ∧
        s'.links.net.Reached (route handoff)) :
    (s.step handoff (.deliver sid stale fails)).Inv handoff := by
  rw [step_deliver hp hr]
  have hwired := h.wired_deliver hp hr stale fails
  obtain ⟨hok, hlonger, hreached⟩ := htraffic _ rfl hwired (grows_goOn hp (read p rest) rfl _)
  refine ⟨hwired, h.sound.goOn hp rfl rfl hok hlonger (fun r hmem => ?_) ?_ ?_, hreached⟩
  · exact (grows_goOn hp (read p rest) rfl _).requestOk
      (h.sound.requests sid p hp r (hr ▸ List.mem_cons_of_mem _ hmem))
  · exact h.sound.answers sid p hp
  · exact h.sound.taken sid p hp

omit h hp hr in
/-- How much a peer has got, for the queue that is left. -/
theorem Sound.taken_goOn (hs : s.Sound) (hp : s.peers sid = some p) (g' : State n)
    (x : SessionId) (q : Peer n) (hq : (s.goOn sid (read p rest) g').peers x = some q) :
    q.taken ≤ (s.gateway.traffic.sent q.worker x).length := by
  by_cases hx : x = sid
  · subst hx
    simp only [Deployment.goOn, setPeer, Function.update_self, Option.some.injEq] at hq
    subst hq
    exact hs.taken x p hp
  · simp only [Deployment.goOn, setPeer, Function.update_of_ne hx] at hq
    exact hs.taken x q hq

theorem Inv.deliver_hello {role : PeerRole} (hrequest : request = .roleHelloReq role)
    (stale : SessionId) (fails : Bool) :
    (s.step handoff (.deliver sid stale fails)).Inv handoff := by
  subst hrequest
  refine h.deliver hp hr fun s' hs' hwired hgrows => ?_
  have hgreets : State.Greets s.gateway.traffic p.worker sid s'.gateway.traffic := by
    subst hs'
    exact State.greets_roleHello h.wired.coherent handoff p.worker sid role fails
  have hsid : s'.peers sid ≠ none := hgrows.peers sid (by rw [hp]; exact Option.some_ne_none p)
  refine ⟨(h.sound.traffic.mono hgrows).greets hgreets hsid, .greets hgreets, ?_⟩
  have hread : (s'.linksOf s.gateway.traffic).net = s.links.net := by
    rw [hs', linksOf_read hp hr]
    exact Links.net_popRequest (w := p.worker) ((links_requests hp).trans hr)
      fun pkt heq => by cases heq
  rw [links, net_greets hwired hgreets hsid (hs' ▸ h.sound.taken_goOn hp _ sid), hread]
  exact h.reached

/-- A ping goes on to the upstream session or to the worker that has it, or is lost. -/
theorem Inv.deliver_ping {pkt : PerfPkt} (hrequest : request = .perfPing pkt) (stale : SessionId)
    (fails : Bool) : (s.step handoff (.deliver sid stale fails)).Inv handoff := by
  subst hrequest
  have hok : s.RequestOk p.role (.perfPing pkt) :=
    h.sound.requests sid p hp _ (hr ▸ List.mem_cons_self)
  have howner := (h.wired.owner sid p hp).2
  have hqueue : s.links.requests sid = .perfPing pkt :: rest := (links_requests hp).trans hr
  refine h.deliver hp hr fun s' hs' hwired hgrows => ?_
  have hread : (s'.linksOf s.gateway.traffic).net = s.links.net.pop (.requests sid) := by
    rw [hs', linksOf_read hp hr]
    exact Links.net_popRequest (w := p.worker) hqueue fun pkt heq => by cases heq
  have hsid : s'.peers sid ≠ none := hgrows.peers sid (by rw [hp]; exact Option.some_ne_none p)
  have htraffic := State.traffic_perfPing h.wired.coherent handoff p.worker sid stale pkt s.clock
    fails
  have hgateway : s'.gateway.traffic = (s.gateway.step handoff
      (.perfPing p.worker sid pkt s.clock stale fails)).traffic := by
    rw [hs']
    rfl
  rw [← hgateway] at htraffic
  rcases htraffic with hsame | ⟨hzero, hsends⟩
  · rw [links, hsame, hread]
    exact ⟨h.sound.traffic.mono hgrows, fun _ _ => List.prefix_rfl, h.reached.lose _⟩
  · have hdial := h.wired.upstreamFor sid stale hzero
    have hup := h.wired.owner_of_dials hdial hzero
    have hpeer : s.peers (s.gateway.upstreamFor handoff p.worker sid stale) ≠ none := by
      obtain ⟨q, hq, -⟩ := h.wired.dialed _ _ hdial hzero
      rw [hq]
      exact Option.some_ne_none q
    generalize s.gateway.upstreamFor handoff p.worker sid stale = up at hzero hsends hdial hup hpeer
    have hpacket : ∀ v, ownerOf n up = some v →
        s'.PacketOk v up (.perfPing { pkt with clientSid := sid, t2 := s.clock }) := by
      intro v hv
      cases hup.symm.trans hv
      exact ⟨hv, hgrows.peers up hpeer, ⟨hgrows.dials _ _ hdial, hgrows.clients sid ⟨p, hp, hok.1⟩⟩,
        hok.2, hgrows.clock⟩
    have htaken : ∀ q, s'.peers up = some q →
        q.taken ≤ (s.gateway.traffic.sent q.worker up).length :=
      hs' ▸ h.sound.taken_goOn hp _ up
    have hhead : ∃ more, s.links.net.queue (.requests sid) = (sid, pkt.key) :: more := by
      refine ⟨rest.filterMap (Request.ping sid), ?_⟩
      change (s.links.requests sid).filterMap (Request.ping sid) = _
      rw [hqueue]
      rfl
    obtain ⟨more, hhead⟩ := hhead
    refine ⟨(h.sound.traffic.mono hgrows).sends hsends hpacket, .sends hsends, ?_⟩
    have hnext := nextOn_requests howner handoff
    rcases net_sends hwired hsends hpacket htaken with hnet | ⟨hcw, hnet⟩ | ⟨v, hv, hown, hnet⟩
    · rw [links, hnet, hread]
      exact h.reached.lose _
    · have hv : State.route handoff p.worker sid = p.worker :=
        Option.some.inj (hup.symm.trans hcw)
      rw [links, hnet, hread]
      exact h.reached.pass hhead (hnext.trans (by rw [if_pos hv]))
    · cases hup.symm.trans hown
      rw [links, hnet, hread]
      exact h.reached.pass hhead (hnext.trans (by rw [if_neg hv]))

/-- A pong goes to the session it names or to the worker that has it, or is lost. -/
theorem Inv.deliver_pong {pkt : PerfPkt} (hrequest : request = .perfPong pkt) (stale : SessionId)
    (fails : Bool) : (s.step handoff (.deliver sid stale fails)).Inv handoff := by
  subst hrequest
  have hok : s.RequestOk p.role (.perfPong pkt) :=
    h.sound.requests sid p hp _ (hr ▸ List.mem_cons_self)
  obtain ⟨⟨hrole, hclient⟩, h2, h3, hnow⟩ := hok
  have hdial := h.wired.exchange sid p hp hrole
  have hdialed : s.links.DialedBy sid p.worker :=
    h.wired.dialedBy hdial (h.wired.owner sid p hp).1
  have hqueue : s.links.requests sid = .perfPong pkt :: rest := (links_requests hp).trans hr
  have hhead : s.links.net.queue (.fromUpstream p.worker) =
      pkt.item :: rest.filterMap Request.pong := by
    change (s.links.upstream p.worker s.links.requests).filterMap Request.pong = _
    rw [Links.upstream_of_dials hdial, hqueue]
    rfl
  have hroute : .fromUpstream p.worker ∈ route handoff pkt.clientSid :=
    mem_route_item h.reached hhead
  obtain ⟨w, howner⟩ := ownerOf_of_mem_route hroute
  refine h.deliver hp hr fun s' hs' hwired hgrows => ?_
  have hread : (s'.linksOf s.gateway.traffic).net =
      s.links.net.pop (.fromUpstream p.worker) := by
    rw [hs', linksOf_read hp hr]
    exact Links.net_popRequest hqueue fun _ _ => hdialed
  have htraffic := State.traffic_perfPong h.wired.coherent handoff p.worker sid pkt s.clock fails
  have hgateway : s'.gateway.traffic = (s.gateway.step handoff
      (.perfPong p.worker sid pkt s.clock fails)).traffic := by
    rw [hs']
    rfl
  rw [← hgateway] at htraffic
  rcases htraffic with hsame | hsends
  · rw [links, hsame, hread]
    exact ⟨h.sound.traffic.mono hgrows, fun _ _ => List.prefix_rfl, h.reached.lose _⟩
  · have hknown : s'.peers pkt.clientSid ≠ none := by
      obtain ⟨q, hq, -⟩ := hgrows.clients _ hclient
      rw [hq]
      exact Option.some_ne_none q
    have hpacket : ∀ v, ownerOf n pkt.clientSid = some v →
        s'.PacketOk v pkt.clientSid (.perfPong { pkt with t4 := s.clock }) := fun v hv =>
      ⟨hv, hknown, ⟨rfl, hgrows.clients _ hclient⟩, h2, h3, hnow, hgrows.clock⟩
    have htaken : ∀ q, s'.peers pkt.clientSid = some q →
        q.taken ≤ (s.gateway.traffic.sent q.worker pkt.clientSid).length :=
      hs' ▸ h.sound.taken_goOn hp _ pkt.clientSid
    refine ⟨(h.sound.traffic.mono hgrows).sends hsends hpacket, .sends hsends, ?_⟩
    have hnext := nextOn_fromUpstream howner hroute
    rcases net_sends hwired hsends hpacket htaken with hnet | ⟨hcw, hnet⟩ | ⟨v, hv, hown, hnet⟩
    · rw [links, hnet, hread]
      exact h.reached.lose _
    · cases howner.symm.trans hcw
      rw [links, hnet, hread]
      exact h.reached.pass hhead (hnext.trans (by rw [if_pos rfl]))
    · cases howner.symm.trans hown
      rw [links, hnet, hread]
      exact h.reached.pass hhead (hnext.trans (by rw [if_neg (Ne.symm hv)]))

end Deliver

/-! ## The gateway by itself -/

/-- The gateway takes a step in which nobody joins or says hello. -/
theorem Inv.gateway (h : s.Inv handoff) {g' : State n} (hcoherent : g'.All fun _ v => v.Coherent)
    (hslots : g'.Within (fun v x => s.dials v = some x) fun v => (s.gateway v).accepts)
    (htraffic : s.TrafficOk g'.traffic) (hlonger : s.gateway.traffic.Longer g'.traffic)
    (hreached : (s.linksOf g'.traffic).net.Reached (route handoff)) :
    Inv handoff { s with gateway := g' } where
  wired := h.wired.congr { s with gateway := g' } (fun _ => rfl) rfl hcoherent hslots
  sound :=
    have hgrows : Grows s { s with gateway := g' } :=
      ⟨fun _ hx => hx, fun _ hx => hx, fun _ _ hx => hx, UInt64.le_refl _⟩
    { traffic := htraffic.mono hgrows
      requests := fun sid p hp r hr => hgrows.requestOk (h.sound.requests sid p hp r hr)
      answers := h.sound.answers
      taken := fun sid p hp => (h.sound.taken sid p hp).trans (hlonger _ _).length_le }
  reached := hreached

theorem Inv.sessionEnd (h : s.Inv handoff) (w : Fin n) (sid : SessionId) :
    (s.step handoff (.sessionEnd w sid)).Inv handoff := by
  have hsame := State.traffic_sessionEnd handoff s.gateway w sid
  refine h.gateway (h.wired.coherent_step handoff (.sessionEnd w sid)) ?_ ?_ ?_ ?_
  · refine State.Within.step_of_quiet h.wired.slots (.sessionEnd w sid) (fun v created => ?_) ?_
    · constructor <;> intro heq <;> cases heq
    · intro v x role fails heq
      cases heq
  · rw [hsame]
    exact h.sound.traffic
  · rw [hsame]
    exact fun _ _ => List.prefix_rfl
  · rw [hsame]
    exact h.reached

theorem reached_pop {net : Pipes.Net (Place n) SessionId Key} (h : net.Reached (route handoff))
    (l : Located n) : (l.pop net).Reached (route handoff) := by
  cases l with
  | none => exact h
  | some x => exact h.lose x.1

theorem Inv.reached_runs (h : s.Inv handoff) (hruns : State.Runs s.gateway.traffic w t') :
    (s.linksOf t').net.Reached (route handoff) := by
  cases hruns with
  | idle => exact h.reached
  | dropped task rest htasks =>
    have hpop : (s.linksOf (s.gateway.traffic.pop w)).net = _ :=
      Links.net_popTask (L := s.links) htasks
    rw [hpop]
    exact reached_pop h.reached _
  | written sid packet rest htasks =>
    have hpop : (s.linksOf (s.gateway.traffic.pop w)).net = _ :=
      Links.net_popTask (L := s.links) htasks
    have hpacket : s.PacketOk w sid packet :=
      h.sound.traffic.tasks w (.sendTo sid packet) (htasks ▸ List.mem_cons_self)
    rw [net_write (t := s.gateway.traffic.pop w) h.wired hpacket (h.sound.taken sid), hpop]
    cases packet with
    | roleHelloAck result role => exact h.reached
    | perfPing pkt =>
      have hhead : s.links.net.queue (.pingTasks w) =
          pkt.item :: rest.filterMap Task.ping := by
        change (s.gateway.traffic.tasks w).filterMap Task.ping = _
        rw [htasks]
        rfl
      have hroute : .pingTasks w ∈ route handoff pkt.clientSid :=
        mem_route_item h.reached hhead
      obtain ⟨v, howner⟩ := ownerOf_of_mem_route hroute
      exact h.reached.pass hhead (nextOn_pingTasks howner hroute)
    | perfPong pkt =>
      have hhead : s.links.net.queue (.pongTasks w) =
          pkt.item :: rest.filterMap Task.pong := by
        change (s.gateway.traffic.tasks w).filterMap Task.pong = _
        rw [htasks]
        rfl
      have hroute : .pongTasks w ∈ route handoff pkt.clientSid :=
        mem_route_item h.reached hhead
      obtain ⟨v, howner⟩ := ownerOf_of_mem_route hroute
      cases hpacket.content.1.1
      exact h.reached.pass hhead (nextOn_pongTasks howner hroute)

/-- A posted packet is written to its session or lost. -/
theorem Inv.task (h : s.Inv handoff) (w : Fin n) (fails : Bool) :
    (s.step handoff (.task w fails)).Inv handoff := by
  have hruns := State.runs_task h.wired.coherent handoff w fails
  refine h.gateway (h.wired.coherent_step handoff (.task w fails)) ?_
    (h.sound.traffic.runs hruns) (.runs hruns) ?_
  · refine State.Within.step_of_quiet h.wired.slots (.task w fails) (fun v created => ?_) ?_
    · constructor <;> intro heq <;> cases heq
    · intro v x role fails heq
      cases heq
  · exact h.reached_runs hruns

/-! ## A peer gets a packet -/

section Take

variable {packet : Packet} {rest : List Packet}

/-- The peer with one packet more. -/
def took (p : Peer n) : Peer n := { p with taken := p.taken + 1 }

/-- The exchange with an answer to send. -/
def answered (p : Peer n) (pkt : PerfPkt) (now : UInt64) : Peer n :=
  { took p with requests := p.requests ++ [.perfPong (Peer.answer pkt now)] }

/-- The load generator with a pong more. -/
def handled (p : Peer n) (pkt : PerfPkt) (now : UInt64) : Peer n :=
  { took p with answers := p.answers ++ [(pkt, now)] }

/-- What a packet does to a peer: the exchange answers it, the load generator handles it, or it
goes no further. -/
inductive Takes (p : Peer n) (now : UInt64) : Packet → Peer n → Prop where
  | kept (packet : Packet) (p' : Peer n) (hworker : p'.worker = p.worker) (hrole : p'.role = p.role)
      (htaken : p'.taken = p.taken + 1) (hrequests : p'.requests = p.requests)
      (hpings : p'.pings = p.pings) (hanswers : p'.answers = p.answers) : Takes p now packet p'
  | answered (pkt : PerfPkt) (hrole : p.role = .Exchange) :
      Takes p now (.perfPing pkt) (answered p pkt now)
  | handled (pkt : PerfPkt) : Takes p now (.perfPong pkt) (handled p pkt now)

theorem takes_receive (p : Peer n) (now : UInt64) (packet : Packet) :
    Takes p now packet ((took p).receive now packet) := by
  cases packet with
  | roleHelloAck result role =>
    rw [Peer.receive, Peer.onRoleHelloAck]
    split <;> exact .kept _ _ rfl rfl rfl rfl rfl rfl
  | perfPing pkt =>
    rw [Peer.receive]
    split
    case isTrue hrole =>
      split
      · exact .answered pkt hrole
      · exact .kept _ _ rfl rfl rfl rfl rfl rfl
    case isFalse => exact .kept _ _ rfl rfl rfl rfl rfl rfl
  | perfPong pkt =>
    rw [Peer.receive]
    split
    · exact .kept _ _ rfl rfl rfl rfl rfl rfl
    · split
      · exact .handled pkt
      · exact .kept _ _ rfl rfl rfl rfl rfl rfl

/-- The queues after a peer has got a packet and gone on. -/
theorem linksOf_take (hp : s.peers sid = some p) (p' : Peer n) (hworker : p'.worker = p.worker)
    (htaken : p'.taken = p.taken + 1) (hpings : p'.pings = p.pings) (g' : State n) :
    (s.goOn sid p' g').linksOf t =
      { (s.linksOf t).popPacket sid with
        requests := Function.update (s.linksOf t).requests sid p'.requests
        answers := Function.update (s.linksOf t).answers sid p'.answers } := by
  refine (linksOf_setPeer p').trans ?_
  refine Links.ext rfl rfl ?_ rfl rfl ?_
  · simp only [Links.popPacket, linksOf, hp, hworker, htaken, List.tail_drop]
  · exact Function.update_eq_self_iff.mpr (by simp [linksOf, pings, hp, hpings])

variable (h : s.Inv handoff) (hp : s.peers sid = some p) (hflight : s.inFlight sid = packet :: rest)
  {p' : Peer n}
include hp hflight

theorem inFlight_eq : (s.gateway.traffic.sent p.worker sid).drop p.taken = packet :: rest := by
  simp only [inFlight, hp] at hflight
  exact hflight

theorem taken_lt : p.taken + 1 ≤ (s.gateway.traffic.sent p.worker sid).length := by
  have hlength := congrArg List.length (inFlight_eq hp hflight)
  rw [List.length_drop, List.length_cons] at hlength
  omega

include h

theorem Inv.packetOk : s.PacketOk p.worker sid packet := by
  have hmem : packet ∈ (s.gateway.traffic.sent p.worker sid).drop p.taken := by
    rw [inFlight_eq hp hflight]
    exact List.mem_cons_self
  exact h.sound.traffic.sent p.worker sid packet (List.mem_of_mem_drop hmem)

theorem Inv.net_popPacket :
    (s.links.popPacket sid).net = (packet.located sid p.worker).pop s.links.net :=
  Links.net_popPacket hflight ((h.packetOk hp hflight).dialedBy h.wired)

theorem Inv.reached_takes (htakes : Takes p s.clock packet p') :
    (s.goOn sid p' s.gateway).links.net.Reached (route handoff) := by
  have hpacket := h.packetOk hp hflight
  have hpop := h.net_popPacket hp hflight
  change ((s.goOn sid p' s.gateway).linksOf s.gateway.traffic).net.Reached _
  cases htakes with
  | kept _ _ hworker hrole htaken hrequests hpings hanswers =>
    have hlinks : (s.goOn sid p' s.gateway).linksOf s.gateway.traffic =
        s.links.popPacket sid := by
      refine (linksOf_take hp p' hworker htaken hpings _).trans (Links.ext ?_ rfl rfl ?_ rfl rfl)
      · exact Function.update_eq_self_iff.mpr (hrequests.trans (links_requests hp).symm)
      · exact Function.update_eq_self_iff.mpr (hanswers.trans (links_answers hp).symm)
    rw [hlinks, hpop]
    exact reached_pop h.reached _
  | answered pkt hrole =>
    have hdial := h.wired.exchange sid p hp hrole
    have hlinks : (s.goOn sid (answered p pkt s.clock) s.gateway).linksOf s.gateway.traffic =
        (s.links.popPacket sid).pushRequest sid (.perfPong (Peer.answer pkt s.clock)) := by
      refine (linksOf_take hp (answered p pkt s.clock) rfl rfl rfl _).trans
        (Links.ext ?_ rfl rfl ?_ rfl rfl)
      · exact congrArg (Function.update _ sid)
          (congrArg (· ++ _) (links_requests hp).symm)
      · exact Function.update_eq_self_iff.mpr (links_answers hp).symm
    have hhead : s.links.net.queue (.toUpstream p.worker) =
        pkt.item :: rest.filterMap Packet.ping := by
      change (s.links.upstream p.worker s.links.inFlight).filterMap Packet.ping = _
      rw [Links.upstream_of_dials hdial]
      change (s.inFlight sid).filterMap Packet.ping = _
      rw [hflight]
      rfl
    have hroute := mem_route_item h.reached hhead
    obtain ⟨v, howner⟩ := ownerOf_of_mem_route hroute
    have hdialed : (s.links.popPacket sid).DialedBy sid p.worker :=
      hpacket.dialedBy (t := s.gateway.traffic) h.wired pkt rfl
    rw [hlinks, Links.net_pushRequest fun _ _ => hdialed, hpop]
    exact h.reached.pass hhead (nextOn_toUpstream howner hroute)
  | handled pkt =>
    have hlinks : (s.goOn sid (handled p pkt s.clock) s.gateway).linksOf s.gateway.traffic =
        (s.links.popPacket sid).pushAnswer sid (pkt, s.clock) := by
      refine (linksOf_take hp (handled p pkt s.clock) rfl rfl rfl _).trans
        (Links.ext ?_ rfl rfl ?_ rfl rfl)
      · exact Function.update_eq_self_iff.mpr (links_requests hp).symm
      · exact congrArg (Function.update _ sid) (congrArg (· ++ _) (links_answers hp).symm)
    have hhead : s.links.net.queue (.toClient sid) =
        pkt.item :: rest.filterMap Packet.pong := by
      change (s.inFlight sid).filterMap Packet.pong = _
      rw [hflight]
      rfl
    have hsid : sid = pkt.clientSid := hpacket.content.1.1
    have howner := hpacket.owner
    rw [hlinks, Links.net_pushAnswer, hpop]
    subst hsid
    exact h.reached.pass hhead (nextOn_toClient howner handoff)

omit h hp hflight in
theorem Takes.same {now : UInt64} (htakes : Takes p now packet p') :
    p'.worker = p.worker ∧ p'.role = p.role := by
  cases htakes with
  | kept _ _ hworker hrole => exact ⟨hworker, hrole⟩
  | answered | handled => exact ⟨rfl, rfl⟩

omit hflight in
theorem Inv.wired_takes (htakes : Takes p s.clock packet p') : (s.goOn sid p' s.gateway).Wired :=
  h.wired.goOn hp htakes.same.1 htakes.same.2 h.wired.coherent h.wired.slots

theorem Inv.sound_takes (htakes : Takes p s.clock packet p') : (s.goOn sid p' s.gateway).Sound := by
  have hgrows := grows_goOn hp p' htakes.same.2 s.gateway
  have htraffic := h.sound.traffic.mono hgrows
  have hlonger : s.gateway.traffic.Longer s.gateway.traffic := fun _ _ => List.prefix_rfl
  have hlt := taken_lt hp hflight
  have hpacket := h.packetOk hp hflight
  have hold : ∀ r ∈ p.requests, (s.goOn sid p' s.gateway).RequestOk p.role r := fun r hr =>
    hgrows.requestOk (h.sound.requests sid p hp r hr)
  cases htakes with
  | kept _ _ hworker hrole htaken hrequests hpings hanswers =>
    refine h.sound.goOn hp hworker hrole htraffic hlonger ?_ ?_ (htaken ▸ hlt)
    · rw [hrequests, hrole]
      exact hold
    · rw [hanswers]
      exact h.sound.answers sid p hp
  | answered pkt hrole =>
    refine h.sound.goOn hp rfl rfl htraffic hlonger (fun r hr => ?_)
      (h.sound.answers sid p hp) hlt
    rcases List.mem_append.mp hr with hr | hr
    · exact hold r hr
    · obtain ⟨⟨-, hclient⟩, h2, hnow⟩ := hpacket.content
      rw [List.mem_singleton.mp hr]
      exact ⟨⟨hrole, hgrows.clients _ hclient⟩, h2, hnow, UInt64.le_refl _⟩
  | handled pkt =>
    refine h.sound.goOn hp rfl rfl htraffic hlonger hold (fun a ha => ?_) hlt
    rcases List.mem_append.mp ha with ha | ha
    · exact h.sound.answers sid p hp a ha
    · obtain ⟨⟨hsid, -⟩, h2, h3, h4, hnow⟩ := hpacket.content
      rw [List.mem_singleton.mp ha]
      exact ⟨hsid.symm, h2, h3, h4, hnow⟩

end Take

theorem Inv.take (h : s.Inv handoff) (sid : SessionId) :
    (s.step handoff (.take sid)).Inv handoff := by
  rw [step]
  split
  · exact h
  case h_2 p hp =>
    split
    · exact h
    · split
      · exact h
      case h_2 packet rest hflight =>
        have htakes := takes_receive p s.clock packet
        exact ⟨h.wired_takes hp htakes, h.sound_takes hp hflight htakes,
          h.reached_takes hp hflight htakes⟩

/-! ## A load generator sends a ping -/

/-- The load generator with a ping more. -/
def pinged (p : Peer n) (pkt : PerfPkt) : Peer n :=
  { p with requests := p.requests ++ [.perfPing pkt], pings := p.pings ++ [pkt] }

theorem linksOf_pinged (hp : s.peers sid = some p) (pkt : PerfPkt) :
    (s.goOn sid (pinged p pkt) s.gateway).linksOf s.gateway.traffic =
      (s.links.pushRequest sid (.perfPing pkt)).pushPing sid pkt := by
  refine (linksOf_setPeer (pinged p pkt)).trans (Links.ext ?_ rfl ?_ ?_ rfl ?_)
  · exact congrArg (Function.update _ sid) (congrArg (· ++ _) (links_requests hp).symm)
  · exact Function.update_eq_self_iff.mpr (by simp [linksOf, hp, pinged])
  · exact Function.update_eq_self_iff.mpr (links_answers hp).symm
  · exact congrArg (Function.update _ sid) (congrArg (· ++ _) (links_pings hp).symm)

theorem Inv.pinged (h : s.Inv handoff) (hp : s.peers sid = some p) (hclient : p.role = .Client)
    {pkt : PerfPkt} (htime : pkt.t1 ≤ s.clock) :
    (s.goOn sid (pinged p pkt) s.gateway).Inv handoff := by
  have hgrows := grows_goOn hp (Deployment.pinged p pkt) rfl s.gateway
  refine ⟨h.wired.goOn hp rfl rfl h.wired.coherent h.wired.slots, ?_, ?_⟩
  · refine h.sound.goOn hp rfl rfl (h.sound.traffic.mono hgrows) (fun _ _ => List.prefix_rfl)
      (fun r hr => ?_) (h.sound.answers sid p hp) (h.sound.taken sid p hp)
    rcases List.mem_append.mp hr with hr | hr
    · exact hgrows.requestOk (h.sound.requests sid p hp r hr)
    · rw [List.mem_singleton.mp hr]
      exact ⟨hclient, htime⟩
  · have hlinks : (s.goOn sid (Deployment.pinged p pkt) s.gateway).links = _ :=
      linksOf_pinged hp pkt
    rw [hlinks, Links.net_ping]
    exact h.reached.enter (head_route (h.wired.owner sid p hp).2 handoff) _

theorem Inv.ping (h : s.Inv handoff) (sid : SessionId) (seq : UInt64) (timed : Bool) :
    (s.step handoff (.ping sid seq timed)).Inv handoff := by
  rw [step]
  split
  · exact h
  case h_2 p hp =>
    rw [Peer.ping]
    split
    case isFalse =>
      have hsame : s.setPeer sid p = s := by
        rw [setPeer, Function.update_eq_self_iff.mpr hp.symm]
      rw [hsame]
      exact h
    case isTrue hclient =>
      refine h.pinged hp hclient.1 ?_
      cases timed with
      | true => exact UInt64.le_refl _
      | false => exact UInt64.zero_le

/-! ## A peer joins -/

section Join

variable {role : PeerRole} {created : Bool}

theorem Joins.grows (hj : Joins s s' w (s.newId w created) role)
    (hnone : s.peers (s.newId w created) = none) : Grows s s' where
  clients sid hsid := by
    obtain ⟨p, hp, hclient⟩ := hsid
    exact ⟨p, by rw [hj.peers, join_of_some _ hnone hp], hclient⟩
  peers sid hsid := by
    rw [hj.peers, join]
    split
    · exact hsid
    · by_cases heq : sid = s.newId w created
      · rw [heq, Function.update_self]
        exact Option.some_ne_none _
      · rw [Function.update_of_ne heq]
        exact hsid
  dials _ _ h := hj.dials_of_some h
  clock := by
    rw [hj.clock]
    exact UInt64.le_refl _

/-- Nothing was ever sent to a session that is new. -/
theorem Sound.sent_of_none (h : s.Sound) (hsid : s.peers sid = none) (v : Fin n) :
    s.gateway.traffic.sent v sid = [] := by
  refine List.eq_nil_iff_forall_not_mem.mpr fun packet hpacket => ?_
  exact (h.traffic.sent v sid packet hpacket).peer hsid

theorem Joins.sound (hj : Joins s s' w (s.newId w created) role) (h : s.Sound)
    (hnone : s.peers (s.newId w created) = none) : s'.Sound := by
  have hgrows := hj.grows hnone
  constructor
  case traffic =>
    rw [hj.traffic]
    exact h.traffic.mono hgrows
  case requests =>
    intro sid p hp r hr
    rw [hj.peers] at hp
    rcases join_some hp with ⟨-, -, rfl⟩ | hp
    · rw [List.mem_singleton.mp hr]
      exact rfl
    · exact hgrows.requestOk (h.requests sid p hp r hr)
  case answers =>
    intro sid p hp a ha
    rw [hj.peers] at hp
    rcases join_some hp with ⟨-, -, rfl⟩ | hp
    · cases ha
    · exact h.answers sid p hp a ha
  case taken =>
    intro sid p hp
    rw [hj.peers] at hp
    rw [hj.traffic]
    rcases join_some hp with ⟨-, -, rfl⟩ | hp
    · exact Nat.zero_le _
    · exact h.taken sid p hp

/-- The queues with a peer more: it has said hello. -/
theorem links_join {id : SessionId} {t : Traffic n} (hnone : s.peers id = none)
    (hsent : ∀ v, t.sent v id = []) (w : Fin n) (role : PeerRole) :
    Deployment.linksOf { s with peers := s.join id (.start w role) } t =
      if id = 0 then s.linksOf t else (s.linksOf t).pushRequest id (.roleHelloReq role) := by
  by_cases hid : id = 0
  · simp only [join, if_pos hid]
  · simp only [join, if_neg hid]
    refine (linksOf_setPeer (.start w role)).trans (Links.ext ?_ rfl ?_ ?_ rfl ?_)
    · exact congrArg (Function.update _ id) (by simp [linksOf, requests, hnone, Peer.start])
    · exact Function.update_eq_self_iff.mpr (by simp [linksOf, hnone, hsent])
    · exact Function.update_eq_self_iff.mpr (by simp [linksOf, answers, hnone, Peer.start])
    · exact Function.update_eq_self_iff.mpr (by simp [linksOf, pings, hnone, Peer.start])

theorem Joins.net (hj : Joins s s' w (s.newId w created) role) (h : s.Sound)
    (hnone : s.peers (s.newId w created) = none) : s'.links.net = s.links.net := by
  have hjoin := links_join hnone (h.sent_of_none hnone) w role
  generalize s.newId w created = id at hj hnone hjoin
  have hnet : (Deployment.linksOf { s with peers := s.join id (.start w role) }
      s.gateway.traffic).net = s.links.net := by
    rw [hjoin]
    split
    · rfl
    · exact Links.net_pushRequest (w := w) fun pkt heq => by cases heq
  rcases hj.dials with ⟨-, hdials⟩ | ⟨-, hfree, hdials⟩
  · rw [← hnet, links, hj.traffic, linksOf_congr (s := { s with
      peers := s.join id (.start w role) }) hj.peers hdials]
  · have hdial : s'.links = (Deployment.linksOf { s with peers := s.join id (.start w role) }
        s.gateway.traffic).dial id w := by
      rw [links, hj.traffic]
      exact linksOf_congr (s := { s with
        peers := s.join id (.start w role), dials := Function.update s.dials w (some id) })
        hj.peers hdials
    rw [hdial, Links.net_dial hfree, hnet]
    · rw [hjoin]
      split
      · simp [linksOf, requests, hnone]
      · simp [Links.pushRequest, linksOf, requests, hnone, Request.pong]
    · rw [hjoin]
      split
      · simp [linksOf, hnone]
      · simp [Links.pushRequest, linksOf, hnone]

theorem Joins.inv (hj : Joins s s' w (s.newId w created) role) (h : s.Inv handoff)
    (hn : n ≤ 2 ^ 31) (hw : (s.gateway w).InBounds w) : s'.Inv handoff := by
  have hnone := h.wired.peers_newId hn hw created
  refine ⟨hj.wired h.wired hn hw, hj.sound h.sound hnone, ?_⟩
  rw [hj.net h.sound hnone]
  exact h.reached

end Join

theorem Inv.tick (h : s.Inv handoff) (now : UInt64) : (s.step handoff (.tick now)).Inv handoff := by
  have hclock : s.clock ≤ if s.clock ≤ now then now else s.clock := by
    split
    case isTrue hle => exact hle
    case isFalse => exact UInt64.le_refl _
  have hgrows : Grows s (s.step handoff (.tick now)) :=
    ⟨fun _ hx => hx, fun _ hx => hx, fun _ _ hx => hx, hclock⟩
  refine ⟨h.wired.congr (s.step handoff (.tick now)) (fun _ => rfl) rfl h.wired.coherent
    h.wired.slots, ?_, h.reached⟩
  exact ⟨h.sound.traffic.mono hgrows, fun sid p hp r hr =>
    hgrows.requestOk (h.sound.requests sid p hp r hr), h.sound.answers, h.sound.taken⟩

/-! ## Whole runs -/

theorem Inv.deliver_step (h : s.Inv handoff) (sid stale : SessionId) (fails : Bool) :
    (s.step handoff (.deliver sid stale fails)).Inv handoff := by
  cases hp : s.peers sid with
  | none =>
    rw [step, hp]
    exact h
  | some p =>
    cases hr : p.requests with
    | nil =>
      simp only [step, hp, hr]
      exact h
    | cons request rest =>
      cases request with
      | roleHelloReq role => exact h.deliver_hello hp hr rfl stale fails
      | perfPing pkt => exact h.deliver_ping hp hr rfl stale fails
      | perfPong pkt => exact h.deliver_pong hp hr rfl stale fails

/-- A new session is within the bound on ids. -/
def InBounds (s : Deployment n) : Move n → Prop
  | .connect w _ | .dialOk w _ => (s.gateway w).InBounds w
  | _ => True

theorem Inv.step (h : s.Inv handoff) (hn : n ≤ 2 ^ 31) (m : Move n) (hm : s.InBounds m) :
    (s.step handoff m).Inv handoff := by
  cases m with
  | tick now => exact h.tick now
  | connect w created => exact (joins_connect h.wired w created).inv h hn hm
  | dialOk w created =>
    cases hw : s.dials w with
    | some x =>
      rw [Deployment.step, hw]
      exact h
    | none => exact (joins_dialOk h.wired hw created).inv h hn hm
  | deliver sid stale fails => exact h.deliver_step sid stale fails
  | task w fails => exact h.task w fails
  | sessionEnd w sid => exact h.sessionEnd w sid
  | take sid => exact h.take sid
  | ping sid seq timed => exact h.ping sid seq timed

theorem wired_init : ({} : Deployment n).Wired where
  coherent _ := Worker.coherent_init
  slots _ := ⟨rfl, fun _ hsid => .inl (List.mem_singleton.mp hsid), .inl rfl⟩
  owner _ _ hp := by cases hp
  issued _ _ hp := by cases hp
  dialed _ _ hv := by cases hv
  exchange _ _ hp := by cases hp

theorem sound_init : ({} : Deployment n).Sound where
  traffic := {
    tasks := fun _ _ hmem => by cases hmem
    sent := fun _ _ _ hmem => by cases hmem }
  requests _ _ hp := by cases hp
  answers _ _ hp := by cases hp
  taken _ _ hp := by cases hp

theorem inv_init (handoff : Bool) : ({} : Deployment n).Inv handoff := by
  have hempty : (({} : Deployment n).links).net = {} := by
    refine Pipes.Net.ext (funext fun q => ?_) rfl
    cases q <;> rfl
  refine ⟨wired_init, sound_init, ?_⟩
  rw [hempty]
  exact .empty _

end Deployment

/-- A move that opens a session on a worker. -/
def Move.opens {n : Nat} (w : Fin n) : Move n → Bool
  | .connect v _ | .dialOk v _ => v = w
  | _ => false

/-- The sessions that are opened on a worker. -/
def opened {n : Nat} (w : Fin n) (moves : List (Move n)) : Nat := moves.countP (·.opens w)

namespace Deployment

variable {n : Nat} {s : Deployment n}

/-- A move is a step of the gateway or none. -/
theorem gateway_step (handoff : Bool) (s : Deployment n) (m : Move n) :
    (s.step handoff m).gateway = s.gateway ∨
      ∃ e, (s.step handoff m).gateway = s.gateway.step handoff e ∧
        ∀ w created, e = .accept w created ∨ e = .dialOk w created → m.opens w = true := by
  cases m with
  | tick now => exact .inl rfl
  | connect w created =>
    refine .inr ⟨.accept w created, rfl, ?_⟩
    rintro v created' (heq | heq)
    · cases heq
      exact decide_eq_true rfl
    · cases heq
  | dialOk w created =>
    cases hw : s.dials w with
    | some x =>
      left
      simp only [step, hw]
    | none =>
      refine .inr ⟨.dialOk w created, by simp only [step, hw], ?_⟩
      rintro v created' (heq | heq)
      · cases heq
      · cases heq
        exact decide_eq_true rfl
  | deliver sid stale fails =>
    cases hp : s.peers sid with
    | none =>
      left
      simp only [step, hp]
    | some p =>
      cases hr : p.requests with
      | nil =>
        left
        simp only [step, hp, hr]
      | cons request rest =>
        refine .inr ⟨request.event p.worker sid stale s.clock fails,
          by rw [step_deliver hp hr]; rfl, ?_⟩
        rintro v created (heq | heq) <;> cases request <;> cases heq
  | task w fails =>
    refine .inr ⟨.task w fails, rfl, ?_⟩
    rintro v created (heq | heq) <;> cases heq
  | sessionEnd w sid =>
    refine .inr ⟨.sessionEnd w sid, rfl, ?_⟩
    rintro v created (heq | heq) <;> cases heq
  | take sid =>
    left
    rw [step]
    split
    · rfl
    · split
      · rfl
      · split <;> rfl
  | ping sid seq timed =>
    left
    rw [step]
    split <;> rfl

theorem accepts_step (handoff : Bool) (s : Deployment n) (m : Move n) (w : Fin n) :
    ((s.step handoff m).gateway w).accepts ≤
      (s.gateway w).accepts + if m.opens w = true then 1 else 0 := by
  have htrivial : s.gateway.Within (fun _ _ => True) fun v => (s.gateway v).accepts :=
    fun v => ⟨rfl, fun _ _ => .inr trivial, .inr trivial⟩
  rcases gateway_step handoff s m with hsame | ⟨e, hstep, hopens⟩
  · rw [hsame]
    exact Nat.le_add_right ..
  · rw [hstep]
    by_cases he : ∃ v created, e = .accept v created ∨ e = .dialOk v created
    · obtain ⟨v, created, he⟩ := he
      have hwithin : (s.gateway.step handoff e).Within (fun _ _ => True)
          (Function.update (fun v => (s.gateway v).accepts) v ((s.gateway v).accepts + 1)) := by
        rcases he with rfl | rfl
        · exact htrivial.accept handoff v created
        · exact htrivial.dialOk handoff v created trivial
      rw [(hwithin w).accepts]
      by_cases hv : w = v
      · subst hv
        rw [Function.update_self, if_pos (hopens w created he)]
      · rw [Function.update_of_ne hv]
        exact Nat.le_add_right ..
    · have hquiet : (s.gateway.step handoff e).Within (fun _ _ => True) _ :=
        State.Within.step_of_quiet htrivial e
          (fun v created => ⟨fun h => he ⟨v, created, .inl h⟩, fun h => he ⟨v, created, .inr h⟩⟩)
          fun _ _ _ _ _ _ => trivial
      rw [(hquiet w).accepts]
      exact Nat.le_add_right ..

theorem opened_append (w : Fin n) (moves : List (Move n)) (m : Move n) :
    opened w (moves ++ [m]) = opened w moves + if m.opens w = true then 1 else 0 := by
  rw [opened, List.countP_append, List.countP_singleton]
  rfl

theorem run_append (handoff : Bool) (moves : List (Move n)) (m : Move n) :
    run handoff (moves ++ [m]) = (run handoff moves).step handoff m := by
  rw [run, List.foldl_append]
  rfl

theorem accepts_run (handoff : Bool) (moves : List (Move n)) (w : Fin n) :
    ((run handoff moves).gateway w).accepts ≤ opened w moves := by
  induction moves using List.reverseRecOn with
  | nil => exact Nat.le_refl 0
  | append_singleton moves m ih =>
    rw [run_append, opened_append]
    exact (accepts_step handoff _ m w).trans (Nat.add_le_add_right ih _)

/-- As long as few sessions are opened, their ids are within the bound. -/
theorem inBounds_run (handoff : Bool) {moves : List (Move n)} {m : Move n}
    (hopened : ∀ w, opened w (moves ++ [m]) < 2 ^ 32) : (run handoff moves).InBounds m := by
  have hbound : ∀ w, m.opens w = true → ((run handoff moves).gateway w).InBounds w := by
    intro w hw
    have hlt := hopened w
    rw [opened_append, if_pos hw] at hlt
    exact Net.lt_idSpace
      (Nat.lt_of_le_of_lt (Nat.succ_le_succ (accepts_run handoff moves w)) hlt)
  cases m with
  | connect w created | dialOk w created => exact hbound w (decide_eq_true rfl)
  | _ => trivial

/-- What holds at first and is kept by every move within the bound on ids holds after a run. -/
theorem run_rule {I : Deployment n → Prop} {handoff : Bool} (hinit : I {})
    (hstep : ∀ s m, I s → s.InBounds m → I (s.step handoff m)) (moves : List (Move n))
    (hopened : ∀ w, opened w moves < 2 ^ 32) : I (run handoff moves) := by
  induction moves using List.reverseRecOn with
  | nil => exact hinit
  | append_singleton moves m ih =>
    have hbefore : ∀ w, opened w moves < 2 ^ 32 := by
      intro w
      have hlt := hopened w
      rw [opened_append] at hlt
      omega
    rw [run_append]
    exact hstep _ m (ih hbefore) (inBounds_run handoff hopened)

theorem inv_run (hn : n ≤ 2 ^ 31) (handoff : Bool) (moves : List (Move n))
    (hopened : ∀ w, opened w moves < 2 ^ 32) : (run handoff moves).Inv handoff :=
  run_rule (inv_init handoff) (fun _ m h hm => h.step hn m hm) moves hopened

end Deployment

/-! ## The result -/

theorem only_item {sid : SessionId} {answers : List (PerfPkt × UInt64)}
    (h : ∀ a ∈ answers, a.1.clientSid = sid) :
    Pipes.only sid (answers.map fun a => a.1.item) = answers.map fun a => a.1.key := by
  induction answers with
  | nil => rfl
  | cons a rest ih =>
    have ha : a.1.item.1 = sid := h a List.mem_cons_self
    rw [List.map_cons, List.map_cons, Pipes.only_cons, if_pos ha,
      ih fun b hb => h b (List.mem_cons_of_mem a hb)]
    rfl

theorem elapsed_of_le {a b : UInt64} (h : a ≤ b) : Loadgen.elapsed a b = b - a := by
  rw [Loadgen.elapsed]
  split
  · rfl
  case isFalse hlt =>
    have heq : a = b := UInt64.le_antisymm h (UInt64.not_lt.mp hlt)
    rw [heq, UInt64.sub_self]

/-- The hops add up to the round trip if the times are in order. -/
theorem elapsed_add {a b c : UInt64} (hab : a ≤ b) (hbc : b ≤ c) :
    Loadgen.elapsed a b + Loadgen.elapsed b c = Loadgen.elapsed a c := by
  rw [elapsed_of_le hab, elapsed_of_le hbc, elapsed_of_le (UInt64.le_trans hab hbc)]
  grind

namespace Deployment

variable {n : Nat} {handoff : Bool} {s : Deployment n} {sid : SessionId} {p : Peer n}

/-- The pongs on a session are for pings on it, in their order. -/
theorem Inv.answers_sublist (h : s.Inv handoff) (hp : s.peers sid = some p) :
    (p.answers.map fun a => a.1.key).Sublist (p.pings.map PerfPkt.key) := by
  have hanswers : s.answers sid = p.answers := by rw [answers, hp]
  have hpings : s.pings sid = p.pings := by rw [pings, hp]
  have hmem : .answers sid ∈ route handoff sid :=
    answers_mem_route (h.wired.owner sid p hp).2 handoff
  have hsub := h.reached.only_sublist (route_nodup handoff) hmem
  have hqueue : s.links.net.queue (.answers sid) = p.answers.map fun a => a.1.item :=
    congrArg (List.map _) hanswers
  have hentered : s.links.net.entered sid = p.pings.map PerfPkt.key :=
    congrArg (List.map _) hpings
  rw [hqueue, hentered, only_item fun a ha => (h.sound.answers sid p hp a ha).clientSid] at hsub
  exact hsub

/-- The hops of a pong add up to its round trip. -/
theorem AnswerOk.hops {a : PerfPkt × UInt64} (h : AnswerOk sid a) :
    Loadgen.elapsed a.1.t1 a.1.t2 + Loadgen.elapsed a.1.t2 a.1.t3 + Loadgen.elapsed a.1.t3 a.1.t4 +
      Loadgen.elapsed a.1.t4 a.2 = Loadgen.elapsed a.1.t1 a.2 := by
  have h13 := UInt64.le_trans h.t2 h.t3
  rw [elapsed_add h.t2 h.t3, elapsed_add h13 h.t4, elapsed_add (UInt64.le_trans h13 h.t4) h.t5]

end Deployment

/-- Whatever the order in which the processes and their queues are served and wherever sessions
end, a load generator gets on each session pongs for its own pings on it, in the order of the pings
and one for each at most, with the number and the time of sending of the ping.  The times in a pong
are in order, and the hops that are recorded for it add up to its round trip. -/
theorem pongs_answer_pings {n : Nat} (hn : n ≤ 2 ^ 31) (handoff : Bool) (moves : List (Move n))
    (hopened : ∀ w, opened w moves < 2 ^ 32) (sid : SessionId) :
    (((Deployment.run handoff moves).answers sid).map fun a => a.1.key).Sublist
        (((Deployment.run handoff moves).pings sid).map PerfPkt.key) ∧
      ∀ a ∈ (Deployment.run handoff moves).answers sid,
        a.1.clientSid = sid ∧ a.1.t1 ≤ a.1.t2 ∧ a.1.t2 ≤ a.1.t3 ∧ a.1.t3 ≤ a.1.t4 ∧ a.1.t4 ≤ a.2 ∧
          Loadgen.elapsed a.1.t1 a.1.t2 + Loadgen.elapsed a.1.t2 a.1.t3 +
              Loadgen.elapsed a.1.t3 a.1.t4 + Loadgen.elapsed a.1.t4 a.2 =
            Loadgen.elapsed a.1.t1 a.2 := by
  have hinv := Deployment.inv_run hn handoff moves hopened
  generalize Deployment.run handoff moves = s at hinv
  cases hp : s.peers sid with
  | none =>
    rw [Deployment.answers, hp]
    exact ⟨List.nil_sublist _, fun a ha => by cases ha⟩
  | some p =>
    rw [Deployment.answers, Deployment.pings, hp]
    refine ⟨hinv.answers_sublist hp, fun a ha => ?_⟩
    have hok := hinv.sound.answers sid p hp a ha
    exact ⟨hok.clientSid, hok.t2, hok.t3, hok.t4, hok.t5, hok.hops⟩

/-- A load generator and the exchange shake hands with a gateway of one worker, and a ping goes the
whole way. -/
def roundTrip : List (Move 1) :=
  [.connect ⟨0, Nat.one_pos⟩ true, .dialOk ⟨0, Nat.one_pos⟩ true, .deliver 1 0 false,
    .deliver 2 0 false, .take 1, .take 2,
    .tick 5, .ping 1 7 true, .tick 8, .deliver 1 0 false, .tick 9, .take 2, .tick 12,
    .deliver 2 0 false, .tick 13, .take 1]

theorem pongs_answer_pings_roundTrip :
    (Deployment.run false roundTrip).answers 1 = [(⟨1, 7, 5, 8, 9, 12⟩, 13)] ∧
      (((Deployment.run false roundTrip).answers 1).map fun a => a.1.key).Sublist
        (((Deployment.run false roundTrip).pings 1).map PerfPkt.key) :=
  ⟨rfl, (pongs_answer_pings (by decide) false roundTrip (by decide) 1).1⟩

end HyperNet.Fep
