import HyperNet.Gateway.Agreement
import HyperNet.Loadgen.Latency

/-!
# The benchmark as a whole

The deployment of `Gateway.Peers` with the controller of one of its load generators: on a handshake
and on a pong, the load generator sends what its `BenchmarkClientController` calls for.  The other
peers do what they like.  What `Loadgen.Controller` assumes of the world around a controller, that a
pong echoes a ping which is not answered yet, is what gateway and exchange do for it.  So every run
looks to the controller like a run of `Loadgen.World`, and what it records are the times of its own
pings.

A session has the id that the gateway has given it, at the load generator too; the controller does
nothing with an id but pass it on.
-/

namespace HyperNet.Fep

open App (SessionId ConnState)
open Loadgen (Controller LatencyRecorder Act Clock World)

/-- The packet as the load generator reads it. -/
def PerfPkt.toPacket (pkt : PerfPkt) : Protocol.PerfPkt where
  client_sid := pkt.clientSid
  seq := pkt.seq
  t1 := pkt.t1
  t2 := pkt.t2
  t3 := pkt.t3
  t4 := pkt.t4

/-- The deployment and a load generator. -/
structure Bench (n : Nat) where
  deployment : Deployment n := {}
  client : Controller
  /-- The sessions that the load generator has opened. -/
  own : SessionId → Bool := fun _ => false
  /-- The sessions that its controller has ended. -/
  ended : List SessionId := []
  report : Option LatencyRecorder := none

/-- What happens next: the load generator connects or gets the next packet of a session, and is done
with it at a later time; or something else happens, at the gateway, the exchange or another load
generator. -/
inductive Turn (n : Nat) where
  | connect (w : Fin n) (created : Bool)
  | take (sid : SessionId) (later : UInt64)
  | other (move : Move n)

/-- The handlers of a load generator, with the states they are bound to. -/
def handle (c : Controller) (state : ConnState) (sid : SessionId) (clock : Clock) :
    Packet → Controller × List Act
  | .roleHelloAck .Ok _ => if state = .Connected then c.onHandshakeOk sid clock else (c, [])
  | .perfPong pkt => if state = .Handshaked then c.onPerfPong sid pkt.toPacket clock else (c, [])
  | _ => (c, [])

namespace Bench

variable {n : Nat} (handoff : Bool) (b : Bench n)

/-- A move that is not the load generator's. -/
def isOther : Move n → Bool
  | .take sid | .ping sid _ _ => !b.own sid
  | _ => true

def go (move : Move n) : Bench n := { b with deployment := b.deployment.step handoff move }

/-- What a handler calls; the time in a ping is that of the clock. -/
def act : Act → Bench n
  | .sendTo sid pkt =>
    if sid ∈ b.ended then b else b.go handoff (.ping sid pkt.seq (decide (pkt.t1 ≠ 0)))
  | .onSessionEnd sid => { b with ended := sid :: b.ended }
  | .printReport r => { b with report := some r }

/-- The load generator gets the next packet of a session and is done with it later; its controller
is then as the handler has left it. -/
def taking (sid : SessionId) (later : UInt64) (c : Controller) : Bench n :=
  { (b.go handoff (.take sid)).go handoff (.tick later) with client := c }

/-- What the handler reads off the clock. -/
def clockFor (sid : SessionId) (later : UInt64) : Clock :=
  let now := ((b.go handoff (.take sid)).go handoff (.tick later)).deployment.clock
  { t5 := b.deployment.clock, start := now, t1 := now }

/-- The next packet of a session; nothing happens once the process has exited. -/
def take (sid : SessionId) (later : UInt64) : Bench n :=
  if b.own sid = false ∨ b.report.isSome = true ∨ sid ∈ b.ended then b
  else
    match b.deployment.peers sid, b.deployment.inFlight sid with
    | some p, packet :: _ =>
      let (c, acts) := handle b.client p.state sid (b.clockFor handoff sid later) packet
      acts.foldl (act handoff) (b.taking handoff sid later c)
    | _, _ => b

def step : Turn n → Bench n
  | .connect w created =>
    let id := ((b.deployment.gateway w).onAccepted w false created).2
    { b.go handoff (.connect w created) with
      own := if id = 0 then b.own else Function.update b.own id true }
  | .take sid later => b.take handoff sid later
  | .other move => if b.isOther move = true then b.go handoff move else b

/-- The load generator, with its number of sessions to wait for. -/
def start (target : Int32) (tpsMode : Bool) : Bench n where
  client := .make target tpsMode

def run (target : Int32) (tpsMode : Bool) (turns : List (Turn n)) : Bench n :=
  turns.foldl (step handoff) (start target tpsMode)

end Bench

def Turn.opens {n : Nat} (w : Fin n) : Turn n → Bool
  | .connect v _ => v = w
  | .take .. => false
  | .other move => move.opens w

/-! ## The deployment of a benchmark -/

namespace Bench

variable {n : Nat} {handoff : Bool} {b b' : Bench n} {sid : SessionId}

/-- A run of a deployment with at most so many sessions on each worker. -/
def Comes (handoff : Bool) (opens : Fin n → Nat) (s : Deployment n) : Prop :=
  ∃ moves : List (Move n), s = Deployment.run handoff moves ∧ ∀ v, opened v moves ≤ opens v

variable {opens : Fin n → Nat}

theorem Comes.step {s : Deployment n} (h : Comes handoff opens s) (move : Move n) :
    Comes handoff (fun v => opens v + if move.opens v = true then 1 else 0)
      (s.step handoff move) := by
  obtain ⟨moves, rfl, hopened⟩ := h
  refine ⟨moves ++ [move], (Deployment.run_append ..).symm, fun v => ?_⟩
  rw [Deployment.opened_append]
  exact Nat.add_le_add_right (hopened v) _

theorem Comes.act (h : Comes handoff opens b.deployment) (a : Act) :
    Comes handoff opens (b.act handoff a).deployment := by
  cases a with
  | sendTo sid pkt =>
    rw [Bench.act]
    split
    · exact h
    · exact h.step (.ping ..)
  | onSessionEnd sid | printReport r => exact h

theorem Comes.acts (h : Comes handoff opens b.deployment) (acts : List Act) :
    Comes handoff opens (acts.foldl (Bench.act handoff) b).deployment := by
  induction acts generalizing b with
  | nil => exact h
  | cons a acts ih => exact ih (h.act a)

theorem Comes.turn (h : Comes handoff opens b.deployment) (turn : Turn n) :
    Comes handoff (fun v => opens v + if turn.opens v = true then 1 else 0)
      (b.step handoff turn).deployment := by
  cases turn with
  | connect v created => exact h.step (.connect v created)
  | other move =>
    rw [Bench.step]
    split
    · exact h.step move
    · obtain ⟨moves, heq, hopened⟩ := h
      exact ⟨moves, heq, fun v => (hopened v).trans (Nat.le_add_right ..)⟩
  | take sid later =>
    change Comes handoff opens (b.take handoff sid later).deployment
    rw [take]
    split
    · exact h
    · split
      · exact Comes.acts ((h.step (.take sid)).step (.tick later)) ..
      · exact h

/-- The deployment of a benchmark is a deployment's. -/
theorem comes_run (handoff : Bool) (target : Int32) (tpsMode : Bool)
    (turns : List (Turn n)) : Comes handoff (fun v => turns.countP (·.opens v))
      (run handoff target tpsMode turns).deployment := by
  induction turns using List.reverseRecOn with
  | nil => exact ⟨[], rfl, fun _ => Nat.le_refl 0⟩
  | append_singleton turns turn ih =>
    rw [run, List.foldl_append]
    simp only [List.countP_append, List.countP_singleton]
    exact ih.turn turn

/-! ## What a controller sees -/

/-- A session as the history of its controller has it. -/
structure Follows (w : World) (sid : SessionId) (p : Peer n) : Prop where
  role : p.role = .Client
  shaken : sid ∈ w.client.sessions ↔ p.state = .Handshaked
  pings : p.pings.map PerfPkt.key =
    (w.sent.filter (·.sid = sid)).map fun ping => (ping.pkt.seq, ping.pkt.t1)

/-- The controller of a load generator and its sessions are those of a world. -/
structure Linked (b : Bench n) (w : World) : Prop where
  client : w.client = b.client
  report : w.report = b.report
  ended : w.ended = [] ∧ b.ended = []
  peers : ∀ sid, b.own sid = true → ∃ p, b.deployment.peers sid = some p ∧ Follows w sid p
  sessions : ∀ sid ∈ w.client.sessions, b.own sid = true
  sent : ∀ ping ∈ w.sent, ping.sid ∈ w.client.sessions
  handled : ∀ x ∈ w.handled, ∃ sid p, b.own sid = true ∧ b.deployment.peers sid = some p ∧
    ∃ a ∈ p.answers, x = (a.1.toPacket, a.2)

/-- What a controller sees of a peer stays. -/
structure Alike (p p' : Peer n) : Prop where
  role : p'.role = p.role
  state : p'.state = p.state
  pings : p'.pings = p.pings
  answers : p'.answers = p.answers

theorem Alike.refl (p : Peer n) : Alike p p := ⟨rfl, rfl, rfl, rfl⟩

variable {w w' : World} {p p' : Peer n}

theorem Follows.alike (h : Follows w sid p) (halike : Alike p p') : Follows w sid p' where
  role := halike.role.trans h.role
  shaken := by rw [halike.state]; exact h.shaken
  pings := by rw [halike.pings]; exact h.pings

theorem Linked.follows (h : Linked b w) (hsid : b.own sid = true)
    (hp : b.deployment.peers sid = some p) : Follows w sid p := by
  obtain ⟨p', hp', hf⟩ := h.peers sid hsid
  cases hp.symm.trans hp'
  exact hf

/-- Nothing happens to the sessions of the load generator. -/
theorem Linked.frame (h : Linked b w) (hclient : b'.client = b.client)
    (hreport : b'.report = b.report) (hended : b'.ended = b.ended) (hown : b'.own = b.own)
    (hpeers : ∀ sid p, b.own sid = true → b.deployment.peers sid = some p →
      ∃ p', b'.deployment.peers sid = some p' ∧ Alike p p') : Linked b' w where
  client := h.client.trans hclient.symm
  report := h.report.trans hreport.symm
  ended := ⟨h.ended.1, hended.trans h.ended.2⟩
  peers sid hsid := by
    rw [hown] at hsid
    obtain ⟨p, hp, hfollows⟩ := h.peers sid hsid
    obtain ⟨p', hp', halike⟩ := hpeers sid p hsid hp
    exact ⟨p', hp', hfollows.alike halike⟩
  sessions := hown ▸ h.sessions
  sent := h.sent
  handled x hx := by
    obtain ⟨sid, p, hsid, hp, a, ha, heq⟩ := h.handled x hx
    obtain ⟨p', hp', halike⟩ := hpeers sid p hsid hp
    exact ⟨sid, p', hown ▸ hsid, hp', a, halike.answers ▸ ha, heq⟩

/-- One session of the load generator goes on, and with it the history. -/
theorem Linked.update (h : Linked b w) (hsid : b.own sid = true)
    (hp : b.deployment.peers sid = some p) (hclient : w'.client = b'.client)
    (hreport : w'.report = b'.report) (hended : w'.ended = w.ended ∧ b'.ended = b.ended)
    (hown : b'.own = b.own)
    (hpeers : b'.deployment.peers = Function.update b.deployment.peers sid (some p'))
    (hrole : p'.role = .Client) (hstate : p'.state = .Handshaked)
    (hmem : sid ∈ w'.client.sessions)
    (hsessions : ∀ x, x ≠ sid → (x ∈ w'.client.sessions ↔ x ∈ w.client.sessions))
    (hkeys : p'.pings.map PerfPkt.key =
      (w'.sent.filter (·.sid = sid)).map fun ping => (ping.pkt.seq, ping.pkt.t1))
    (hsent : ∀ ping ∈ w'.sent, ping ∈ w.sent ∨ ping.sid = sid)
    (hpings : ∀ x, x ≠ sid → w'.sent.filter (·.sid = x) = w.sent.filter (·.sid = x))
    (hhandled : ∀ x ∈ w'.handled, x ∈ w.handled ∨ ∃ a ∈ p'.answers, x = (a.1.toPacket, a.2))
    (hkept : ∀ a ∈ p.answers, a ∈ p'.answers) : Linked b' w' where
  client := hclient
  report := hreport
  ended := ⟨hended.1.trans h.ended.1, hended.2.trans h.ended.2⟩
  peers x hx := by
    rw [hown] at hx
    by_cases heq : x = sid
    · subst heq
      exact ⟨p', by rw [hpeers, Function.update_self], hrole, iff_of_true hmem hstate, hkeys⟩
    · obtain ⟨q, hq, hf⟩ := h.peers x hx
      refine ⟨q, by rw [hpeers, Function.update_of_ne heq, hq], hf.role, ?_, ?_⟩
      · rw [hsessions x heq]
        exact hf.shaken
      · rw [hpings x heq]
        exact hf.pings
  sessions x hx := by
    rw [hown]
    by_cases heq : x = sid
    · rw [heq, hsid]
    · exact h.sessions x ((hsessions x heq).mp hx)
  sent ping hping := by
    by_cases heq : ping.sid = sid
    · rw [heq]
      exact hmem
    · exact (hsessions _ heq).mpr (h.sent ping ((hsent ping hping).resolve_right heq))
  handled x hx := by
    rw [hown, hpeers]
    rcases hhandled x hx with hx | ⟨a, ha, heq⟩
    · obtain ⟨y, q, hy, hq, a, ha, heq⟩ := h.handled x hx
      by_cases hys : y = sid
      · subst hys
        cases hp.symm.trans hq
        exact ⟨y, p', hy, Function.update_self .., a, hkept a ha, heq⟩
      · exact ⟨y, q, hy, by rw [Function.update_of_ne hys, hq], a, ha, heq⟩
    · exact ⟨sid, p', hsid, Function.update_self .., a, ha, heq⟩

/-! ### A ping -/

theorem peers_ping (handoff : Bool) {s : Deployment n} (hp : s.peers sid = some p)
    (hrole : p.role = .Client) (hstate : p.state = .Handshaked) (hopened : p.closed = false)
    (seq : UInt64) (timed : Bool) :
    (s.step handoff (.ping sid seq timed)).peers = Function.update s.peers sid
      (some (Deployment.pinged p ⟨0, seq, if timed then s.clock else 0, 0, 0, 0⟩)) := by
  rw [Deployment.step, hp]
  dsimp only
  rw [Peer.ping, if_pos ⟨hrole, hstate, hopened⟩]
  rfl

theorem Linked.sendTo (h : Linked b w) (hagreed : b.deployment.Agreed)
    (hsid : sid ∈ w.client.sessions) {pkt : Protocol.PerfPingPkt}
    (htime : pkt.t1 = b.deployment.clock) :
    Linked (b.act handoff (.sendTo sid pkt)) (w.act (.sendTo sid pkt)) := by
  have hown := h.sessions sid hsid
  obtain ⟨p, hp, hf⟩ := h.peers sid hown
  have hact : b.act handoff (.sendTo sid pkt) =
      b.go handoff (.ping sid pkt.seq (decide (pkt.t1 ≠ 0))) := by
    rw [act, if_neg (by rw [h.ended.2]; exact List.not_mem_nil)]
  have htimed : (if decide (pkt.t1 ≠ 0) = true then b.deployment.clock else 0) = pkt.t1 := by
    by_cases hzero : pkt.t1 = 0
    · rw [hzero]
      rfl
    · rw [if_pos (decide_eq_true hzero), htime]
  have hpeers := peers_ping handoff hp hf.role (hf.shaken.mp hsid)
    (hagreed.opened sid p hp) pkt.seq (decide (pkt.t1 ≠ 0))
  rw [hact]
  refine h.update hown hp h.client h.report ⟨rfl, rfl⟩ rfl hpeers hf.role (hf.shaken.mp hsid) hsid
    (fun _ _ => Iff.rfl) ?_ (fun ping hping => ?_) (fun x hx => ?_) (fun _ => .inl) fun _ ha => ha
  · simp only [Deployment.pinged, World.act, List.map_append, List.filter_append, hf.pings, htimed]
    simp [PerfPkt.key]
  · exact (List.mem_append.mp hping).imp id fun hping => by rw [List.mem_singleton.mp hping]
  · simp [World.act, Ne.symm hx]

theorem Linked.printReport (handoff : Bool) (h : Linked b w) (r : LatencyRecorder) :
    Linked (b.act handoff (.printReport r)) (w.act (.printReport r)) where
  __ := h
  report := rfl
  peers sid hsid := by
    obtain ⟨p, hp, hf⟩ := h.peers sid hsid
    exact ⟨p, hp, hf.role, hf.shaken, hf.pings⟩

/-! ### Which ping a pong answers -/

theorem nodup_sent (hw : Loadgen.Counted w) : (w.sent.map fun ping => ping.pkt.seq).Nodup := by
  refine List.Nodup.of_map UInt64.toNat ?_
  rw [List.map_map]
  change w.seqs.Nodup
  rw [hw.seqs]
  exact List.nodup_range'

/-- The numbers of the pings tell them apart. -/
theorem eq_of_seq (hw : Loadgen.Counted w) {ping ping' : Loadgen.Ping} (hping : ping ∈ w.sent)
    (hping' : ping' ∈ w.sent) (hseq : ping.pkt.seq = ping'.pkt.seq) : ping = ping' :=
  List.inj_on_of_nodup_map (nodup_sent hw) hping hping' hseq

theorem Follows.exists_ping (h : Follows w sid p) {key : Key}
    (hkey : key ∈ p.pings.map PerfPkt.key) :
    ∃ ping ∈ w.sent, ping.sid = sid ∧ ping.pkt.seq = key.1 := by
  rw [h.pings] at hkey
  obtain ⟨ping, hping, rfl⟩ := List.mem_map.mp hkey
  obtain ⟨hmem, hsid⟩ := List.mem_filter.mp hping
  exact ⟨ping, hmem, of_decide_eq_true hsid, rfl⟩

/-- The pings of a session have different numbers, and so do the pongs that it gets. -/
theorem Follows.nodup (h : Follows w sid p) (hw : Loadgen.Counted w)
    {answers : List (PerfPkt × UInt64)}
    (hsub : (answers.map fun a => a.1.key).Sublist (p.pings.map PerfPkt.key)) :
    (answers.map fun a => a.1.seq).Nodup := by
  have hpings : ((p.pings.map PerfPkt.key).map Prod.fst).Nodup := by
    rw [h.pings, List.map_map]
    exact (List.filter_sublist.map _).nodup (nodup_sent hw)
  have hseqs := (hsub.map Prod.fst).nodup hpings
  rw [List.map_map] at hseqs
  exact hseqs

/-- A pong that a session gets answers the last ping. -/
theorem Linked.answers_last (h : Linked b w) (hw : Loadgen.Counted w)
    (hsid : b.own sid = true) (hp : b.deployment.peers sid = some p) {pkt : PerfPkt}
    {now : UInt64}
    (hsub : ((p.answers ++ [(pkt, now)]).map fun a => a.1.key).Sublist (p.pings.map PerfPkt.key))
    (hall : ∀ x q, b.deployment.peers x = some q →
      (q.answers.map fun a => a.1.key).Sublist (q.pings.map PerfPkt.key)) :
    w.Answers w.handled.length sid ∧ w.pongFor w.handled.length pkt.toPacket = pkt.toPacket := by
  have hf := h.follows hsid hp
  obtain ⟨ping, hping, hpingSid, hseq⟩ := hf.exists_ping
    (hsub.subset (List.mem_map.mpr ⟨(pkt, now), by simp, rfl⟩))
  obtain ⟨place, hplace, hget⟩ := List.getElem_of_mem hping
  have hnumber : ping.pkt.seq.toNat = place + 1 := by
    have hseqs : w.seqs[place]? = some (1 + place) := by
      rw [hw.seqs, List.getElem?_range' hplace, Nat.one_mul]
    rw [World.seqs, List.getElem?_map, List.getElem?_eq_getElem hplace, hget,
      Option.map_some] at hseqs
    rw [Option.some.inj hseqs, Nat.add_comm]
  -- were the ping answered, its number would have come twice on this session
  have hnew : w.handled.length ≤ place := by
    by_contra hlt
    have hmem : place + 1 ∈ w.handled.map fun x => x.1.seq.toNat := by
      rw [hw.handled]
      exact List.mem_range'_1.mpr ⟨by omega, by omega⟩
    obtain ⟨x, hx, hxseq⟩ := List.mem_map.mp hmem
    obtain ⟨y, q, hy, hq, a, ha, rfl⟩ := h.handled x hx
    have haseq : a.1.seq = pkt.seq := by
      refine UInt64.toNat_inj.mp (hxseq.trans ?_)
      rw [← hnumber, hseq]
      rfl
    obtain ⟨ping', hping', hpingSid', hseq'⟩ := (h.follows hy hq).exists_ping
      ((hall y q hq).subset (List.mem_map.mpr ⟨a, ha, rfl⟩))
    have hsame : ping' = ping :=
      eq_of_seq hw hping' hping (hseq'.trans (haseq.trans hseq.symm))
    subst hsame
    cases hpingSid.symm.trans hpingSid'
    cases hp.symm.trans hq
    have hnodup := hf.nodup hw hsub
    rw [List.map_append, List.map_singleton] at hnodup
    exact (List.nodup_append.mp hnodup).2.2 _ (List.mem_map.mpr ⟨a, ha, haseq⟩) _
      (List.mem_singleton.mpr rfl) rfl
  have hlast : place = w.handled.length := by
    have hle := hw.sent_le
    omega
  subst hlast
  refine ⟨⟨hplace, fun hmem => Nat.lt_irrefl _ ((hw.answered _).mp hmem), ?_, ?_⟩, ?_⟩
  · rw [← hpingSid]
    exact h.sent ping hping
  · rw [World.Alive, h.ended.1]
    exact List.not_mem_nil
  · rw [World.pongFor, List.getElem?_eq_getElem hplace, hget]
    dsimp only
    rw [hseq]
    rfl

/-! ### The next packet of a session -/

/-- The load generator has a history. -/
def Measured (b : Bench n) : Prop := ∃ w, Linked b w ∧ Loadgen.Counted w

section Take

variable {packet : Packet} {rest : List Packet} {later : UInt64}

theorem peers_taking (handoff : Bool) (later : UInt64)
    (hp : b.deployment.peers sid = some p) (hopened : p.closed = false)
    (hflight : b.deployment.inFlight sid = packet :: rest) (c : Controller) :
    (taking handoff b sid later c).deployment.peers = Function.update b.deployment.peers sid
      (some ((Deployment.took p).receive b.deployment.clock packet)) := by
  have hstep : b.deployment.step handoff (.take sid) = _ :=
    Deployment.step_take hp hopened hflight
  change (b.deployment.step handoff (.take sid)).peers = _
  rw [hstep]
  rfl

theorem agreed_taking (hn : n ≤ 2 ^ 31) (hinv : b.deployment.Inv handoff)
    (hagreed : b.deployment.Agreed) (c : Controller) :
    (taking handoff b sid later c).deployment.Agreed :=
  (hagreed.step hinv hn (.take sid) trivial).step (hinv.step hn (.take sid) trivial) hn
    (.tick later) trivial

variable (h : Linked b w) (hagreed : b.deployment.Agreed) (hsid : b.own sid = true)
  (hp : b.deployment.peers sid = some p) (hflight : b.deployment.inFlight sid = packet :: rest)
include h hagreed hp hflight

variable (handoff later) {c : Controller}

/-- A packet that the controller is not told of. -/
theorem Linked.take_quiet (halike : Alike p
      ((Deployment.took p).receive b.deployment.clock packet)) :
    Linked (b.taking handoff sid later b.client) w := by
  have hpeers := peers_taking handoff later hp
    (hagreed.opened sid p hp) hflight b.client
  refine h.frame rfl rfl rfl rfl fun x q _ hq => ?_
  rw [hpeers]
  by_cases hx : x = sid
  · subst hx
    cases hp.symm.trans hq
    exact ⟨_, Function.update_self .., halike⟩
  · exact ⟨q, by rw [Function.update_of_ne hx, hq], .refl q⟩

include hsid

/-- The session has shaken hands. -/
theorem Linked.take_shaken (hsessions : c.sessions = b.client.sessions ++ [sid])
    (hreceive : (Deployment.took p).receive b.deployment.clock packet =
      { Deployment.took p with state := .Handshaked }) :
    Linked (b.taking handoff sid later c) { w with client := c } := by
  have hpeers := peers_taking handoff later hp
    (hagreed.opened sid p hp) hflight c
  have hf := h.follows hsid hp
  rw [hreceive] at hpeers
  have hmem : sid ∈ c.sessions := by
    rw [hsessions]
    exact List.mem_append_right _ List.mem_cons_self
  refine h.update hsid hp rfl h.report ⟨rfl, rfl⟩ rfl hpeers hf.role rfl hmem
    (fun x hx => ?_) hf.pings (fun _ => .inl) (fun _ _ => rfl) (fun _ => .inl) fun _ ha => ha
  change x ∈ c.sessions ↔ x ∈ w.client.sessions
  rw [hsessions, List.mem_append, List.mem_singleton, h.client, or_iff_left hx]

/-- A pong has come. -/
theorem Linked.take_answered {pkt : PerfPkt} (hstate : p.state = .Handshaked)
    (hsessions : c.sessions = b.client.sessions)
    (hreceive : (Deployment.took p).receive b.deployment.clock packet =
      Deployment.handled p pkt b.deployment.clock) (places : List Nat) :
    Linked (b.taking handoff sid later c) { w with
      client := c, answered := places
      handled := w.handled ++ [(pkt.toPacket, b.deployment.clock)] } := by
  have hpeers := peers_taking handoff later hp
    (hagreed.opened sid p hp) hflight c
  have hf := h.follows hsid hp
  rw [hreceive] at hpeers
  have hclient : c.sessions = w.client.sessions := by rw [hsessions, h.client]
  have hmem : sid ∈ c.sessions := hclient ▸ hf.shaken.mpr hstate
  refine h.update hsid hp rfl h.report ⟨rfl, rfl⟩ rfl hpeers hf.role hstate hmem
    (fun x _ => ?_) hf.pings (fun _ => .inl) (fun _ _ => rfl) (fun x hx => ?_)
    fun a ha => List.mem_append_left _ ha
  · change x ∈ c.sessions ↔ x ∈ w.client.sessions
    rw [hclient]
  · refine (List.mem_append.mp hx).imp id fun hx => ⟨(pkt, b.deployment.clock), ?_, ?_⟩
    · exact List.mem_append_right _ List.mem_cons_self
    · exact List.mem_singleton.mp hx

variable (hn : n ≤ 2 ^ 31) (hinv : b.deployment.Inv handoff) (hw : Loadgen.Counted w)
  (hreport : b.report = none)
include hreport

omit hagreed in
theorem Linked.take_eq {acts : List Act}
    (hhandle : handle b.client p.state sid (b.clockFor handoff sid later) packet = (c, acts)) :
    b.take handoff sid later = acts.foldl (act handoff) (b.taking handoff sid later c) := by
  have hgo : ¬ (b.own sid = false ∨ b.report.isSome = true ∨ sid ∈ b.ended) := by
    rw [hsid, hreport, h.ended.2]
    simp
  rw [take, if_neg hgo, hp, hflight]
  dsimp only
  rw [hhandle]

include hn hinv

/-- The controller sends the next ping. -/
theorem Linked.sends {x : SessionId} {pkt : Protocol.PerfPingPkt}
    (hhandle : handle b.client p.state sid (b.clockFor handoff sid later) packet =
      (c, [.sendTo x pkt])) (hlinked : Linked (b.taking handoff sid later c) w')
    (hcounted : Loadgen.Counted (w'.act (.sendTo x pkt))) (hx : x ∈ w'.client.sessions)
    (htime : pkt.t1 = (b.clockFor handoff sid later).t1) : Measured (b.take handoff sid later) := by
  rw [h.take_eq handoff later hsid hp hflight hreport hhandle]
  exact ⟨_, hlinked.sendTo (agreed_taking hn hinv hagreed c) hx htime, hcounted⟩

include hw

/-- The controller is told of a handshake. -/
theorem Linked.shakes
    (hreceive : (Deployment.took p).receive b.deployment.clock packet =
      { Deployment.took p with state := .Handshaked })
    (hhandle : handle b.client p.state sid (b.clockFor handoff sid later) packet =
      b.client.onHandshakeOk sid (b.clockFor handoff sid later)) :
    Measured (b.take handoff sid later) := by
  have hcounted := hw.handshake (h.report.trans hreport) sid (b.clockFor handoff sid later)
  have hmode : b.client.tpsMode = false := h.client ▸ hw.mode
  rw [h.client] at hcounted
  by_cases hstarts : b.client.Starts
  · rw [Controller.onHandshakeOk_of_starts hmode hstarts] at hhandle hcounted
    have hturn : (b.client.sessions ++ [sid]).getD 0 0 ∈ b.client.sessions ++ [sid] := by
      cases b.client.sessions with
      | nil => exact List.mem_cons_self
      | cons x xs => exact List.mem_cons_self
    exact h.sends handoff later hagreed hsid hp hflight hn hinv hreport hhandle
      (h.take_shaken handoff later hagreed hsid hp hflight rfl hreceive) hcounted hturn rfl
  · rw [Controller.onHandshakeOk_of_not_starts hmode hstarts] at hhandle hcounted
    rw [h.take_eq handoff later hsid hp hflight hreport hhandle]
    exact ⟨_, h.take_shaken handoff later hagreed hsid hp hflight rfl hreceive, hcounted⟩

/-- The controller is given a pong. -/
theorem Linked.answers {pkt : PerfPkt} (hstate : p.state = .Handshaked)
    (hreceive : (Deployment.took p).receive b.deployment.clock packet =
      Deployment.handled p pkt b.deployment.clock)
    (hhandle : handle b.client p.state sid (b.clockFor handoff sid later) packet =
      b.client.onPerfPong sid pkt.toPacket (b.clockFor handoff sid later)) :
    Measured (b.take handoff sid later) := by
  have hwreport : w.report = none := h.report.trans hreport
  have hmode : b.client.tpsMode = false := h.client ▸ hw.mode
  have hmem : sid ∈ b.client.sessions := h.client ▸ (h.follows hsid hp).shaken.mpr hstate
  -- gateway and exchange answer no ping twice, so this is the answer to the last one
  have hpeers := peers_taking handoff later hp (hagreed.opened sid p hp) hflight b.client
  rw [hreceive] at hpeers
  have hsub := (hinv.step hn (.take sid) trivial).answers_sublist
    ((congrFun hpeers sid).trans (Function.update_self ..))
  obtain ⟨hanswers, hpong⟩ := h.answers_last hw hsid hp hsub fun x q hq => hinv.answers_sublist hq
  have hcounted := hw.pong hwreport hanswers pkt.toPacket (b.clockFor handoff sid later)
  rw [World.step, if_neg (World.not_exited_iff.mpr ⟨hwreport, hanswers⟩), hpong] at hcounted
  dsimp only at hcounted
  rw [h.client] at hcounted
  by_cases hend : Loadgen.kWarmupCount + Loadgen.kMeasureCount ≤ pkt.toPacket.seq
  · rw [Controller.onPerfPong_of_last hmode hend] at hhandle hcounted
    rw [h.take_eq handoff later hsid hp hflight hreport hhandle]
    exact ⟨_, .printReport handoff (h.take_answered handoff later hagreed hsid hp hflight hstate
      (by rfl) hreceive (w.handled.length :: w.answered)) _, hcounted⟩
  · rw [Controller.onPerfPong_of_not_last hmode hend] at hhandle hcounted
    have hnext : b.client.next < b.client.sessions.length :=
      Nat.mod_lt _ (List.length_pos_of_mem hmem)
    have hturn : b.client.sessions.getD b.client.next 0 ∈ b.client.sessions := by
      rw [List.getD_eq_getElem?_getD, List.getElem?_eq_getElem hnext]
      exact List.getElem_mem hnext
    exact h.sends handoff later hagreed hsid hp hflight hn hinv hreport hhandle
      (h.take_answered handoff later hagreed hsid hp hflight hstate (by rfl) hreceive
        (w.handled.length :: w.answered)) hcounted hturn rfl

/-- The next packet of a session: nothing to the controller, the end of a handshake, or a pong. -/
theorem Linked.take : Measured (b.take handoff sid later) := by
  have hf := h.follows hsid hp
  have hquiet : handle b.client p.state sid (b.clockFor handoff sid later) packet =
      (b.client, []) → Alike p ((Deployment.took p).receive b.deployment.clock packet) →
        Measured (b.take handoff sid later) := by
    intro hhandle halike
    rw [h.take_eq handoff later hsid hp hflight hreport hhandle]
    exact ⟨w, h.take_quiet handoff later hagreed hp hflight halike, hw⟩
  cases packet with
  | perfPing pkt =>
    refine hquiet rfl ?_
    rw [Peer.receive]
    split
    · split <;> exact ⟨rfl, rfl, rfl, rfl⟩
    · exact ⟨rfl, rfl, rfl, rfl⟩
  | perfPong pkt =>
    have hnot : (Deployment.took p).role ≠ .Exchange := fun heq => by cases hf.role.symm.trans heq
    by_cases hstate : p.state = .Handshaked
    · refine h.answers handoff later hagreed hsid hp hflight hn hinv hw hreport hstate ?_
        (if_pos hstate)
      rw [Peer.receive, if_neg hnot]
      exact if_pos hstate
    · refine hquiet (if_neg hstate) ?_
      rw [Peer.receive, if_neg hnot, if_neg (show ¬ (Deployment.took p).state = _ from hstate)]
      exact ⟨rfl, rfl, rfl, rfl⟩
  | roleHelloAck result role =>
    by_cases hok : p.state = .Connected ∧ result = .Ok
    · obtain ⟨hstate, rfl⟩ := hok
      refine h.shakes handoff later hagreed hsid hp hflight hn hinv hw hreport ?_ (if_pos hstate)
      rw [Peer.receive, Peer.onRoleHelloAck]
      exact if_pos ⟨hstate, rfl⟩
    · refine hquiet ?_ ?_
      · cases result with
        | Ok => exact if_neg fun hstate => hok ⟨hstate, rfl⟩
        | Reject => rfl
      · rw [Peer.receive, Peer.onRoleHelloAck,
          if_neg (show ¬ ((Deployment.took p).state = _ ∧ _) from hok)]
        exact ⟨rfl, rfl, rfl, rfl⟩

end Take

/-! ### Any turn -/

theorem Measured.take (h : Measured b) (hn : n ≤ 2 ^ 31) (hinv : b.deployment.Inv handoff)
    (hagreed : b.deployment.Agreed) (sid : SessionId) (later : UInt64) :
    Measured (b.take handoff sid later) := by
  obtain ⟨w, hlinked, hw⟩ := h
  by_cases hstays : b.own sid = false ∨ b.report.isSome = true ∨ sid ∈ b.ended
  · rw [Bench.take, if_pos hstays]
    exact ⟨w, hlinked, hw⟩
  · obtain ⟨hsid, hreport, -⟩ := not_or.mp hstays |>.imp id not_or.mp
    rw [Bool.not_eq_false] at hsid
    rw [Option.not_isSome_iff_eq_none] at hreport
    obtain ⟨p, hp, -⟩ := hlinked.peers sid hsid
    cases hflight : b.deployment.inFlight sid with
    | nil =>
      rw [Bench.take, if_neg hstays, hp, hflight]
      exact ⟨w, hlinked, hw⟩
    | cons packet rest =>
      exact hlinked.take handoff later hagreed hsid hp hflight hn hinv hw hreport

theorem Measured.connect (h : Measured b) (hn : n ≤ 2 ^ 31) (hinv : b.deployment.Inv handoff)
    (v : Fin n) (created : Bool) (hv : b.deployment.InBounds (.connect v created)) :
    Measured (b.step handoff (.connect v created)) := by
  obtain ⟨w, h, hw⟩ := h
  have hnone := hinv.wired.peers_newId hn hv created
  rw [← Deployment.onAccepted_id b.deployment v false created] at hnone
  rw [Bench.step]
  generalize hid : ((b.deployment.gateway v).onAccepted v false created).2 = id at hnone ⊢
  have hpeers : (b.deployment.step handoff (.connect v created)).peers =
      b.deployment.join id (.start v .Client) := by rw [← hid]; rfl
  have hold : ∀ {x p}, b.deployment.peers x = some p →
      (b.deployment.step handoff (.connect v created)).peers x = some p := fun hp => by
    rw [hpeers, Deployment.join_of_some _ hnone hp]
  have hkept : ∀ x, b.own x = true →
      (if id = 0 then b.own else Function.update b.own id true) x = true := by
    intro x hx
    split
    · exact hx
    · by_cases heq : x = id
      · rw [heq, Function.update_self]
      · rwa [Function.update_of_ne heq]
  refine ⟨w, ⟨h.client, h.report, h.ended, fun x hx => ?_, fun x hx => hkept x (h.sessions x hx),
    h.sent, fun x hx => ?_⟩, hw⟩
  · by_cases hmine : b.own x = true
    · obtain ⟨p, hp, hf⟩ := h.peers x hmine
      exact ⟨p, hold hp, hf⟩
    · -- nothing has happened on the new session
      have hx' : id ≠ 0 ∧ x = id := by
        by_contra hc
        dsimp only at hx
        split at hx
        · exact hmine hx
        next hid =>
          rw [Function.update_of_ne fun heq => hc ⟨hid, heq⟩] at hx
          exact hmine hx
      obtain ⟨hzero, rfl⟩ := hx'
      have hsent : w.sent.filter (·.sid = x) = [] := by
        refine List.filter_eq_nil_iff.mpr fun ping hping heq => hmine ?_
        rw [← of_decide_eq_true heq]
        exact h.sessions _ (h.sent ping hping)
      refine ⟨.start v .Client, ?_, rfl, ?_, ?_⟩
      · exact hpeers ▸ by rw [Deployment.join, if_neg hzero, Function.update_self]
      · exact iff_of_false (fun hmem => hmine (h.sessions x hmem)) ConnState.noConfusion
      · rw [hsent]
        rfl
  · obtain ⟨y, p, hy, hp, a, ha, heq⟩ := h.handled x hx
    exact ⟨y, p, hkept y hy, hold hp, a, ha, heq⟩

/-- What the others do, the load generator does not see. -/
theorem alike_other (hn : n ≤ 2 ^ 31) (hinv : b.deployment.Inv handoff) {move : Move n}
    (hother : b.isOther move = true) (hm : b.deployment.InBounds move) (hsid : b.own sid = true)
    (hp : b.deployment.peers sid = some p) :
    ∃ p', (b.deployment.step handoff move).peers sid = some p' ∧ Alike p p' := by
  have hne : ∀ {x : SessionId}, (!b.own x) = true → sid ≠ x := by
    rintro x hx rfl
    rw [hsid] at hx
    cases hx
  have hjoin : ∀ {s' : Deployment n} {v : Fin n} {created : Bool} {role : PeerRole},
      b.deployment.Joins s' v (b.deployment.newId v created) role →
        (b.deployment.gateway v).InBounds v → ∃ p', s'.peers sid = some p' ∧ Alike p p' := by
    intro s' v created role hjoins hv
    refine ⟨p, ?_, .refl p⟩
    rw [hjoins.peers, Deployment.join_of_some _ (hinv.wired.peers_newId hn hv created) hp]
  cases move with
  | tick now | task w fails | sessionEnd w x => exact ⟨p, hp, .refl p⟩
  | connect v created => exact hjoin (Deployment.joins_connect hinv.wired v created) hm
  | dialOk v created =>
    cases hv : b.deployment.dials v with
    | some x => exact ⟨p, by rw [Deployment.step, hv]; exact hp, .refl p⟩
    | none => exact hjoin (Deployment.joins_dialOk hinv.wired hv created) hm
  | deliver x stale fails =>
    rw [Deployment.step]
    split
    · exact ⟨p, hp, .refl p⟩
    case h_2 q hq =>
      split
      · exact ⟨p, hp, .refl p⟩
      · by_cases hx : sid = x
        · subst hx
          cases hp.symm.trans hq
          exact ⟨_, Function.update_self .., rfl, rfl, rfl, rfl⟩
        · exact ⟨p, (Function.update_of_ne hx ..).trans hp, .refl p⟩
  | take x =>
    refine ⟨p, ?_, .refl p⟩
    rw [Deployment.step]
    split
    · exact hp
    · split
      · exact hp
      · split
        · exact hp
        · exact (Function.update_of_ne (hne hother) ..).trans hp
  | ping x seq timed =>
    refine ⟨p, ?_, .refl p⟩
    rw [Deployment.step]
    split
    · exact hp
    · exact (Function.update_of_ne (hne hother) ..).trans hp

theorem Measured.other (h : Measured b) (hn : n ≤ 2 ^ 31) (hinv : b.deployment.Inv handoff)
    (move : Move n) (hm : b.deployment.InBounds move) :
    Measured (b.step handoff (.other move)) := by
  rw [Bench.step]
  split
  case isFalse => exact h
  case isTrue hother =>
    obtain ⟨w, hlinked, hw⟩ := h
    exact ⟨w, hlinked.frame rfl rfl rfl rfl fun _ _ => alike_other hn hinv hother hm, hw⟩

/-! ### Whole runs -/

/-- The bound on ids for the move that a turn makes. -/
def InBounds (b : Bench n) : Turn n → Prop
  | .connect v created => b.deployment.InBounds (.connect v created)
  | .take .. => True
  | .other move => b.deployment.InBounds move

theorem inBounds_run (handoff : Bool) (target : Int32) (tpsMode : Bool)
    {turns : List (Turn n)} {turn : Turn n}
    (hopened : ∀ v, (turns ++ [turn]).countP (·.opens v) < 2 ^ 32) :
    (run handoff target tpsMode turns).InBounds turn := by
  obtain ⟨moves, heq, hmoves⟩ := comes_run handoff target tpsMode turns
  have hbound : ∀ m : Move n, (∀ v, m.opens v = turn.opens v) →
      (run handoff target tpsMode turns).deployment.InBounds m := by
    intro m hm
    rw [heq]
    refine Deployment.inBounds_run handoff fun v => Nat.lt_of_le_of_lt ?_ (hopened v)
    rw [Deployment.opened_append, List.countP_append, List.countP_singleton, hm v]
    exact Nat.add_le_add_right (hmoves v) _
  cases turn with
  | connect v created => exact hbound (.connect v created) fun _ => rfl
  | take sid later => trivial
  | other move => exact hbound move fun _ => rfl

theorem measured_start (target : Int32) : Measured (start (n := n) target false) := by
  refine ⟨.start target false, ?_, .start target⟩
  exact ⟨rfl, rfl, ⟨rfl, rfl⟩, fun _ hsid => (by cases hsid), fun _ hsid => (by cases hsid),
    fun _ hping => (by cases hping), fun _ hx => (by cases hx)⟩

theorem Measured.step (h : Measured b) (hn : n ≤ 2 ^ 31) (hinv : b.deployment.Inv handoff)
    (hagreed : b.deployment.Agreed) (turn : Turn n) (hturn : b.InBounds turn) :
    Measured (b.step handoff turn) := by
  cases turn with
  | connect v created => exact h.connect hn hinv v created hturn
  | take sid later => exact h.take hn hinv hagreed sid later
  | other move => exact h.other hn hinv move hturn

/-- What holds at first and is kept by every turn of a sound deployment holds after a run. -/
theorem run_rule {I : Bench n → Prop} (hn : n ≤ 2 ^ 31) (handoff : Bool)
    {target : Int32} {tpsMode : Bool} (hstart : I (start target tpsMode))
    (hstep : ∀ b turn, I b → b.deployment.Inv handoff → b.deployment.Agreed → b.InBounds turn →
      I (b.step handoff turn)) (turns : List (Turn n))
    (hopened : ∀ v, turns.countP (·.opens v) < 2 ^ 32) :
    I (run handoff target tpsMode turns) ∧
      (run handoff target tpsMode turns).deployment.Inv handoff := by
  have hsound : ∀ turns : List (Turn n), (∀ v, turns.countP (·.opens v) < 2 ^ 32) →
      (run handoff target tpsMode turns).deployment.Inv handoff ∧
        (run handoff target tpsMode turns).deployment.Agreed := by
    intro turns hopened
    obtain ⟨moves, heq, hmoves⟩ := comes_run handoff target tpsMode turns
    rw [heq]
    exact Deployment.agreed_run hn handoff moves fun v => Nat.lt_of_le_of_lt (hmoves v) (hopened v)
  refine ⟨?_, (hsound turns hopened).1⟩
  induction turns using List.reverseRecOn with
  | nil => exact hstart
  | append_singleton turns turn ih =>
    have hbefore : ∀ v, turns.countP (·.opens v) < 2 ^ 32 := by
      intro v
      have hlt := hopened v
      rw [List.countP_append] at hlt
      omega
    obtain ⟨hinv, hagreed⟩ := hsound turns hbefore
    have hrun : run handoff target tpsMode (turns ++ [turn]) =
        (run handoff target tpsMode turns).step handoff turn := by
      rw [run, List.foldl_append]
      rfl
    rw [hrun]
    exact hstep _ turn (ih hbefore) hinv hagreed (inBounds_run handoff target tpsMode hopened)

end Bench

/-! ## The result -/

/-- Of the numbers from 1 on, those behind the warm-up are measured. -/
theorem filter_range' (W N : Nat) :
    (List.range' 1 N).filter (W < ·) = List.range' (W + 1) (N - W) := by
  induction N with
  | zero => rw [Nat.zero_sub]; rfl
  | succ N ih =>
    rw [List.range'_1_concat, List.filter_append, ih, List.filter_singleton]
    by_cases hle : W ≤ N
    · have hlast : W + 1 + (N - W) = 1 + N := by omega
      rw [decide_eq_true (by omega : W < 1 + N), Nat.succ_sub hle, List.range'_1_concat, hlast]
      rfl
    · rw [decide_eq_false (by omega : ¬ W < 1 + N), Nat.sub_eq_zero_of_le (by omega),
        Nat.sub_eq_zero_of_le (by omega)]
      rfl

theorem seqs_behind {pongs : List (Protocol.PerfPongPkt × UInt64)}
    (h : pongs.map (fun p => p.1.seq.toNat) = List.range' 1 pongs.length) :
    (Loadgen.measured pongs).map (fun p => p.1.seq.toNat) =
      List.range' (Loadgen.kWarmupCount.toNat + 1)
        (pongs.length - Loadgen.kWarmupCount.toNat) := by
  rw [← filter_range', ← h, List.filter_map, Loadgen.measured]
  refine congrArg (List.map _) (List.filter_congr fun p _ => ?_)
  exact decide_eq_decide.mpr UInt64.lt_iff_toNat_lt

/-- Whatever the gateway, the exchange and the other load generators do in between, the samples of a
load generator are those of pongs on its own sessions to its own pings, one for each number
behind the warm-up, and the hops of each sample add up to its round trip.  It prints its report when
all numbers have their sample. -/
theorem benchmark_measures {n : Nat} (hn : n ≤ 2 ^ 31) (handoff : Bool) (target : Int32)
    (turns : List (Turn n)) (hopened : ∀ v, turns.countP (·.opens v) < 2 ^ 32) :
    let b := Bench.run handoff target false turns
    ∃ samples : List (Protocol.PerfPongPkt × UInt64),
      b.client.recorder = .of samples ∧
        samples.map (fun x => x.1.seq.toNat) =
          List.range' (Loadgen.kWarmupCount.toNat + 1) samples.length ∧
        (∀ x ∈ samples, ∃ sid, b.own sid = true ∧
          (∃ a ∈ b.deployment.answers sid, x = (a.1.toPacket, a.2)) ∧
          (x.1.seq, x.1.t1) ∈ (b.deployment.pings sid).map PerfPkt.key ∧
          Loadgen.elapsed x.1.t1 x.1.t2 + Loadgen.elapsed x.1.t2 x.1.t3 +
              Loadgen.elapsed x.1.t3 x.1.t4 + Loadgen.elapsed x.1.t4 x.2 =
            Loadgen.elapsed x.1.t1 x.2) ∧
        ∀ r, b.report = some r →
          r = b.client.recorder ∧ samples.length = Loadgen.kMeasureCount.toNat := by
  obtain ⟨hmeasured, hinv⟩ := Bench.run_rule (I := Bench.Measured) hn handoff
    (Bench.measured_start target) (fun b turn h hinv hagreed hturn =>
      h.step hn hinv hagreed turn hturn) turns hopened
  intro b
  obtain ⟨w, hlinked, hw⟩ := hmeasured
  have hseqs := seqs_behind hw.handled
  have hlen := congrArg List.length hseqs
  rw [List.length_map, List.length_range'] at hlen
  refine ⟨Loadgen.measured w.handled, hlinked.client ▸ hw.recorder, by rw [hseqs, hlen], ?_, ?_⟩
  · intro x hx
    obtain ⟨sid, p, hsid, hp, a, ha, rfl⟩ := hlinked.handled x (List.mem_of_mem_filter hx)
    have hok := hinv.sound.answers sid p hp a ha
    refine ⟨sid, hsid, ⟨a, ?_, rfl⟩, ?_, hok.hops⟩
    · rw [Deployment.answers, hp]
      exact ha
    · rw [Deployment.pings, hp]
      exact (hinv.answers_sublist hp).subset (List.mem_map.mpr ⟨a, ha, rfl⟩)
  · intro r hr
    obtain ⟨heq, htotal, -⟩ := hw.reported r (hlinked.report.trans hr)
    refine ⟨heq.trans (congrArg _ hlinked.client), ?_⟩
    rw [hlen, htotal]
    rfl

/-- A load generator of one session shakes hands and has its first ping answered. -/
def firstRound : List (Turn 1) :=
  [.connect ⟨0, Nat.one_pos⟩ true, .other (.dialOk ⟨0, Nat.one_pos⟩ true),
    .other (.deliver 1 0 false), .other (.deliver 2 0 false), .other (.take 2), .take 1 5,
    .other (.tick 8), .other (.deliver 1 0 false), .other (.tick 9), .other (.take 2),
    .other (.tick 12), .other (.deliver 2 0 false), .other (.tick 13), .take 1 14]

theorem benchmark_measures_firstRound :
    let b := Bench.run false 1 false firstRound
    b.deployment.answers 1 = [(⟨1, 1, 5, 8, 9, 12⟩, 13)] ∧
      (b.deployment.pings 1).map PerfPkt.key = [(1, 5), (2, 14)] ∧
      ∃ samples, b.client.recorder = .of samples ∧
        samples.map (fun x => x.1.seq.toNat) = List.range' 10001 samples.length := by
  refine ⟨rfl, rfl, ?_⟩
  obtain ⟨samples, hrecorder, hseqs, -⟩ := benchmark_measures (by decide) false 1
    firstRound (by decide)
  exact ⟨samples, hrecorder, hseqs⟩

end HyperNet.Fep
