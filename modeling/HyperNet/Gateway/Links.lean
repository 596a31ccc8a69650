import HyperNet.Gateway.Peers
import HyperNet.Lib.Pipes

/-!
# The way of a ping

The queues a ping passes on its way from a load generator to the exchange, and its pong on the way
back: those of the connections in either direction and, if the upstream session is another
worker's, those of the posted tasks.  The way is the same for all pings of a session.

`Links` has the queues of a deployment as they are, with all that is in them; `Links.net` is the
abstract net of the pings and pongs alone, one flow for each load generator's session.  What is put
into or taken from a queue does the same to one place of the net, or nothing.
-/

namespace HyperNet.Fep

open App (SessionId ownerOf)

/-- What a pong has from its ping: the number and the time of sending. -/
abbrev Key := UInt64 × UInt64

def PerfPkt.key (pkt : PerfPkt) : Key := (pkt.seq, pkt.t1)

/-- The session of the load generator and the key. -/
abbrev Item := SessionId × Key

def PerfPkt.item (pkt : PerfPkt) : SessionId × Key := (pkt.clientSid, pkt.key)

namespace Packet

def ping : Packet → Option (SessionId × Key)
  | .perfPing pkt => some pkt.item
  | _ => none

def pong : Packet → Option (SessionId × Key)
  | .perfPong pkt => some pkt.item
  | _ => none

end Packet

namespace Task

def ping : Task → Option (SessionId × Key)
  | .sendTo _ packet => packet.ping
  | .close _ => none

def pong : Task → Option (SessionId × Key)
  | .sendTo _ packet => packet.pong
  | .close _ => none

end Task

namespace Request

/-- A ping of a load generator does not say yet whose it is. -/
def ping (sid : SessionId) : Request → Option (SessionId × Key)
  | .perfPing pkt => some (sid, pkt.key)
  | _ => none

def pong : Request → Option (SessionId × Key)
  | .perfPong pkt => some pkt.item
  | _ => none

end Request

/-- The places on the way, with the load generator's session or a worker of the gateway. -/
inductive Place (n : Nat) where
  | requests (sid : SessionId)
  | pingTasks (w : Fin n)
  | toUpstream (w : Fin n)
  | fromUpstream (w : Fin n)
  | pongTasks (w : Fin n)
  | toClient (sid : SessionId)
  | answers (sid : SessionId)
deriving DecidableEq

/-- The way of the pings of a session and of their pongs. -/
def route {n : Nat} (handoff : Bool) (sid : SessionId) : List (Place n) :=
  match ownerOf n sid with
  | none => []
  | some w =>
    let v := State.route handoff w sid
    if v = w then [.requests sid, .toUpstream w, .fromUpstream w, .toClient sid, .answers sid]
    else
      [.requests sid, .pingTasks v, .toUpstream v, .fromUpstream v, .pongTasks w, .toClient sid,
        .answers sid]

section Route

open Pipes (nextOn)

variable {n : Nat} {handoff : Bool} {sid : SessionId} {v w : Fin n}

theorem route_nodup (handoff : Bool) (sid : SessionId) :
    (route handoff sid : List (Place n)).Nodup := by
  rw [route]
  split
  · exact List.nodup_nil
  · dsimp only
    split <;> simp

variable (hw : ownerOf n sid = some w)
include hw

theorem route_local (hv : State.route handoff w sid = w) : route handoff sid =
    [.requests sid, .toUpstream w, .fromUpstream w, .toClient sid, .answers sid] := by
  simp only [route, hw, hv, if_true]

theorem route_remote (hv : State.route handoff w sid ≠ w) : route handoff sid =
    [.requests sid, .pingTasks (State.route handoff w sid),
      .toUpstream (State.route handoff w sid), .fromUpstream (State.route handoff w sid),
      .pongTasks w, .toClient sid, .answers sid] := by
  simp only [route, hw, if_neg hv]

theorem head_route (handoff : Bool) :
    (route handoff sid : List (Place n)).head? = some (.requests sid) := by
  by_cases hv : State.route handoff w sid = w
  · rw [route_local hw hv]
    rfl
  · rw [route_remote hw hv]
    rfl

/-- The ping goes to the worker that has the upstream session, or is posted to it. -/
theorem nextOn_requests (handoff : Bool) :
    nextOn (.requests sid) (route handoff sid : List (Place n)) =
      some (if State.route handoff w sid = w then .toUpstream w
        else .pingTasks (State.route handoff w sid)) := by
  by_cases hv : State.route handoff w sid = w
  · rw [route_local hw hv, if_pos hv]
    simp [nextOn]
  · rw [route_remote hw hv, if_neg hv]
    simp [nextOn]

theorem nextOn_pingTasks (h : .pingTasks v ∈ (route handoff sid : List (Place n))) :
    nextOn (.pingTasks v) (route handoff sid) = some (.toUpstream v) := by
  by_cases hv : State.route handoff w sid = w
  · rw [route_local hw hv] at h
    simp at h
  · rw [route_remote hw hv] at h ⊢
    obtain rfl : v = _ := by simpa using h
    simp [nextOn]

theorem nextOn_toUpstream (h : .toUpstream v ∈ (route handoff sid : List (Place n))) :
    nextOn (.toUpstream v) (route handoff sid) = some (.fromUpstream v) := by
  by_cases hv : State.route handoff w sid = w
  · rw [route_local hw hv] at h ⊢
    obtain rfl : v = _ := by simpa using h
    simp [nextOn]
  · rw [route_remote hw hv] at h ⊢
    obtain rfl : v = _ := by simpa using h
    simp [nextOn]

/-- The pong goes to the session at once or is posted to the worker that has it. -/
theorem nextOn_fromUpstream (h : .fromUpstream v ∈ (route handoff sid : List (Place n))) :
    nextOn (.fromUpstream v) (route handoff sid) =
      some (if v = w then .toClient sid else .pongTasks w) := by
  by_cases hv : State.route handoff w sid = w
  · rw [route_local hw hv] at h ⊢
    obtain rfl : v = _ := by simpa using h
    simp [nextOn]
  · rw [route_remote hw hv] at h ⊢
    obtain rfl : v = _ := by simpa using h
    simp [nextOn, hv]

theorem nextOn_pongTasks (h : .pongTasks v ∈ (route handoff sid : List (Place n))) :
    nextOn (.pongTasks v) (route handoff sid) = some (.toClient sid) := by
  by_cases hv : State.route handoff w sid = w
  · rw [route_local hw hv] at h
    simp at h
  · rw [route_remote hw hv] at h ⊢
    obtain rfl : v = _ := by simpa using h
    simp [nextOn]

theorem nextOn_toClient (handoff : Bool) :
    nextOn (.toClient sid) (route handoff sid : List (Place n)) = some (.answers sid) := by
  by_cases hv : State.route handoff w sid = w
  · rw [route_local hw hv]
    simp [nextOn]
  · rw [route_remote hw hv]
    simp [nextOn]

theorem answers_mem_route (handoff : Bool) :
    .answers sid ∈ (route handoff sid : List (Place n)) := by
  by_cases hv : State.route handoff w sid = w
  · rw [route_local hw hv]
    simp
  · rw [route_remote hw hv]
    simp

end Route

/-- What is only on the route of a session that has a worker. -/
theorem ownerOf_of_mem_route {n : Nat} {handoff : Bool} {sid : SessionId} {p : Place n}
    (h : p ∈ route handoff sid) : ∃ w, ownerOf n sid = some w := by
  cases howner : ownerOf n sid with
  | none =>
    rw [route, howner] at h
    cases h
  | some w => exact ⟨w, rfl⟩

/-! ## The queues -/

/-- The queues of a deployment, the sessions that were dialed, and the pings of each session. -/
@[ext] structure Links (n : Nat) where
  requests : SessionId → List Request
  tasks : Fin n → List Task
  inFlight : SessionId → List Packet
  answers : SessionId → List (PerfPkt × UInt64)
  dials : Fin n → Option SessionId
  pings : SessionId → List PerfPkt

namespace Links

variable {n : Nat} (L : Links n) (sid : SessionId) (w : Fin n)

def popRequest : Links n :=
  { L with requests := Function.update L.requests sid (L.requests sid).tail }

def pushRequest (request : Request) : Links n :=
  { L with requests := Function.update L.requests sid (L.requests sid ++ [request]) }

def popTask : Links n := { L with tasks := Function.update L.tasks w (L.tasks w).tail }

def pushTask (task : Task) : Links n :=
  { L with tasks := Function.update L.tasks w (L.tasks w ++ [task]) }

def popPacket : Links n :=
  { L with inFlight := Function.update L.inFlight sid (L.inFlight sid).tail }

def pushPacket (packet : Packet) : Links n :=
  { L with inFlight := Function.update L.inFlight sid (L.inFlight sid ++ [packet]) }

def pushAnswer (answer : PerfPkt × UInt64) : Links n :=
  { L with answers := Function.update L.answers sid (L.answers sid ++ [answer]) }

def pushPing (pkt : PerfPkt) : Links n :=
  { L with pings := Function.update L.pings sid (L.pings sid ++ [pkt]) }

def dial : Links n := { L with dials := Function.update L.dials w (some sid) }

/-- What is in a queue that belongs to the upstream session of a worker. -/
def upstream {α : Type} (queue : SessionId → List α) : List α :=
  match L.dials w with
  | none => []
  | some x => queue x

def queue : Place n → List (SessionId × Key)
  | .requests sid => (L.requests sid).filterMap (Request.ping sid)
  | .pingTasks w => (L.tasks w).filterMap Task.ping
  | .toUpstream w => (L.upstream w L.inFlight).filterMap Packet.ping
  | .fromUpstream w => (L.upstream w L.requests).filterMap Request.pong
  | .pongTasks w => (L.tasks w).filterMap Task.pong
  | .toClient sid => (L.inFlight sid).filterMap Packet.pong
  | .answers sid => (L.answers sid).map fun a => a.1.item

def net : Pipes.Net (Place n) SessionId Key where
  queue := L.queue
  entered sid := (L.pings sid).map PerfPkt.key

/-! ## One queue changes -/

section Changes

variable {L} {L' : Links n} {sid : SessionId} {w v : Fin n}

theorem upstream_of_dials {α : Type} (h : L.dials w = some sid) (queue : SessionId → List α) :
    L.upstream w queue = queue sid := by
  rw [upstream, h]

theorem upstream_update {α : Type} (queue : SessionId → List α) (sid : SessionId) (xs : List α) :
    L.upstream w (Function.update queue sid xs) =
      if L.dials w = some sid then xs else L.upstream w queue := by
  cases h : L.dials w with
  | none => simp [upstream, h]
  | some x =>
    by_cases hx : x = sid
    · subst hx
      simp [upstream, h]
    · simp [upstream, h, hx]

/-- The upstream session of one worker only. -/
def DialedBy (L : Links n) (sid : SessionId) (w : Fin n) : Prop :=
  ∀ v, L.dials v = some sid ↔ v = w

/-- `xs` is a queue with an item in front less, or with one behind more: `edit` says what becomes of
what a place sees of it, if it sees the item. -/
structure Edits {α : Type} (edit : Item → List Item → List Item) (item : α) (queue xs : List α) :
    Prop where
  unseen : ∀ {f : α → Option Item}, f item = none → xs.filterMap f = queue.filterMap f
  seen : ∀ {f : α → Option Item} {x}, f item = some x → xs.filterMap f = edit x (queue.filterMap f)

theorem Edits.pop {α : Type} {item : α} {queue rest : List α} (h : queue = item :: rest) :
    Edits (fun _ => List.tail) item queue queue.tail where
  unseen hf := by simp [h, hf]
  seen hf := by simp [h, hf]

theorem Edits.push {α : Type} (item : α) (queue : List α) :
    Edits (fun x seen => seen ++ [x]) item queue (queue ++ [item]) where
  unseen hf := by simp [hf]
  seen hf := by simp [hf]

/-- Who sees the requests of a session. -/
theorem queue_requests {xs : List Request} {q : Place n}
    (hping : q = .requests sid →
      xs.filterMap (Request.ping sid) = (L.requests sid).filterMap (Request.ping sid))
    (hpong : ∀ v, q = .fromUpstream v → L.dials v = some sid →
      xs.filterMap Request.pong = (L.requests sid).filterMap Request.pong) :
    queue { L with requests := Function.update L.requests sid xs } q = L.queue q := by
  cases q with
  | requests x =>
    by_cases hx : x = sid
    · subst hx
      simpa [queue] using hping rfl
    · simp [queue, hx]
  | fromUpstream v =>
    change (L.upstream v (Function.update L.requests sid xs)).filterMap _ = _
    rw [upstream_update]
    split
    case isTrue hv => rw [hpong v rfl hv, queue, upstream_of_dials hv]
    case isFalse => rfl
  | _ => rfl

theorem queue_tasks {xs : List Task} {q : Place n}
    (hping : q = .pingTasks w → xs.filterMap Task.ping = (L.tasks w).filterMap Task.ping)
    (hpong : q = .pongTasks w → xs.filterMap Task.pong = (L.tasks w).filterMap Task.pong) :
    queue { L with tasks := Function.update L.tasks w xs } q = L.queue q := by
  cases q with
  | pingTasks v =>
    by_cases hv : v = w
    · subst hv
      simpa [queue] using hping rfl
    · simp [queue, hv]
  | pongTasks v =>
    by_cases hv : v = w
    · subst hv
      simpa [queue] using hpong rfl
    · simp [queue, hv]
  | _ => rfl

theorem queue_inFlight {xs : List Packet} {q : Place n}
    (hping : ∀ v, q = .toUpstream v → L.dials v = some sid →
      xs.filterMap Packet.ping = (L.inFlight sid).filterMap Packet.ping)
    (hpong : q = .toClient sid →
      xs.filterMap Packet.pong = (L.inFlight sid).filterMap Packet.pong) :
    queue { L with inFlight := Function.update L.inFlight sid xs } q = L.queue q := by
  cases q with
  | toClient x =>
    by_cases hx : x = sid
    · subst hx
      simpa [queue] using hpong rfl
    · simp [queue, hx]
  | toUpstream v =>
    change (L.upstream v (Function.update L.inFlight sid xs)).filterMap _ = _
    rw [upstream_update]
    split
    case isTrue hv => rw [hping v rfl hv, queue, upstream_of_dials hv]
    case isFalse => rfl
  | _ => rfl

end Changes

/-! ## What the net sees -/

end Links

/-- The place of an item, and the item; what is neither a ping nor a pong has none. -/
abbrev Located (n : Nat) := Option (Place n × SessionId × Key)

def Request.located {n : Nat} (sid : SessionId) (w : Fin n) : Request → Located n
  | .roleHelloReq _ => none
  | .perfPing pkt => some (.requests sid, sid, pkt.key)
  | .perfPong pkt => some (.fromUpstream w, pkt.item)

def Packet.located {n : Nat} (sid : SessionId) (w : Fin n) : Packet → Located n
  | .roleHelloAck .. => none
  | .perfPing pkt => some (.toUpstream w, pkt.item)
  | .perfPong pkt => some (.toClient sid, pkt.item)

def Task.located {n : Nat} (w : Fin n) : Task → Located n
  | .close _ => none
  | .sendTo _ (.roleHelloAck ..) => none
  | .sendTo _ (.perfPing pkt) => some (.pingTasks w, pkt.item)
  | .sendTo _ (.perfPong pkt) => some (.pongTasks w, pkt.item)

/-- The item leaves its place. -/
def Located.pop {n : Nat} (net : Pipes.Net (Place n) SessionId Key) :
    Located n → Pipes.Net (Place n) SessionId Key
  | none => net
  | some (p, _) => net.pop p

/-- The item comes to its place. -/
def Located.push {n : Nat} (net : Pipes.Net (Place n) SessionId Key) :
    Located n → Pipes.Net (Place n) SessionId Key
  | none => net
  | some (p, x) => net.push p x

namespace Links

variable {n : Nat} {L L' : Links n} {sid : SessionId} {w : Fin n}

/-- The place of the item has it no more, or now has it; the others are as they were. -/
structure Follows (edit : Item → List Item → List Item) (item : Located n) (L L' : Links n) :
    Prop where
  pings : L'.pings = L.pings
  place : ∀ p x, item = some (p, x) → L'.queue p = edit x (L.queue p)
  other : ∀ q, (∀ x, item ≠ some (q, x)) → L'.queue q = L.queue q

namespace Follows

variable {edit : Item → List Item → List Item} {item : Located n}

theorem net_eq (h : Follows edit item L L') : L'.net =
    match item with
    | none => L.net
    | some (p, x) => { L.net with queue := Function.update L.queue p (edit x (L.queue p)) } := by
  have hentered : L'.net.entered = L.net.entered := by
    rw [net, h.pings]
    rfl
  cases item with
  | none => exact Pipes.Net.ext (funext fun q => h.other q nofun) hentered
  | some item =>
    refine Pipes.Net.ext (Function.eq_update_iff.mpr ⟨h.place _ _ rfl, fun q hq => ?_⟩) hentered
    exact h.other q fun x heq => hq (congrArg Prod.fst (Option.some.inj heq)).symm

theorem net_pop (h : Follows (fun _ => List.tail) item L L') : L'.net = item.pop L.net := by
  cases item <;> exact h.net_eq

theorem net_push (h : Follows (fun x seen => seen ++ [x]) item L L') :
    L'.net = item.push L.net := by
  cases item <;> exact h.net_eq

theorem requests {request : Request} {xs : List Request}
    (h : Edits edit request (L.requests sid) xs)
    (hw : ∀ pkt, request = .perfPong pkt → L.DialedBy sid w) :
    Follows edit (request.located sid w) L
      { L with requests := Function.update L.requests sid xs } := by
  cases request with
  | roleHelloReq role =>
    exact ⟨rfl, nofun, fun q _ =>
      queue_requests (fun _ => h.unseen rfl) fun _ _ _ => h.unseen rfl⟩
  | perfPing pkt =>
    refine ⟨rfl, fun p x heq => ?_, fun q hq => ?_⟩
    · cases heq
      simpa [queue] using h.seen rfl
    · exact queue_requests (fun heq => absurd (by rw [heq]; rfl) (hq _)) fun _ _ _ => h.unseen rfl
  | perfPong pkt =>
    have hdial := hw pkt rfl
    refine ⟨rfl, fun p x heq => ?_, fun q hq => ?_⟩
    · cases heq
      simpa [queue, upstream, (hdial w).mpr rfl] using h.seen rfl
    · refine queue_requests (fun _ => h.unseen rfl) fun v heq hv => ?_
      exact absurd (by rw [heq, (hdial v).mp hv]; rfl) (hq _)

theorem tasks {task : Task} {xs : List Task} (h : Edits edit task (L.tasks w) xs) :
    Follows edit (task.located w) L { L with tasks := Function.update L.tasks w xs } := by
  match task with
  | .close _ | .sendTo _ (.roleHelloAck ..) =>
    exact ⟨rfl, nofun, fun q _ => queue_tasks (fun _ => h.unseen rfl) fun _ => h.unseen rfl⟩
  | .sendTo _ (.perfPing pkt) =>
    refine ⟨rfl, fun p x heq => ?_, fun q hq => ?_⟩
    · cases heq
      simpa [queue] using h.seen rfl
    · exact queue_tasks (fun heq => absurd (by rw [heq]; rfl) (hq _)) fun _ => h.unseen rfl
  | .sendTo _ (.perfPong pkt) =>
    refine ⟨rfl, fun p x heq => ?_, fun q hq => ?_⟩
    · cases heq
      simpa [queue] using h.seen rfl
    · exact queue_tasks (fun _ => h.unseen rfl) fun heq => absurd (by rw [heq]; rfl) (hq _)

theorem inFlight {packet : Packet} {xs : List Packet}
    (h : Edits edit packet (L.inFlight sid) xs)
    (hw : ∀ pkt, packet = .perfPing pkt → L.DialedBy sid w) :
    Follows edit (packet.located sid w) L
      { L with inFlight := Function.update L.inFlight sid xs } := by
  cases packet with
  | roleHelloAck result role =>
    exact ⟨rfl, nofun, fun q _ =>
      queue_inFlight (fun _ _ _ => h.unseen rfl) fun _ => h.unseen rfl⟩
  | perfPing pkt =>
    have hdial := hw pkt rfl
    refine ⟨rfl, fun p x heq => ?_, fun q hq => ?_⟩
    · cases heq
      simpa [queue, upstream, (hdial w).mpr rfl] using h.seen rfl
    · refine queue_inFlight (fun v heq hv => ?_) fun _ => h.unseen rfl
      exact absurd (by rw [heq, (hdial v).mp hv]; rfl) (hq _)
  | perfPong pkt =>
    refine ⟨rfl, fun p x heq => ?_, fun q hq => ?_⟩
    · cases heq
      simpa [queue] using h.seen rfl
    · exact queue_inFlight (fun _ _ _ => h.unseen rfl) fun heq => absurd (by rw [heq]; rfl) (hq _)

end Follows

theorem net_popRequest {request : Request} {rest : List Request}
    (h : L.requests sid = request :: rest)
    (hw : ∀ pkt, request = .perfPong pkt → L.DialedBy sid w) :
    (L.popRequest sid).net = (request.located sid w).pop L.net :=
  (Follows.requests (.pop h) hw).net_pop

theorem net_pushRequest {request : Request}
    (hw : ∀ pkt, request = .perfPong pkt → L.DialedBy sid w) :
    (L.pushRequest sid request).net = (request.located sid w).push L.net :=
  (Follows.requests (.push request _) hw).net_push

theorem net_popTask {task : Task} {rest : List Task} (h : L.tasks w = task :: rest) :
    (L.popTask w).net = (task.located w).pop L.net :=
  (Follows.tasks (.pop h)).net_pop

theorem net_pushTask (L : Links n) (w : Fin n) (task : Task) :
    (L.pushTask w task).net = (task.located w).push L.net :=
  (Follows.tasks (.push task _)).net_push

theorem net_popPacket {packet : Packet} {rest : List Packet} (h : L.inFlight sid = packet :: rest)
    (hw : ∀ pkt, packet = .perfPing pkt → L.DialedBy sid w) :
    (L.popPacket sid).net = (packet.located sid w).pop L.net :=
  (Follows.inFlight (.pop h) hw).net_pop

theorem net_pushPacket {packet : Packet} (hw : ∀ pkt, packet = .perfPing pkt → L.DialedBy sid w) :
    (L.pushPacket sid packet).net = (packet.located sid w).push L.net :=
  (Follows.inFlight (.push packet _) hw).net_push

theorem net_pushAnswer (L : Links n) (sid : SessionId) (answer : PerfPkt × UInt64) :
    (L.pushAnswer sid answer).net = L.net.push (.answers sid) answer.1.item := by
  refine Pipes.Net.ext (Function.eq_update_iff.mpr ⟨?_, fun q hq => ?_⟩) rfl
  · simp [net, queue, pushAnswer]
  · cases q with
    | answers x =>
      have hx : x ≠ sid := fun heq => hq (by rw [heq])
      simp [net, queue, pushAnswer, hx]
    | _ => rfl

/-- A ping is sent: it enters its flow. -/
theorem net_ping (L : Links n) (sid : SessionId) (pkt : PerfPkt) :
    ((L.pushRequest sid (.perfPing pkt)).pushPing sid pkt).net =
      (L.net.push (.requests sid) (sid, pkt.key)).record sid pkt.key := by
  refine Pipes.Net.ext (Function.eq_update_iff.mpr ⟨?_, fun q hq => ?_⟩) (funext fun x => ?_)
  · simp [net, queue, pushPing, pushRequest, Request.ping]
  · exact queue_requests (fun heq => absurd heq hq) fun _ _ _ => (Edits.push ..).unseen rfl
  · by_cases hx : x = sid
    · subst hx
      simp [net, pushPing, pushRequest, Pipes.Net.record, Pipes.Net.push]
    · simp [net, pushPing, pushRequest, Pipes.Net.record, Pipes.Net.push, hx]

/-- A session with nothing for the exchange or from it is made the upstream one. -/
theorem net_dial (hw : L.dials w = none)
    (hrequests : (L.requests sid).filterMap Request.pong = [])
    (hpackets : (L.inFlight sid).filterMap Packet.ping = []) : (L.dial sid w).net = L.net := by
  refine Pipes.Net.ext (funext fun q => ?_) rfl
  have hupstream : ∀ {α β : Type} {f : α → Option β} {queue : SessionId → List α},
      (queue sid).filterMap f = [] → ∀ v,
        ((L.dial sid w).upstream v queue).filterMap f = (L.upstream v queue).filterMap f := by
    intro α β f queue h v
    by_cases hv : v = w
    · subst hv
      simp [upstream, dial, hw, h]
    · simp [upstream, dial, hv]
  cases q with
  | toUpstream v => exact hupstream hpackets v
  | fromUpstream v => exact hupstream hrequests v
  | _ => rfl

end Links

end HyperNet.Fep
