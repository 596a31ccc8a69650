import HyperNet.Protocol.Packets

/-!
# The load generator

`BenchmarkClientController` collects the sessions that have shaken hands and sends `PerfPing`s on
them.  It is driven by two events, a handshake and a `PerfPong`, and has two modes.  For latency it
waits for enough sessions, sends one ping and from then on one for each pong, to the sessions in
turn; after a warm-up it records the times, and at the end it reports and exits.  For throughput
each session has its own stream of pings.

The controller is a function from the event to what it calls: sends, the end of a session and the
report.  The `World` around it keeps the sessions that have ended, and a record of the pings, the
pongs and the calls.  Pongs answer pings that were sent and are not yet answered, on any session
that is still there; clocks show anything.
-/

namespace HyperNet.Loadgen

open HyperNet.Protocol

abbrev SessionId := UInt64

def kWarmupCount : UInt64 := 10000

def kMeasureCount : UInt64 := 200000

/-! ## Recorder -/

structure LatencyRecorder where
  rtt : List UInt64 := []
  hop1 : List UInt64 := []
  hop2 : List UInt64 := []
  hop3 : List UInt64 := []
  hop4 : List UInt64 := []
deriving DecidableEq, Repr

def LatencyRecorder.record (r : LatencyRecorder) (total h1 h2 h3 h4 : UInt64) : LatencyRecorder :=
  { rtt := r.rtt ++ [total]
    hop1 := r.hop1 ++ [h1]
    hop2 := r.hop2 ++ [h2]
    hop3 := r.hop3 ++ [h3]
    hop4 := r.hop4 ++ [h4] }

/-- A difference of times, or 0 should the clocks disagree. -/
def elapsed (start stop : UInt64) : UInt64 := if start < stop then stop - start else 0

/-! ## Controller -/

/-- What the clock shows at the places of a handler that look at it. -/
structure Clock where
  t5 : UInt64 := 0
  start : UInt64 := 0
  t1 : UInt64 := 0

/-- What a handler calls, in order. -/
inductive Act where
  | sendTo (sid : SessionId) (pkt : PerfPingPkt)
  | onSessionEnd (sid : SessionId)
  /-- The report is printed, and the process exits. -/
  | printReport (r : LatencyRecorder)

structure Controller where
  recorder : LatencyRecorder := {}
  target_sessions : Int32 := 1
  sessions : List SessionId := []
  rr : Nat := 0
  started : Bool := false
  seq : UInt64 := 0
  start_ns : UInt64 := 0
  tpsMode : Bool := true

namespace Controller

def make (target_sessions_per_worker : Int32) (tpsMode : Bool) : Controller :=
  { target_sessions := if 1 < target_sessions_per_worker then target_sessions_per_worker else 1
    tpsMode }

variable (c : Controller)

/-- `sessions_[rr_]`. -/
def turn : SessionId := c.sessions.getD c.rr 0

def onHandshakeOk (session : SessionId) (clock : Clock) : Controller × List Act :=
  let c' := { c with sessions := c.sessions ++ [session] }
  if c.tpsMode = true then (c', [.sendTo session { seq := 1 }])
  else if c.started = false ∧ c.target_sessions ≤ Int32.ofNat c'.sessions.length then
    let c' := { c' with started := true, rr := 0, seq := 1
                        start_ns := if kWarmupCount = 0 then clock.start else 0 }
    (c', [.sendTo c'.turn { seq := c'.seq, t1 := clock.t1 }])
  else (c', [])

/-- The recorder after a pong. -/
def recorded (pkt : PerfPongPkt) (t5 : UInt64) : LatencyRecorder :=
  if kWarmupCount < pkt.seq then
    c.recorder.record (elapsed pkt.t1 t5) (elapsed pkt.t1 pkt.t2) (elapsed pkt.t2 pkt.t3)
      (elapsed pkt.t3 pkt.t4) (elapsed pkt.t4 t5)
  else c.recorder

def onPerfPong (session : SessionId) (pkt : PerfPongPkt) (clock : Clock) :
    Controller × List Act :=
  if c.tpsMode = true then
    -- the packet of this scope hides the one received
    let pkt : PerfPingPkt := {}
    let pkt := { pkt with seq := pkt.seq + 1 }
    (c, .sendTo session pkt ::
      if pkt.seq.toNat = kMeasureCount.toNat / c.sessions.length then [.onSessionEnd session]
      else [])
  else
    let c := { c with recorder := c.recorded pkt clock.t5
                      start_ns := if pkt.seq = kWarmupCount then clock.start else c.start_ns }
    if kWarmupCount + kMeasureCount ≤ pkt.seq then (c, [.printReport c.recorder])
    else
      let c := { c with seq := pkt.seq + 1, rr := (c.rr + 1) % c.sessions.length }
      (c, [.sendTo c.turn { seq := c.seq, t1 := clock.t1 }])

end Controller

/-! ## The controller among its sessions -/

/-- A ping, and what was the case when it was sent: whether its session was still there, and
whether any session of the controller was. -/
structure Ping where
  sid : SessionId
  pkt : PerfPingPkt
  alive : Bool
  anyAlive : Bool
deriving DecidableEq, Repr

structure World where
  client : Controller
  /-- The sessions that are no longer in the registry. -/
  ended : List SessionId := []
  sent : List Ping := []
  /-- The places in `sent` of the pings that have been answered. -/
  answered : List Nat := []
  /-- The pongs that were handled, with the time of each. -/
  handled : List (PerfPongPkt × UInt64) := []
  /-- The calls of `onSessionEnd`. -/
  closed : List SessionId := []
  report : Option LatencyRecorder := none

inductive Move where
  | handshake (sid : SessionId) (clock : Clock)
  /-- The peer or the engine ends a session. -/
  | ends (sid : SessionId)
  /-- An answer to the ping at place `k`; it echoes the sequence number. -/
  | pong (k : Nat) (via : SessionId) (echo : PerfPongPkt) (clock : Clock)

namespace World

variable (w : World)

def Alive (sid : SessionId) : Prop := sid ∉ w.ended

instance (sid : SessionId) : Decidable (w.Alive sid) := inferInstanceAs (Decidable (¬ _))

def act : Act → World
  | .sendTo sid pkt =>
    { w with sent := w.sent ++
        [{ sid, pkt, alive := decide (w.Alive sid),
           anyAlive := w.client.sessions.any fun sid => decide (w.Alive sid) }] }
  | .onSessionEnd sid => { w with ended := sid :: w.ended, closed := w.closed ++ [sid] }
  | .printReport r => { w with report := some r }

/-- What a handler leaves. -/
def after (result : Controller × List Act) : World :=
  result.2.foldl act { w with client := result.1 }

/-- There is a ping to answer, and a session to answer on. -/
def Answers (k : Nat) (via : SessionId) : Prop :=
  k < w.sent.length ∧ k ∉ w.answered ∧ via ∈ w.client.sessions ∧ w.Alive via

instance (k : Nat) (via : SessionId) : Decidable (w.Answers k via) :=
  inferInstanceAs (Decidable (_ ∧ _ ∧ _ ∧ _))

/-- The pong for the ping at place `k`. -/
def pongFor (k : Nat) (echo : PerfPongPkt) : PerfPongPkt :=
  match w.sent[k]? with
  | some ping => { echo with seq := ping.pkt.seq }
  | none => echo

/-- Nothing happens after the process has exited. -/
def step : Move → World
  | .handshake sid clock =>
    if w.report.isSome = true ∨ ¬ w.Alive sid then w
    else w.after (w.client.onHandshakeOk sid clock)
  | .ends sid =>
    if w.report.isSome = true then w else { w with ended := sid :: w.ended }
  | .pong k via echo clock =>
    if w.report.isSome = true ∨ ¬ w.Answers k via then w
    else
      let pkt := w.pongFor k echo
      let w := { w with answered := k :: w.answered, handled := w.handled ++ [(pkt, clock.t5)] }
      w.after (w.client.onPerfPong via pkt clock)

def run (moves : List Move) : World := moves.foldl step w

/-- The pings that wait for their pong, by their places. -/
def outstanding : List Nat := (List.range w.sent.length).filter (· ∉ w.answered)

/-- The sequence numbers in the order in which they were sent. -/
def seqs : List Nat := w.sent.map fun ping => ping.pkt.seq.toNat

variable {w}

/-- The condition under which an event is handled. -/
theorem not_exited_iff {p : Prop} :
    ¬ (w.report.isSome = true ∨ ¬ p) ↔ w.report = none ∧ p := by
  rw [not_or, Classical.not_not, Bool.not_eq_true, Option.isSome_eq_false_iff,
    Option.isNone_iff_eq_none]

end World

def World.start (target_sessions_per_worker : Int32) (tpsMode : Bool) : World :=
  { client := .make target_sessions_per_worker tpsMode }

end HyperNet.Loadgen
