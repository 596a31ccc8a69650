import HyperNet.Loadgen.Controller
import Mathlib.Data.List.Induction
import Mathlib.Data.List.Nodup

/-!
# Throughput

For throughput each session is to have pings numbered 1, 2, 3 and so on, each sent when the one
before it is answered, and to be ended when it has sent its share of the measurement.  The handler
of the pong counts in a packet of its own, which starts at 0 every time; so it sends the number 1
again (`throughput_iff`).
-/

namespace HyperNet.Loadgen

open HyperNet.Protocol

namespace World

/-- The sequence numbers sent on a session. -/
def seqsOn (w : World) (sid : SessionId) : List Nat :=
  (w.sent.filter (·.sid = sid)).map fun ping => ping.pkt.seq.toNat

/-- The pings a session is to send. -/
def share (w : World) : Nat := kMeasureCount.toNat / w.client.sessions.length

/-- Each session counts its pings, and is ended with the last of its share. -/
def CountsAndStops (w : World) : Prop :=
  ∀ sid ∈ w.client.sessions, w.seqsOn sid = List.range' 1 (w.seqsOn sid).length ∧
    (sid ∈ w.closed ↔ w.share ∈ w.seqsOn sid)

/-- A controller for throughput and these sessions, before any pong. -/
def setup (target_sessions_per_worker : Int32) (sids : List SessionId) (clock : SessionId → Clock) :
    World :=
  (World.start target_sessions_per_worker true).run (sids.map fun sid => .handshake sid (clock sid))

end World

/-- A pong by the place of its ping, the session it comes on, its other fields and the clock. -/
structure Pong where
  k : Nat
  via : SessionId
  echo : PerfPongPkt := {}
  clock : Clock := {}

def Pong.move (p : Pong) : Move := .pong p.k p.via p.echo p.clock

namespace World

variable {w : World}

/-- What a handshake does for throughput. -/
theorem step_handshake (hmode : w.client.tpsMode = true) (hreport : w.report = none)
    (hended : w.ended = []) (sid : SessionId) (clock : Clock) :
    ∃ ping : Ping, ping.sid = sid ∧ ping.pkt.seq = 1 ∧
      w.step (.handshake sid clock) =
        { w with client := { w.client with sessions := w.client.sessions ++ [sid] }
                 sent := w.sent ++ [ping] } := by
  have halive : w.Alive sid := by
    rw [Alive, hended]
    exact List.not_mem_nil
  rw [step, if_neg (not_exited_iff.mpr ⟨hreport, halive⟩), Controller.onHandshakeOk]
  dsimp only
  rw [if_pos hmode]
  exact ⟨_, rfl, rfl, rfl⟩

/-- Before any pong each session has sent the number 1, and none has been ended. -/
structure Ready (w : World) (sids : List SessionId) : Prop where
  mode : w.client.tpsMode = true
  sessions : w.client.sessions = sids
  sent : w.sent.map (fun ping => (ping.sid, ping.pkt.seq)) = sids.map fun sid => (sid, 1)
  ended : w.ended = []
  closed : w.closed = []
  report : w.report = none

theorem ready_setup (target : Int32) (sids : List SessionId) (clock : SessionId → Clock) :
    Ready (setup target sids clock) sids := by
  induction sids using List.reverseRecOn with
  | nil => exact ⟨rfl, rfl, rfl, rfl, rfl, rfl⟩
  | append_singleton sids sid ih =>
    have hlast : setup target (sids ++ [sid]) clock =
        (setup target sids clock).step (.handshake sid (clock sid)) := by
      rw [setup, run, List.map_append, List.foldl_append]
      rfl
    rw [hlast]
    generalize setup target sids clock = w at ih
    obtain ⟨ping, hsid, hseq, hstep⟩ := step_handshake ih.mode ih.report ih.ended sid (clock sid)
    rw [hstep]
    refine ⟨ih.mode, congrArg (· ++ [sid]) ih.sessions, ?_, ih.ended, ih.closed, ih.report⟩
    rw [List.map_append, List.map_append, ih.sent, List.map_singleton, List.map_singleton, hsid,
      hseq]

theorem Ready.seqsOn {sids : List SessionId} (h : Ready w sids) (hnodup : sids.Nodup)
    {sid : SessionId} (hsid : sid ∈ sids) : w.seqsOn sid = [1] := by
  have hpairs : w.seqsOn sid =
      ((w.sent.map fun ping => (ping.sid, ping.pkt.seq)).filter (·.1 = sid)).map (·.2.toNat) := by
    rw [World.seqsOn, List.filter_map, List.map_map]
    rfl
  have hone : sids.filter (· = sid) = [sid] := by
    rw [List.filter_eq, List.count_eq_one_of_mem hnodup hsid]
    rfl
  rw [hpairs, h.sent, List.filter_map]
  change ((sids.filter (· = sid)).map _).map _ = _
  rw [hone]
  rfl

theorem Ready.countsAndStops_iff {sids : List SessionId} (h : Ready w sids) (hnodup : sids.Nodup)
    (hne : sids ≠ []) : w.CountsAndStops ↔ kMeasureCount.toNat / sids.length ≠ 1 := by
  have hstop {sid : SessionId} (hsid : sid ∈ sids) :
      (sid ∈ w.closed ↔ w.share ∈ w.seqsOn sid) ↔ kMeasureCount.toNat / sids.length ≠ 1 := by
    rw [h.closed, h.seqsOn hnodup hsid, share, h.sessions, List.mem_singleton]
    simp
  rw [CountsAndStops, h.sessions]
  constructor
  · intro hall
    obtain ⟨sid, hsid⟩ := List.exists_mem_of_ne_nil _ hne
    exact (hstop hsid).mp (hall sid hsid).2
  · intro hshare sid hsid
    refine ⟨?_, (hstop hsid).mpr hshare⟩
    rw [h.seqsOn hnodup hsid]
    rfl

/-- What a pong does for throughput. -/
theorem step_pong (hmode : w.client.tpsMode = true) (hreport : w.report = none) {p : Pong}
    (hanswers : w.Answers p.k p.via) :
    ∃ ping : Ping, ping.sid = p.via ∧ ping.pkt.seq = 1 ∧
      (w.step p.move).sent = w.sent ++ [ping] ∧
      (w.step p.move).client.sessions = w.client.sessions := by
  rw [Pong.move, step, if_neg (not_exited_iff.mpr ⟨hreport, hanswers⟩)]
  dsimp only
  rw [Controller.onPerfPong, if_pos hmode]
  dsimp only
  split
  all_goals exact ⟨_, rfl, rfl, rfl, rfl⟩

/-- The first pong makes its session send the number 1 again. -/
theorem Ready.not_countsAndStops {sids : List SessionId} (h : Ready w sids) (hnodup : sids.Nodup)
    {p : Pong} (hanswers : w.Answers p.k p.via) : ¬ (w.step p.move).CountsAndStops := by
  obtain ⟨ping, hsid, hseq, hsent, hsessions⟩ := step_pong h.mode h.report hanswers
  have hvia : p.via ∈ sids := h.sessions ▸ hanswers.2.2.1
  have htwice : (w.step p.move).seqsOn p.via = [1, 1] := by
    have hnew : [ping].filter (·.sid = p.via) = [ping] := by
      refine List.filter_eq_self.mpr fun q hq => ?_
      rw [List.mem_singleton.mp hq, hsid]
      exact decide_eq_true rfl
    have hold := h.seqsOn hnodup hvia
    rw [World.seqsOn] at hold ⊢
    rw [hsent, List.filter_append, List.map_append, hold, hnew, List.map_singleton, hseq]
    rfl
  intro hcounts
  have hcount := (hcounts p.via (hsessions ▸ hanswers.2.2.1)).1
  rw [htwice] at hcount
  exact absurd hcount (by decide)

end World

/-- Whatever pongs come in whatever order, the sessions count their pings and are ended with the
last of their share, exactly if there is no pong and the share is not a single ping. -/
theorem throughput_iff (target_sessions_per_worker : Int32) (clock : SessionId → Clock)
    {sids : List SessionId} (hnodup : sids.Nodup) (hne : sids ≠ []) (pongs : List Pong) :
    let w := World.setup target_sessions_per_worker sids clock
    (∀ n, (w.run ((pongs.take n).map Pong.move)).CountsAndStops) ↔
      (∀ p ∈ pongs, ¬ w.Answers p.k p.via) ∧ kMeasureCount.toNat / sids.length ≠ 1 := by
  intro w
  have h : w.Ready sids := World.ready_setup target_sessions_per_worker sids clock
  rw [← h.countsAndStops_iff hnodup hne]
  clear_value w
  induction pongs with
  | nil =>
    constructor
    · exact fun hall => ⟨fun p hp => absurd hp List.not_mem_nil, hall 0⟩
    · intro hw n
      rw [List.take_nil]
      exact hw.2
  | cons p pongs ih =>
    by_cases hp : w.Answers p.k p.via
    · refine iff_of_false ?_ fun hnone => hnone.1 p List.mem_cons_self hp
      exact fun hall => h.not_countsAndStops hnodup hp (hall 1)
    · -- nothing happens, and the rest of the pongs meet the same state
      have hstays : w.step p.move = w := if_pos (.inr hp)
      have hcons (n : Nat) : w.run (((p :: pongs).take (n + 1)).map Pong.move) =
          w.run ((pongs.take n).map Pong.move) := by
        rw [List.take_succ_cons, List.map_cons, World.run, List.foldl_cons, hstays, World.run]
      rw [List.forall_mem_cons, and_iff_right hp]
      refine Iff.trans ?_ ih
      constructor
      · intro hall n
        rw [← hcons]
        exact hall (n + 1)
      · intro hall n
        cases n with
        | zero => exact hall 0
        | succ n =>
          rw [hcons]
          exact hall n

/-- Two sessions and an answer to each of their first pings. -/
theorem throughput_iff_two :
    let w := World.setup 2 [1, 2] fun _ => {}
    let pongs : List Pong := [{ k := 1, via := 2 }, { k := 0, via := 1 }]
    ([1, 2] : List SessionId).Nodup ∧ ([1, 2] : List SessionId) ≠ [] ∧
      ((∀ n, (w.run ((pongs.take n).map Pong.move)).CountsAndStops) ↔
        (∀ p ∈ pongs, ¬ w.Answers p.k p.via) ∧ kMeasureCount.toNat / 2 ≠ 1) :=
  ⟨by decide, by decide, throughput_iff 2 (fun _ => {}) (by decide) (by decide) _⟩

/-- The second ping of a session has the number 1 again. -/
theorem second_ping_uncounted :
    let w := (World.setup 1 [7] fun _ => {}).run [.pong 0 7 { seq := 1 } {}]
    w.seqsOn 7 = [1, 1] ∧ w.closed = [] ∧ ¬ w.CountsAndStops := by
  refine ⟨by decide, by decide, ?_⟩
  intro hcounts
  exact absurd (hcounts 7 (by decide)).1 (by decide)

end HyperNet.Loadgen
