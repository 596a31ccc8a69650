import HyperNet.Lib.Reentrant
import HyperNet.Loadgen.Controller
import Mathlib.Data.List.Perm.Subperm

/-!
# Latency

With one ping in flight, pings and pongs are numbered alike: the pong that is handled next is the
answer to the last ping (`Counted`).  So the numbers are sent in order, and the samples at the end
are those of the numbers behind the warm-up (`latency_measured`).

Which session a ping goes to is another matter.  The list of sessions only grows, so a session has
its turn also after it has ended (`pings_alive_iff`).
-/

namespace HyperNet.Loadgen

open HyperNet.Protocol HyperNet.Reentrant

/-! ## Samples -/

/-- The recorder of the samples of these pongs. -/
def LatencyRecorder.of (pongs : List (PerfPongPkt × UInt64)) : LatencyRecorder where
  rtt := pongs.map fun p => elapsed p.1.t1 p.2
  hop1 := pongs.map fun p => elapsed p.1.t1 p.1.t2
  hop2 := pongs.map fun p => elapsed p.1.t2 p.1.t3
  hop3 := pongs.map fun p => elapsed p.1.t3 p.1.t4
  hop4 := pongs.map fun p => elapsed p.1.t4 p.2

/-- The pongs behind the warm-up. -/
def measured (pongs : List (PerfPongPkt × UInt64)) : List (PerfPongPkt × UInt64) :=
  pongs.filter fun p => kWarmupCount < p.1.seq

theorem Controller.recorded_eq {c : Controller} {pongs : List (PerfPongPkt × UInt64)}
    (h : c.recorder = .of (measured pongs)) (pkt : PerfPongPkt) (t5 : UInt64) :
    c.recorded pkt t5 = .of (measured (pongs ++ [(pkt, t5)])) := by
  rw [recorded, h, measured, measured, List.filter_append, List.filter_singleton]
  split
  next hlt => simp [LatencyRecorder.record, LatencyRecorder.of, hlt]
  next hle => simp [hle]

/-! ## Pings and pongs are numbered alike -/

/-- The pongs of a whole measurement. -/
def total : Nat := (kWarmupCount + kMeasureCount).toNat

namespace Controller

/-- The handshake that starts the measurement. -/
def Starts (c : Controller) : Prop :=
  c.started = false ∧ c.target_sessions ≤ Int32.ofNat (c.sessions.length + 1)

instance (c : Controller) : Decidable c.Starts := inferInstanceAs (Decidable (_ ∧ _))

section

variable {c : Controller} (hmode : c.tpsMode = false)
include hmode

theorem onHandshakeOk_of_starts (h : c.Starts) (session : SessionId) (clock : Clock) :
    c.onHandshakeOk session clock =
      ({ c with sessions := c.sessions ++ [session], started := true, rr := 0, seq := 1
                start_ns := 0 },
        [.sendTo ((c.sessions ++ [session]).getD 0 0) { seq := 1, t1 := clock.t1 }]) := by
  have hstarts : c.started = false ∧
      c.target_sessions ≤ Int32.ofNat (c.sessions ++ [session]).length := by
    rw [List.length_append]
    exact h
  rw [onHandshakeOk]
  dsimp only
  rw [hmode, if_neg Bool.false_ne_true, if_pos hstarts]
  rfl

theorem onHandshakeOk_of_not_starts (h : ¬ c.Starts) (session : SessionId) (clock : Clock) :
    c.onHandshakeOk session clock = ({ c with sessions := c.sessions ++ [session] }, []) := by
  have hstarts : ¬ (c.started = false ∧
      c.target_sessions ≤ Int32.ofNat (c.sessions ++ [session]).length) := by
    rw [List.length_append]
    exact h
  rw [onHandshakeOk]
  dsimp only
  rw [hmode, if_neg Bool.false_ne_true, if_neg hstarts]

/-- The index of the session whose turn is next. -/
def next (c : Controller) : Nat := (c.rr + 1) % c.sessions.length

theorem onPerfPong_of_last {pkt : PerfPongPkt} (h : kWarmupCount + kMeasureCount ≤ pkt.seq)
    (session : SessionId) (clock : Clock) :
    c.onPerfPong session pkt clock =
      ({ c with recorder := c.recorded pkt clock.t5
                start_ns := if pkt.seq = kWarmupCount then clock.start else c.start_ns },
        [.printReport (c.recorded pkt clock.t5)]) := by
  rw [onPerfPong, hmode, if_neg Bool.false_ne_true]
  dsimp only
  rw [if_pos h]

theorem onPerfPong_of_not_last {pkt : PerfPongPkt} (h : ¬ kWarmupCount + kMeasureCount ≤ pkt.seq)
    (session : SessionId) (clock : Clock) :
    c.onPerfPong session pkt clock =
      ({ c with recorder := c.recorded pkt clock.t5
                start_ns := if pkt.seq = kWarmupCount then clock.start else c.start_ns
                seq := pkt.seq + 1, rr := c.next },
        [.sendTo (c.sessions.getD c.next 0) { seq := pkt.seq + 1, t1 := clock.t1 }]) := by
  rw [onPerfPong, hmode, if_neg Bool.false_ne_true]
  dsimp only
  rw [if_neg h]
  rfl

end

end Controller

structure Counted (w : World) : Prop where
  mode : w.client.tpsMode = false
  seqs : w.seqs = List.range' 1 w.sent.length
  handled : w.handled.map (fun p => p.1.seq.toNat) = List.range' 1 w.handled.length
  answered : ∀ k, k ∈ w.answered ↔ k < w.handled.length
  recorder : w.client.recorder = .of (measured w.handled)
  idle : w.client.started = false → w.sent = [] ∧ w.handled = [] ∧ w.report = none
  waiting : w.client.started = true → w.report = none →
    w.sent.length = w.handled.length + 1 ∧ w.handled.length < total
  reported : ∀ r, w.report = some r →
    r = w.client.recorder ∧ w.handled.length = total ∧ w.sent.length = total

namespace Counted

variable {w : World}

theorem start (target : Int32) : Counted (.start target false) where
  mode := rfl
  seqs := rfl
  handled := rfl
  answered k := iff_of_false List.not_mem_nil (Nat.not_lt_zero k)
  recorder := rfl
  idle _ := ⟨rfl, rfl, rfl⟩
  waiting hstarted := by cases hstarted
  reported _ hr := by cases hr

section

variable (h : Counted w)
include h

theorem handshake (hreport : w.report = none) (sid : SessionId) (clock : Clock) :
    Counted (w.after (w.client.onHandshakeOk sid clock)) := by
  by_cases hstarts : w.client.Starts
  · rw [Controller.onHandshakeOk_of_starts h.mode hstarts]
    obtain ⟨hsent, hhandled, -⟩ := h.idle hstarts.1
    refine ⟨h.mode, ?_, h.handled, h.answered, h.recorder, ?_, ?_, ?_⟩
    · change (w.sent ++ [_]).map _ = List.range' 1 (w.sent ++ [_]).length
      rw [hsent]
      rfl
    · intro hidle
      cases hidle
    · intro _ _
      change (w.sent ++ [_]).length = w.handled.length + 1 ∧ w.handled.length < total
      rw [hsent, hhandled]
      exact ⟨rfl, by decide⟩
    · intro r hr
      cases hreport.symm.trans hr
  · rw [Controller.onHandshakeOk_of_not_starts h.mode hstarts]
    exact ⟨h.mode, h.seqs, h.handled, h.answered, h.recorder, h.idle, h.waiting, h.reported⟩

/-- The pong that is handled answers the last ping, and has the next number. -/
theorem pong_seq (hreport : w.report = none) {k : Nat} {via : SessionId}
    (hanswers : w.Answers k via) (echo : PerfPongPkt) :
    w.client.started = true ∧ k = w.handled.length ∧
      (w.pongFor k echo).seq.toNat = w.handled.length + 1 := by
  obtain ⟨hk, hopen, -⟩ := hanswers
  have hstarted : w.client.started = true := by
    cases hidle : w.client.started with
    | true => rfl
    | false =>
      rw [(h.idle hidle).1] at hk
      cases hk
  have hlast := (h.waiting hstarted hreport).1
  have hle : w.handled.length ≤ k := Nat.le_of_not_lt fun hlt => hopen ((h.answered k).mpr hlt)
  have heq : k = w.handled.length := by omega
  refine ⟨hstarted, heq, ?_⟩
  have hseq : w.seqs[k]? = some (1 + k) := by
    rw [h.seqs, List.getElem?_range' hk, Nat.one_mul]
  rw [World.seqs, List.getElem?_map, List.getElem?_eq_getElem hk, Option.map_some] at hseq
  rw [World.pongFor, List.getElem?_eq_getElem hk]
  dsimp only
  rw [Option.some.inj hseq, heq, Nat.add_comm]

theorem pong (hreport : w.report = none) {k : Nat} {via : SessionId} (hanswers : w.Answers k via)
    (echo : PerfPongPkt) (clock : Clock) : Counted (w.step (.pong k via echo clock)) := by
  obtain ⟨hstarted, rfl, hseq⟩ := h.pong_seq hreport hanswers echo
  obtain ⟨hsent, hlt⟩ := h.waiting hstarted hreport
  rw [World.step, if_neg (World.not_exited_iff.mpr ⟨hreport, hanswers⟩)]
  generalize w.pongFor w.handled.length echo = pkt at hseq
  have hhandled : (w.handled ++ [(pkt, clock.t5)]).map (fun p => p.1.seq.toNat) =
      List.range' 1 (w.handled ++ [(pkt, clock.t5)]).length := by
    rw [List.map_append, h.handled, List.length_append, List.length_singleton,
      List.range'_1_concat, List.map_singleton, hseq, Nat.add_comm 1]
  have hanswered : ∀ k, k ∈ w.handled.length :: w.answered ↔
      k < (w.handled ++ [(pkt, clock.t5)]).length := by
    intro k
    rw [List.mem_cons, h.answered, List.length_append, List.length_singleton]
    omega
  have hrecorder := Controller.recorded_eq h.recorder pkt clock.t5
  have hlast : kWarmupCount + kMeasureCount ≤ pkt.seq ↔ total ≤ w.handled.length + 1 := by
    rw [UInt64.le_iff_toNat_le, hseq, total]
  by_cases hend : kWarmupCount + kMeasureCount ≤ pkt.seq
  · dsimp only
    rw [Controller.onPerfPong_of_last h.mode hend]
    refine ⟨h.mode, h.seqs, hhandled, hanswered, hrecorder, ?_, ?_, ?_⟩
    · intro hidle
      cases hstarted.symm.trans hidle
    · intro _ hnone
      cases hnone
    · intro r hr
      cases hr
      have hall := hlast.mp hend
      have hlen : (w.handled ++ [(pkt, clock.t5)]).length = w.handled.length + 1 :=
        List.length_append
      exact ⟨rfl, hlen.trans (by omega), (show w.sent.length = total by omega)⟩
  · dsimp only
    rw [Controller.onPerfPong_of_not_last h.mode hend]
    have hnext : (pkt.seq + 1).toNat = w.sent.length + 1 := by
      have hsmall : w.handled.length + 1 < total := Nat.lt_of_not_le fun hle => hend (hlast.mpr hle)
      have htotal : total = 210000 := rfl
      rw [UInt64.toNat_add, hseq, ← hsent, UInt64.toNat_one, Nat.mod_eq_of_lt (by omega)]
    refine ⟨h.mode, ?_, hhandled, hanswered, hrecorder, ?_, ?_, ?_⟩
    · change (w.sent ++ [_]).map _ = List.range' 1 (w.sent ++ [_]).length
      rw [List.map_append, List.length_append, List.length_singleton, List.range'_1_concat]
      refine congrArg₂ (· ++ ·) h.seqs (congrArg (fun n => [n]) ?_)
      exact hnext.trans (Nat.add_comm _ _)
    · intro hidle
      cases hstarted.symm.trans hidle
    · intro _ _
      change (w.sent ++ [_]).length = (w.handled ++ [_]).length + 1 ∧ (w.handled ++ [_]).length < _
      rw [List.length_append, List.length_append, List.length_singleton, List.length_singleton]
      exact ⟨congrArg (· + 1) hsent, Nat.lt_of_not_le fun hle => hend (hlast.mpr hle)⟩
    · intro r hr
      cases hreport.symm.trans hr

theorem step (m : Move) : Counted (w.step m) := by
  cases m with
  | handshake sid clock =>
    rw [World.step]
    split
    · exact h
    next hgo =>
      exact h.handshake (World.not_exited_iff.mp hgo).1 sid clock
  | ends sid =>
    rw [World.step]
    split
    · exact h
    · exact ⟨h.mode, h.seqs, h.handled, h.answered, h.recorder, h.idle, h.waiting, h.reported⟩
  | pong k via echo clock =>
    by_cases hgo : w.report.isSome = true ∨ ¬ w.Answers k via
    · rwa [World.step, if_pos hgo]
    · obtain ⟨hreport, hanswers⟩ := World.not_exited_iff.mp hgo
      exact h.pong hreport hanswers echo clock

theorem run (moves : List Move) : Counted (w.run moves) :=
  foldl_invariant (fun _ m hw => hw.step m) w h moves

theorem sent_le : w.sent.length ≤ w.handled.length + 1 := by
  cases hstarted : w.client.started with
  | false =>
    rw [(h.idle hstarted).1]
    exact Nat.zero_le _
  | true =>
    cases hreport : w.report with
    | none => exact (h.waiting hstarted hreport).1.le
    | some r =>
      obtain ⟨-, hhandled, hsent⟩ := h.reported r hreport
      omega

theorem outstanding_le : w.outstanding.length ≤ 1 := by
  have hnodup : w.outstanding.Nodup := List.nodup_range.filter _
  have hlast : w.outstanding ⊆ [w.handled.length] := by
    intro k hk
    obtain ⟨hrange, hopen⟩ := List.mem_filter.mp hk
    have hlt := List.mem_range.mp hrange
    have hle : ¬ k < w.handled.length := fun hlt =>
      of_decide_eq_true hopen ((h.answered k).mpr hlt)
    have hsent := h.sent_le
    exact List.mem_singleton.mpr (by omega)
  exact (List.subperm_of_subset hnodup hlast).length_le

end

end Counted

/-- Of the numbers up to the last, those behind the warm-up are measured. -/
theorem seqs_measured {pongs : List (PerfPongPkt × UInt64)}
    (h : pongs.map (fun p => p.1.seq.toNat) = List.range' 1 total) :
    (measured pongs).map (fun p => p.1.seq.toNat) =
      List.range' (kWarmupCount.toNat + 1) kMeasureCount.toNat := by
  have hfilter : (measured pongs).map (fun p => p.1.seq.toNat) =
      (pongs.map fun p => p.1.seq.toNat).filter (kWarmupCount.toNat < ·) := by
    rw [List.filter_map, measured]
    refine congrArg (List.map _) (List.filter_congr fun p _ => ?_)
    exact decide_eq_decide.mpr UInt64.lt_iff_toNat_lt
  have hsplit : List.range' 1 total = List.range' 1 kWarmupCount.toNat ++
      List.range' (kWarmupCount.toNat + 1) kMeasureCount.toNat := by
    rw [Nat.add_comm, List.range'_append_1]
    rfl
  have hwarm : (List.range' 1 kWarmupCount.toNat).filter (kWarmupCount.toNat < ·) = [] := by
    refine List.filter_eq_nil_iff.mpr fun k hk => ?_
    rw [decide_eq_true_iff]
    have hle := (List.mem_range'_1.mp hk).2
    omega
  have hrest : (List.range' (kWarmupCount.toNat + 1) kMeasureCount.toNat).filter
      (kWarmupCount.toNat < ·) = List.range' (kWarmupCount.toNat + 1) kMeasureCount.toNat := by
    refine List.filter_eq_self.mpr fun k hk => ?_
    exact decide_eq_true (List.mem_range'_1.mp hk).1
  rw [hfilter, h, hsplit, List.filter_append, hwarm, hrest, List.nil_append]

namespace World

variable {w : World} {k : Nat} {via : SessionId}

/-- A pong in a run for latency changes neither the sessions nor which of them are there. -/
theorem step_pong_keeps (hmode : w.client.tpsMode = false) (hreport : w.report = none)
    (hanswers : w.Answers k via) (echo : PerfPongPkt) (clock : Clock) :
    let w' := w.step (.pong k via echo clock)
    w'.client.started = w.client.started ∧ w'.client.sessions = w.client.sessions ∧
      w'.ended = w.ended ∧ w'.handled.length = w.handled.length + 1 := by
  rw [step, if_neg (not_exited_iff.mpr ⟨hreport, hanswers⟩)]
  dsimp only
  by_cases hend : kWarmupCount + kMeasureCount ≤ (w.pongFor k echo).seq
  · rw [Controller.onPerfPong_of_last hmode hend]
    exact ⟨rfl, rfl, rfl, List.length_append⟩
  · rw [Controller.onPerfPong_of_not_last hmode hend]
    exact ⟨rfl, rfl, rfl, List.length_append⟩

/-- Except for the last, a pong makes the next session in the list have its turn. -/
theorem step_pong_sends (h : Counted w) (hreport : w.report = none) (hanswers : w.Answers k via)
    (hmore : w.sent.length < total) (echo : PerfPongPkt) (clock : Clock) :
    let w' := w.step (.pong k via echo clock)
    let sid := w.client.sessions.getD w.client.next 0
    w'.client.rr = w.client.next ∧
      ∃ pkt, w'.sent = w.sent ++ [⟨sid, pkt, decide (w.Alive sid), true⟩] := by
  obtain ⟨hstarted, -, hseq⟩ := h.pong_seq hreport hanswers echo
  have hend : ¬ kWarmupCount + kMeasureCount ≤ (w.pongFor k echo).seq := by
    rw [UInt64.le_iff_toNat_le, hseq, ← (h.waiting hstarted hreport).1]
    exact Nat.not_le.mpr hmore
  have hany : (w.client.sessions.any fun sid => decide (w.Alive sid)) = true :=
    List.any_eq_true.mpr ⟨via, hanswers.2.2.1, decide_eq_true hanswers.2.2.2⟩
  rw [step, if_neg (not_exited_iff.mpr ⟨hreport, hanswers⟩)]
  dsimp only
  rw [Controller.onPerfPong_of_not_last h.mode hend]
  refine ⟨rfl, { seq := (w.pongFor k echo).seq + 1, t1 := clock.t1 }, ?_⟩
  exact congrArg (w.sent ++ [·]) (congrArg (Ping.mk _ _ _) hany)

end World

/-- A measurement that has started, and a session that is there. -/
structure Underway (via : SessionId) (w : World) : Prop where
  counted : Counted w
  started : w.client.started = true
  mem : via ∈ w.client.sessions
  alive : w.Alive via

namespace Underway

variable {via : SessionId} {w : World} (h : Underway via w)
include h

/-- The last ping can be answered. -/
theorem answers (hreport : w.report = none) : w.Answers w.handled.length via := by
  have hsent := (h.counted.waiting h.started hreport).1
  have hopen : w.handled.length ∉ w.answered := fun hmem =>
    Nat.lt_irrefl _ ((h.counted.answered _).mp hmem)
  exact ⟨hsent ▸ Nat.lt_succ_self _, hopen, h.mem, h.alive⟩

theorem pong (hreport : w.report = none) :
    Underway via (w.step (.pong w.handled.length via {} {})) := by
  obtain ⟨hs, hsessions, hended, -⟩ :=
    World.step_pong_keeps h.counted.mode hreport (h.answers hreport) {} {}
  refine ⟨h.counted.step _, hs.trans h.started, ?_, ?_⟩
  · rw [hsessions]
    exact h.mem
  · rw [World.Alive, hended]
    exact h.alive

theorem closer (hgoal : ¬ w.report.isSome = true) :
    ∃ m, Underway via (w.step m) ∧
      total - (w.step m).handled.length < total - w.handled.length := by
  have hreport : w.report = none := by
    rwa [Bool.not_eq_true, Option.isSome_eq_false_iff, Option.isNone_iff_eq_none] at hgoal
  have hlt := (h.counted.waiting h.started hreport).2
  obtain ⟨-, -, -, hlen⟩ :=
    World.step_pong_keeps h.counted.mode hreport (h.answers hreport) {} {}
  refine ⟨.pong w.handled.length via {} {}, h.pong hreport, ?_⟩
  rw [hlen]
  omega

/-- As long as some session is there, a measurement that has started can be brought to its end. -/
theorem report_reachable : ∃ moves, (w.run moves).report.isSome = true :=
  foldl_reaches (I := Underway via) Nat.lt_wfRel.wf (fun w : World => total - w.handled.length)
    (fun _ h hgoal => h.closer hgoal) w h

end Underway

/-- At any time at most one ping is outstanding, and the numbers sent are 1, 2, 3 and so on.  When
the report is printed, the recorder has one sample for each number behind the warm-up; a measurement
that has started can be brought there as long as some session is there. -/
theorem latency_measured (target_sessions_per_worker : Int32) (moves : List Move) :
    let w := (World.start target_sessions_per_worker false).run moves
    w.outstanding.length ≤ 1 ∧ w.seqs = List.range' 1 w.sent.length ∧
      (∀ r, w.report = some r →
        ∃ pongs : List (PerfPongPkt × UInt64), pongs.Sublist w.handled ∧ r = .of pongs ∧
          pongs.length = kMeasureCount.toNat ∧ pongs.map (fun p => p.1.seq.toNat) =
            List.range' (kWarmupCount.toNat + 1) kMeasureCount.toNat) ∧
      (w.client.started = true → (∃ via ∈ w.client.sessions, w.Alive via) →
        ∃ more, (w.run more).report.isSome = true) := by
  intro w
  have h : Counted w := (Counted.start target_sessions_per_worker).run moves
  refine ⟨h.outstanding_le, h.seqs, ?_, ?_⟩
  · intro r hr
    obtain ⟨rfl, hall, -⟩ := h.reported r hr
    have hseqs := seqs_measured (hall ▸ h.handled)
    refine ⟨measured w.handled, List.filter_sublist, h.recorder, ?_, hseqs⟩
    have hlen := congrArg List.length hseqs
    rwa [List.length_map, List.length_range'] at hlen
  · rintro hstarted ⟨via, hmem, halive⟩
    exact Underway.report_reachable ⟨h, hstarted, hmem, halive⟩

/-- With two sessions there is a run to the report, and the report has all its samples. -/
theorem latency_measured_two_sessions :
    ∃ moves r, ((World.start 2 false).run moves).report = some r ∧
      r.rtt.length = kMeasureCount.toNat := by
  obtain ⟨more, hmore⟩ := (latency_measured 2 [.handshake 1 {}, .handshake 2 {}]).2.2.2
    (by decide) ⟨1, by decide⟩
  obtain ⟨r, hr⟩ := Option.isSome_iff_exists.mp hmore
  rw [World.run, World.run, ← List.foldl_append] at hr
  obtain ⟨pongs, -, rfl, hlen, -⟩ := (latency_measured 2 _).2.2.1 r hr
  exact ⟨_, _, hr, (List.length_map _).trans hlen⟩

/-! ## Whose turn it is -/

namespace Controller

/-- The pings until the session at place `i` has its turn, if no other joins before. -/
def pingsUntil (c : Controller) (i : Nat) : Nat :=
  if c.started = false then i + 1
  else if c.rr < i then i - c.rr
  else c.sessions.length - c.rr + i

/-- The next ping goes to the session at place `i`, or it brings the turn of that session closer. -/
theorem pingsUntil_next {c : Controller} (hstarted : c.started = true)
    (hturn : c.rr < c.sessions.length) {i : Nat} (hi : i < c.sessions.length) :
    (c.next = i ∧ c.pingsUntil i = 1) ∨
      (c.next ≠ i ∧ c.pingsUntil i = { c with rr := c.next }.pingsUntil i + 1) := by
  have hnext : c.next = if c.rr + 1 = c.sessions.length then 0 else c.rr + 1 := by
    rw [next]
    split
    next hwrap => rw [hwrap, Nat.mod_self]
    next hlt => exact Nat.mod_eq_of_lt (by omega)
  simp only [pingsUntil, hstarted, Bool.true_eq_false, if_false, hnext]
  split_ifs
  all_goals omega

/-- A session that joins does not bring the turn of another closer. -/
theorem pingsUntil_le_append (c : Controller) (sid : SessionId) (i : Nat) :
    c.pingsUntil i ≤ { c with sessions := c.sessions ++ [sid] }.pingsUntil i := by
  simp only [pingsUntil, List.length_append]
  split_ifs
  all_goals omega

end Controller

namespace World

/-- Each ping that was sent while some session was there went to one that was. -/
def PingsAlive (w : World) : Prop := ∀ ping ∈ w.sent, ping.anyAlive = true → ping.alive = true

/-- A session does not end before its last turn. -/
def EndsLate (w : World) : Move → Prop
  | .ends sid => ∀ i, w.client.sessions[i]? = some sid →
      total < w.sent.length + w.client.pingsUntil i
  | _ => True

theorem PingsAlive.after_sendTo {w : World} (h : w.PingsAlive) {sid : SessionId}
    (halive : w.Alive sid) (c : Controller) (pkt : PerfPingPkt) :
    (w.after (c, [.sendTo sid pkt])).PingsAlive := by
  intro ping hping hany
  rcases List.mem_append.mp hping with hold | hnew
  · exact h ping hold hany
  · rw [List.mem_singleton.mp hnew]
    exact decide_eq_true halive

end World

theorem getElem?_place {sessions : List SessionId} {i : Nat} (hi : i < sessions.length) :
    sessions[i]? = some (sessions.getD i 0) := by
  rw [List.getD_eq_getElem?_getD, List.getElem?_eq_getElem hi, Option.getD_some]

/-- The sessions that have ended have had their last turn. -/
structure Passed (w : World) : Prop where
  counted : Counted w
  turn : w.client.started = true → w.client.rr < w.client.sessions.length
  ended : ∀ i sid, w.client.sessions[i]? = some sid → ¬ w.Alive sid →
    total < w.sent.length + w.client.pingsUntil i
  alive : w.PingsAlive

namespace Passed

variable {w : World}

theorem start (target : Int32) : Passed (.start target false) where
  counted := .start target
  turn hstarted := by cases hstarted
  ended i sid hi := by cases hi
  alive ping hping := by cases hping

theorem alive_of_le (h : Passed w) {i : Nat} (hi : i < w.client.sessions.length)
    (hle : w.sent.length + w.client.pingsUntil i ≤ total) :
    w.Alive (w.client.sessions.getD i 0) := by
  by_contra hended
  exact Nat.not_lt.mpr hle (h.ended i _ (getElem?_place hi) hended)

/-- The one place that a handshake adds is that of a session that is there. -/
theorem old_place {sid sid' : SessionId} (halive : w.Alive sid) {i : Nat}
    (hi : (w.client.sessions ++ [sid])[i]? = some sid') (hended : ¬ w.Alive sid') :
    w.client.sessions[i]? = some sid' := by
  rcases Nat.lt_trichotomy i w.client.sessions.length with hlt | rfl | hgt
  · rwa [List.getElem?_append_left hlt] at hi
  · rw [List.getElem?_concat_length] at hi
    cases hi
    exact absurd halive hended
  · rw [List.getElem?_eq_none (by rw [List.length_append, List.length_singleton]; omega)] at hi
    cases hi

theorem handshake (h : Passed w) (hreport : w.report = none) {sid : SessionId}
    (halive : w.Alive sid) (clock : Clock) :
    Passed (w.after (w.client.onHandshakeOk sid clock)) := by
  have hcounted := h.counted.handshake hreport sid clock
  by_cases hstarts : w.client.Starts
  · rw [Controller.onHandshakeOk_of_starts h.counted.mode hstarts] at hcounted ⊢
    have hsent : w.sent = [] := (h.counted.idle hstarts.1).1
    have hplace (i : Nat) (sid' : SessionId) (hi : (w.client.sessions ++ [sid])[i]? = some sid')
        (hended : ¬ w.Alive sid') : total < i + 1 := by
      have hlate := h.ended i sid' (old_place halive hi hended) hended
      rwa [hsent, Controller.pingsUntil, if_pos hstarts.1, List.length_nil, Nat.zero_add] at hlate
    have hlen : 0 < (w.client.sessions ++ [sid]).length := by
      rw [List.length_append]
      exact Nat.succ_pos _
    refine ⟨hcounted, fun _ => hlen, ?_, ?_⟩
    · intro i sid' hi hended
      have hlate := hplace i sid' hi hended
      change total < (w.sent ++ [_]).length + (if 0 < i then i - 0 else _)
      rw [hsent, if_pos (Nat.pos_of_ne_zero (by rintro rfl; exact absurd hlate (by decide)))]
      exact hlate.trans_eq (Nat.add_comm _ _)
    · refine World.PingsAlive.after_sendTo h.alive ?_ _ _
      by_contra hended
      exact absurd (hplace 0 _ (getElem?_place hlen) hended) (by decide)
  · rw [Controller.onHandshakeOk_of_not_starts h.counted.mode hstarts] at hcounted ⊢
    refine ⟨hcounted, ?_, ?_, h.alive⟩
    · intro hstarted
      refine (h.turn hstarted).trans_le ?_
      exact (List.sublist_append_left _ _).length_le
    · intro i sid' hi hended
      refine (h.ended i sid' (old_place halive hi hended) hended).trans_le ?_
      exact Nat.add_le_add_left (w.client.pingsUntil_le_append sid i) _

theorem pong (h : Passed w) (hreport : w.report = none) {k : Nat} {via : SessionId}
    (hanswers : w.Answers k via) (echo : PerfPongPkt) (clock : Clock) :
    Passed (w.step (.pong k via echo clock)) := by
  have hcounted := h.counted.pong hreport hanswers echo clock
  obtain ⟨hstarted, rfl, hseq⟩ := h.counted.pong_seq hreport hanswers echo
  have hsent := (h.counted.waiting hstarted hreport).1
  have hturn := h.turn hstarted
  rw [World.step, if_neg (World.not_exited_iff.mpr ⟨hreport, hanswers⟩)] at hcounted ⊢
  dsimp only at hcounted ⊢
  by_cases hend : kWarmupCount + kMeasureCount ≤ (w.pongFor w.handled.length echo).seq
  · rw [Controller.onPerfPong_of_last h.counted.mode hend] at hcounted ⊢
    exact ⟨hcounted, h.turn, h.ended, h.alive⟩
  · rw [Controller.onPerfPong_of_not_last h.counted.mode hend] at hcounted ⊢
    have hmore : w.sent.length < total := by
      rw [UInt64.le_iff_toNat_le, hseq, ← hsent] at hend
      exact Nat.lt_of_not_le hend
    have hnext : w.client.next < w.client.sessions.length := Nat.mod_lt _ (Nat.zero_lt_of_lt hturn)
    refine ⟨hcounted, fun _ => hnext, ?_, ?_⟩
    · intro i sid hi hended
      have hlate := h.ended i sid hi hended
      have hlen := (List.getElem?_eq_some_iff.mp hi).1
      change total < (w.sent ++ [_]).length + ({ w.client with rr := w.client.next }).pingsUntil i
      rw [List.length_append, List.length_singleton]
      rcases Controller.pingsUntil_next hstarted hturn hlen with ⟨-, hone⟩ | ⟨-, hcloser⟩
      · omega
      · rw [hcloser] at hlate
        exact hlate.trans_eq (Nat.add_right_comm w.sent.length _ 1)
    · refine World.PingsAlive.after_sendTo h.alive (h.alive_of_le hnext ?_) _ _
      rcases Controller.pingsUntil_next hstarted hturn hnext with ⟨-, hone⟩ | ⟨hne, -⟩
      · omega
      · exact absurd rfl hne

theorem step (h : Passed w) (m : Move) (hm : w.EndsLate m) : Passed (w.step m) := by
  cases m with
  | handshake sid clock =>
    rw [World.step]
    split
    · exact h
    next hgo =>
      obtain ⟨hreport, halive⟩ := World.not_exited_iff.mp hgo
      exact h.handshake hreport halive clock
  | ends sid =>
    have hcounted := h.counted.step (.ends sid)
    by_cases hgo : w.report.isSome = true
    · rwa [World.step, if_pos hgo]
    · rw [World.step, if_neg hgo] at hcounted ⊢
      refine ⟨hcounted, h.turn, ?_, h.alive⟩
      intro i sid' hi hended
      rcases List.mem_cons.mp (Classical.not_not.mp hended) with rfl | hold
      · exact hm i hi
      · exact h.ended i sid' hi (Classical.not_not.mpr hold)
  | pong k via echo clock =>
    by_cases hgo : w.report.isSome = true ∨ ¬ w.Answers k via
    · rwa [World.step, if_pos hgo]
    · obtain ⟨hreport, hanswers⟩ := World.not_exited_iff.mp hgo
      exact h.pong hreport hanswers echo clock

theorem run_of_no_ends (h : Passed w) {more : List Move}
    (hmore : ∀ m ∈ more, ∀ other, m ≠ .ends other) : Passed (w.run more) := by
  induction more generalizing w with
  | nil => exact h
  | cons m more ih =>
    obtain ⟨hm, hrest⟩ := List.forall_mem_cons.mp hmore
    refine ih (h.step m ?_) hrest
    cases m with
    | ends sid => exact absurd rfl (hm sid)
    | handshake | pong => trivial

end Passed

/-- A session that has ended and whose turn is still to come, while another is there. -/
structure Doomed (i : Nat) (sid via : SessionId) (w : World) : Prop extends Underway via w where
  turn : w.client.rr < w.client.sessions.length
  place : w.client.sessions[i]? = some sid
  ended : ¬ w.Alive sid
  soon : w.sent.length + w.client.pingsUntil i ≤ total

/-- Pongs on the session that is there bring the turn of the other. -/
theorem Doomed.pings_ended {i : Nat} {sid via : SessionId} {w : World} (h : Doomed i sid via w) :
    ∃ ks : List Nat, ¬ (w.run (ks.map fun k => .pong k via {} {})).PingsAlive := by
  induction hd : w.client.pingsUntil i generalizing w with
  | zero =>
    have hnext := Controller.pingsUntil_next h.started h.turn
      (List.getElem?_eq_some_iff.mp h.place).1
    omega
  | succ d ih =>
    have hmore : w.sent.length < total := by
      have hsoon := h.soon
      omega
    have hreport : w.report = none := Option.eq_none_iff_forall_ne_some.mpr fun r hr =>
      hmore.ne (h.counted.reported r hr).2.2
    have hanswers := h.answers hreport
    obtain ⟨hs, hsessions, hended, -⟩ :=
      World.step_pong_keeps h.counted.mode hreport hanswers {} {}
    obtain ⟨hrr, pkt, hsent⟩ := World.step_pong_sends h.counted hreport hanswers hmore {} {}
    rcases Controller.pingsUntil_next h.started h.turn (List.getElem?_eq_some_iff.mp h.place).1
      with ⟨rfl, -⟩ | ⟨-, hcloser⟩
    · refine ⟨[w.handled.length], fun hall => h.ended ?_⟩
      have hplace : w.client.sessions.getD w.client.next 0 = sid := by
        rw [List.getD_eq_getElem?_getD, h.place, Option.getD_some]
      have hping := hall _ (hsent ▸ List.mem_append_right _ List.mem_cons_self) rfl
      rw [hplace] at hping
      exact of_decide_eq_true hping
    · have hnext : (w.step (.pong w.handled.length via {} {})).client.pingsUntil i = d := by
        rw [hd] at hcloser
        simp only [Controller.pingsUntil] at hcloser ⊢
        rw [hs, hrr, hsessions]
        exact (Nat.succ.inj hcloser).symm
      have hdoomed : Doomed i sid via (w.step (.pong w.handled.length via {} {})) := by
        refine ⟨h.pong hreport, ?_, by rw [hsessions]; exact h.place, ?_, ?_⟩
        · rw [hrr, hsessions]
          exact Nat.mod_lt _ (Nat.zero_lt_of_lt h.turn)
        · rw [World.Alive, hended]
          exact h.ended
        · have hsoon := h.soon
          rw [hnext, hsent, List.length_append, List.length_singleton]
          omega
      obtain ⟨ks, hks⟩ := ih hdoomed hnext
      exact ⟨w.handled.length :: ks, hks⟩

theorem Passed.doomed {i : Nat} {sid via : SessionId} {w : World} (h : Passed w)
    (hstarted : w.client.started = true) (hmem : via ∈ w.client.sessions) (halive : w.Alive via)
    (hne : via ≠ sid) (hi : w.client.sessions[i]? = some sid)
    (hsoon : w.sent.length + w.client.pingsUntil i ≤ total) :
    Doomed i sid via (w.step (.ends sid)) := by
  have hcounted := h.counted.step (.ends sid)
  have hreport : ¬ w.report.isSome = true := by
    intro hsome
    obtain ⟨r, hr⟩ := Option.isSome_iff_exists.mp hsome
    have hsent := (h.counted.reported r hr).2.2
    have hnext := Controller.pingsUntil_next hstarted (h.turn hstarted)
      (List.getElem?_eq_some_iff.mp hi).1
    omega
  rw [World.step, if_neg hreport] at hcounted ⊢
  refine ⟨⟨hcounted, hstarted, hmem, ?_⟩, h.turn hstarted, hi, ?_, hsoon⟩
  · exact fun hended => (List.mem_cons.mp hended).elim hne halive
  · exact fun hgone => hgone List.mem_cons_self

/-- If each session that ends has had its last turn, then the pings go to sessions that are there.
Once the measurement runs, nothing less will do: if a session ends before its last turn while
another is there, then a ping can go to it without any further end. -/
theorem pings_alive_iff (target_sessions_per_worker : Int32) (moves : List Move)
    (hmoves : AllSteps World.step World.EndsLate (.start target_sessions_per_worker false) moves) :
    let w := (World.start target_sessions_per_worker false).run moves
    w.PingsAlive ∧
      ∀ sid via, w.client.started = true → via ∈ w.client.sessions → w.Alive via → via ≠ sid →
        (w.EndsLate (.ends sid) ↔ ∀ more : List Move, (∀ m ∈ more, ∀ other, m ≠ .ends other) →
          ((w.step (.ends sid)).run more).PingsAlive) := by
  intro w
  have h : Passed w := foldl_invariant_of_allSteps (fun _ m hw hm => hw.step m hm) _
    (.start target_sessions_per_worker) moves hmoves
  refine ⟨h.alive, fun sid via hstarted hmem halive hne => ⟨fun hlate more hmore => ?_, ?_⟩⟩
  · exact ((h.step (.ends sid) hlate).run_of_no_ends hmore).alive
  · intro hall i hi
    by_contra hsoon
    have hdoomed : Doomed i sid via (w.step (.ends sid)) :=
      h.doomed hstarted hmem halive hne hi (Nat.le_of_not_lt hsoon)
    obtain ⟨ks, hks⟩ := hdoomed.pings_ended
    refine hks (hall _ fun m hm other => ?_)
    obtain ⟨k, -, rfl⟩ := List.mem_map.mp hm
    exact Move.noConfusion

/-- Two sessions, of which neither has ended, and a third that never joined. -/
theorem pings_alive_iff_two_sessions :
    let w := (World.start 2 false).run
      [.handshake 1 {}, .handshake 2 {}, .ends 3, .pong 0 1 {} {}]
    w.sent.map Ping.sid = [1, 2] ∧ w.PingsAlive ∧
      ∃ more : List Move, (∀ m ∈ more, ∀ other, m ≠ .ends other) ∧
        ¬ ((w.step (.ends 1)).run more).PingsAlive := by
  obtain ⟨halive, hexact⟩ := pings_alive_iff 2
    [.handshake 1 {}, .handshake 2 {}, .ends 3, .pong 0 1 {} {}]
    ⟨trivial, trivial, fun i hi => absurd (List.mem_of_getElem? hi) (by decide), trivial, trivial⟩
  have hsoon := mt (hexact 1 2 (by decide) (by decide) (by decide) (by decide)).mpr
    fun hlate => absurd (hlate 0 (by decide)) (by decide)
  push Not at hsoon
  exact ⟨by decide, halive, hsoon⟩

/-- Two sessions, of which the second ends; after the answer to the first ping it has its turn,
though the first is still there. -/
theorem ping_to_ended_session :
    let w := (World.start 2 false).run
      [.handshake 1 {}, .handshake 2 {}, .ends 2, .pong 0 1 {} {}]
    w.Alive 1 ∧ ¬ w.Alive 2 ∧
      w.sent.map (fun ping => (ping.sid, ping.alive, ping.anyAlive)) =
        [(1, true, true), (2, false, true)] := by
  decide

end HyperNet.Loadgen
