import HyperNet.Connector.DialLog

/-!
# How often a dial connects, and what it reports

`dialStartAttempt_` is meant to be called once or twice for a dial: its documentation has "at
most one retry".  But an error event of the first attempt arms a retry and leaves the timeout
of that attempt armed, which arms a second one; and the failed socket stays registered, so
that another event may arm more.  The attempts of a dial are bounded in the runs in which
every retry that fires finds its dial in attempt 0, and in no others (`attempts_bounded_iff`).

Likewise the event after the one that reported an error finds `SO_ERROR` cleared, and the
dial is reported to be connected.  `reports_truthful_iff` says that this is the only way to
such a report.
-/

namespace HyperNet.Connector

open Reentrant

variable {κ : Type}

/-- Histories of sockets do not matter to the bookkeeping. -/
theorem Track.note_counts (x : Track κ) (reported : List Nat) (promoted : List (Nat × Nat)) :
    Counts True x { x with reported, promoted } :=
  ⟨Nat.le_refl _, fun _ hk => hk, fun _ _ h => { h with }⟩

namespace Dialer

/-! ## Readiness events -/

/-- The manager gets to keep a session for the socket of a dial, and its id is valid. -/
def Creates (w : Dialer κ) : Prop :=
  w.memory.headD true = true ∧ w.ctls.tail.headD none = none ∧ w.nextSessionId ≠ 0

theorem getsockopt_cases (w : Dialer κ) {fd : Int} {n : Nat} (hfile : w.files fd = some n) :
    (w.sockopts.headD true = false ∧
      w.getsockopt fd = ({ w with sockopts := w.sockopts.tail }, none)) ∨
    (w.sockopts.headD true = true ∧
      w.getsockopt fd = ({ w with
        soError := fun n' => if n' = n then 0 else w.soError n'
        sockopts := w.sockopts.tail
        reported := if w.soError n = 0 then w.reported else w.reported ++ [n] },
        some (w.soError n))) := by
  unfold getsockopt
  rw [hfile]
  cases w.sockopts.headD true with
  | false => exact .inl ⟨rfl, rfl⟩
  | true => exact .inr ⟨rfl, rfl⟩

section Events

variable {app : DialCallback κ → Dialer κ → Dialer κ} {w : Dialer κ} {fd : Int} {id : DialId}
  {n : Nat} {st : DialState κ}

theorem onAccepted_snd (w : Dialer κ) {s : Socket} (hfd : 0 ≤ s.fd) :
    (onAccepted app (some s) w).2 =
      if w.memory.headD true = true ∧ w.ctls.headD none = none then w.nextSessionId else 0 := by
  unfold onAccepted
  extract_lets sid created w₁
  cases hcreated : created with
  | false => exact (if_neg fun hboth => Bool.noConfusion (hcreated.symm.trans hboth.1)).symm
  | true =>
    dsimp only
    rw [if_neg Bool.noConfusion]
    rcases w₁.loop.addFd_cases w₁.ctl s.fd sessionMask (some (.session s.serial)) with
      ⟨c, -, -, hctl, heq⟩ | ⟨⟨e, heq⟩, hnot⟩
    · rw [heq]
      exact (if_pos ⟨hcreated, hctl⟩).symm
    · rw [heq]
      exact (if_neg fun hboth => hnot ⟨hfd, rfl, hboth.2⟩).symm

/-- The socket of a registered dial is handed to the manager. -/
theorem hand_snd_ne_zero (hfd : 0 ≤ fd) (hsock : st.sock = some ⟨fd, n⟩)
    (hreg : st.connectedEventRegistered = true) :
    (onAccepted app st.sock ((deregister st w).setDial id st.finished)).2 ≠ 0 ↔ w.Creates := by
  have hderegister : deregister st w = w.removeFd fd := by
    unfold deregister
    rw [hsock]
    exact if_pos hreg
  rw [hsock, hderegister, onAccepted_snd _ hfd]
  change (if w.memory.headD true = true ∧ w.ctls.tail.headD none = none then w.nextSessionId
    else 0) ≠ 0 ↔ _
  split
  next hboth => exact ⟨fun hne => ⟨hboth.1, hboth.2, hne⟩, fun hc => hc.2.2⟩
  next hnot => exact iff_of_false (fun hne => hne rfl) fun hc => hnot ⟨hc.1, hc.2.1⟩

variable (happ : ∀ c w, Logs True w (app c w))
include happ

theorem hand_logs (w : Dialer κ) (id : DialId) (st : DialState κ) :
    Track.Logs True (w.track.setDial id st.finished)
      (onAccepted app st.sock ((deregister st w).setDial id st.finished)).1.track := by
  rw [← track_hand]
  exact onAccepted_logs happ st.sock _

/-- A dial that waits is reported to be connected. -/
theorem finishDialOk_cases (hid : w.dials id = some st) (hst : st.completed = false)
    (hfd : 0 ≤ fd) (hsock : st.sock = some ⟨fd, n⟩) (hreg : st.connectedEventRegistered = true) :
    (¬ w.Creates ∧ Logs True w (finishDialOk app id st.attemptIndex w)) ∨
    (w.Creates ∧ ∃ x, Track.Logs True (w.track.setDial id st.finished) x ∧
      Track.Logs True { x with promoted := x.promoted ++ [(st.serial, n)] }
        (finishDialOk app id st.attemptIndex w).track) := by
  have hcreates : (onAccepted app st.sock ((deregister st w).setDial id st.finished)).2 ≠ 0 ↔
      w.Creates := hand_snd_ne_zero hfd hsock hreg
  have hhand := hand_logs happ w id st
  rw [finishDialOk_eq app hid hst]
  generalize onAccepted app st.sock ((deregister st w).setDial id st.finished) = r
    at hcreates hhand ⊢
  dsimp only
  by_cases hzero : r.2 = 0
  · rw [if_pos hzero]
    refine .inl ⟨fun hc => hcreates.mpr hc hzero, ?_⟩
    exact ((Track.finish_logs hid).trans hhand).trans (conclude_logs happ id _ _ _)
  · rw [if_neg hzero, hsock]
    refine .inr ⟨hcreates.mp hzero, r.1.track, hhand, ?_⟩
    exact conclude_logs happ id _ _
      { r.1 with promoted := r.1.promoted ++ [(st.serial, n)] }

/-- What an event of a dial's socket comes to: an error is noted, or the socket is handed on
and reported. -/
theorem handleEvent_cases (h : w.AtRest) (hid : w.dials id = some st)
    (hsock : st.sock = some ⟨fd, n⟩) (hreg : st.connectedEventRegistered = true) :
    (¬ (w.sockopts.headD true = true ∧ w.soError n = 0 ∧ w.Creates) ∧
      ∃ reported, (reported = w.reported ∨ reported = w.reported ++ [n]) ∧
        Track.Logs True { w.track with reported } (handleEvent app id fd w).track) ∨
    ((w.sockopts.headD true = true ∧ w.soError n = 0 ∧ w.Creates) ∧
      ∃ x, Track.Logs True (w.track.setDial id st.finished) x ∧
        Track.Logs True { x with promoted := x.promoted ++ [(st.serial, n)] }
          (handleEvent app id fd w).track) := by
  have hst := h.open_dials hid
  have hfile := (h.sound.held hid hsock).2.1
  unfold handleEvent
  rw [hid]
  dsimp only
  rw [if_neg (Bool.not_eq_true _ ▸ hst)]
  rcases w.getsockopt_cases hfile with ⟨hfails, heq⟩ | ⟨hworks, heq⟩
  · rw [heq]
    refine .inl ⟨fun hbad => Bool.noConfusion (hfails.symm.trans hbad.1), w.reported, .inl rfl, ?_⟩
    exact finishDialFail_logs happ id _ _ { w with sockopts := w.sockopts.tail }
  · rw [heq]
    dsimp only
    by_cases hzero : w.soError n = 0
    · rw [if_neg (not_not_intro hzero), if_pos hzero]
      have hok := finishDialOk_cases happ (w := { w with
        soError := fun n' => if n' = n then 0 else w.soError n', sockopts := w.sockopts.tail })
        hid hst (h.sound.nonneg hfile) hsock hreg
      refine hok.imp (fun hnot => ⟨fun hbad => hnot.1 hbad.2.2, w.reported, .inl rfl, hnot.2⟩) ?_
      exact fun hyes => ⟨⟨hworks, hzero, hyes.1⟩, hyes.2⟩
    · rw [if_pos hzero, if_neg hzero]
      refine .inl ⟨fun hbad => hzero hbad.2.1, w.reported ++ [n], .inr rfl, ?_⟩
      generalize hw₁ : { w with
        soError := fun n' => if n' = n then 0 else w.soError n'
        sockopts := w.sockopts.tail
        reported := w.reported ++ [n] } = w₁
      have htrack : w₁.track = { w.track with reported := w.reported ++ [n] } := hw₁ ▸ rfl
      have hid₁ : w₁.dials id = some st := hw₁ ▸ hid
      rw [← htrack]
      split
      next honce =>
        rw [honce.2]
        exact retry_logs hid₁ honce.1 _
      next => exact finishDialFail_logs happ id _ _ w₁

end Events

/-! ## Steps -/

theorem app_logs (t : DialStep κ) (c : DialCallback κ) (w : Dialer κ) : Logs True w (t.app c w) :=
  respond_rel (fun _ => .refl _) (fun h h' => h.trans h') (fun a _ w happ => call_logs happ a w)
    t.user c w

/-- A retry that fires finds its dial in the attempt before. -/
def RetriesInTime (w : Dialer κ) (t : DialStep κ) : Prop := ∀ i, t.input = .timer i → w.InTime i

variable {w : Dialer κ}

/-- Every step but a readiness event of a dial. -/
theorem step_logs {t : DialStep κ}
    (h : ∀ fd ctx id n, t.input = .ready fd → w.loop.fdContexts fd = some ctx →
      ctx.handler ≠ .dial id n) : Logs (w.RetriesInTime t) w (step w t) := by
  have happ := app_logs t
  change Logs _ (w.answered t) (t.input.exec t.app (w.answered t))
  cases hinput : t.input with
  | post opt cb => exact .refl _
  | runTask => exact (runTask_logs happ _).mono fun _ => trivial
  | timer i => exact (fire_logs happ i (w.answered t)).mono fun hintime => hintime i hinput
  | socketError n err => exact .refl _
  | accept fd => exact (accept_logs happ fd _).mono fun _ => trivial
  | closeSession id => exact (closeSession_logs happ id _).mono fun _ => trivial
  | task client =>
    refine Track.Logs.mono ?_ fun _ => trivial
    exact Script.run_rel (R := Logs True) (fun _ => .refl _) (fun h h' => h.trans h')
      (fun a _ w happ => call_logs happ a w) client _
  | ready fd =>
    change Logs _ (w.answered t) (ready t.app fd (w.answered t))
    unfold ready
    cases hctx : (w.answered t).loop.fdContexts fd with
    | none => exact .refl _
    | some ctx =>
      dsimp only
      cases hhandler : ctx.handler with
      | dial id n => exact absurd hhandler (h fd ctx id n hinput hctx)
      | session n => exact .refl _

theorem AtRest.answered (h : w.AtRest) (t : DialStep κ) : (w.answered t).AtRest :=
  h.goes (Goes.refl w)

/-- A readiness event of a dial. -/
theorem AtRest.ready (h : w.AtRest) {t : DialStep κ} {fd : Int} {ctx : Net.FdContext DialHandler}
    {id : DialId} {n : Nat} (hinput : t.input = .ready fd) (hctx : w.loop.fdContexts fd = some ctx)
    (hhandler : ctx.handler = .dial id n) :
    step w t = handleEvent t.app id fd (w.answered t) ∧
      ∃ st, w.dials id = some st ∧ st.sock = some ⟨fd, n⟩ ∧ st.connectedEventRegistered = true := by
  refine ⟨?_, h.sound.dialContext ((congrArg (Option.map _) hctx).trans (congrArg some hhandler))⟩
  change t.input.exec t.app (w.answered t) = _
  rw [hinput]
  change Dialer.ready t.app fd (w.answered t) = _
  unfold Dialer.ready
  rw [show (w.answered t).loop.fdContexts fd = some ctx from hctx]
  dsimp only
  rw [hhandler]

/-! ## The number of attempts -/

/-- Events do not touch the bookkeeping. -/
theorem step_counts (h : w.AtRest) (t : DialStep κ) :
    Track.Counts (w.RetriesInTime t) w.track (step w t).track := by
  by_cases hready : ∃ fd ctx id n, t.input = .ready fd ∧ w.loop.fdContexts fd = some ctx ∧
      ctx.handler = .dial id n
  · obtain ⟨fd, ctx, id, n, hinput, hctx, hhandler⟩ := hready
    obtain ⟨hstep, st, hid, hsock, hreg⟩ := h.ready hinput hctx hhandler
    rw [hstep]
    refine Track.Counts.mono ?_ fun _ => trivial
    rcases handleEvent_cases (app_logs t) (h.answered t) hid hsock hreg with
      ⟨-, reported, -, hlogs⟩ | ⟨-, x, hhand, hlogs⟩
    · exact (Track.note_counts w.track reported w.promoted).trans hlogs.toCounts
    · have hfinish := (Track.finish_logs (x := w.track) hid).trans hhand
      exact (hfinish.toCounts.trans (Track.note_counts x _ _)).trans hlogs.toCounts
  · push Not at hready
    exact (step_logs hready).toCounts

/-- A retry that comes too late clears an attempt away. -/
theorem torn_of_not_inTime (h : w.AtRest) (hx : w.track.Counted) {t : DialStep κ}
    (hlate : ¬ w.RetriesInTime t) : (step w t).torn ≠ [] := by
  unfold RetriesInTime InTime at hlate
  push Not at hlate
  obtain ⟨i, hinput, id, attempt, delay, st, ht, hid, hge⟩ := hlate
  have hst := h.open_dials hid
  obtain ⟨rfl, -, -⟩ := hx.retries (List.mem_of_getElem? ht)
  have hsock : st.sock.isSome = true := by
    rcases hx.index hid hst with hzero | hone
    · rw [hzero] at hge
      exact absurd hge (by decide)
    · exact hone.2.2
  have hstep : step w t = dialStartAttempt t.app id 1
      { w.answered t with timers := w.timers.eraseIdx i } := by
    change t.input.exec t.app (w.answered t) = _
    rw [hinput]
    change fire t.app i (w.answered t) = _
    unfold fire
    rw [show (w.answered t).timers[i]? = some (.retry id 1 delay) from ht]
    rfl
  have hlogs := dialStartAttempt_tear (app_logs t)
    (w := { w.answered t with timers := w.timers.eraseIdx i }) hid hst 1
  have hmem : st.serial ∈ w.torn ++ Track.tearing st 1 := by
    rw [Track.tearing, if_pos ⟨hsock, hge⟩]
    exact List.mem_append_right _ (List.mem_singleton_self _)
  rw [hstep]
  exact List.ne_nil_of_mem (hlogs.torn hmem)

theorem counted_init (ownerWorkerId : UInt32) :
    ({ ownerWorkerId } : Dialer κ).track.Counted where
  torn := rfl
  limit h := by cases h
  numbered h := absurd h List.not_mem_nil
  next := rfl
  issued h := by cases h
  filed h := by cases h
  inj h := by cases h
  count h := by cases h
  index h := by cases h
  retries h := absurd h List.not_mem_nil

/-- Dials connect as often as they may, and no attempt is cleared away by a retry that is not
its own, if and only if every retry that fires finds its dial in the attempt before. -/
theorem attempts_bounded_iff (ownerWorkerId : UInt32) (steps : List (DialStep κ))
    (hids : (run ownerWorkerId steps).issued ≤ 2 ^ 64) :
    ((run ownerWorkerId steps).torn = [] ∧
      ∀ k opt cb, (run ownerWorkerId steps).requests[k]? = some (opt, cb) →
        (run ownerWorkerId steps).attempts.count k ≤ opt.totalAttempts) ↔
    AllSteps step RetriesInTime { ownerWorkerId } steps := by
  have hrun : (AllSteps step RetriesInTime { ownerWorkerId } steps ∧ _) ∨ _ :=
    allSteps_or_broken (I := fun w : Dialer κ => w.AtRest ∧ (w.issued ≤ 2 ^ 64 → w.track.Counted))
      (B := fun w : Dialer κ => w.AtRest ∧ (w.issued ≤ 2 ^ 64 → w.torn ≠ [])) ?_ ?_ ?_
      { ownerWorkerId } ⟨atRest_init ownerWorkerId, fun _ => counted_init ownerWorkerId⟩ steps
  · rcases hrun with ⟨hall, -, hcounted⟩ | ⟨hnot, -, htorn⟩
    · have hcounted := hcounted hids
      exact iff_of_true ⟨hcounted.torn, fun k opt cb => hcounted.limit⟩ hall
    · exact iff_of_false (fun hok => htorn hids hok.1) hnot
  · rintro w t ⟨hrest, hcounted⟩ hintime
    have hcounts := step_counts hrest t
    refine ⟨hrest.goes (step_goes w t), fun hids => ?_⟩
    exact hcounts.counted hintime hids (hcounted (Nat.le_trans hcounts.issued hids))
  · rintro w t ⟨hrest, hcounted⟩ hlate
    have hcounts := step_counts hrest t
    refine ⟨hrest.goes (step_goes w t), fun hids => ?_⟩
    exact torn_of_not_inTime hrest (hcounted (Nat.le_trans hcounts.issued hids)) hlate
  · rintro w t ⟨hrest, htorn⟩
    have hcounts := step_counts hrest t
    refine ⟨hrest.goes (step_goes w t), fun hids hnil => ?_⟩
    refine htorn (Nat.le_trans hcounts.issued hids) (List.eq_nil_iff_forall_not_mem.mpr ?_)
    intro k hk
    have hmem : k ∈ (step w t).torn := hcounts.torn hk
    rw [hnil] at hmem
    exact List.not_mem_nil hmem

/-- A dial to a peer that refuses the connection, up to the event that says so. -/
def refused : List (DialStep Unit) :=
  [{ input := .task (.sequence
      [.dialTcpSession { host := "10.0.0.1", port := 80, retryOnce := true } (some ())])
     fds := [some 5] },
   { input := .socketError 0 111 },
   { input := .ready 5 }]

/-- The retry fires, and the dial waits again. -/
def retried : List (DialStep Unit) := refused ++ [{ input := .timer 1, fds := [some 6] }]

theorem attempts_bounded_retried :
    (run 1 retried).issued ≤ 2 ^ 64 ∧
    (((run 1 retried).torn = [] ∧
      ∀ k opt cb, (run 1 retried).requests[k]? = some (opt, cb) →
        (run 1 retried).attempts.count k ≤ opt.totalAttempts) ↔
    AllSteps step RetriesInTime { ownerWorkerId := 1 } retried) :=
  ⟨by decide, attempts_bounded_iff 1 retried (by decide)⟩

/-- The timeout of the first attempt comes before the retry and arms another one.  Both fire. -/
def retriedTwice : List (DialStep Unit) :=
  refused ++ [{ input := .timer 0 }, { input := .timer 0, fds := [some 6] },
    { input := .timer 0, fds := [some 7] }]

theorem three_attempts :
    (run 1 retriedTwice).torn = [0] ∧ (run 1 retriedTwice).attempts.count 0 = 3 ∧
      (run 1 retriedTwice).requests[0]?.map (·.1.totalAttempts) = some 2 := by
  decide

end Dialer

/-! ## Reports -/

namespace Track

/-- Reports were right, and stay so: no dial has a socket that was reported to be connected
and could still report an error. -/
structure Truthful (x : Track κ) : Prop where
  immediate : ∀ n ∈ x.immediate, n < x.sockets
  held : ∀ {id st s}, x.dials id = some st → st.sock = some s →
    s.serial < x.sockets ∧ s.serial ∉ x.immediate
  promoted : ∀ p ∈ x.promoted, p.2 ∈ x.immediate ∨ (p.2 ∉ x.reported ∧ p.2 < x.sockets ∧
    ∀ id st s, x.dials id = some st → st.sock = some s → s.serial ≠ p.2)

/-- A socket that had reported an error was reported to be connected. -/
structure Misreports (x : Track κ) (p : Nat × Nat) : Prop where
  promoted : p ∈ x.promoted
  not_immediate : p.2 ∉ x.immediate
  reported : p.2 ∈ x.reported
  lt_sockets : p.2 < x.sockets

section Reports

variable {x y : Track κ} {ok : Prop}

theorem Truthful.logs (h : x.Truthful) (hl : Logs ok x y) : y.Truthful where
  immediate n hn := by
    rcases hl.immediate n hn with hold | hnew
    · exact Nat.lt_of_lt_of_le (h.immediate n hold) hl.sockets
    · exact hnew.2
  held hid hs := by
    rcases hl.held hid hs with ⟨st₀, hid₀, hs₀⟩ | ⟨hle, hlt, himm⟩
    · obtain ⟨hlt, hnot⟩ := h.held hid₀ hs₀
      refine ⟨Nat.lt_of_lt_of_le hlt hl.sockets, fun hmem => ?_⟩
      rcases hl.immediate _ hmem with hold | hnew
      · exact hnot hold
      · exact absurd hlt (Nat.not_lt.mpr hnew.1)
    · exact ⟨hlt, fun hmem => absurd (h.immediate _ (himm hmem)) (Nat.not_lt.mpr hle)⟩
  promoted p hp := by
    rcases hl.promoted p hp with hold | hnew
    · rcases h.promoted p hold with himm | ⟨hnot, hlt, hfree⟩
      · exact .inl (hl.immediate_sub himm)
      · refine .inr ⟨hl.reported ▸ hnot, Nat.lt_of_lt_of_le hlt hl.sockets, ?_⟩
        intro id st s hid hs
        rcases hl.held hid hs with ⟨st₀, hid₀, hs₀⟩ | ⟨hle, -, -⟩
        · exact hfree id st₀ s hid₀ hs₀
        · exact Nat.ne_of_gt (Nat.lt_of_lt_of_le hlt hle)
    · exact .inl hnew

/-- A dial's socket reports an error. -/
theorem Truthful.report (h : x.Truthful) {id : DialId} {st : DialState κ} {s : Socket}
    (hid : x.dials id = some st) (hs : st.sock = some s) :
    Truthful { x with reported := x.reported ++ [s.serial] } where
  __ := h
  promoted p hp := by
    refine (h.promoted p hp).imp_right fun ⟨hnot, hrest⟩ => ⟨fun hmem => ?_, hrest⟩
    rcases List.mem_append.mp hmem with hold | hnew
    · exact hnot hold
    · exact hrest.2 id st s hid hs (List.mem_singleton.mp hnew).symm

/-- A socket that no dial has any more is reported to be connected. -/
theorem Truthful.promote (h : x.Truthful) {p : Nat × Nat} (hnot : p.2 ∉ x.reported)
    (hlt : p.2 < x.sockets)
    (hfree : ∀ id st s, x.dials id = some st → st.sock = some s → s.serial ≠ p.2) :
    Truthful { x with promoted := x.promoted ++ [p] } where
  __ := h
  promoted q hq := by
    rcases List.mem_append.mp hq with hold | hnew
    · exact h.promoted q hold
    · cases List.mem_singleton.mp hnew
      exact .inr ⟨hnot, hlt, hfree⟩

theorem Misreports.logs {p : Nat × Nat} (h : x.Misreports p) (hl : Logs ok x y) :
    y.Misreports p where
  promoted := hl.promoted_sub h.promoted
  not_immediate hmem := by
    rcases hl.immediate _ hmem with hold | hnew
    · exact h.not_immediate hold
    · exact absurd h.lt_sockets (Nat.not_lt.mpr hnew.1)
  reported := hl.reported ▸ h.reported
  lt_sockets := Nat.lt_of_lt_of_le h.lt_sockets hl.sockets

end Reports

end Track

namespace Dialer

/-- An event finds no error of a dial's socket that has reported one before, and the manager
makes a session for it. -/
def Misled (w : Dialer κ) (t : DialStep κ) : Prop :=
  ∃ fd ctx id n, t.input = .ready fd ∧ w.loop.fdContexts fd = some ctx ∧
    ctx.handler = .dial id n ∧ n ∈ w.reported ∧ t.sockopts.headD true = true ∧
    w.soError n = 0 ∧ (w.answered t).Creates

/-- The dials that have one socket are one dial. -/
theorem AtRest.holder {w : Dialer κ} (h : w.AtRest) {id id' : DialId} {st st' : DialState κ}
    {s s' : Socket} (hid : w.dials id = some st) (hs : st.sock = some s)
    (hid' : w.dials id' = some st') (hs' : st'.sock = some s') (heq : s'.serial = s.serial) :
    id' = id := by
  have hopen := (h.sound.held hid hs).2.1
  have hopen' := (h.sound.held hid' hs').2.1
  have hfd := h.sound.inj (heq ▸ hopen') hopen
  exact h.sound.holder hid hs hid' (Wiring.eq_of_fd hopen hopen' hfd ▸ hs')

section Reports

variable {w : Dialer κ} {t : DialStep κ}

/-- The socket that is handed on is no dial's any more. -/
theorem AtRest.not_held {id : DialId} {st : DialState κ} {s : Socket} {x : Track κ}
    (h : w.AtRest) (ht : w.track.Truthful) (hid : w.dials id = some st) (hs : st.sock = some s)
    (hhand : Track.Logs True (w.track.setDial id st.finished) x) (id' : DialId)
    (st' : DialState κ) (s' : Socket) (hid' : x.dials id' = some st') (hs' : st'.sock = some s') :
    s'.serial ≠ s.serial := by
  intro heq
  rcases hhand.held hid' hs' with ⟨st₀, hid₀, hs₀⟩ | ⟨hle, -, -⟩
  · rcases Track.of_setDial hid₀ with ⟨-, rfl⟩ | ⟨hne, hid₀⟩
    · cases hs₀
    · exact hne (h.holder hid hs hid₀ hs₀ heq)
  · exact absurd (ht.held hid hs).1 (Nat.not_lt.mpr (heq ▸ hle))

/-- Reports stay right until one is misled, … -/
theorem AtRest.truthful_step (h : w.AtRest) (ht : w.track.Truthful) (hnot : ¬ w.Misled t) :
    (step w t).track.Truthful := by
  by_cases hready : ∃ fd ctx id n, t.input = .ready fd ∧ w.loop.fdContexts fd = some ctx ∧
      ctx.handler = .dial id n
  · obtain ⟨fd, ctx, id, n, hinput, hctx, hhandler⟩ := hready
    obtain ⟨hstep, st, hid, hsock, hreg⟩ := h.ready hinput hctx hhandler
    rw [hstep]
    rcases handleEvent_cases (app_logs t) (h.answered t) hid hsock hreg with
      ⟨-, reported, hreported, hlogs⟩ | ⟨⟨hworks, hzero, hcreates⟩, x, hhand, hlogs⟩
    · refine Track.Truthful.logs ?_ hlogs
      rcases hreported with rfl | rfl
      · exact ht
      · exact ht.report hid hsock
    · have hx := ht.logs ((Track.finish_logs (x := w.track) hid).trans hhand)
      have hreported : x.reported = w.reported := hhand.reported
      have hn : n ∉ x.reported := fun hmem =>
        hnot ⟨fd, ctx, id, n, hinput, hctx, hhandler, hreported ▸ hmem, hworks, hzero, hcreates⟩
      have hlt := Nat.lt_of_lt_of_le (ht.held hid hsock).1 hhand.sockets
      exact (hx.promote hn hlt (h.not_held ht hid hsock hhand)).logs hlogs
  · push Not at hready
    exact ht.logs (step_logs hready)

/-- … and then one is wrong. -/
theorem AtRest.misreports_step (h : w.AtRest) (ht : w.track.Truthful) (hmisled : w.Misled t) :
    ∃ p, (step w t).track.Misreports p := by
  obtain ⟨fd, ctx, id, n, hinput, hctx, hhandler, hmem, hbad⟩ := hmisled
  obtain ⟨hstep, st, hid, hsock, hreg⟩ := h.ready hinput hctx hhandler
  rw [hstep]
  rcases handleEvent_cases (app_logs t) (h.answered t) hid hsock hreg with
    ⟨hnot, -⟩ | ⟨-, x, hhand, hlogs⟩
  · exact absurd hbad hnot
  · obtain ⟨hlt, himm⟩ := ht.held hid hsock
    refine ⟨(st.serial, n), Track.Misreports.logs ⟨?_, fun hx => ?_, ?_, ?_⟩ hlogs⟩
    · exact List.mem_append_right _ (List.mem_singleton_self _)
    · rcases hhand.immediate n hx with hold | hnew
      · exact himm hold
      · exact absurd hlt (Nat.not_lt.mpr hnew.1)
    · exact hhand.reported.symm ▸ hmem
    · exact Nat.lt_of_lt_of_le hlt hhand.sockets

theorem AtRest.misreports_stays (h : w.AtRest) {p : Nat × Nat} (hp : w.track.Misreports p) :
    (step w t).track.Misreports p := by
  by_cases hready : ∃ fd ctx id n, t.input = .ready fd ∧ w.loop.fdContexts fd = some ctx ∧
      ctx.handler = .dial id n
  · obtain ⟨fd, ctx, id, n, hinput, hctx, hhandler⟩ := hready
    obtain ⟨hstep, st, hid, hsock, hreg⟩ := h.ready hinput hctx hhandler
    rw [hstep]
    rcases handleEvent_cases (app_logs t) (h.answered t) hid hsock hreg with
      ⟨-, reported, hreported, hlogs⟩ | ⟨-, x, hhand, hlogs⟩
    · refine Track.Misreports.logs ?_ hlogs
      refine ⟨hp.promoted, hp.not_immediate, ?_, hp.lt_sockets⟩
      rcases hreported with rfl | rfl
      · exact hp.reported
      · exact List.mem_append_left _ hp.reported
    · have hx := hp.logs ((Track.finish_logs (x := w.track) hid).trans hhand)
      refine Track.Misreports.logs ?_ hlogs
      exact ⟨List.mem_append_left _ hx.promoted, hx.not_immediate, hx.reported, hx.lt_sockets⟩
  · push Not at hready
    exact hp.logs (step_logs hready)

end Reports

theorem truthful_init (ownerWorkerId : UInt32) :
    ({ ownerWorkerId } : Dialer κ).track.Truthful where
  immediate _ h := absurd h List.not_mem_nil
  held h := by cases h
  promoted _ h := absurd h List.not_mem_nil

/-- A dial is reported to be connected only if `connect` said so at once or its socket never
reported an error, if and only if no event is misled. -/
theorem reports_truthful_iff (ownerWorkerId : UInt32) (steps : List (DialStep κ)) :
    (∀ p ∈ (run ownerWorkerId steps).promoted, p.2 ∈ (run ownerWorkerId steps).immediate ∨
      p.2 ∉ (run ownerWorkerId steps).reported) ↔
    AllSteps step (fun w t => ¬ w.Misled t) { ownerWorkerId } steps := by
  have hrun : (AllSteps step (fun w t => ¬ w.Misled t) { ownerWorkerId } steps ∧ _) ∨ _ :=
    allSteps_or_broken (I := fun w : Dialer κ => w.AtRest ∧ w.track.Truthful)
      (B := fun w : Dialer κ => w.AtRest ∧ ∃ p, w.track.Misreports p) ?_ ?_ ?_
      { ownerWorkerId } ⟨atRest_init ownerWorkerId, truthful_init ownerWorkerId⟩ steps
  · rcases hrun with ⟨hall, -, htruthful⟩ | ⟨hnot, -, p, hp⟩
    · exact iff_of_true (fun p hp => (htruthful.promoted p hp).imp_right And.left) hall
    · refine iff_of_false (fun hok => ?_) hnot
      exact (hok p hp.promoted).elim hp.not_immediate fun hreported => hreported hp.reported
  · rintro w t ⟨hrest, htruthful⟩ hnot
    exact ⟨hrest.goes (step_goes w t), hrest.truthful_step htruthful hnot⟩
  · rintro w t ⟨hrest, htruthful⟩ hmisled
    exact ⟨hrest.goes (step_goes w t), hrest.misreports_step htruthful (not_not.mp hmisled)⟩
  · rintro w t ⟨hrest, p, hp⟩
    exact ⟨hrest.goes (step_goes w t), p, hrest.misreports_stays hp⟩

/-- The socket of the refused connection gets another event. -/
def readyTwice : List (DialStep Unit) := refused ++ [{ input := .ready 5 }]

theorem refused_reported_connected :
    (run 1 readyTwice).promoted = [(0, 0)] ∧ (run 1 readyTwice).immediate = [] ∧
      (run 1 readyTwice).reported = [0] ∧
      (run 1 readyTwice).invoked = [(0, (), ⟨true, 0x100000001, .text ""⟩)] := by
  decide

end Dialer

end HyperNet.Connector
