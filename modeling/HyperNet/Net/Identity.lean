import HyperNet.Net.Paths

/-!
# The identity of sessions

`nextSessionId_` puts the worker's number over a counter of 64 bits and
`ownerWorkerFromId` takes the upper 32 bits for the worker.  The two agree as long as
the counter stays in its half: `identified_iff` says for which numbers of connections
the ids of any workers are distinct, not zero, and name their worker, whatever the
workers do.  The bound is sharp, and what happens there is not exotic: it is reached by
one connection that comes and goes often enough.
-/

namespace HyperNet.Net

open Reentrant

/-! ## Ids and their owners -/

theorem toInt_ownerWorkerFromId {id : UInt64} (h : id.toNat / 2 ^ 32 < 2 ^ 31) :
    (ownerWorkerFromId id).toInt = (id.toNat / 2 ^ 32 : Nat) := by
  have hnat : ((id >>> 32) &&& 0xFFFFFFFF).toUInt32.toNat = id.toNat / 2 ^ 32 := by
    rw [UInt64.toNat_toUInt32, UInt64.toNat_and, UInt64.toNat_shiftRight,
      show (32 : UInt64).toNat % 64 = 32 from rfl,
      show (0xFFFFFFFF : UInt64).toNat = 2 ^ 32 - 1 from rfl, Nat.and_two_pow_sub_one_eq_mod,
      Nat.mod_mod, Nat.shiftRight_eq_div_pow, Nat.mod_eq_of_lt (by omega)]
  have hlt : 2 * ((id >>> 32) &&& 0xFFFFFFFF).toUInt32.toBitVec.toNat < 2 ^ 32 := by
    change 2 * ((id >>> 32) &&& 0xFFFFFFFF).toUInt32.toNat < 2 ^ 32
    rw [hnat]
    omega
  rw [← hnat]
  exact BitVec.toInt_eq_toNat_of_lt hlt

/-- The id of a session is not zero and names its worker, up to the bound. -/
theorem sessionId_owner {wid : UInt32} {c : Nat} (hwid : wid.toNat < 2 ^ 31) (hpos : 0 < c)
    (hc : c < idSpace wid) :
    sessionId wid c ≠ 0 ∧ (ownerWorkerFromId (sessionId wid c)).toInt = wid.toNat := by
  have hnat := toNat_sessionId_of_lt hc
  have hdiv : (sessionId wid c).toNat / 2 ^ 32 = wid.toNat := by
    rw [hnat]
    omega
  constructor
  · intro hzero
    rw [hzero] at hnat
    unfold idSpace at hc
    change 0 = _ at hnat
    omega
  · rw [toInt_ownerWorkerFromId (by rw [hdiv]; exact hwid), hdiv]

/-! ## Several workers -/

section Workers

variable {ι : Type}

/-- The sessions of some workers can be told apart by their ids, and so can the workers;
a handle kept after its session has ended leads nowhere. -/
structure Identified (w : ι → World) : Prop where
  distinct : ∀ i o j o', o < (w i).created → o' < (w j).created →
    ((w i).obj o).id = ((w j).obj o').id → i = j ∧ o = o'
  owner : ∀ i o, o < (w i).created → ((w i).obj o).id ≠ 0 ∧
    (ownerWorkerFromId ((w i).obj o).id).toInt = (w i).cfg.ownerWorkerId.toNat
  stale : ∀ i o, o < (w i).created → ((w i).obj o).state = .closed →
    ∀ app opcode body, sendPacketU16 app ((w i).obj o).id opcode body (w i) = (w i, false)

/-- A session that has ended is not found by its id. -/
theorem Lifecycle.find_of_closed {w : World} {o : Nat} (h : Lifecycle w) (ho : o < w.created)
    (hclosed : (w.obj o).state = .closed) : w.find (w.obj o).id = none := by
  cases hf : w.find (w.obj o).id with
  | none => rfl
  | some o' =>
    obtain ⟨ho', hl, hid⟩ := h.live_of_find hf
    rw [h.distinct o' ho' o ho hid] at hl
    exact nomatch hl.state.symm.trans hclosed

theorem sendPacketU16_of_not_found {app : Callback → World → World} {w : World} {id : UInt64}
    (h : w.find id = none) (opcode : UInt16) (body : Body) :
    sendPacketU16 app id opcode body w = (w, false) := by
  unfold sendPacketU16
  dsimp only
  rw [h]
  split <;> rfl

theorem identified_of_lifecycle {w : ι → World} (h : ∀ i, Lifecycle (w i))
    (hinj : ∀ i j, (w i).cfg.ownerWorkerId = (w j).cfg.ownerWorkerId → i = j)
    (hwid : ∀ i, (w i).cfg.ownerWorkerId.toNat < 2 ^ 31) : Identified w := by
  have hissued : ∀ i o, o < (w i).created → ∃ c, 0 < c ∧ c < idSpace (w i).cfg.ownerWorkerId ∧
      ((w i).obj o).id = sessionId (w i).cfg.ownerWorkerId c := by
    intro i o ho
    obtain ⟨c, hpos, hc, hid⟩ := (h i).issued o ho
    have hbound := (h i).bound
    exact ⟨c, hpos, by omega, hid⟩
  refine ⟨fun i o j o' ho ho' heq => ?_, fun i o ho => ?_, fun i o ho hclosed app opcode body => ?_⟩
  · obtain ⟨c, hpos, hc, hid⟩ := hissued i o ho
    obtain ⟨c', hpos', hc', hid'⟩ := hissued j o' ho'
    -- the upper halves agree, so it is one worker
    have hnat := congrArg UInt64.toNat (hid.symm.trans (heq.trans hid'))
    rw [toNat_sessionId_of_lt hc, toNat_sessionId_of_lt hc'] at hnat
    obtain rfl := hinj i j (UInt32.toNat_inj.mp (by omega))
    exact ⟨rfl, (h i).distinct o ho o' ho' heq⟩
  · obtain ⟨c, hpos, hc, hid⟩ := hissued i o ho
    rw [hid]
    exact sessionId_owner (hwid i) hpos hc
  · exact sendPacketU16_of_not_found ((h i).find_of_closed ho hclosed) opcode body

end Workers

/-! ## The end of the counter's half -/

/-- A connection comes, … -/
def connect : Step := { input := .accept 5 true }

/-- … and goes. -/
def hangUp : Step := { input := .ready ⟨5, Event.hangup⟩ ⟨[], [], .eagain⟩ }

/-- A connection that comes and goes `n` times. -/
def churn : Nat → List Step
  | 0 => []
  | n + 1 => churn n ++ [connect, hangUp]

/-- The worker after `n` such rounds out of `total`. -/
structure Churned (cfg : Config) (total n : Nat) (w : World) : Prop where
  config : w.cfg = cfg
  unregistered : w.loop.fdContexts 5 = none
  closed : w.isOpen 5 = false
  sessions : w.sessions = []
  counter : w.localCounter = UInt64.ofNat (n + 1)
  created : w.created = n
  arrivals : n + w.arrivals = total
  ids : ∀ o < n, (w.obj o).id = sessionId cfg.ownerWorkerId (o + 1)

section Churn

variable {cfg : Config} {w : World} {total n : Nat}

/-- The connection is accepted. -/
theorem step_connect (h : Churned cfg total n w) (hrecv : 0 < cfg.recvRingCapacity)
    (hsend : 0 < cfg.sendRingCapacity) (harr : 0 < w.arrivals) :
    ∃ s, s.Fresh cfg (sessionId cfg.ownerWorkerId (n + 1)) 5 ∧
      Quiet (w.enroll 5 s) (step w connect) := by
  have hnext : nextSessionId (w.answered connect) = sessionId cfg.ownerWorkerId (n + 1) := by
    change (w.cfg.ownerWorkerId.toUInt64 <<< 32) ||| w.localCounter = _
    rw [h.config, h.counter]
    rfl
  have hfind : (w.answered connect).find (nextSessionId (w.answered connect)) = none := by
    change w.sessions.lookup _ = none
    rw [h.sessions]
    rfl
  have hfresh : ¬ ((5 : Int) < 0 ∨ (w.answered connect).isOpen 5 = true ∨
      (w.answered connect).arrivals = 0) := by
    rintro (hneg | hopen | hzero)
    · exact absurd hneg (by decide)
    · exact nomatch h.closed.symm.trans hopen
    · exact absurd hzero (Nat.ne_of_gt harr)
  change ∃ s, _ ∧ Quiet (w.enroll 5 s) (acceptFresh connect.app 5 true (w.answered connect)).1
  rw [acceptFresh, if_neg hfresh,
    World.openFd_eq (show (w.answered connect).loop.fdContexts 5 = none from h.unregistered)]
  rcases onAccepted_cases connect.app true (w.answered connect).ctls
      (show (0 : Int) ≤ 5 by decide) hfind with
    ⟨s, v, hs, hq, heq⟩ | ⟨-, hfailed⟩
  · rw [hnext, show (w.answered connect).cfg = cfg from h.config] at hs
    rw [heq]
    exact ⟨s, hs, hq⟩
  · refine absurd ⟨rfl, ?_, ?_, rfl⟩ hfailed
    · exact h.config.symm ▸ hrecv
    · exact h.config.symm ▸ hsend

/-- Its hang-up is handled: the session is closed and everything about it taken back. -/
theorem step_hangUp {o : Nat} {ctx : FdContext Handler} (hctx : w.loop.fdContexts 5 = some ctx)
    (hhandler : ctx.handler = .session o) (hc : (w.obj o).state = .connected)
    (hfd : 0 ≤ (w.obj o).fd) (hfind : w.find (w.obj o).id = some o) :
    Quiet (w.detach o "epoll_hup") (step w hangUp) := by
  have hread : Event.hangup &&& Event.read = 0 := by decide
  have hwrite : Event.hangup &&& Event.write = 0 := by decide
  have herror : Event.hangup &&& Event.error = 0 := by decide
  have hrdhup : Event.hangup &&& Event.readHangup = 0 := by decide
  have hany : Event.hangup &&& (Event.error ||| Event.hangup ||| Event.readHangup) ≠ 0 := by decide
  have hhup : Event.hangup &&& (Event.hangup ||| Event.readHangup) ≠ 0 := by decide
  have hopen : (w.obj o).state ≠ .closed := by
    rw [hc]
    nofun
  have hstep : step w hangUp = beginClose hangUp.app o "epoll_hup" 0 (w.answered hangUp) := by
    change (Input.ready _ _).exec hangUp.app (w.answered hangUp) = _
    have hctx' : (w.answered hangUp).loop.fdContexts 5 = some ctx := hctx
    have hopen' : ¬ ((w.answered hangUp).obj o).state = .closed := hopen
    have hc' : ¬ ((w.answered hangUp).obj o).state ≠ .connected := not_not_intro hc
    simp only [Input.exec, hctx', hhandler, handleEvent, onErrorEvent, hread, hwrite, herror,
      hrdhup, hany, hhup, hopen', hc', ne_eq, not_true, not_false_iff, if_false, if_true,
      false_and]
  obtain ⟨v, hq, heq⟩ := beginClose_eq (w := w.answered hangUp) hangUp.app hc hfd hfind
    "epoll_hup" 0
  rw [hstep, heq]
  exact hq

theorem churned_round (h : Churned cfg total n w) (hrecv : 0 < cfg.recvRingCapacity)
    (hsend : 0 < cfg.sendRingCapacity) (hlt : n < total) :
    Churned cfg total (n + 1) (step (step w connect) hangUp) := by
  have harr : 0 < w.arrivals := by
    have := h.arrivals
    omega
  obtain ⟨s, hs, hq⟩ := step_connect h hrecv hsend harr
  generalize step w connect = v at hq
  have hobj : ∀ o < n, (v.obj o).core = (w.obj o).core := by
    intro o ho
    rw [hq.obj_core, World.enroll, World.obj_setObj_ne _ (Nat.ne_of_lt (h.created.symm ▸ ho))]
  have hs' : (v.obj n).Fresh cfg (sessionId cfg.ownerWorkerId (n + 1)) 5 := by
    refine hs.of_core ?_
    rw [hq.obj_core, World.enroll, ← h.created, World.obj_setObj_self]
  have hsessions : v.sessions = [((v.obj n).id, n)] := by
    rw [hq.sessions, hs'.id, ← hs.id, ← h.created]
    exact congrArg (· ++ _) h.sessions
  have hctx : v.loop.fdContexts 5 = some ⟨5, .session n, baseEpollMask, w.loop.registrations⟩ := by
    rw [hq.loop, ← h.created]
    exact EventLoop.fdContexts_set_self w.loop 5 _
  have hfind : v.find (v.obj n).id = some n := by
    rw [World.find, hsessions]
    exact List.lookup_cons_self
  have hq' := step_hangUp hctx rfl hs'.state (by rw [hs'.fd]; decide) hfind
  generalize step v hangUp = u at hq'
  refine ⟨?_, ?_, ?_, ?_, ?_, ?_, ?_, ?_⟩
  · exact hq'.cfg.trans (hq.cfg.trans h.config)
  · rw [hq'.loop, World.detach, hs'.fd]
    exact EventLoop.fdContexts_set_self v.loop 5 none
  · rw [hq'.isOpen, World.detach, hs'.fd]
    rfl
  · rw [hq'.sessions]
    change v.sessions.filter _ = []
    rw [hsessions]
    simp
  · rw [hq'.localCounter]
    change v.localCounter = _
    rw [hq.localCounter]
    change w.localCounter + 1 = _
    rw [h.counter]
    exact (UInt64.ofNat_add (n + 1) 1).symm
  · rw [hq'.created]
    change v.created = _
    rw [hq.created]
    exact congrArg (· + 1) h.created
  · rw [hq'.arrivals]
    change n + 1 + v.arrivals = _
    rw [hq.arrivals]
    change n + 1 + (w.arrivals - 1) = _
    have := h.arrivals
    omega
  · intro o ho
    have hid : (u.obj o).id = (v.obj o).id :=
      (congrArg Session.id (hq'.obj_core o) :).trans (World.id_detach v n _ o)
    rw [hid]
    rcases Nat.lt_succ_iff_lt_or_eq.mp ho with ho | rfl
    · exact (congrArg Session.id (hobj o ho) :).trans (h.ids o ho)
    · exact hs'.id

theorem churned_run (hrecv : 0 < cfg.recvRingCapacity) (hsend : 0 < cfg.sendRingCapacity)
    (hle : n ≤ total) : Churned cfg total n (run cfg total (churn n)) := by
  induction n with
  | zero => exact ⟨rfl, rfl, rfl, rfl, rfl, rfl, Nat.zero_add _, nofun⟩
  | succ n ih =>
    rw [churn, run, List.foldl_append]
    exact churned_round (ih (Nat.le_of_succ_le hle)) hrecv hsend hle

end Churn

/-- Where the counter leaves its half, a session gets the id of the worker's first one, or
one that belongs to the next worker. -/
theorem sessionId_idSpace (wid : UInt32) :
    sessionId wid (idSpace wid) = sessionId wid 1 ∧ 1 < idSpace wid ∨
    wid.toNat % 2 = 0 ∧ (sessionId wid (idSpace wid)).toNat / 2 ^ 32 = wid.toNat + 1 := by
  have hnat := toNat_sessionId wid (c := idSpace wid) (by unfold idSpace; omega)
  rcases Nat.mod_two_eq_zero_or_one wid.toNat with heven | hodd
  · refine .inr ⟨heven, ?_⟩
    rw [hnat, idSpace, heven, show (2 ^ 32 + 0) / 2 ^ 32 = 1 from rfl, or_one, heven]
    omega
  · refine .inl ⟨UInt64.toNat_inj.mp ?_, ?_⟩
    · rw [hnat, toNat_sessionId_of_lt (c := 1) (by unfold idSpace; omega), idSpace, hodd,
        show (2 ^ 32 + 1) / 2 ^ 32 = 1 from rfl, or_one, hodd]
      rfl
    · unfold idSpace
      omega

/-- **Identity.**  Whatever workers with distinct numbers below `2 ^ 31` do, as long as
worker `i` gets at most `arrivals i` connections, their sessions are identified by their
ids: exactly if each number of connections is below the worker's bound. -/
theorem identified_iff {ι : Type} (cfg : ι → Config)
    (hinj : ∀ i j, (cfg i).ownerWorkerId = (cfg j).ownerWorkerId → i = j)
    (hwid : ∀ i, (cfg i).ownerWorkerId.toNat < 2 ^ 31)
    (hrings : ∀ i, 0 < (cfg i).recvRingCapacity ∧ 0 < (cfg i).sendRingCapacity)
    (arrivals : ι → Nat) :
    (∀ steps : ι → List Step, Identified fun i => run (cfg i) (arrivals i) (steps i)) ↔
      ∀ i, arrivals i < 2 ^ 32 + (cfg i).ownerWorkerId.toNat % 2 := by
  constructor
  · intro hall i
    refine Nat.lt_of_not_le fun hle => ?_
    have hchurn := churned_run (hrings i).1 (hrings i).2
      (show idSpace (cfg i).ownerWorkerId ≤ arrivals i from hle)
    have hall := hall fun _ => churn (idSpace (cfg i).ownerWorkerId)
    have hpos : 0 < idSpace (cfg i).ownerWorkerId := Nat.lt_of_lt_of_le (by decide)
      (Nat.le_add_right (2 ^ 32) _)
    -- the session of the last round
    have hlast := hchurn.ids (idSpace (cfg i).ownerWorkerId - 1) (Nat.sub_lt hpos Nat.one_pos)
    rw [Nat.sub_add_cancel hpos] at hlast
    have hlt : idSpace (cfg i).ownerWorkerId - 1 < (run (cfg i) (arrivals i)
        (churn (idSpace (cfg i).ownerWorkerId))).created := by
      rw [hchurn.created]
      exact Nat.sub_lt hpos Nat.one_pos
    rcases sessionId_idSpace (cfg i).ownerWorkerId with ⟨hsame, hone⟩ | ⟨heven, hnext⟩
    · have hfirst := hchurn.ids 0 hpos
      have heq := (hall.distinct i _ i 0 hlt (by rw [hchurn.created]; exact hpos)
        (hlast.trans (hsame.trans hfirst.symm))).2
      exact absurd heq (Nat.sub_ne_zero_of_lt hone)
    · have howner := (hall.owner i _ hlt).2
      have hwid := hwid i
      rw [hlast, hchurn.config, toInt_ownerWorkerFromId (by rw [hnext]; omega), hnext] at howner
      omega
  · intro hlt steps
    have hcfg : ∀ i, (run (cfg i) (arrivals i) (steps i)).cfg = cfg i := fun i =>
      cfg_run (cfg i) (hlt i) (steps i)
    refine identified_of_lifecycle (fun i => lifecycle_run (cfg i) (hlt i) (steps i))
      (fun i j heq => hinj i j ?_) fun i => ?_
    · rw [hcfg i, hcfg j] at heq
      exact heq
    · rw [hcfg i]
      exact hwid i

/-- Workers 0 and 1. -/
def twoWorkers (second : Bool) : Config :=
  { sampleConfig with ownerWorkerId := if second = true then 1 else 0 }

theorem identified_two_workers : Identified fun i => run (twoWorkers i) 2 (churn 2) :=
  (identified_iff twoWorkers (by decide) (by decide) (by decide) fun _ => 2).mpr (by decide)
    fun _ => churn 2

/-- Worker 1 after `2 ^ 32 + 1` connections, one after the other: the last session has the
id of the first. -/
theorem id_repeats :
    let w := run sampleConfig (2 ^ 32 + 1) (churn (2 ^ 32 + 1))
    0 < w.created ∧ 2 ^ 32 < w.created ∧ (w.obj (2 ^ 32)).id = (w.obj 0).id := by
  have hchurn : Churned sampleConfig (2 ^ 32 + 1) (2 ^ 32 + 1) _ :=
    churned_run (by decide) (by decide) (Nat.le_refl _)
  refine ⟨?_, ?_, ?_⟩
  · rw [hchurn.created]
    exact Nat.succ_pos _
  · rw [hchurn.created]
    exact Nat.lt_succ_self _
  · rw [hchurn.ids _ (Nat.lt_succ_self _), hchurn.ids 0 (Nat.succ_pos _)]
    decide

end HyperNet.Net
