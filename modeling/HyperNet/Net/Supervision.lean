import HyperNet.Net.Moves
import HyperNet.Net.Trail

/-!
# Inactivity supervision

A session's two timers (`startTimeouts_`, `onIdleTimer_`, `onHeartbeatTimer_`) are not cancelled
when bytes arrive; each runs out, looks at the time of the last bytes and is armed again for what
remains.  A session is under supervision (`World.Watched`) if it has one pending timer of each
kind that is configured, asked for in time.

Here is what keeps a session under supervision while no timer of its own runs: everything a
worker does (`Does.watches`), for every application that keeps to a scope.  What the timers do
is in `HyperNet.Net.Timeouts`.
-/

namespace HyperNet.Net

open Buffer Protocol Reentrant

/-! ## Pending timers -/

theorem TimerKind.isTimeout_reason (kind : TimerKind) : IsTimeout kind.reason := by
  cases kind
  · exact .inl rfl
  · exact .inr rfl

/-- The pending timers of a session. -/
def World.pending (w : World) (o : Nat) (kind : TimerKind) : List Timer :=
  w.timers.filter fun t => t.obj = o ∧ t.kind = kind

theorem World.mem_pending {w : World} {o : Nat} {kind : TimerKind} {t : Timer} :
    t ∈ w.pending o kind ↔ t ∈ w.timers ∧ t.obj = o ∧ t.kind = kind := by
  rw [World.pending, List.mem_filter, decide_eq_true_iff]

/-! ## What happens to a session outside its timers -/

/-- No bytes arrive. -/
structure Session.Silent (s s' : Session) : Prop where
  received : s'.received = s.received
  acceptedAtRx : s'.acceptedAtRx = s.acceptedAtRx
  lastRxAt : s'.lastRxAt = s.lastRxAt

/-- Bytes arrive, and since then only such packets have been sent. -/
structure Session.Hears (scope : Scope) (now : Nat) (s s' : Session) : Prop where
  connected : s.state = .connected
  received : s.received.length < s'.received.length
  lastRxAt : s'.lastRxAt = now
  marked : s'.acceptedAtRx ≤ s'.accepted.length
  since : ∀ p ∈ s'.accepted.drop s'.acceptedAtRx, scope.packet p

/-- What happens to a session apart from its timers. -/
structure Session.Keeps (scope : Scope) (now : Nat) (s s' : Session) : Prop where
  id : s'.id = s.id
  state : s'.state = .connected → s.state = .connected
  timeoutMs : ∀ kind, s'.timeoutMs kind = s.timeoutMs kind
  timerArmed : ∀ kind, s'.timerArmed kind = s.timerArmed kind
  rx : s.Silent s' ∨ s.Hears scope now s'
  accepted : ∃ added, s'.accepted = s.accepted ++ added ∧ ∀ p ∈ added, scope.packet p
  closeReason : s'.closeReason = s.closeReason ∨
    ∃ reason, s'.closeReason = some reason ∧ scope.reason reason

namespace Session.Keeps

variable {scope : Scope} {now : Nat} {s s' s'' : Session}

theorem of_aside (h : s.Aside s') : s.Keeps scope now s' where
  id := h.id
  state hc := h.state ▸ hc
  timeoutMs kind := by
    cases kind
    exacts [h.idleTimeoutMs, h.heartbeatIntervalMs]
  timerArmed kind := by
    cases kind
    exacts [h.idleTimerArmed, h.heartbeatTimerArmed]
  rx := .inl ⟨h.received, h.acceptedAtRx, h.lastRxAt⟩
  accepted := ⟨[], by rw [h.accepted, List.append_nil], fun _ hp => absurd hp List.not_mem_nil⟩
  closeReason := .inl h.closeReason

theorem refl (s : Session) : s.Keeps scope now s := of_aside (by constructor <;> rfl)

theorem mem_drop (h : s.Keeps scope now s') {p : Packet} {n : Nat}
    (hp : p ∈ s'.accepted.drop n) : p ∈ s.accepted.drop n ∨ scope.packet p := by
  obtain ⟨added, hadded, hscope⟩ := h.accepted
  rw [hadded, List.drop_append] at hp
  exact (List.mem_append.mp hp).imp_right fun hnew => hscope p (List.mem_of_mem_drop hnew)

theorem length_accepted_le (h : s.Keeps scope now s') :
    s.accepted.length ≤ s'.accepted.length := by
  obtain ⟨added, hadded, -⟩ := h.accepted
  rw [hadded, List.length_append]
  exact Nat.le_add_right _ _

theorem trans (h : s.Keeps scope now s') (h' : s'.Keeps scope now s'') :
    s.Keeps scope now s'' where
  id := h'.id.trans h.id
  state hc := h.state (h'.state hc)
  timeoutMs kind := (h'.timeoutMs kind).trans (h.timeoutMs kind)
  timerArmed kind := (h'.timerArmed kind).trans (h.timerArmed kind)
  rx := by
    rcases h.rx with hsilent | hhears
    · refine h'.rx.imp (fun hsilent' => ?_) fun hhears' => ?_
      · exact ⟨hsilent'.received.trans hsilent.received,
          hsilent'.acceptedAtRx.trans hsilent.acceptedAtRx,
          hsilent'.lastRxAt.trans hsilent.lastRxAt⟩
      · exact { hhears' with
          connected := h.state hhears'.connected
          received := hsilent.received ▸ hhears'.received }
    · refine .inr ?_
      rcases h'.rx with hsilent' | hhears'
      · refine ⟨hhears.connected, hsilent'.received ▸ hhears.received,
          hsilent'.lastRxAt.trans hhears.lastRxAt, ?_, fun p hp => ?_⟩
        · rw [hsilent'.acceptedAtRx]
          exact hhears.marked.trans h'.length_accepted_le
        · rw [hsilent'.acceptedAtRx] at hp
          exact (h'.mem_drop hp).elim (hhears.since p) fun hscope => hscope
      · exact { hhears' with
          connected := hhears.connected
          received := hhears.received.trans hhears'.received }
  accepted := by
    obtain ⟨first, hfirst, hscope⟩ := h.accepted
    obtain ⟨second, hsecond, hscope'⟩ := h'.accepted
    refine ⟨first ++ second, by rw [hsecond, hfirst, List.append_assoc], fun p hp => ?_⟩
    exact (List.mem_append.mp hp).elim (hscope p) (hscope' p)
  closeReason := by
    rcases h'.closeReason with heq | hnew
    · rw [heq]
      exact h.closeReason
    · exact .inr hnew

theorem acceptCall {packet : Packet} (h : scope.packet packet) (s : Session) :
    s.Keeps scope now (s.acceptCall packet) where
  id := rfl
  state hc := hc
  timeoutMs kind := by cases kind <;> rfl
  timerArmed kind := by cases kind <;> rfl
  rx := .inl ⟨rfl, rfl, rfl⟩
  accepted := ⟨[packet], rfl, fun _ hp => List.mem_singleton.mp hp ▸ h⟩
  closeReason := .inl rfl

theorem receive (hc : s.state = .connected) (recvRing : Ring) {bytes : List UInt8}
    (hbytes : bytes ≠ []) : s.Keeps scope now { s with
      recvRing, received := s.received ++ bytes, acceptedAtRx := s.accepted.length,
      lastRxAt := now } where
  id := rfl
  state hc := hc
  timeoutMs kind := by cases kind <;> rfl
  timerArmed kind := by cases kind <;> rfl
  rx := .inr {
    connected := hc
    received := by
      rw [List.length_append]
      exact Nat.lt_add_of_pos_right (List.length_pos_of_ne_nil hbytes)
    lastRxAt := rfl
    marked := Nat.le_refl _
    since := fun p hp => by
      rw [List.drop_length] at hp
      exact absurd hp List.not_mem_nil }
  accepted := ⟨[], (List.append_nil _).symm, fun _ hp => absurd hp List.not_mem_nil⟩
  closeReason := .inl rfl

theorem close {reason : String} (h : scope.reason reason) (s : Session) :
    s.Keeps scope now { s with fd := -1, state := .closed, closeReason := some reason } where
  id := rfl
  state hc := by cases hc
  timeoutMs kind := by cases kind <;> rfl
  timerArmed kind := by cases kind <;> rfl
  rx := .inl ⟨rfl, rfl, rfl⟩
  accepted := ⟨[], (List.append_nil _).symm, fun _ hp => absurd hp List.not_mem_nil⟩
  closeReason := .inr ⟨reason, rfl, h⟩

/-- The clock is not behind the last bytes, before and after. -/
theorem lastRxAt_le (h : s.Keeps scope now s') (hle : s.lastRxAt ≤ now) :
    s.lastRxAt ≤ s'.lastRxAt ∧ s'.lastRxAt ≤ now := by
  rcases h.rx with hsilent | hhears
  · rw [hsilent.lastRxAt]
    exact ⟨Nat.le_refl _, hle⟩
  · rw [hhears.lastRxAt]
    exact ⟨hle, Nat.le_refl _⟩

theorem marked (h : s.Keeps scope now s') (hle : s.acceptedAtRx ≤ s.accepted.length) :
    s'.acceptedAtRx ≤ s'.accepted.length := by
  rcases h.rx with hsilent | hhears
  · rw [hsilent.acceptedAtRx]
    exact hle.trans h.length_accepted_le
  · exact hhears.marked

end Session.Keeps

/-- A session that was made within the scope. -/
structure Session.Young (scope : Scope) (s : Session) : Prop where
  accepted : ∀ p ∈ s.accepted, scope.packet p
  closeReason : ∀ reason, s.closeReason = some reason → scope.reason reason

theorem Session.Young.keep {scope : Scope} {now : Nat} {s s' : Session} (h : s.Young scope)
    (hk : s.Keeps scope now s') : s'.Young scope where
  accepted p hp := by
    rcases hk.mem_drop (n := 0) hp with hold | hnew
    · exact h.accepted p hold
    · exact hnew
  closeReason reason hreason := by
    rcases hk.closeReason with heq | ⟨reason', heq, hscope⟩
    · exact h.closeReason reason (heq ▸ hreason)
    · cases heq.symm.trans hreason
      exact hscope

/-! ## Supervision -/

/-- The timer of one kind: pending just if it is configured, and asked for in time. -/
structure World.Armed (w : World) (o : Nat) (kind : TimerKind) : Prop where
  length : (w.pending o kind).length = if 0 < (w.obj o).timeoutMs kind then 1 else 0
  flag : (w.obj o).timerArmed kind = decide (0 < (w.obj o).timeoutMs kind)
  due : ∀ t ∈ w.pending o kind, t.askedAt + t.delayMs * 1000000 <
    (w.obj o).lastRxAt + (w.obj o).allowanceMs kind * 1000000 + 1000000

/-- No timer of one kind, while its callback runs. -/
structure World.Disarmed (w : World) (o : Nat) (kind : TimerKind) : Prop where
  length : (w.pending o kind).length = 0
  flag : (w.obj o).timerArmed kind = false

/-- The configuration, the clock and the marks of a session. -/
structure World.Timed (w : World) (o : Nat) : Prop where
  timeoutMs : ∀ kind, (w.obj o).timeoutMs kind = w.cfg.timeoutMs kind
  lastRxAt : (w.obj o).lastRxAt ≤ w.now
  marked : (w.obj o).acceptedAtRx ≤ (w.obj o).accepted.length

/-- A session under supervision. -/
structure World.Watched (w : World) (o : Nat) : Prop extends w.Timed o where
  armed : ∀ kind, w.Armed o kind

section Keep

variable {scope : Scope} {v w : World} {o : Nat} {kind : TimerKind}

theorem World.Armed.congr (h : w.Armed o kind)
    (hpending : (v.pending o kind).Perm (w.pending o kind))
    (htimeout : (v.obj o).timeoutMs kind = (w.obj o).timeoutMs kind)
    (hflag : (v.obj o).timerArmed kind = (w.obj o).timerArmed kind)
    (hle : (w.obj o).lastRxAt ≤ (v.obj o).lastRxAt) : v.Armed o kind where
  length := by
    rw [hpending.length_eq, htimeout]
    exact h.length
  flag := by
    rw [hflag, htimeout]
    exact h.flag
  due t ht := by
    rw [Session.allowanceMs_congr htimeout]
    refine Nat.lt_of_lt_of_le (h.due t (hpending.mem_iff.mp ht)) ?_
    exact Nat.add_le_add_right (Nat.add_le_add_right hle _) _

theorem World.Armed.keep (h : w.Armed o kind)
    (hpending : (v.pending o kind).Perm (w.pending o kind))
    (hobj : (w.obj o).Keeps scope w.now (v.obj o)) (hle : (w.obj o).lastRxAt ≤ w.now) :
    v.Armed o kind :=
  h.congr hpending (hobj.timeoutMs kind) (hobj.timerArmed kind) (hobj.lastRxAt_le hle).1

theorem World.Disarmed.keep (h : w.Disarmed o kind)
    (hpending : (v.pending o kind).Perm (w.pending o kind))
    (hobj : (w.obj o).Keeps scope w.now (v.obj o)) : v.Disarmed o kind where
  length := hpending.length_eq.trans h.length
  flag := (hobj.timerArmed kind).trans h.flag

theorem World.Timed.keep (h : w.Timed o) (hcfg : v.cfg = w.cfg) (hnow : v.now = w.now)
    (hobj : (w.obj o).Keeps scope w.now (v.obj o)) : v.Timed o where
  timeoutMs kind := by
    rw [hobj.timeoutMs, hcfg]
    exact h.timeoutMs kind
  lastRxAt := hnow ▸ (hobj.lastRxAt_le h.lastRxAt).2
  marked := hobj.marked h.marked

end Keep

/-- The table of sessions in order, with no timers for objects yet to come. -/
structure World.Tidy (w : World) : Prop extends w.Bounded where
  ids : ∀ e ∈ w.sessions, (w.obj e.2).id = e.1
  timers : ∀ t ∈ w.timers, t.obj < w.created

theorem World.Tidy.timer_lt {w : World} (hw : w.Tidy) {i : Nat} {timer : Timer}
    (h : w.timers[i]? = some timer) : timer.obj < w.created :=
  hw.timers timer (List.mem_of_getElem? h)

/-- What the functions of a worker do to its sessions and their timers, but for the session `x`
whose timer is running. -/
structure World.Keeps (scope : Scope) (x : Option Nat) (w w' : World) : Prop where
  tidy : w'.Tidy
  cfg : w'.cfg = w.cfg
  now : w'.now = w.now
  created : w.created ≤ w'.created
  sessions : ∀ e ∈ w'.sessions, e ∈ w.sessions ∨ w.created ≤ e.2
  obj : ∀ o < w.created, x ≠ some o → (w.obj o).Keeps scope w.now (w'.obj o)
  pending : ∀ o < w.created, x ≠ some o → ∀ kind, (w'.pending o kind).Perm (w.pending o kind)
  joined : ∀ e ∈ w'.sessions, x ≠ some e.2 → w.created ≤ e.2 → w'.Watched e.2
  young : ∀ o, x ≠ some o → w.created ≤ o → o < w'.created → (w'.obj o).Young scope

namespace World.Keeps

variable {scope : Scope} {x : Option Nat} {u v w : World} {o : Nat}

theorem refl (x : Option Nat) (hw : w.Tidy) : w.Keeps scope x w where
  tidy := hw
  cfg := rfl
  now := rfl
  created := Nat.le_refl _
  sessions _ he := .inl he
  obj _ _ _ := .refl _
  pending _ _ _ _ := .refl _
  joined e he _ hle := absurd (hw.sessions e he) (Nat.not_lt_of_le hle)
  young _ _ hle hlt := absurd hlt (Nat.not_lt_of_le hle)

theorem watched (h : v.Keeps scope x w) (ho : o < v.created) (hx : x ≠ some o)
    (hv : v.Watched o) : w.Watched o where
  toTimed := hv.toTimed.keep h.cfg h.now (h.obj o ho hx)
  armed kind := (hv.armed kind).keep (h.pending o ho hx kind) (h.obj o ho hx) hv.lastRxAt

theorem mem_of_lt (h : v.Keeps scope x w) {e : UInt64 × Nat} (he : e ∈ w.sessions)
    (hlt : e.2 < v.created) : e ∈ v.sessions :=
  (h.sessions e he).resolve_right (Nat.not_le_of_lt hlt)

theorem trans (h : u.Keeps scope x v) (h' : v.Keeps scope x w) : u.Keeps scope x w where
  tidy := h'.tidy
  cfg := h'.cfg.trans h.cfg
  now := h'.now.trans h.now
  created := h.created.trans h'.created
  sessions e he := by
    rcases h'.sessions e he with hv | hnew
    · exact h.sessions e hv
    · exact .inr (h.created.trans hnew)
  obj o ho hx := (h.obj o ho hx).trans (h.now ▸ h'.obj o (Nat.lt_of_lt_of_le ho h.created) hx)
  pending o ho hx kind :=
    (h'.pending o (Nat.lt_of_lt_of_le ho h.created) hx kind).trans (h.pending o ho hx kind)
  joined e he hx hle := by
    rcases Nat.lt_or_ge e.2 v.created with hlt | hge
    · exact h'.watched hlt hx (h.joined e (h'.mem_of_lt he hlt) hx hle)
    · exact h'.joined e he hx hge
  young o hx hle hlt := by
    rcases Nat.lt_or_ge o v.created with hlt' | hge
    · exact (h.young o hx hle hlt').keep (h'.obj o hlt' hx)
    · exact h'.young o hx hge hlt

/-- If no timer is running, none needs to be left out. -/
theorem of_none (h : v.Keeps scope none w) : v.Keeps scope x w where
  __ := h
  obj o ho _ := h.obj o ho nofun
  pending o ho _ := h.pending o ho nofun
  joined e he _ := h.joined e he nofun
  young o _ := h.young o nofun

end World.Keeps

theorem timers_takeDown (w : World) (o : Nat) (reason : String) :
    (takeDown o reason w).timers = w.timers := by
  unfold takeDown
  dsimp only
  split <;> rfl

/-- Only the object `o` and its timers change, and entries of `sessions_` only go. -/
structure World.Alters (o : Nat) (w w' : World) : Prop extends w.Touches o w' where
  now : w'.now = w.now
  timers : ∀ t ∈ w'.timers, t ∈ w.timers ∨ t.obj = o
  pending : ∀ o' ≠ o, ∀ kind, (w'.pending o' kind).Perm (w.pending o' kind)

namespace World.Alters

variable {scope : Scope} {x : Option Nat} {u v w : World} {o : Nat}

theorem of_touches (h : w.Touches o v) (hnow : v.now = w.now) (htimers : v.timers = w.timers) :
    w.Alters o v where
  toTouches := h
  now := hnow
  timers t ht := .inl (htimers ▸ ht)
  pending o' _ kind := by rw [World.pending, htimers, World.pending]

theorem modify (w : World) (o : Nat) (f : Session → Session) : w.Alters o (w.modify o f) :=
  of_touches (.modify w o f) rfl rfl

theorem takeDown (w : World) (o : Nat) (reason : String) : w.Alters o (takeDown o reason w) := by
  refine of_touches (.takeDown w o reason) ?_ (timers_takeDown w o reason)
  unfold Net.takeDown
  dsimp only
  split <;> rfl

theorem trans (h : u.Alters o v) (h' : v.Alters o w) : u.Alters o w where
  toTouches := h.toTouches.trans h'.toTouches
  now := h'.now.trans h.now
  timers t ht := (h'.timers t ht).elim (h.timers t) .inr
  pending o' ho' kind := (h'.pending o' ho' kind).trans (h.pending o' ho' kind)

theorem tidy (h : w.Alters o v) (hw : w.Tidy) (hid : (v.obj o).id = (w.obj o).id)
    (hstate : (v.obj o).state = .connected → (w.obj o).state = .connected)
    (ho : o < w.created ∨ v.timers = w.timers) : v.Tidy where
  sessions e he := h.created ▸ hw.sessions e (h.sessions.subset he)
  keys := hw.keys.sublist (h.sessions.map Prod.fst)
  obj o' hc := by
    rw [h.created]
    by_cases heq : o' = o
    · exact hw.obj o' (heq ▸ hstate (heq ▸ hc))
    · exact hw.obj o' (h.obj o' heq ▸ hc)
  ids e he := by
    have hold := hw.ids e (h.sessions.subset he)
    by_cases heq : e.2 = o
    · rw [← hold, heq, hid]
    · rw [h.obj e.2 heq, hold]
  timers t ht := by
    rw [h.created]
    rcases ho with ho | htimers
    · rcases h.timers t ht with hold | rfl
      · exact hw.timers t hold
      · exact ho
    · exact hw.timers t (htimers ▸ ht)

/-- The rest of a worker does not notice what happens to one session. -/
theorem keeps (h : w.Alters o v) (hv : v.Tidy)
    (hobj : x ≠ some o → (w.obj o).Keeps scope w.now (v.obj o))
    (hpending : x ≠ some o → v.timers = w.timers) : w.Keeps scope x v where
  __ := h
  tidy := hv
  created := h.created.ge
  sessions e he := .inl (h.sessions.subset he)
  obj o' _ hx := by
    by_cases heq : o' = o
    · exact heq ▸ hobj (heq ▸ hx)
    · exact h.obj o' heq ▸ .refl _
  pending o' _ hx kind := by
    by_cases heq : o' = o
    · rw [World.pending, hpending (heq ▸ hx), World.pending]
    · exact h.pending o' heq kind
  joined e he _ hle := absurd (h.created ▸ hv.sessions e he) (Nat.not_lt_of_le hle)
  young o' _ hle hlt := absurd (h.created ▸ hlt) (Nat.not_lt_of_le hle)

end World.Alters

/-- From a state whose tables are in order a function keeps up the supervision. -/
def Watches (scope : Scope) (x : Option Nat) (w w' : World) : Prop := w.Tidy → w.Keeps scope x w'

namespace Watches

variable {scope : Scope} {x : Option Nat} {u v w : World} {o : Nat}

theorem refl (w : World) : Watches scope x w w := World.Keeps.refl x

theorem trans (h : Watches scope x u v) (h' : Watches scope x v w) : Watches scope x u w :=
  fun hu => (h hu).trans (h' (h hu).tidy)

theorem of_none (h : Watches scope none v w) : Watches scope x v w := fun hv => (h hv).of_none

/-- A change of one session that is not one of its timers. -/
theorem of_touches (h : w.Touches o v) (hnow : v.now = w.now) (htimers : v.timers = w.timers)
    (hobj : (w.obj o).Keeps scope w.now (v.obj o)) : Watches scope x w v := by
  intro hw
  have halters := World.Alters.of_touches h hnow htimers
  exact halters.keeps (halters.tidy hw hobj.id hobj.state (.inr htimers)) (fun _ => hobj)
    fun _ => htimers

theorem modify {f : Session → Session} (h : (w.obj o).Keeps scope w.now (f (w.obj o))) :
    Watches scope x w (w.modify o f) := by
  refine of_touches (.modify w o f) rfl rfl ?_
  rw [World.modify, World.obj_setObj_self]
  exact h

/-- No session changes. -/
theorem of_same (hcfg : v.cfg = w.cfg) (hcreated : v.created = w.created) (hobj : v.obj = w.obj)
    (hsessions : v.sessions.Sublist w.sessions) (hnow : v.now = w.now)
    (htimers : v.timers = w.timers) : Watches scope x w v :=
  of_touches (o := 0) ⟨hcfg, hcreated, fun o' _ => congrFun hobj o', hsessions⟩ hnow htimers
    (congrFun hobj 0 ▸ .refl _)

theorem of_aside (h : w.Aside v) : Watches scope x w v :=
  of_same h.cfg h.created h.obj (h.sessions ▸ .refl _) h.now h.timers

theorem of_sets (h : w.Sets o v) : Watches scope x w v :=
  of_touches (.of_sets h) h.now h.timers (.of_aside h.own)

/-- A connection is about to become a session, or is refused. -/
theorem of_issued (h : w.arrive.issueId.Aside v) : Watches scope x w v :=
  of_same h.cfg h.created h.obj (h.sessions ▸ .refl _) h.now h.timers

end Watches

theorem obj_takeDown (w : World) (o : Nat) (reason : String) : (takeDown o reason w).obj o =
    { w.obj o with fd := -1, state := .closed, closeReason := some reason } := by
  unfold takeDown
  dsimp only
  split
  · simp only [World.modify, World.closeSocket, World.obj_setObj_self, World.removeFd,
      World.popCtl, World.setLoop, World.closeFd]
  · simp only [World.modify, World.closeSocket, World.obj_setObj_self, World.closeFd]

/-! ## Arming -/

section Arming

variable {w : World} {o delayMs : Nat} {kind : TimerKind}

/-- A delay that is counted from the last bytes ends in time; what is lost is the part of a
millisecond by which the time elapsed is rounded down. -/
theorem World.due (w : World) {o delayMs allowanceMs : Nat} (hle : (w.obj o).lastRxAt ≤ w.now)
    (h : delayMs + w.elapsedMs o ≤ allowanceMs) :
    w.now + delayMs * 1000000 < (w.obj o).lastRxAt + allowanceMs * 1000000 + 1000000 := by
  unfold World.elapsedMs at h
  omega

theorem World.pending_arm_self (w : World) (o : Nat) (kind : TimerKind) (delayMs : Nat) :
    (w.arm o kind delayMs).pending o kind =
      w.pending o kind ++ [⟨o, kind, delayMs, w.now⟩] := by
  unfold World.pending World.arm
  simp [World.modify, World.setObj, World.addTimer]

theorem World.pending_arm_ne (w : World) {o o' : Nat} {kind kind' : TimerKind} (delayMs : Nat)
    (h : o' ≠ o ∨ kind' ≠ kind) :
    (w.arm o kind delayMs).pending o' kind' = w.pending o' kind' := by
  have hother : ¬ (o = o' ∧ kind = kind') := fun ⟨ho, hkind⟩ =>
    h.elim (fun hne => hne ho.symm) fun hne => hne hkind.symm
  unfold World.pending World.arm
  simp [World.modify, World.setObj, World.addTimer, hother]

theorem World.alters_arm (w : World) (o : Nat) (kind : TimerKind) (delayMs : Nat) :
    w.Alters o (w.arm o kind delayMs) where
  cfg := rfl
  created := rfl
  obj o' ho' := World.obj_setObj_ne _ ho' _
  sessions := .refl _
  now := rfl
  timers t ht := (List.mem_append.mp ht).imp_right fun hnew => by
    rw [List.mem_singleton.mp hnew]
  pending o' ho' kind' := by rw [World.pending_arm_ne w delayMs (.inl ho')]

theorem World.Disarmed.arm (h : w.Disarmed o kind) (hpos : 0 < (w.obj o).timeoutMs kind)
    (hdue : w.now + delayMs * 1000000 <
      (w.obj o).lastRxAt + (w.obj o).allowanceMs kind * 1000000 + 1000000) :
    (w.arm o kind delayMs).Armed o kind where
  length := by
    rw [World.pending_arm_self, List.length_append, h.length, World.obj_arm,
      Session.timeoutMs_setTimerArmed, if_pos hpos]
    rfl
  flag := by
    rw [World.obj_arm, Session.timerArmed_setTimerArmed, Session.timeoutMs_setTimerArmed]
    exact (decide_eq_true hpos).symm
  due t ht := by
    rw [World.pending_arm_self, List.eq_nil_of_length_eq_zero h.length, List.nil_append,
      List.mem_singleton] at ht
    subst ht
    rw [World.obj_arm, Session.lastRxAt_setTimerArmed,
      Session.allowanceMs_congr (Session.timeoutMs_setTimerArmed _ _ _ _)]
    exact hdue

/-- The other timer is not affected. -/
theorem World.Armed.arm {kind' : TimerKind} (h : w.Armed o kind') (hne : kind' ≠ kind)
    (delayMs : Nat) : (w.arm o kind delayMs).Armed o kind' := by
  refine h.congr (by rw [World.pending_arm_ne w delayMs (.inr hne)]) ?_ ?_ ?_
  · rw [World.obj_arm, Session.timeoutMs_setTimerArmed]
  · rw [World.obj_arm]
    exact (w.obj o).timerArmed_setTimerArmed_ne true hne
  · rw [World.obj_arm, Session.lastRxAt_setTimerArmed]

theorem World.Timed.arm (h : w.Timed o) (kind : TimerKind) (delayMs : Nat) :
    (w.arm o kind delayMs).Timed o := by
  constructor
  · rw [World.obj_arm]
    exact fun kind' => ((w.obj o).timeoutMs_setTimerArmed true kind kind').trans (h.timeoutMs kind')
  · rw [World.obj_arm, Session.lastRxAt_setTimerArmed]
    exact h.lastRxAt
  · rw [World.obj_arm, Session.acceptedAtRx_setTimerArmed, Session.accepted_setTimerArmed]
    exact h.marked

/-- A timer that is not configured needs no arming, and the functions see to that. -/
theorem World.Disarmed.armTimerAfter (h : w.Disarmed o kind)
    (hc : (w.obj o).state = .connected)
    (hdue : w.now + delayMs * 1000000 <
      (w.obj o).lastRxAt + (w.obj o).allowanceMs kind * 1000000 + 1000000) :
    (armTimerAfter kind o delayMs w).Armed o kind := by
  rw [armTimerAfter_eq]
  split
  next hoff =>
    have hzero : (w.obj o).timeoutMs kind = 0 := by
      rcases hoff with hzero | hended | hflag
      · exact hzero
      · exact absurd hc hended
      · exact absurd hflag (by rw [h.flag]; exact Bool.false_ne_true)
    refine ⟨?_, ?_, fun t ht => ?_⟩
    · rw [h.length, hzero]
      rfl
    · rw [h.flag, hzero]
      rfl
    · rw [List.eq_nil_of_length_eq_zero h.length] at ht
      exact absurd ht List.not_mem_nil
  next hon =>
    have hpos : 0 < (w.obj o).timeoutMs kind :=
      UInt32.pos_iff_ne_zero.mpr fun hzero => hon (.inl hzero)
    exact h.arm hpos hdue

/-- A timer that is asked for when bytes have just arrived. -/
theorem World.Disarmed.start (h : w.Disarmed o kind) (hc : (w.obj o).state = .connected)
    (hrx : (w.obj o).lastRxAt = w.now) (hdelay : delayMs ≤ (w.obj o).allowanceMs kind) :
    (Net.armTimerAfter kind o delayMs w).Armed o kind := by
  refine h.armTimerAfter hc (w.due hrx.le ?_)
  rw [World.elapsedMs, hrx, Nat.sub_self]
  exact hdelay

theorem World.Timed.armTimerAfter (h : w.Timed o) (kind : TimerKind) (delayMs : Nat) :
    (armTimerAfter kind o delayMs w).Timed o := by
  rcases armTimerAfter_cases kind o delayMs w with heq | heq
  · rw [heq]
    exact h
  · rw [heq]
    exact h.arm kind delayMs

/-- The other timer is not affected. -/
theorem World.Armed.armTimerAfter {kind' : TimerKind} (h : w.Armed o kind') (hne : kind' ≠ kind)
    (delayMs : Nat) : (armTimerAfter kind o delayMs w).Armed o kind' := by
  rcases armTimerAfter_cases kind o delayMs w with heq | heq
  · rw [heq]
    exact h
  · rw [heq]
    exact h.arm hne delayMs

theorem World.Disarmed.armTimerAfter_ne {kind' : TimerKind} (h : w.Disarmed o kind')
    (hne : kind' ≠ kind) (delayMs : Nat) :
    (Net.armTimerAfter kind o delayMs w).Disarmed o kind' := by
  rcases armTimerAfter_cases kind o delayMs w with heq | heq
  · rw [heq]
    exact h
  · rw [heq]
    refine ⟨?_, ?_⟩
    · rw [World.pending_arm_ne w delayMs (.inr hne)]
      exact h.length
    · rw [World.obj_arm, Session.timerArmed_setTimerArmed_ne _ true hne]
      exact h.flag

end Arming

/-! ## New sessions -/

/-- What `createSession` makes. -/
structure Session.New (id : UInt64) (s : Session) : Prop where
  id : s.id = id
  state : s.state = .connected
  timerArmed : ∀ kind, s.timerArmed kind = false
  accepted : s.accepted = []
  acceptedAtRx : s.acceptedAtRx = 0
  closeReason : s.closeReason = none

theorem createSession_new {cfg : Config} {id : UInt64} {fd : Int} {now : Nat} {memory : Bool}
    {s : Session} (h : createSession cfg id fd now memory = some s) : s.New id := by
  unfold createSession at h
  split at h
  · cases h
    exact ⟨rfl, rfl, fun kind => by cases kind <;> rfl, rfl, rfl, rfl⟩
  · cases h

section Starting

variable {scope : Scope} {v w : World} {o : Nat}

theorem armTimerAfter_alters (kind : TimerKind) (o delayMs : Nat) (w : World) :
    w.Alters o (armTimerAfter kind o delayMs w) := by
  rcases armTimerAfter_cases kind o delayMs w with heq | heq
  · rw [heq]
    exact .of_touches (.refl o w) rfl rfl
  · rw [heq]
    exact w.alters_arm o kind delayMs

/-- `startTimeouts_` puts a session without timers under supervision. -/
theorem startTimeouts_watched (hc : (w.obj o).state = .connected)
    (hoff : ∀ kind, w.Disarmed o kind)
    (hmark : (w.obj o).acceptedAtRx ≤ (w.obj o).accepted.length) :
    (startTimeouts o w.cfg.idleTimeoutMs w.cfg.heartbeatIntervalMs w).Watched o := by
  rw [startTimeouts_eq]
  generalize hw₁ : w.modify o _ = w₁
  have hobj₁ : w₁.obj o = { w.obj o with
      idleTimeoutMs := w.cfg.idleTimeoutMs, heartbeatIntervalMs := w.cfg.heartbeatIntervalMs,
      lastRxAt := w.now } := by
    rw [← hw₁, World.modify, World.obj_setObj_self]
  have hnow₁ : w₁.now = w.now := hw₁ ▸ rfl
  have hcfg₁ : w₁.cfg = w.cfg := hw₁ ▸ rfl
  have hpending₁ : w₁.pending = w.pending := hw₁ ▸ rfl
  have hoff₁ : ∀ kind, w₁.Disarmed o kind := fun kind => by
    refine ⟨hpending₁ ▸ (hoff kind).length, ?_⟩
    rw [hobj₁]
    cases kind
    exacts [(hoff .idle).flag, (hoff .heartbeat).flag]
  have htimed₁ : w₁.Timed o := by
    constructor
    · rw [hobj₁, hcfg₁]
      intro kind
      cases kind <;> rfl
    · rw [hobj₁, hnow₁]
    · rw [hobj₁]
      exact hmark
  have hstate₁ : (w₁.obj o).state = .connected := by
    rw [hobj₁]
    exact hc
  have hrx₁ : (w₁.obj o).lastRxAt = w₁.now := by rw [hobj₁, hnow₁]
  -- the two timers one after the other
  have hidle : (armTimerAfter .idle o w.cfg.idleTimeoutMs.toNat w₁).Armed o .idle :=
    (hoff₁ .idle).start hstate₁ hrx₁ (by rw [hobj₁]; exact Nat.le_refl _)
  have hoff₂ : (armTimerAfter .idle o w.cfg.idleTimeoutMs.toNat w₁).Disarmed o .heartbeat :=
    (hoff₁ .heartbeat).armTimerAfter_ne (by rintro ⟨⟩) _
  have htimed₂ := htimed₁.armTimerAfter .idle w.cfg.idleTimeoutMs.toNat
  have hnow₂ := (armTimerAfter_alters .idle o w.cfg.idleTimeoutMs.toNat w₁).now
  obtain ⟨armed, hobj₂⟩ := obj_armTimerAfter .idle o w.cfg.idleTimeoutMs.toNat w₁
  generalize armTimerAfter .idle o w.cfg.idleTimeoutMs.toNat w₁ = w₂ at *
  have hheartbeat :
      (armTimerAfter .heartbeat o w.cfg.heartbeatIntervalMs.toNat w₂).Armed o .heartbeat := by
    refine hoff₂.start ?_ ?_ ?_
    · rw [hobj₂, Session.state_setTimerArmed, hstate₁]
    · rw [hobj₂, Session.lastRxAt_setTimerArmed, hrx₁, hnow₂]
    · rw [hobj₂, Session.allowanceMs_congr (Session.timeoutMs_setTimerArmed _ _ _ _),
        hobj₁]
      exact Nat.le_mul_of_pos_right _ Nat.two_pos
  refine ⟨htimed₂.armTimerAfter _ _, fun kind => ?_⟩
  cases kind with
  | idle => exact hidle.armTimerAfter (by rintro ⟨⟩) _
  | heartbeat => exact hheartbeat

/-- What `emplace` leaves alone. -/
structure World.SameButSessions (w w' : World) : Prop where
  cfg : w'.cfg = w.cfg
  now : w'.now = w.now
  created : w'.created = w.created
  obj : w'.obj = w.obj
  timers : w'.timers = w.timers

theorem World.sameButSessions_emplace (w : World) (id : UInt64) (o : Nat) :
    w.SameButSessions (w.emplace id o) := by
  rcases w.emplace_cases id o with ⟨-, heq⟩ | ⟨-, heq⟩
  · rw [heq]
    exact ⟨rfl, rfl, rfl, rfl, rfl⟩
  · rw [heq]
    exact ⟨rfl, rfl, rfl, rfl, rfl⟩

theorem World.mem_emplace {w : World} {id : UInt64} {o : Nat} {e : UInt64 × Nat}
    (he : e ∈ (w.emplace id o).sessions) : e ∈ w.sessions ∨ e = (id, o) := by
  rcases w.emplace_cases id o with ⟨-, heq⟩ | ⟨-, heq⟩
  · rw [heq] at he
    exact (List.mem_append.mp he).imp_right List.mem_singleton.mp
  · rw [heq] at he
    exact .inl he

/-- A new object, which has no timers yet. -/
theorem emplace_keeps (hw : w.Tidy) {id : UInt64} {s : Session} (hid : s.id = id) :
    w.Keeps scope (some w.created) ((w.allocate s).emplace id w.created) := by
  have hsame := (w.allocate s).sameButSessions_emplace id w.created
  have hkeys := World.keys_emplace (w := w.allocate s) id w.created hw.keys
  have hmem : ∀ e ∈ ((w.allocate s).emplace id w.created).sessions,
      e ∈ w.sessions ∨ e = (id, w.created) := fun e => World.mem_emplace
  generalize (w.allocate s).emplace id w.created = v at hsame hkeys hmem
  have hself : v.obj w.created = s := hsame.obj ▸ World.obj_setObj_self _ _ s
  have hother : ∀ o ≠ w.created, v.obj o = w.obj o := fun o ho =>
    hsame.obj ▸ World.obj_setObj_ne _ ho s
  have hcreated : v.created = w.created + 1 := hsame.created
  have htidy : v.Tidy := by
    refine ⟨⟨fun e he => ?_, hkeys, fun o hc => ?_⟩, fun e he => ?_, fun t ht => ?_⟩
    · rw [hcreated]
      rcases hmem e he with hold | rfl
      · exact Nat.lt_succ_of_lt (hw.sessions e hold)
      · exact Nat.lt_succ_self _
    · rw [hcreated]
      by_cases ho : o = w.created
      · exact ho ▸ Nat.lt_succ_self _
      · exact Nat.lt_succ_of_lt (hw.obj o (hother o ho ▸ hc))
    · rcases hmem e he with hold | rfl
      · rw [hother e.2 (Nat.ne_of_lt (hw.sessions e hold))]
        exact hw.ids e hold
      · exact (congrArg Session.id hself).trans hid
    · rw [hcreated]
      exact Nat.lt_succ_of_lt (hw.timers t (hsame.timers ▸ ht))
  have hnew : ∀ {o}, w.created ≤ o → o < v.created → o = w.created := by
    intro o hle hlt
    rw [hcreated] at hlt
    exact Nat.le_antisymm (Nat.le_of_lt_succ hlt) hle
  exact {
    tidy := htidy
    __ := hsame
    created := hcreated ▸ Nat.le_succ _
    sessions := fun e he => (hmem e he).imp_right fun heq => (congrArg Prod.snd heq).ge
    obj := fun o ho _ => hother o (Nat.ne_of_lt ho) ▸ .refl _
    pending := fun o _ _ kind => by rw [World.pending, hsame.timers]; exact .refl _
    joined := fun e he hx hle =>
      absurd (congrArg some (hnew hle (htidy.sessions e he)).symm) hx
    young := fun o hx hle hlt => absurd (congrArg some (hnew hle hlt).symm) hx }

/-- An object that is new, young and under supervision need not be left out. -/
theorem World.Keeps.settle (h : w.Keeps scope (some o) v) (ho : w.created ≤ o)
    (hwatched : v.Watched o) (hyoung : (v.obj o).Young scope) : w.Keeps scope none v where
  __ := h
  obj o' ho' _ := h.obj o' ho' fun heq =>
    Nat.not_lt_of_le ho (Option.some.inj heq ▸ ho')
  pending o' ho' _ := h.pending o' ho' fun heq =>
    Nat.not_lt_of_le ho (Option.some.inj heq ▸ ho')
  joined e he _ hle := by
    by_cases heq : e.2 = o
    · exact heq ▸ hwatched
    · exact h.joined e he (fun hx => heq (Option.some.inj hx).symm) hle
  young o' _ hle hlt := by
    by_cases heq : o' = o
    · exact heq ▸ hyoung
    · exact h.young o' (fun hx => heq (Option.some.inj hx).symm) hle hlt

theorem startTimeouts_alters (o : Nat) (idleTimeoutMs heartbeatIntervalMs : UInt32) (w : World) :
    w.Alters o (startTimeouts o idleTimeoutMs heartbeatIntervalMs w) := by
  rw [startTimeouts_eq]
  exact ((World.Alters.modify w o _).trans (armTimerAfter_alters _ o _ _)).trans
    (armTimerAfter_alters _ o _ _)

theorem obj_startTimeouts (o : Nat) (idleTimeoutMs heartbeatIntervalMs : UInt32) (w : World) :
    ∃ idle heartbeat, (startTimeouts o idleTimeoutMs heartbeatIntervalMs w).obj o =
      ({ w.obj o with idleTimeoutMs, heartbeatIntervalMs, lastRxAt := w.now }.setTimerArmed
        idle .idle).setTimerArmed heartbeat .heartbeat := by
  rw [startTimeouts_eq]
  generalize hw₁ : w.modify o _ = w₁
  obtain ⟨idle, hidle⟩ := obj_armTimerAfter .idle o idleTimeoutMs.toNat w₁
  obtain ⟨heartbeat, hheartbeat⟩ := obj_armTimerAfter .heartbeat o heartbeatIntervalMs.toNat
    (armTimerAfter .idle o idleTimeoutMs.toNat w₁)
  refine ⟨idle, heartbeat, ?_⟩
  rw [hheartbeat, hidle, ← hw₁, World.modify, World.obj_setObj_self]

end Starting

section Enlisting

variable {app : Callback → World → World} {scope : Scope} {w : World}

/-- A session that is accepted is under supervision from the start. -/
theorem startTimeouts_keeps (hw : w.Tidy) {id : UInt64} {s : Session} (hs : s.New id) {v : World}
    (hv : (w.allocate s).emplace id w.created = v) : w.Keeps scope none
      (startTimeouts w.created v.cfg.idleTimeoutMs v.cfg.heartbeatIntervalMs v) := by
  have hsame := (w.allocate s).sameButSessions_emplace id w.created
  have hnew : w.Keeps scope (some w.created) ((w.allocate s).emplace id w.created) :=
    emplace_keeps hw hs.id
  rw [hv] at hsame hnew
  have hself : v.obj w.created = s := hsame.obj ▸ World.obj_setObj_self _ _ s
  have hlt : w.created < v.created := hsame.created ▸ Nat.lt_succ_self _
  have hnone : ∀ kind, v.pending w.created kind = [] := by
    intro kind
    rw [World.pending, hsame.timers]
    refine List.filter_eq_nil_iff.mpr fun t ht => ?_
    rw [decide_eq_true_iff]
    exact fun heq => Nat.ne_of_lt (hw.timers t ht) heq.1
  have hwatched : (startTimeouts w.created v.cfg.idleTimeoutMs v.cfg.heartbeatIntervalMs
      v).Watched w.created := by
    refine startTimeouts_watched (hself ▸ hs.state) (fun kind => ?_) ?_
    · exact ⟨by rw [hnone]; rfl, hself ▸ hs.timerArmed kind⟩
    · rw [hself, hs.acceptedAtRx]
      exact Nat.zero_le _
  have halters := startTimeouts_alters w.created v.cfg.idleTimeoutMs v.cfg.heartbeatIntervalMs v
  obtain ⟨idle, heartbeat, hobj⟩ := obj_startTimeouts w.created v.cfg.idleTimeoutMs
    v.cfg.heartbeatIntervalMs v
  rw [hself] at hobj
  generalize startTimeouts w.created v.cfg.idleTimeoutMs v.cfg.heartbeatIntervalMs v = u
    at hwatched halters hobj ⊢
  have htidy : u.Tidy := by
    refine halters.tidy hnew.tidy ?_ (fun _ => hself ▸ hs.state) (.inl hlt)
    simp [hobj, hself]
  have hyoung : (u.obj w.created).Young scope := by
    constructor
    · simp [hobj, hs.accepted]
    · simp [hobj, hs.closeReason]
  have hstarted : v.Keeps scope (some w.created) u :=
    halters.keeps htidy (fun hx => absurd rfl hx) fun hx => absurd rfl hx
  exact (hnew.trans hstarted).settle (Nat.le_refl _) hwatched hyoung

theorem enlist_watches (happ : ∀ c w, Watches scope none w (app c w)) {id : UInt64}
    {s : Session} (hs : s.New id) : Watches scope none w (enlist app id s w) := by
  unfold enlist
  dsimp only
  generalize (World.find (w.allocate s) id).isNone = kept
  generalize hv : (w.allocate s).emplace id w.created = v
  have hstart : Watches scope none w _ := fun hw => startTimeouts_keeps hw hs hv
  have hnote : ∀ u : World, Watches scope none u (u.sessionStarted w.created) := fun u =>
    .of_same rfl rfl rfl (.refl _) rfl rfl
  have hleave : ∀ u : World, Watches scope none u (if kept = true then u
      else u.closeSocket w.created) := by
    intro u
    split
    · exact .refl u
    · exact .of_touches (.closeSocket u w.created) rfl rfl
        (by
          rw [World.closeSocket, World.modify, World.obj_setObj_self]
          exact .of_aside (by constructor <;> rfl))
  exact ((hstart.trans (hnote _)).trans (happ _ _)).trans (hleave _)

/-- Nothing but the timers themselves touches the supervision. -/
theorem Does.watches (happ : ∀ c w, Watches scope none w (app c w)) {w' : World}
    (h : Does app scope w w') : Watches scope none w w' := by
  cases h with
  | aside h => exact .of_aside h
  | touches o h _ => exact .of_sets h
  | accepts o packet h => exact .modify (.acceptCall h _)
  | reads o recvRing _ => exact .modify (.of_aside (by constructor <;> rfl))
  | receives o recvRing bytes _ hc hbytes => exact .modify (.receive hc recvRing hbytes)
  | @closes v o reason hset _ h =>
    have halters := World.Alters.takeDown v o reason
    have hobj : (v.obj o).Keeps scope v.now ((takeDown o reason v).obj o) := by
      rw [obj_takeDown]
      exact .close h _
    exact (Watches.of_sets hset).trans
      (.of_touches halters.toTouches halters.now (timers_takeDown v o reason) hobj)
  | ends id o _ =>
    have herase : Watches scope none w ((w.erase id).sessionEnded o) :=
      .of_same rfl rfl rfl List.filter_sublist rfl rfl
    exact herase.trans (happ _ _)
  | refuses _ h => exact .of_issued h
  | starts fd memory s _ h _ hcreate =>
    exact (Watches.of_issued h).trans (enlist_watches happ (createSession_new hcreate))
  | message id opcode body | dialed id => exact happ _ w

theorem Step.app_watches {t : Step} (h : t.Within scope) (c : Callback) (w : World) :
    Watches scope none w (t.app c w) :=
  Step.app_rel .refl .trans (fun happ _ _ hdoes => hdoes.watches happ) h c w

theorem Trail.watches (happ : ∀ c w, Watches scope none w (app c w)) {w' : World}
    (h : Trail app scope w w') : Watches scope none w w' :=
  h.rel .refl .trans (Does.watches happ)

end Enlisting

end HyperNet.Net
