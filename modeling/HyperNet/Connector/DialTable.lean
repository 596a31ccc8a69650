import HyperNet.Connector.Wiring

/-!
# What becomes of dials and their sockets

Each function of `HyperNet.Connector.Dial` is a sequence of moves on the wiring of its worker.
The application may run while a function has a socket in hand and a dial half finished; it
leaves these as they are (`Dialer.Goes`), and so does every function in turn.  Between two
steps nothing is in hand (`Dialer.AtRest`), which gives `dials_accounted`.

A session whose id is in use is the exception: it is gone before it was listed, with its
socket, and its registration stays.  Ids come round after 2 ^ 32 sessions, and not before.
-/

namespace HyperNet.Connector

open Reentrant

variable {κ : Type}

def DialHandler.socket : DialHandler → Nat
  | .dial _ n => n
  | .session n => n

/-! ## The wiring of a worker -/

def Dialer.wiring (w : Dialer κ) : Wiring κ where
  dials := w.dials
  timers := w.timers
  contexts fd := (w.loop.fdContexts fd).map (·.handler)
  ownerWorkerId := w.ownerWorkerId
  localCounter := w.localCounter
  accepts := w.accepts
  sessions := w.sessions
  files := w.files
  sockets := w.sockets
  openedFor := w.openedFor
  collided := w.collided
  requests := w.requests
  invoked := w.invoked

namespace Dialer

theorem wiring_removeFd (w : Dialer κ) {fd : Int} (h : 0 ≤ fd) :
    (w.removeFd fd).wiring = w.wiring.setContext fd none := by
  have hloop : ∀ fd', ((w.removeFd fd).loop.fdContexts fd').map (·.handler) =
      if fd' = fd then none else (w.loop.fdContexts fd').map (·.handler) := by
    intro fd'
    change ((w.loop.removeFd w.ctl fd).1.fdContexts fd').map (·.handler) = _
    rw [Net.EventLoop.removeFd_of_nonneg _ _ h]
    split
    next heq => rw [heq, Net.EventLoop.fdContexts_set_self, Option.map_none]
    next hne => rw [Net.EventLoop.fdContexts_set_ne _ hne]
  unfold wiring Wiring.setContext Wiring.setContexts
  congr 1
  exact funext hloop

/-- `addFd` registers the socket, or leaves everything as it is. -/
theorem addFd_wiring (w : Dialer κ) (fd : Int) (events : UInt32) (c : DialHandler) :
    (∃ loop, w.loop.addFd w.ctl fd events (some c) = (loop, none) ∧
      (w.setLoop loop).popCtl.wiring = w.wiring.setContext fd (some c)) ∨
    ∃ e, w.loop.addFd w.ctl fd events (some c) = (w.loop, some e) := by
  rcases w.loop.addFd_cases w.ctl fd events (some c) with ⟨h, -, ⟨⟩, -, heq⟩ | ⟨herr, -⟩
  · refine .inl ⟨_, heq, ?_⟩
    unfold wiring Wiring.setContext Wiring.setContexts
    congr 1
    funext fd'
    change ((w.loop.set fd _).fdContexts fd').map (·.handler) = _
    split
    next hfd => rw [hfd, Net.EventLoop.fdContexts_set_self, Option.map_some]
    next hne => rw [Net.EventLoop.fdContexts_set_ne _ hne]
  · exact .inr herr

theorem wiring_deregister {w : Dialer κ} (h : w.wiring.Sound) {id : DialId} {st : DialState κ}
    (hid : w.dials id = some st) :
    (deregister st w).wiring = w.wiring.setContexts (w.wiring.dropped st) := by
  unfold deregister Wiring.dropped
  cases hsock : st.sock with
  | none => rfl
  | some s =>
    dsimp only
    split
    next => exact w.wiring_removeFd (h.nonneg (h.held hid hsock).2.1)
    next => rfl

section

variable (w : Dialer κ)

theorem wiring_closeSock (st : DialState κ) : (closeSock st w).wiring = w.wiring.closeSock st := by
  unfold closeSock Wiring.closeSock
  cases st.sock with
  | none => rfl
  | some s => rfl

/-- `socket` fails, or opens one on a free descriptor. -/
theorem socket_cases (serial : Nat) :
    ((w.socket serial).2 = none ∧ (w.socket serial).1.wiring = w.wiring) ∨
    ∃ fd, 0 ≤ fd ∧ w.files fd = none ∧ (w.socket serial).2 = some ⟨fd, w.sockets⟩ ∧
      (w.socket serial).1.wiring = w.wiring.openSocket fd (some serial) := by
  unfold socket
  cases w.fds.headD none with
  | none => exact .inl ⟨rfl, rfl⟩
  | some fd =>
    dsimp only
    split
    next => exact .inl ⟨rfl, rfl⟩
    next hfd =>
      rw [not_or, Int.not_lt, Bool.not_eq_true, Option.isSome_eq_false_iff,
        Option.isNone_iff_eq_none] at hfd
      exact .inr ⟨fd, hfd.1, hfd.2, rfl, rfl⟩

theorem wiring_connect (serial : Nat) (client : Socket) :
    (w.connect serial client).1.wiring = w.wiring := by
  unfold connect
  split
  next => rfl
  next => rfl

theorem wiring_getsockopt (fd : Int) : (w.getsockopt fd).1.wiring = w.wiring := by
  unfold getsockopt
  split
  next => rfl
  next => rfl

theorem nextSessionId_wiring : w.wiring.nextSessionId = w.nextSessionId := rfl

theorem find_isNone_iff (sid : UInt64) :
    (w.find sid).isNone = true ↔ sid ∉ w.sessions.map Prod.fst := by
  rw [Option.isNone_iff_eq_none, find, List.lookup_eq_none_iff]
  refine ⟨fun hnone hmem => ?_, fun hnot e he => bne_iff_ne.mpr fun heq => ?_⟩
  · obtain ⟨e, he, rfl⟩ := List.mem_map.mp hmem
    exact bne_iff_ne.mp (hnone e he) rfl
  · exact hnot (heq ▸ List.mem_map_of_mem he)

/-- A registered session is listed under its id, and noted in `collided` only if the id is in
use. -/
theorem list_cases (sid : UInt64) (s : Socket) {x : Wiring κ} (hsid : x.nextSessionId = sid)
    (hx : w.wiring = x.issue.setContext s.fd (some (.session s.serial))) :
    ((w.find sid).isNone = true ∧ x.Enlists s [(sid, s)] [] ∧
      (w.list sid s).wiring = x.enlist s [(sid, s)] []) ∨
    ((w.find sid).isNone = false ∧ x.Enlists s [] [s.serial] ∧
      (w.list sid s).wiring = x.enlist s [] [s.serial]) := by
  subst hsid
  have hsessions : w.sessions = x.sessions := congrArg Wiring.sessions hx
  have hcollided : w.collided = x.collided := congrArg Wiring.collided hx
  have hiff := hsessions ▸ w.find_isNone_iff x.nextSessionId
  unfold list Wiring.enlist
  rw [List.append_nil, List.append_nil, ← hx, ← hsessions, ← hcollided]
  split
  next hfree => exact .inl ⟨hfree, .listed (hiff.mp hfree), rfl⟩
  next hused =>
    have hmem := not_not.mp fun hnot => hused (hiff.mpr hnot)
    exact .inr ⟨Bool.not_eq_true _ ▸ hused, .collided hmem, rfl⟩

end

/-! ## What the functions do to it -/

/-- Whatever the function does is in order, and it leaves what others have in hand alone. -/
def Goes (w w' : Dialer κ) : Prop :=
  w.wiring.Sound → w.wiring.Keeps w'.wiring w.wiring.Loose w.wiring.Idle

theorem Goes.refl (w : Dialer κ) : Goes w w := Wiring.Keeps.refl

theorem Goes.trans {u v w : Dialer κ} (h : Goes u v) (h' : Goes v w) : Goes u w := fun hu =>
  (h hu).absorb (h' (h hu).sound)

theorem addTimer_goes (t : DialTimer) (w : Dialer κ) : Goes w (w.addTimer t) := fun h =>
  (h.addTimer_keeps t).mono (fun _ => .rfl) fun _ _ hi => hi.1

section Drop

variable {w : Dialer κ} {id : DialId} {st st' : DialState κ} (h : w.wiring.Sound)
  (hid : w.dials id = some st)
include h hid

/-- A dial that is done gives up its socket, … -/
theorem deregister_finishes (hst : st.completed = false) :
    w.wiring.Finishes ((deregister st w).setDial id st.finished).wiring id st.finished
      (fun t => w.wiring.Loose t ∨ st.sock = some t) := by
  have hr : w.wiring.Revises id st st.finished _ := h.drop_revises hid rfl rfl rfl
  change w.wiring.Finishes ((deregister st w).wiring.setDial id st.finished) _ _ _
  rw [wiring_deregister h hid]
  exact hr.finishes h hst rfl

theorem wiring_closeSock_setDial :
    ((closeSock st (deregister st w)).setDial id st').wiring =
      ((w.wiring.setContexts (w.wiring.dropped st)).setDial id st').closeSock st := by
  change (closeSock st (deregister st w)).wiring.setDial id st' = _
  rw [wiring_closeSock, wiring_deregister h hid]
  unfold Wiring.closeSock
  cases st.sock with
  | none => rfl
  | some s => rfl

/-- … which is closed unless a session gets it. -/
theorem closeSock_finishes (hst : st.completed = false) :
    w.wiring.Finishes ((closeSock st (deregister st w)).setDial id st.finished).wiring id
      st.finished w.wiring.Loose := by
  have hr : w.wiring.Revises id st st.finished _ := h.drop_revises hid rfl rfl rfl
  have hfin := hr.finishes h hst rfl
  rw [wiring_closeSock_setDial h hid]
  exact hfin.keeps (hfin.sound.closeSock_keeps hfin.loose (Wiring.not_loose_of_held hid))

/-- An attempt is cleared away. -/
theorem tearDown_keeps (hst : st.completed = false) (attemptIndex : UInt32) :
    w.wiring.Keeps ((tearDown st attemptIndex w).setDial id
        { st with sock := none, connectedEventRegistered := false, attemptIndex }).wiring
      w.wiring.Loose (fun id' => id' = id ∨ w.wiring.Idle id') := by
  generalize hst' : ({ st with sock := none, connectedEventRegistered := false, attemptIndex } :
    DialState κ) = st'
  have hr : w.wiring.Revises id st st' (w.wiring.dropped st) := by
    subst hst'
    exact h.drop_revises hid rfl rfl rfl
  have hwired : ((tearDown st attemptIndex w).setDial id st').wiring =
      ((closeSock st (deregister st w)).setDial id st').wiring := by
    unfold tearDown
    dsimp only
    split
    next => rfl
    next => rfl
  have hkeeps := hr.keeps h hst (hst' ▸ hst)
  have hloose (t) := (hkeeps.loose t).trans (and_iff_right (by
    rw [← hst']
    rintro ⟨⟩))
  rw [hwired, wiring_closeSock_setDial h hid]
  refine (hkeeps.trans (hkeeps.sound.closeSock_keeps hloose
    (Wiring.not_loose_of_held hid))).mono (fun _ => .rfl) fun id' _ hi => ?_
  exact (hkeeps.idle id' hi).imp And.left And.right

end Drop

section Finish

variable {w : Dialer κ} {id : DialId} {st : DialState κ}

/-- A dial is gone, completed or in another attempt, or the attempt is its own. -/
theorem unfinished_cases (w : Dialer κ) (id : DialId) (attemptIndex : UInt32) :
    (∀ st, w.dials id = some st → st.completed = true ∨ st.attemptIndex ≠ attemptIndex) ∨
    ∃ st, w.dials id = some st ∧ st.completed = false ∧ st.attemptIndex = attemptIndex := by
  cases hid : w.dials id with
  | none =>
    left
    rintro st ⟨⟩
  | some st =>
    by_cases hskip : st.completed = true ∨ st.attemptIndex ≠ attemptIndex
    · left
      rintro _ ⟨⟩
      exact hskip
    · rw [not_or, Bool.not_eq_true, ne_eq, not_not] at hskip
      exact .inr ⟨st, rfl, hskip⟩

variable (app : DialCallback κ → Dialer κ → Dialer κ)

section Skip

variable {attemptIndex : UInt32}
  (hskip : ∀ st, w.dials id = some st → st.completed = true ∨ st.attemptIndex ≠ attemptIndex)
include hskip

theorem finishDialFail_skip (err : DialError) : finishDialFail app id attemptIndex err w = w := by
  unfold finishDialFail
  split
  · rfl
  next st hid => exact if_pos (hskip st hid)

theorem finishDialOk_skip : finishDialOk app id attemptIndex w = w := by
  unfold finishDialOk
  split
  · rfl
  next st hid => exact if_pos (hskip st hid)

end Skip

variable (hid : w.dials id = some st) (hst : st.completed = false)
include hid hst

theorem finishDialFail_eq (err : DialError) : finishDialFail app id st.attemptIndex err w =
    conclude app id st.finished ⟨false, 0, err⟩
      ((closeSock st (deregister st w)).setDial id st.finished) := by
  unfold finishDialFail
  rw [hid]
  dsimp only
  rw [if_neg]
  rintro (hdone | hne)
  · exact Bool.noConfusion (hst.symm.trans hdone)
  · exact hne rfl

theorem finishDialOk_eq : finishDialOk app id st.attemptIndex w =
    let r := onAccepted app st.sock ((deregister st w).setDial id st.finished)
    if r.2 = 0 then
      conclude app id st.finished
        ⟨false, 0, .text "dial connected but failed to create session"⟩ r.1
    else
      conclude app id st.finished ⟨true, r.2, .text ""⟩
        { r.1 with
          promoted := r.1.promoted ++ st.sock.toList.map fun s => (st.serial, s.serial) } := by
  unfold finishDialOk
  rw [hid]
  dsimp only
  rw [if_neg]
  rintro (hdone | hne)
  · exact Bool.noConfusion (hst.symm.trans hdone)
  · exact hne rfl

end Finish

section Source

variable {app : DialCallback κ → Dialer κ → Dialer κ} (happ : ∀ c w, Goes w (app c w))
  {w : Dialer κ} {st : DialState κ} {id : DialId}
include happ

/-- The socket passes to a session, or is closed. -/
theorem onAccepted_keeps (h : w.wiring.Sound) {s : Socket} (hs : w.wiring.Loose s) :
    w.wiring.Keeps (onAccepted app (some s) w).1.wiring (fun t => w.wiring.Loose t ∧ t ≠ s)
      w.wiring.Idle := by
  unfold onAccepted
  extract_lets id created w₁
  have hw₁ : w₁.wiring = w.wiring.issue := rfl
  have hissue := h.issue_keeps
  have hclosed := (hissue.trans (((hissue.loose s).mpr hs).close_keeps hissue.sound)).mono
    (fun t => and_congr_left fun _ => hissue.loose t) fun _ _ hi => hi
  dsimp only
  split
  next => exact hclosed
  next =>
    rcases w₁.addFd_wiring s.fd sessionMask (.session s.serial) with ⟨loop, heq, hwired⟩ | ⟨e, heq⟩
    · rw [heq]
      dsimp only
      generalize (w₁.setLoop loop).popCtl = w₂ at hwired
      rw [hw₁] at hwired
      rcases w₂.list_cases id s w.nextSessionId_wiring hwired with
        ⟨hfree, henlists, hlist⟩ | ⟨hused, henlists, hlist⟩
      · rw [if_pos hfree]
        have hkeeps := hlist ▸ hs.enlist_keeps h henlists
        refine (hkeeps.absorb (happ _ _ hkeeps.sound)).mono (fun t => ?_) fun _ _ hi => hi
        refine and_congr_right fun _ => ⟨fun hnot heq => ?_, fun hne sid hmem => ?_⟩
        · exact hnot id (heq ▸ List.mem_singleton_self _)
        · exact hne (henlists.eq hmem)
      · rw [if_neg (Bool.not_eq_true _ ▸ hused)]
        have hkeeps := hlist ▸ hs.enlist_keeps h henlists
        have hkeeps := hkeeps.absorb (happ (.onSessionStart id) _ hkeeps.sound)
        have hloose := (hkeeps.loose s).mpr ⟨hs, fun _ => List.not_mem_nil⟩
        refine (hkeeps.trans (hloose.close_keeps hkeeps.sound)).mono (fun t => ?_)
          fun id' _ hi => hkeeps.idle id' hi
        exact and_congr_left fun _ =>
          (hkeeps.loose t).trans (and_iff_left fun _ => List.not_mem_nil)
    · rw [heq]
      exact hclosed

theorem closeSession_goes (id : UInt64) (w : Dialer κ) : Goes w (closeSession app id w) := by
  intro h
  unfold closeSession
  cases hfind : w.find id with
  | none => exact .refl h
  | some s =>
    have hmem : (id, s) ∈ w.wiring.sessions := by
      obtain ⟨l₁, l₂, hl, -⟩ := List.lookup_eq_some_iff.mp hfind
      change (id, s) ∈ w.sessions
      exact hl ▸ List.mem_append_right l₁ List.mem_cons_self
    dsimp only
    generalize hw₁ : { (w.removeFd s.fd).close s.fd with
      sessions := ((w.removeFd s.fd).close s.fd).sessions.filter (·.1 ≠ id) } = w₁
    have hwired : w₁.wiring = w.wiring.leave id s.fd := by
      have hremoved := w.wiring_removeFd (h.nonneg (h.owned hmem).1)
      rw [← hw₁]
      unfold Wiring.leave
      rw [← hremoved]
      rfl
    have hkeeps := hwired ▸ h.leave_keeps hmem
    exact hkeeps.absorb (happ _ _ hkeeps.sound)

/-- The socket of a finished dial passes to a session, or is closed. -/
theorem onAccepted_finishes (h : w.wiring.Sound) (hid : w.dials id = some st)
    (hst : st.completed = false) :
    w.wiring.Finishes
      (onAccepted app st.sock ((deregister st w).setDial id st.finished)).1.wiring id st.finished
      w.wiring.Loose := by
  have hfin := deregister_finishes h hid hst
  generalize (deregister st w).setDial id st.finished = w₁ at hfin
  cases hsock : st.sock with
  | none =>
    rw [hsock] at hfin
    refine (hfin.keeps hfin.sound.issue_keeps).congr fun t => ?_
    exact (hfin.loose t).trans (or_iff_left nofun)
  | some s =>
    rw [hsock] at hfin
    have hs : w₁.wiring.Loose s := (hfin.loose s).mpr (.inr rfl)
    refine (hfin.keeps (onAccepted_keeps happ hfin.sound hs)).congr fun t => ?_
    rw [hfin.loose t, Option.some_inj, eq_comm (a := s)]
    exact Wiring.in_hand_iff (Wiring.not_loose_of_held hid hsock) t

/-- A finished dial calls back and leaves the table. -/
theorem conclude_keeps {w w₁ : Dialer κ} {L : Socket → Prop}
    (h : w.wiring.Finishes w₁.wiring id st L) (r : Dialed) :
    w.wiring.Keeps (conclude app id st r w₁).wiring L
      (fun id' => w.wiring.Idle id' ∧ id' ≠ id) := by
  have hback := (h.keeps (happ (.dialed st.cb r) w₁ h.sound)).congr h.loose
  exact hback.conclude r

/-- A dial fails, unless it is in another attempt. -/
theorem finishDialFail_keeps (h : w.wiring.Sound) (id : DialId) (attemptIndex : UInt32)
    (err : DialError) :
    w.wiring.Keeps (finishDialFail app id attemptIndex err w).wiring w.wiring.Loose
      (w.wiring.IdleBut id attemptIndex) := by
  rcases w.unfinished_cases id attemptIndex with hskip | ⟨st, hid, hst, rfl⟩
  · rw [finishDialFail_skip app hskip]
    exact h.skip_keeps hskip
  · rw [finishDialFail_eq app hid hst]
    exact (conclude_keeps happ (closeSock_finishes h hid hst) _).but _

theorem finishDialFail_goes (id : DialId) (attemptIndex : UInt32) (err : DialError)
    (w : Dialer κ) : Goes w (finishDialFail app id attemptIndex err w) := fun h =>
  (finishDialFail_keeps happ h id attemptIndex err).mono (fun _ => .rfl) fun _ _ hi => hi.1

/-- A dial has connected, unless it is in another attempt. -/
theorem finishDialOk_keeps (h : w.wiring.Sound) (id : DialId) (attemptIndex : UInt32) :
    w.wiring.Keeps (finishDialOk app id attemptIndex w).wiring w.wiring.Loose
      (w.wiring.IdleBut id attemptIndex) := by
  rcases w.unfinished_cases id attemptIndex with hskip | ⟨st, hid, hst, rfl⟩
  · rw [finishDialOk_skip app hskip]
    exact h.skip_keeps hskip
  · have hfin := onAccepted_finishes happ h hid hst
    rw [finishDialOk_eq app hid hst]
    generalize onAccepted app st.sock ((deregister st w).setDial id st.finished) = r at hfin ⊢
    dsimp only
    split
    next => exact (conclude_keeps happ hfin _).but _
    next =>
      refine (conclude_keeps happ ?_ _).but _
      exact hfin

theorem finishDialOk_goes (id : DialId) (attemptIndex : UInt32) (w : Dialer κ) :
    Goes w (finishDialOk app id attemptIndex w) := fun h =>
  (finishDialOk_keeps happ h id attemptIndex).mono (fun _ => .rfl) fun _ _ hi => hi.1

/-- The client of an attempt is closed, or passes to the dial or to a session. -/
theorem connectClient_keeps (h : w.wiring.Sound) {client : Socket} (hid : w.dials id = some st)
    (hsock : st.sock = none) (hreg : st.connectedEventRegistered = false)
    (hst : st.completed = false) (hclient : w.wiring.Loose client)
    (hopened : (client.serial, st.serial) ∈ w.openedFor) :
    w.wiring.Keeps (connectClient app id st.attemptIndex st client w).wiring
      (fun t => w.wiring.Loose t ∧ t ≠ client) (fun id' => w.wiring.Idle id' ∧ id' ≠ id) := by
  have htaken (t : Socket) : some client ≠ some t ∧ (w.wiring.Loose t ∨ st.sock = some t) ↔
      w.wiring.Loose t ∧ t ≠ client := by
    rw [hsock, and_comm]
    refine and_congr (or_iff_left nofun) (not_congr ?_)
    exact ⟨fun heq => (Option.some.inj heq).symm, fun heq => heq ▸ rfl⟩
  unfold connectClient
  have hwired := w.wiring_connect st.serial client
  generalize w.connect st.serial client = r at hwired ⊢
  obtain ⟨w₁, e⟩ := r
  have hid₁ : w₁.dials id = some st := (congrFun (congrArg Wiring.dials hwired) id).trans hid
  dsimp only at hwired
  rw [← hwired] at h hclient htaken ⊢
  rw [← show w₁.openedFor = w.openedFor from congrArg Wiring.openedFor hwired] at hopened
  cases e with
  | none =>
    have hr := h.take_revises hid₁ hsock hst hclient hopened hreg
    have hkeeps := hr.keeps h hst hst
    have hok := finishDialOk_keeps happ (w := w₁.setDial id { st with sock := some client })
      hkeeps.sound id st.attemptIndex
    refine (hkeeps.trans hok).mono (fun t => (hkeeps.loose t).trans (htaken t)) fun id' _ hi => ?_
    have hfiled : (w₁.setDial id { st with sock := some client }).dials id =
        some { st with sock := some client } := if_pos rfl
    obtain ⟨hi, hne⟩ := hi.ne hfiled rfl
    exact ⟨((hkeeps.idle id' hi).resolve_left fun hmine => hne hmine.1).2, hne⟩
  | some e =>
    dsimp only
    split
    next =>
      split
      next =>
        have hkeeps := h.addTimer_keeps (.retry id 1 st.opt.retryDelayMs.toNat)
        have hclose := ((hkeeps.loose client).mpr hclient).close_keeps hkeeps.sound
        refine (hkeeps.trans hclose).mono (fun t => and_congr_left fun _ => hkeeps.loose t)
          fun id' _ hi => ?_
        obtain ⟨hi, hother⟩ := hkeeps.idle id' hi
        refine ⟨hi, ?_⟩
        rintro rfl
        exact hother _ _ rfl
      next =>
        have hkeeps := finishDialFail_keeps happ h id st.attemptIndex (.errno e)
        have hclose := ((hkeeps.loose client).mpr hclient).close_keeps hkeeps.sound
        refine (hkeeps.trans hclose).mono (fun t => and_congr_left fun _ => hkeeps.loose t)
          fun id' _ hi => ?_
        exact (hkeeps.idle id' hi).ne hid₁ rfl
    next =>
      rcases w₁.addFd_wiring client.fd dialMask (.dial id client.serial) with
        ⟨loop, heq, hadded⟩ | ⟨e, heq⟩
      · rw [heq]
        dsimp only
        have hr := h.takeRegistered_revises hid₁ hsock hst hclient hopened
        have hkeeps := hr.keeps h hst hst
        have hwaiting : w₁.wiring.Keeps ((w₁.setLoop loop).popCtl.setDial id
            { st with sock := some client, connectedEventRegistered := true }).wiring
            (fun t => w₁.wiring.Loose t ∧ t ≠ client)
            (fun id' => w₁.wiring.Idle id' ∧ id' ≠ id) := by
          change w₁.wiring.Keeps ((w₁.setLoop loop).popCtl.wiring.setDial id _) _ _
          rw [hadded]
          refine hkeeps.mono htaken fun id' _ hi => ?_
          rcases hi with ⟨-, ⟨⟨⟩⟩ | ⟨⟨⟩⟩, -⟩ | ⟨hne, hi⟩
          exact ⟨hi, hne⟩
        split
        next =>
          refine (hwaiting.trans (hwaiting.sound.addTimer_keeps _)).mono hwaiting.loose
            fun id' _ hi => hwaiting.idle id' hi.1
        next => exact hwaiting
      · rw [heq]
        dsimp only
        have hclose := hclient.close_keeps h
        have hfail := finishDialFail_keeps happ
          (w := (w₁.setLoop w₁.loop).popCtl.close client.fd) hclose.sound id st.attemptIndex
          (.text "addFd failed")
        exact (hclose.trans hfail).mono hclose.loose fun id' _ hi => hi.ne hid₁ rfl

theorem createClient_keeps (h : w.wiring.Sound) (hid : w.dials id = some st)
    (hsock : st.sock = none) (hreg : st.connectedEventRegistered = false)
    (hst : st.completed = false) :
    w.wiring.Keeps (createClient app id st.attemptIndex st w).wiring w.wiring.Loose
      (fun id' => w.wiring.Idle id' ∧ id' ≠ id) := by
  unfold createClient
  rcases w.socket_cases st.serial with ⟨hnone, hwired⟩ | ⟨fd, hfd, hfree, hsome, hwired⟩
  · generalize w.socket st.serial = r at hnone hwired ⊢
    obtain ⟨w₁, client⟩ := r
    cases hnone
    dsimp only at hwired ⊢
    have hid₁ : w₁.dials id = some st := (congrFun (congrArg Wiring.dials hwired) id).trans hid
    rw [← hwired] at h ⊢
    exact (finishDialFail_keeps happ h id st.attemptIndex _).mono (fun _ => .rfl)
      fun id' _ hi => hi.ne hid₁ rfl
  · have hopen := hwired ▸ h.openSocket_keeps hfree hfd (some st.serial)
    generalize w.socket st.serial = r at hsome hwired hopen ⊢
    obtain ⟨w₁, client⟩ := r
    cases hsome
    dsimp only at hwired hopen ⊢
    have hid₁ : w₁.dials id = some st := (congrFun (congrArg Wiring.dials hwired) id).trans hid
    have hloose : w₁.wiring.Loose ⟨fd, w.sockets⟩ := (hopen.loose _).mpr (.inr rfl)
    have hopened : (w.sockets, st.serial) ∈ w₁.wiring.openedFor := by
      rw [hwired, Wiring.mem_openSocket]
      exact .inr ⟨rfl, rfl⟩
    have hclient := connectClient_keeps happ hopen.sound hid₁ hsock hreg hst hloose hopened
    refine (hopen.trans hclient).mono (fun t => ?_) fun id' _ hi => ⟨hopen.idle id' hi.1, hi.2⟩
    rw [hopen.loose t]
    exact Wiring.in_hand_iff (Wiring.not_loose_of_free hfree) t

/-- An attempt ends at once or waits for its socket or for a retry. -/
theorem dialStartAttempt_keeps (h : w.wiring.Sound) (id : DialId) (attemptIndex : UInt32) :
    w.wiring.Keeps (dialStartAttempt app id attemptIndex w).wiring w.wiring.Loose
      (fun id' => w.wiring.Idle id' ∧ id' ≠ id) := by
  have hskip (hnot : ¬ w.wiring.Idle id) :
      w.wiring.Keeps w.wiring w.wiring.Loose (fun id' => w.wiring.Idle id' ∧ id' ≠ id) :=
    (Wiring.Keeps.refl h).mono (fun _ => .rfl) fun id' _ hi => ⟨hi, fun heq => hnot (heq ▸ hi)⟩
  unfold dialStartAttempt
  cases hid : w.dials id with
  | none => exact hskip fun ⟨st, hid', _⟩ => by cases hid.symm.trans hid'
  | some st =>
    dsimp only
    split
    next hdone =>
      refine hskip fun ⟨st, hid', hc, _⟩ => ?_
      cases hid.symm.trans hid'
      exact Bool.noConfusion (hc.symm.trans hdone)
    next hdone =>
      have hst : st.completed = false := Bool.not_eq_true _ ▸ hdone
      have hkeeps := tearDown_keeps h hid hst attemptIndex
      have hrest := createClient_keeps happ hkeeps.sound (if_pos rfl) rfl rfl hst
      exact (hkeeps.trans hrest).mono hkeeps.loose fun id' _ hi =>
        ⟨(hkeeps.idle id' hi.1).resolve_left hi.2, hi.2⟩

theorem handleEvent_goes (id : DialId) (fd : Int) (w : Dialer κ) :
    Goes w (handleEvent app id fd w) := by
  unfold handleEvent
  cases hid : w.dials id with
  | none => exact .refl w
  | some st =>
    dsimp only
    split
    next => exact .refl w
    next =>
      have hwired := w.wiring_getsockopt fd
      generalize w.getsockopt fd = r at hwired ⊢
      obtain ⟨w₁, soErr⟩ := r
      unfold Goes
      rw [← hwired]
      cases soErr with
      | none => exact finishDialFail_goes happ id _ _ w₁
      | some soErr =>
        dsimp only
        split
        next =>
          split
          next => exact addTimer_goes _ w₁
          next => exact finishDialFail_goes happ id _ _ w₁
        next => exact finishDialOk_goes happ id _ w₁

theorem dialTimeout_goes (id : DialId) (expectedAttempt : UInt32) (w : Dialer κ) :
    Goes w (dialTimeout app id expectedAttempt w) := by
  unfold dialTimeout
  cases hid : w.dials id with
  | none => exact .refl w
  | some st =>
    dsimp only
    split
    next => exact .refl w
    next =>
      split
      next => exact addTimer_goes _ w
      next => exact finishDialFail_goes happ id _ _ w

theorem dialTcpSession_goes (opt : DialTcpOptions) (cb : Option κ) (w : Dialer κ) :
    Goes w (dialTcpSession app opt cb w) := by
  unfold dialTcpSession
  cases cb with
  | none => exact .refl w
  | some cb =>
    dsimp only
    split
    next =>
      have hback := happ (.dialed cb ⟨false, 0, .text "dialTcpSession: invalid host/port"⟩) w
      generalize app _ w = w₁ at hback ⊢
      exact hback.trans fun h => h.refuse_keeps opt cb _
    next =>
      intro h
      have hkeeps : w.wiring.Keeps (emplace w.nextDialId opt cb
          { w with nextDialId := w.nextDialId + 1, issued := w.issued + 1 }).wiring
          w.wiring.Loose (fun id' => id' = w.nextDialId ∨ w.wiring.Idle id') := by
        unfold emplace
        split
        next => exact (Wiring.Keeps.refl h).mono (fun _ => .rfl) fun _ _ hi => .inr hi
        next hfree =>
          rw [Bool.not_eq_true, Option.isSome_eq_false_iff, Option.isNone_iff_eq_none] at hfree
          exact h.emplace_keeps hfree opt cb
      have hstart := dialStartAttempt_keeps happ hkeeps.sound w.nextDialId 0
      exact (hkeeps.trans hstart).mono hkeeps.loose fun id' _ hi =>
        (hkeeps.idle id' hi.1).resolve_left hi.2

theorem fire_goes (i : Nat) (w : Dialer κ) : Goes w (fire app i w) := by
  unfold fire
  cases ht : w.timers[i]? with
  | none => exact .refl w
  | some t =>
    intro h
    have hkeeps := h.timers_keeps (w.timers.eraseIdx i)
    have hidle {id} (hi : w.wiring.Idle id ∨ ∃ attempt delay,
        .retry id attempt delay ∈ w.timers ∧ .retry id attempt delay ∉ w.timers.eraseIdx i) :
        w.wiring.Idle id ∨ ∃ attempt delay, t = .retry id attempt delay := by
      refine hi.imp_right fun ⟨attempt, delay, hmem, hnot⟩ => ⟨attempt, delay, ?_⟩
      obtain ⟨j, hj⟩ := List.mem_iff_getElem?.mp hmem
      by_cases heq : j = i
      · exact Option.some.inj (ht.symm.trans (heq ▸ hj))
      · exact absurd (List.mem_eraseIdx_iff_getElem?.mpr ⟨j, heq, hj⟩) hnot
    cases t with
    | retry id attempt delay =>
      have hstart := dialStartAttempt_keeps happ
        (w := { w with timers := w.timers.eraseIdx i }) hkeeps.sound id attempt
      refine (hkeeps.trans hstart).mono hkeeps.loose fun id' _ hi => ?_
      rcases hidle (hkeeps.idle id' hi.1) with hi' | ⟨attempt', delay', ⟨⟩⟩
      · exact hi'
      · exact absurd rfl hi.2
    | timeout id expectedAttempt delay =>
      have htimeout := dialTimeout_goes happ id expectedAttempt
        { w with timers := w.timers.eraseIdx i } hkeeps.sound
      refine (hkeeps.trans htimeout).mono hkeeps.loose fun id' _ hi => ?_
      rcases hidle (hkeeps.idle id' hi) with hi' | ⟨attempt', delay', ⟨⟩⟩
      exact hi'

theorem ready_goes (fd : Int) (w : Dialer κ) : Goes w (ready app fd w) := by
  unfold ready
  cases w.loop.fdContexts fd with
  | none => exact .refl w
  | some ctx =>
    dsimp only
    cases ctx.handler with
    | dial id n => exact handleEvent_goes happ id fd w
    | session n => exact .refl w

theorem accept_goes (fd : Int) (w : Dialer κ) : Goes w (accept app fd w) := by
  unfold accept
  split
  next => exact .refl w
  next hfd =>
    intro h
    rw [not_or, Int.not_lt, Bool.not_eq_true, Option.isSome_eq_false_iff,
      Option.isNone_iff_eq_none] at hfd
    have hwired : (w.openSocket fd).wiring = w.wiring.openSocket fd none := by
      unfold Wiring.openSocket
      rw [Option.map_none, Option.toList_none, List.append_nil]
      rfl
    have hopen := hwired ▸ h.openSocket_keeps hfd.2 hfd.1 none
    have hs := (hopen.loose ⟨fd, w.sockets⟩).mpr (.inr rfl)
    refine (hopen.trans (onAccepted_keeps happ hopen.sound hs)).mono (fun t => ?_)
      fun id' _ hi => hopen.idle id' hi
    rw [hopen.loose t]
    exact Wiring.in_hand_iff (Wiring.not_loose_of_free hfd.2) t

theorem runTask_goes (w : Dialer κ) : Goes w (runTask app w) := by
  unfold runTask
  split
  next => exact .refl w
  next opt cb posted _ => exact dialTcpSession_goes happ opt cb { w with posted }

theorem call_goes (a : DialApi κ) (w : Dialer κ) : Goes w (call a app w) := by
  cases a with
  | dialTcpSession opt cb => exact dialTcpSession_goes happ opt cb w
  | closeSession id => exact closeSession_goes happ id w

end Source

/-! ## Runs -/

theorem app_goes (t : DialStep κ) (c : DialCallback κ) (w : Dialer κ) : Goes w (t.app c w) :=
  respond_rel .refl .trans (fun a _ w happ => call_goes happ a w) t.user c w

theorem step_goes (w : Dialer κ) (t : DialStep κ) : Goes w (step w t) := by
  have happ := app_goes t
  change Goes (w.answered t) (t.input.exec t.app (w.answered t))
  cases t.input with
  | post opt cb => exact .refl _
  | runTask => exact runTask_goes happ _
  | ready fd => exact ready_goes happ fd _
  | timer i => exact fire_goes happ i _
  | socketError n err => exact .refl _
  | accept fd => exact accept_goes happ fd _
  | closeSession id => exact closeSession_goes happ id _
  | task client => exact Script.run_rel .refl .trans (fun a _ w happ => call_goes happ a w) client _

theorem sound_init (ownerWorkerId : UInt32) :
    (wiring ({ ownerWorkerId } : Dialer κ)).Sound where
  held h := by cases h
  registered h := by cases h
  dialContext h := by cases h
  owned h := absurd h List.not_mem_nil
  sessionContext h := by cases h
  counter := rfl
  issued h := absurd h List.not_mem_nil
  collided _ := rfl
  ids := List.nodup_nil
  sockets := List.nodup_nil
  nonneg h := by cases h
  bound h := by cases h
  inj h := by cases h
  opened h := absurd h List.not_mem_nil
  openedOnce h := absurd h List.not_mem_nil
  ledger := Ledger.sound_empty

/-- Between steps everything is in order and nothing is in hand. -/
structure AtRest (w : Dialer κ) : Prop where
  sound : w.wiring.Sound
  open_dials : ∀ {id st}, w.dials id = some st → st.completed = false
  not_loose : ∀ s, ¬ w.wiring.Loose s
  not_idle : ∀ id, ¬ w.wiring.Idle id
  ledger : Ledger.Path False {} w.ledger

theorem AtRest.goes {w w' : Dialer κ} (h : w.AtRest) (hgoes : Goes w w') : w'.AtRest := by
  have hkeeps := hgoes h.sound
  refine ⟨hkeeps.sound, fun {id st} hid => ?_, fun s hs => ?_, fun id hi => ?_,
    h.ledger.trans hkeeps.ledger⟩
  · cases hc : st.completed with
    | false => rfl
    | true => exact hc.symm.trans (h.open_dials ((hkeeps.completed hc).mp hid))
  · exact h.not_loose s ((hkeeps.loose s).mp hs)
  · exact h.not_idle id (hkeeps.idle id hi)

theorem atRest_init (ownerWorkerId : UInt32) : AtRest ({ ownerWorkerId } : Dialer κ) where
  sound := sound_init ownerWorkerId
  open_dials h := by cases h
  not_loose s h := by cases h.isOpen
  not_idle id h := by
    obtain ⟨st, ⟨⟩, -⟩ := h
  ledger := .refl

theorem atRest_run (ownerWorkerId : UInt32) (steps : List (DialStep κ)) :
    (run ownerWorkerId steps).AtRest :=
  (atRest_init ownerWorkerId).goes (foldl_rel Goes.refl Goes.trans step_goes _ steps)

/-- Something will carry the dial on: a retry is due, or its open socket is registered. -/
def Pending (w : Dialer κ) (id : DialId) : Prop :=
  (∃ attempt delay, .retry id attempt delay ∈ w.timers) ∨
    ∃ fd ctx n, w.loop.fdContexts fd = some ctx ∧ ctx.handler = .dial id n ∧ w.files fd = some n

/-- One session has the socket, and no dial is registered for it. -/
structure Passed (w : Dialer κ) (n : Nat) : Prop where
  one : (w.sessions.filter (·.2.serial = n)).length = 1
  not_dial : ∀ fd ctx id, w.loop.fdContexts fd = some ctx → ctx.handler ≠ .dial id n

/-- The socket is closed and not registered. -/
structure Released (w : Dialer κ) (n : Nat) : Prop where
  closed : ∀ fd, w.files fd ≠ some n
  unregistered : ∀ fd ctx, w.loop.fdContexts fd = some ctx → ctx.handler.socket ≠ n

namespace AtRest

variable {w : Dialer κ} (h : w.AtRest)
include h

theorem pending {id : DialId} {st : DialState κ} (hid : w.dials id = some st) : w.Pending id := by
  by_cases htimers : ∃ attempt delay, DialTimer.retry id attempt delay ∈ w.timers
  · exact .inl htimers
  · push Not at htimers
    have hnot := not_exists.mp (h.not_idle id) st
    have hreg : ¬ (st.sock = none ∨ st.connectedEventRegistered = false) := fun hunreg =>
      hnot ⟨hid, h.open_dials hid, hunreg, htimers⟩
    rw [not_or, Bool.not_eq_false, ← ne_eq, Option.ne_none_iff_exists'] at hreg
    obtain ⟨⟨s, hs⟩, hreg⟩ := hreg
    have hctx := h.sound.registered hid hs hreg
    obtain ⟨ctx, hctx, hhandler⟩ := Option.map_eq_some_iff.mp hctx
    exact .inr ⟨s.fd, ctx, s.serial, hctx, hhandler, (h.sound.held hid hs).2.1⟩

/-- An open socket has a dial or a session. -/
theorem held_or_owned {s : Socket} (hs : w.files s.fd = some s.serial) :
    w.wiring.Held s ∨ w.wiring.Owned s := by
  by_contra hnot
  rw [not_or] at hnot
  exact h.not_loose s ⟨hs, hnot.1, hnot.2⟩

/-- The dial that a socket was opened for still has it, … -/
theorem held_of_dial {n k : Nat} {s : Socket} (hopened : (n, k) ∈ w.openedFor)
    (hs : w.wiring.Held s) (hn : s.serial = n) : w.ledger.Held k := by
  obtain ⟨id, st, hid, hsock⟩ := hs
  have hk := h.sound.openedOnce (hn ▸ (h.sound.held hid hsock).2.2) hopened
  exact ⟨id, some st.cb, by rw [← hk]; exact congrArg (Option.map _) hid⟩

/-- … or a session has it … -/
theorem passed {n k : Nat} {s : Socket} (hopened : (n, k) ∈ w.openedFor) (hk : ¬ w.ledger.Held k)
    (hs : w.wiring.Owned s) (hn : s.serial = n) : w.Passed n := by
  obtain ⟨sid, hmem⟩ := hs
  have hall : ∀ e ∈ w.sessions.filter (·.2.serial = n), e = (sid, s) := by
    rintro ⟨sid', t⟩ ht
    obtain ⟨ht, hserial⟩ := List.mem_filter.mp ht
    have hserial : t.serial = s.serial := (of_decide_eq_true hserial).trans hn.symm
    have hopen := (h.sound.owned ht).1
    have hfd := h.sound.inj (hserial ▸ hopen) (h.sound.owned hmem).1
    obtain rfl := Wiring.eq_of_fd (h.sound.owned hmem).1 hopen hfd
    rw [h.sound.id_eq hmem ht]
  have hnodup := (h.sound.ids.of_map _).filter fun e => decide (e.2.serial = n)
  have hin : (sid, s) ∈ w.sessions.filter (·.2.serial = n) :=
    List.mem_filter.mpr ⟨hmem, decide_eq_true hn⟩
  refine ⟨Nat.le_antisymm ?_ (List.length_pos_of_mem hin), fun fd ctx id hctx hhandler => ?_⟩
  · have hrep := List.eq_replicate_of_mem hall
    change (w.sessions.filter _).Nodup at hnodup
    rw [hrep, List.nodup_replicate] at hnodup
    exact hnodup
  · obtain ⟨st, hid, hsock, -⟩ := h.sound.dialContext
      ((congrArg (Option.map _) hctx).trans (congrArg some hhandler))
    exact hk (h.held_of_dial hopened ⟨id, st, hid, hsock⟩ rfl)

/-- … or it is gone. -/
theorem released {n : Nat} (hclosed : ∀ fd, w.files fd ≠ some n) (hn : n ∉ w.collided) :
    w.Released n := by
  refine ⟨hclosed, fun fd ctx hctx heq => ?_⟩
  have hwired : w.wiring.contexts fd = some ctx.handler := congrArg (Option.map _) hctx
  cases hhandler : ctx.handler with
  | dial id m =>
    rw [hhandler] at hwired heq
    obtain ⟨st, hid, hsock, -⟩ := h.sound.dialContext hwired
    exact hclosed fd (heq ▸ (h.sound.held hid hsock).2.1)
  | session m =>
    rw [hhandler] at hwired heq
    rcases h.sound.sessionContext hwired with ⟨sid, hmem⟩ | hm
    · exact hclosed fd (heq ▸ (h.sound.owned hmem).1)
    · exact hn (heq ▸ hm)

end AtRest

/-- Every dial is answered once, and leaves the table with its answer.  While it is in the
table something will carry it on, and when it has left, each of its sockets has passed to one
session or is closed and not registered, unless the session's id was in use, as none is before
`onAccepted` has been called more than 2 ^ 32 times. -/
theorem dials_accounted (ownerWorkerId : UInt32) (steps : List (DialStep κ)) :
    (∀ k, ((run ownerWorkerId steps).ledger.answersTo k).length ≤ 1) ∧
    (run ownerWorkerId steps).ledger.Once ∧
    (∀ id st, (run ownerWorkerId steps).dials id = some st →
      (run ownerWorkerId steps).Pending id) ∧
    (∀ n k, (n, k) ∈ (run ownerWorkerId steps).openedFor →
      ¬ (run ownerWorkerId steps).ledger.Held k → n ∉ (run ownerWorkerId steps).collided →
      (run ownerWorkerId steps).Passed n ∨ (run ownerWorkerId steps).Released n) ∧
    ((run ownerWorkerId steps).accepts ≤ 2 ^ 32 → (run ownerWorkerId steps).collided = []) := by
  have hrest := atRest_run ownerWorkerId steps
  generalize run ownerWorkerId steps = w at hrest ⊢
  refine ⟨hrest.sound.ledger.answersTo_length_le, ?_, fun id st hid => hrest.pending hid, ?_,
    hrest.sound.collided⟩
  · exact Ledger.sound_empty.once_path (fun n cb h => by cases h) hrest.ledger
  · intro n k hopened hk hcollided
    by_cases hopen : ∃ fd, w.files fd = some n
    · obtain ⟨fd, hfd⟩ := hopen
      rcases hrest.held_or_owned (s := ⟨fd, n⟩) hfd with hheld | howned
      · exact absurd (hrest.held_of_dial hopened hheld rfl) hk
      · exact .inl (hrest.passed hopened hk howned rfl)
    · exact .inr (hrest.released (not_exists.mp hopen) hcollided)

/-! ## Ids come round -/

/-- A dial that connects at once. -/
def dialing (fd : Int) (ctls : List (Option Nat)) : DialStep Unit where
  input := .task (.sequence [.dialTcpSession { host := "10.0.0.1", port := 80 } (some ())])
  fds := [some fd]
  connects := [none]
  ctls := ctls

def ENOSPC : Nat := 28

/-- The first dial makes a session, the sessions of the next `n` cannot be registered, and
that of the last can. -/
def manyDials (n : Nat) : List (DialStep Unit) :=
  dialing 5 [] :: List.replicate n (dialing 6 [some ENOSPC]) ++ [dialing 6 []]

/-- Worker 1 with the session of its first dial, when it has used `n` ids. -/
structure Used (n : Nat) (w : Dialer Unit) : Prop where
  owner : w.ownerWorkerId = 1
  counter : w.localCounter = UInt64.ofNat (n + 1)
  dials : ∀ id, w.dials id = none
  sessions : w.sessions = [(0x100000001, ⟨5, 0⟩)]
  sockets : 0 < w.sockets
  free : w.files 6 = none

/-- The socket of a dial from `w` passes to the session manager in `v`. -/
structure Handing (n : Nat) (ctls : List (Option Nat)) (w v : Dialer Unit) (id : DialId) :
    Prop where
  owner : v.ownerWorkerId = 1
  counter : v.localCounter = UInt64.ofNat (n + 1)
  dials : ∀ id', id' ≠ id → v.dials id' = none
  sessions : v.sessions = [(0x100000001, ⟨5, 0⟩)]
  sockets : v.sockets = w.sockets + 1
  openedFor : v.openedFor = w.openedFor ++ [(w.sockets, w.requests.length)]
  ctls : v.ctls = ctls
  memory : v.memory = []

section Used

variable {n : Nat} {w : Dialer Unit}

theorem Used.step_dialing (h : Used n w) (ctls : List (Option Nat)) :
    ∃ id st v, Handing n ctls w v id ∧ step w (dialing 6 ctls) =
      let r := onAccepted passive (some ⟨6, w.sockets⟩) v
      if r.2 = 0 then
        conclude passive id st ⟨false, 0, .text "dial connected but failed to create session"⟩ r.1
      else
        conclude passive id st ⟨true, r.2, .text ""⟩
          { r.1 with promoted := r.1.promoted ++ [(st.serial, w.sockets)] } := by
  have hopt : ¬ (({ host := "10.0.0.1", port := 80 } : DialTcpOptions).host = "" ∨
      ({ host := "10.0.0.1", port := 80 } : DialTcpOptions).port = 0) := by decide
  have hstep : step w (dialing 6 ctls) = dialTcpSession passive
      { host := "10.0.0.1", port := 80 } (some ()) (w.answered (dialing 6 ctls)) := rfl
  rw [dialTcpSession] at hstep
  dsimp only at hstep
  rw [if_neg hopt] at hstep
  rw [hstep]
  simp only [dialStartAttempt, emplace, answered, dialing, h.dials, h.free, setDial, tearDown,
    closeSock, deregister, createClient, socket, openSocket, connectClient, connect, finishDialOk,
    Option.isSome_none, Option.getD_some, List.headD_eq_head?_getD, List.head?_cons,
    List.tail_cons, UInt32.lt_irrefl, Int.reduceLT, Bool.false_eq_true, ne_eq,
    not_false_eq_true, not_true_eq_false, and_true, or_self, ↓reduceIte]
  refine ⟨_, _, _, ?_, rfl⟩
  refine ⟨h.owner, h.counter, fun id hne => ?_, h.sessions, rfl, rfl, rfl, rfl⟩
  simp only [if_neg hne]

/-- A refused session costs an id. -/
theorem Used.refused (h : Used n w) : Used (n + 1) (step w (dialing 6 [some ENOSPC])) := by
  obtain ⟨id, st, v, hv, hstep⟩ := h.step_dialing [some ENOSPC]
  have haccepted : onAccepted passive (some ⟨6, w.sockets⟩) v =
      (close { v with
        localCounter := v.localCounter + 1, memory := [], ctls := [], accepts := v.accepts + 1 } 6,
        0) := by
    simp only [onAccepted, ctl, hv.ctls, hv.memory, Net.EventLoop.addFd, Net.EventLoop.reactorCtl,
      List.headD_nil, List.headD_cons, List.tail_cons, List.tail_nil, Int.reduceLT,
      Bool.true_eq_false, ↓reduceIte, setLoop, popCtl, close]
  rw [hstep, haccepted]
  refine ⟨hv.owner, ?_, fun id' => ?_, hv.sessions, hv.sockets ▸ Nat.succ_pos _, rfl⟩
  · change v.localCounter + 1 = _
    rw [hv.counter]
    exact (UInt64.ofNat_add (n + 1) 1).symm
  · by_cases heq : id' = id
    · exact if_pos heq
    · exact (if_neg heq).trans (hv.dials id' heq)

theorem Used.replicate_refused (h : Used n w) (m : Nat) :
    Used (n + m) ((List.replicate m (dialing 6 [some ENOSPC])).foldl step w) := by
  induction m generalizing n w with
  | zero => exact h
  | succ m ih =>
    rw [List.replicate_succ, List.foldl_cons, Nat.add_succ, ← Nat.succ_add]
    exact ih h.refused

/-- The id of the first session comes again: the new session is not listed, and its socket is
closed but stays registered. -/
theorem Used.collided (h : Used (2 ^ 32) w) :
    (w.sockets, w.requests.length) ∈ (step w (dialing 6 [])).openedFor ∧
    (∀ id, (step w (dialing 6 [])).dials id = none) ∧
    (step w (dialing 6 [])).sessions = [(0x100000001, ⟨5, 0⟩)] ∧
    ∃ ctx, (step w (dialing 6 [])).loop.fdContexts 6 = some ctx ∧
      ctx.handler = .session w.sockets := by
  obtain ⟨id, st, v, hv, hstep⟩ := h.step_dialing []
  have hid : v.nextSessionId = 0x100000001 := by
    rw [nextSessionId, hv.owner, hv.counter]
    rfl
  have haccepted : onAccepted passive (some ⟨6, w.sockets⟩) v =
      (close { v with
        localCounter := v.localCounter + 1, memory := [], ctls := [], accepts := v.accepts + 1
        loop := (v.loop.addFd none 6 sessionMask (some (.session w.sockets))).1
        collided := v.collided ++ [w.sockets] } 6, 0x100000001) := by
    simp only [onAccepted, hid, hv.memory, ctl, hv.ctls, Net.EventLoop.addFd,
      Net.EventLoop.reactorCtl, list, find, hv.sessions, List.lookup_cons_self, passive, setLoop,
      popCtl, close, List.headD_nil, List.tail_nil, Int.reduceLT, Option.isNone_some,
      Bool.true_eq_false, Bool.false_eq_true, ↓reduceIte]
  rw [hstep, haccepted]
  refine ⟨?_, fun id' => ?_, hv.sessions, _, rfl, rfl⟩
  · change _ ∈ v.openedFor
    rw [hv.openedFor]
    exact List.mem_append_right _ (List.mem_singleton_self _)
  · by_cases heq : id' = id
    · exact if_pos heq
    · exact (if_neg heq).trans (hv.dials id' heq)

end Used

theorem used_first : Used 1 (step { ownerWorkerId := 1 } (dialing 5 [])) := by
  refine ⟨rfl, rfl, fun id => ?_, rfl, Nat.succ_pos _, rfl⟩
  by_cases heq : id = 1
  · exact if_pos heq
  · change (if id = 1 then none else if id = 1 then _ else if id = 1 then _ else if id = 1 then _
      else if id = 1 then _ else none) = none
    rw [if_neg heq, if_neg heq, if_neg heq, if_neg heq, if_neg heq]

theorem not_held {w : Dialer κ} (hdials : ∀ id, w.dials id = none) (k : Nat) :
    ¬ w.ledger.Held k := by
  rintro ⟨id, cb, hheld⟩
  obtain ⟨st, hid, -⟩ := Option.map_eq_some_iff.mp hheld
  cases (hdials id).symm.trans hid

theorem dials_accounted_connected :
    (0, 0) ∈ (run 1 [dialing 5 []]).openedFor ∧ ¬ (run 1 [dialing 5 []]).ledger.Held 0 ∧
      (run 1 [dialing 5 []]).accepts = 1 ∧
      ((run 1 [dialing 5 []]).Passed 0 ∨ (run 1 [dialing 5 []]).Released 0) := by
  obtain ⟨-, -, -, hsockets, hcollided⟩ := dials_accounted 1 [dialing 5 []]
  have hopened : (0, 0) ∈ (run 1 [dialing 5 []]).openedFor := List.mem_singleton_self _
  have hheld := not_held used_first.dials 0
  have hcollided := hcollided (by decide)
  exact ⟨hopened, hheld, rfl, hsockets 0 0 hopened hheld (hcollided ▸ List.not_mem_nil)⟩

theorem run_manyDials (m : Nat) :
    ∃ w, Used (m + 1) w ∧ run 1 (manyDials m) = step w (dialing 6 []) := by
  refine ⟨_, Nat.add_comm 1 m ▸ used_first.replicate_refused m, ?_⟩
  rw [run, manyDials, List.foldl_append]
  rfl

/-- The socket of the dial after 2 ^ 32 others is closed when the dial has left the table, but
still registered. -/
theorem closed_socket_registered :
    ∃ n k, (n, k) ∈ (run 1 (manyDials (2 ^ 32 - 1))).openedFor ∧
      ¬ (run 1 (manyDials (2 ^ 32 - 1))).ledger.Held k ∧
      ¬ ((run 1 (manyDials (2 ^ 32 - 1))).Passed n ∨
        (run 1 (manyDials (2 ^ 32 - 1))).Released n) := by
  obtain ⟨w, hused, hrun⟩ := run_manyDials (2 ^ 32 - 1)
  rw [hrun]
  obtain ⟨hopened, hdials, hsessions, ctx, hctx, hhandler⟩ := Used.collided hused
  refine ⟨_, _, hopened, not_held hdials _, ?_⟩
  rintro (hpassed | hreleased)
  · have hone := hpassed.one
    rw [hsessions, List.filter_cons_of_neg, List.filter_nil] at hone
    · cases hone
    · exact fun heq => Nat.ne_of_lt hused.sockets (of_decide_eq_true heq)
  · exact hreleased.unregistered 6 ctx hctx (hhandler ▸ rfl)

end Dialer

end HyperNet.Connector
