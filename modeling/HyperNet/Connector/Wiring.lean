import HyperNet.Connector.Dial
import HyperNet.Net.Effects

/-!
# Who has which socket

`Wiring` is the part of a worker that says who has what: the dials and their callbacks, the
sessions, the open sockets and the registrations.  In a sound wiring each open socket is held
by a dial, owned by a session or loose, which is to say that a function has it in hand.  No id
of a session comes twice in the first 2 ^ 32.

The functions that dial are made of a few moves on a wiring: a dial begins, takes a socket,
gives it up or ends, a session takes one or leaves with it, and a loose one is opened or
closed.  `Keeps` says what a move leaves as it is.
-/

namespace HyperNet.Connector

variable {κ : Type}

/-! ## Wirings -/

structure Wiring (κ : Type) where
  dials : DialId → Option (DialState κ)
  timers : List DialTimer
  contexts : Int → Option DialHandler
  ownerWorkerId : UInt32
  localCounter : UInt64
  accepts : Nat
  sessions : List (UInt64 × Socket)
  files : Int → Option Nat
  sockets : Nat
  openedFor : List (Nat × Nat)
  collided : List Nat
  requests : List (DialTcpOptions × κ)
  invoked : List (Nat × κ × Dialed)

namespace Wiring

/-- A dial has the socket. -/
def Held (x : Wiring κ) (s : Socket) : Prop := ∃ id st, x.dials id = some st ∧ st.sock = some s

/-- A session has it. -/
def Owned (x : Wiring κ) (s : Socket) : Prop := ∃ sid, (sid, s) ∈ x.sessions

/-- It is open and nobody has it. -/
structure Loose (x : Wiring κ) (s : Socket) : Prop where
  isOpen : x.files s.fd = some s.serial
  not_held : ¬ x.Held s
  not_owned : ¬ x.Owned s

/-- The id of the next session. -/
def nextSessionId (x : Wiring κ) : UInt64 := (x.ownerWorkerId.toUInt64 <<< 32) ||| x.localCounter

/-- Nothing will carry the dial on: its socket is not registered and no retry is due. -/
def Idle (x : Wiring κ) (id : DialId) : Prop :=
  ∃ st, x.dials id = some st ∧ st.completed = false ∧
    (st.sock = none ∨ st.connectedEventRegistered = false) ∧
    ∀ attempt delay, DialTimer.retry id attempt delay ∉ x.timers

def ledger (x : Wiring κ) : Ledger DialId κ Dialed where
  requests := x.requests.map fun q => some q.2
  table id := (x.dials id).map fun st => (st.serial, some st.cb)
  answers := x.invoked

structure Sound (x : Wiring κ) : Prop where
  held : ∀ {id st s}, x.dials id = some st → st.sock = some s →
    st.completed = false ∧ x.files s.fd = some s.serial ∧ (s.serial, st.serial) ∈ x.openedFor
  registered : ∀ {id st s}, x.dials id = some st → st.sock = some s →
    st.connectedEventRegistered = true → x.contexts s.fd = some (.dial id s.serial)
  dialContext : ∀ {fd id n}, x.contexts fd = some (.dial id n) →
    ∃ st, x.dials id = some st ∧ st.sock = some ⟨fd, n⟩ ∧ st.connectedEventRegistered = true
  owned : ∀ {sid s}, (sid, s) ∈ x.sessions → x.files s.fd = some s.serial ∧ ¬ x.Held s
  sessionContext : ∀ {fd n}, x.contexts fd = some (.session n) →
    x.Owned ⟨fd, n⟩ ∨ n ∈ x.collided
  counter : x.localCounter = UInt64.ofNat (x.accepts + 1)
  issued : ∀ {sid s}, (sid, s) ∈ x.sessions →
    ∃ c < x.accepts, sid = Net.sessionId x.ownerWorkerId (c + 1)
  collided : x.accepts ≤ 2 ^ 32 → x.collided = []
  ids : (x.sessions.map Prod.fst).Nodup
  sockets : (x.sessions.map Prod.snd).Nodup
  nonneg : ∀ {fd n}, x.files fd = some n → 0 ≤ fd
  bound : ∀ {fd n}, x.files fd = some n → n < x.sockets
  inj : ∀ {fd fd' n}, x.files fd = some n → x.files fd' = some n → fd = fd'
  opened : ∀ {n k}, (n, k) ∈ x.openedFor → n < x.sockets
  openedOnce : ∀ {n k k'}, (n, k) ∈ x.openedFor → (n, k') ∈ x.openedFor → k = k'
  ledger : x.ledger.Sound

/-- From `x` to `y` the dials that are being finished stay as they are, and so does what was
promised to the others.  The sockets `loose` are loose in `y`, and at most the dials `idle` are
idle. -/
structure Keeps (x y : Wiring κ) (loose : Socket → Prop) (idle : DialId → Prop) : Prop where
  sound : y.Sound
  completed : ∀ {id st}, st.completed = true → (y.dials id = some st ↔ x.dials id = some st)
  loose : ∀ s, y.Loose s ↔ loose s
  idle : ∀ id, y.Idle id → idle id
  ledger : Ledger.Path False x.ledger y.ledger

namespace Keeps

variable {x y z : Wiring κ} {L M : Socket → Prop} {I J : DialId → Prop}

theorem refl (h : x.Sound) : x.Keeps x x.Loose x.Idle :=
  ⟨h, fun _ => .rfl, fun _ => .rfl, fun _ hi => hi, .refl⟩

theorem trans (h : x.Keeps y L I) (h' : y.Keeps z M J) : x.Keeps z M J where
  __ := h'
  completed hc := (h'.completed hc).trans (h.completed hc)
  ledger := h.ledger.trans h'.ledger

theorem mono (h : x.Keeps y L I) (hL : ∀ s, L s ↔ M s) (hI : ∀ id, y.Idle id → I id → J id) :
    x.Keeps y M J where
  __ := h
  loose s := (h.loose s).trans (hL s)
  idle id hi := hI id hi (h.idle id hi)

/-- The application leaves everything as it is. -/
theorem absorb (h : x.Keeps y L I) (h' : y.Keeps z y.Loose y.Idle) : x.Keeps z L I :=
  (h.trans h').mono h.loose fun id _ hi => h.idle id hi

end Keeps

/-! ## A dial changes hands with its socket -/

def setDial (x : Wiring κ) (id : DialId) (st : DialState κ) : Wiring κ :=
  { x with dials := fun id' => if id' = id then some st else x.dials id' }

def setContexts (x : Wiring κ) (contexts : Int → Option DialHandler) : Wiring κ :=
  { x with contexts }

@[simp] theorem dials_setDial_self (x : Wiring κ) (id : DialId) (st : DialState κ) :
    (x.setDial id st).dials id = some st := if_pos rfl

theorem dials_setDial_ne (x : Wiring κ) {id id' : DialId} (h : id' ≠ id) (st : DialState κ) :
    (x.setDial id st).dials id' = x.dials id' := if_neg h

section Revising

variable {x : Wiring κ} {id : DialId} {st st' : DialState κ} {s : Socket}

theorem of_setDial {id' : DialId} {st'' : DialState κ}
    (h : (x.setDial id st').dials id' = some st'') :
    (id' = id ∧ st'' = st') ∨ (id' ≠ id ∧ x.dials id' = some st'') := by
  by_cases heq : id' = id
  · rw [heq, dials_setDial_self] at h
    exact .inl ⟨heq, (Option.some.inj h).symm⟩
  · rw [dials_setDial_ne x heq] at h
    exact .inr ⟨heq, h⟩

/-- Two holders of one socket are one dial. -/
theorem Sound.holder (h : x.Sound) {id' : DialId} {st' : DialState κ} (hid : x.dials id = some st)
    (hs : st.sock = some s) (hid' : x.dials id' = some st') (hs' : st'.sock = some s) :
    id' = id := by
  have hserial := h.openedOnce (h.held hid hs).2.2 (h.held hid' hs').2.2
  have htable : x.ledger.table id = some (st.serial, some st.cb) := congrArg (Option.map _) hid
  have htable' : x.ledger.table id' = some (st'.serial, some st'.cb) :=
    congrArg (Option.map _) hid'
  rw [← hserial] at htable'
  exact h.ledger.inj htable' htable

/-- Open sockets on one descriptor are one socket. -/
theorem eq_of_fd {s' : Socket} (hs : x.files s.fd = some s.serial)
    (hs' : x.files s'.fd = some s'.serial) (hfd : s'.fd = s.fd) : s' = s := by
  rw [hfd, hs] at hs'
  obtain ⟨fd, n⟩ := s
  obtain ⟨fd', n'⟩ := s'
  cases hfd
  cases hs'
  rfl

/-- What a dial may do with its state, its socket and the registration of that: it stays
itself, has the socket it had, none, or one that was loose, and only that is registered for
it. -/
structure Revises (x : Wiring κ) (id : DialId) (st st' : DialState κ)
    (contexts : Int → Option DialHandler) : Prop where
  filed : x.dials id = some st
  serial : st'.serial = st.serial
  cb : st'.cb = st.cb
  sock : ∀ s, st'.sock = some s → st'.completed = false ∧ (s.serial, st.serial) ∈ x.openedFor ∧
    (st.sock = some s ∨ x.Loose s)
  elsewhere : ∀ fd, (∀ s, st.sock = some s ∨ st'.sock = some s → s.fd ≠ fd) →
    contexts fd = x.contexts fd
  here : ∀ fd, contexts fd = x.contexts fd ∨ contexts fd = none ∨
    ∃ n, contexts fd = some (.dial id n)
  registered : ∀ fd n, contexts fd = some (.dial id n) ↔
    st'.sock = some ⟨fd, n⟩ ∧ st'.connectedEventRegistered = true

variable {contexts : Int → Option DialHandler} (hr : x.Revises id st st' contexts)
include hr

/-- The state of a dial changes, but not who it is. -/
theorem Revises.ledger_eq : ((x.setContexts contexts).setDial id st').ledger = x.ledger := by
  unfold ledger setDial setContexts
  congr 1
  funext id'
  dsimp only
  split
  next heq => rw [heq, hr.filed, Option.map_some, Option.map_some, hr.serial, hr.cb]
  next => rfl

theorem Revises.isOpen (h : x.Sound) (hs : st'.sock = some s) : x.files s.fd = some s.serial := by
  rcases (hr.sock s hs).2.2 with hold | hloose
  · exact (h.held hr.filed hold).2.1
  · exact hloose.isOpen

/-- The sockets of other dials are on other descriptors. -/
theorem Revises.elsewhere_of_ne (h : x.Sound) {id' : DialId} {st'' : DialState κ} (hne : id' ≠ id)
    (hid' : x.dials id' = some st'') (hs : st''.sock = some s) :
    contexts s.fd = x.contexts s.fd := by
  have hopen := (h.held hid' hs).2.1
  refine hr.elsewhere s.fd fun t ht hfd => ?_
  rcases ht with hold | hnew
  · have heq := eq_of_fd hopen (h.held hr.filed hold).2.1 hfd
    exact hne (h.holder hr.filed (heq ▸ hold) hid' hs)
  · have heq := eq_of_fd hopen (hr.isOpen h hnew) hfd
    rcases (hr.sock t hnew).2.2 with hold | hloose
    · exact hne (h.holder hr.filed (heq ▸ hold) hid' hs)
    · exact hloose.not_held ⟨id', st'', hid', heq ▸ hs⟩

theorem Revises.held_iff (h : x.Sound) (t : Socket) :
    ((x.setContexts contexts).setDial id st').Held t ↔
      st'.sock = some t ∨ (x.Held t ∧ st.sock ≠ some t) := by
  constructor
  · rintro ⟨id', st'', hid', ht⟩
    rcases of_setDial hid' with ⟨rfl, rfl⟩ | ⟨hne, hid'⟩
    · exact .inl ht
    · exact .inr ⟨⟨id', st'', hid', ht⟩, fun hold => hne (h.holder hr.filed hold hid' ht)⟩
  · rintro (ht | ⟨⟨id', st'', hid', ht⟩, hold⟩)
    · exact ⟨id, st', dials_setDial_self _ _ _, ht⟩
    · have hne : id' ≠ id := by
        rintro rfl
        rw [hr.filed] at hid'
        exact hold (Option.some.inj hid' ▸ ht)
      exact ⟨id', st'', (dials_setDial_ne _ hne _).trans hid', ht⟩

theorem Revises.sound (h : x.Sound) :
    ((x.setContexts contexts).setDial id st').Sound where
  __ := h
  held {id' st'' s} hid' hs := by
    rcases of_setDial hid' with ⟨rfl, rfl⟩ | ⟨hne, hid'⟩
    · obtain ⟨hcompleted, hopened, -⟩ := hr.sock s hs
      exact ⟨hcompleted, hr.isOpen h hs, hr.serial.symm ▸ hopened⟩
    · exact h.held hid' hs
  registered {id' st'' s} hid' hs hreg := by
    rcases of_setDial hid' with ⟨rfl, rfl⟩ | ⟨hne, hid'⟩
    · exact (hr.registered s.fd s.serial).mpr ⟨hs, hreg⟩
    · exact (hr.elsewhere_of_ne h hne hid' hs).trans (h.registered hid' hs hreg)
  dialContext {fd id' n} hctx := by
    by_cases heq : id' = id
    · subst heq
      exact ⟨st', dials_setDial_self _ _ _, (hr.registered fd n).mp hctx⟩
    · have hold : x.contexts fd = some (.dial id' n) := by
        rcases hr.here fd with hsame | hnone | ⟨m, hmine⟩
        · exact hsame.symm.trans hctx
        · cases hnone.symm.trans hctx
        · cases hmine.symm.trans hctx
          exact absurd rfl heq
      obtain ⟨st'', hid', hrest⟩ := h.dialContext hold
      exact ⟨st'', (dials_setDial_ne _ heq _).trans hid', hrest⟩
  owned {sid s} hs := by
    obtain ⟨hopen, hheld⟩ := h.owned hs
    refine ⟨hopen, fun hnew => ?_⟩
    rcases (hr.held_iff h s).mp hnew with hmine | ⟨hother, -⟩
    · rcases (hr.sock s hmine).2.2 with hold | hloose
      · exact hheld ⟨id, st, hr.filed, hold⟩
      · exact hloose.not_owned ⟨sid, hs⟩
    · exact hheld hother
  sessionContext {fd n} hctx := by
    rcases hr.here fd with hsame | hnone | ⟨m, hmine⟩
    · exact h.sessionContext (hsame.symm.trans hctx)
    · cases hnone.symm.trans hctx
    · cases hmine.symm.trans hctx
  ledger := hr.ledger_eq.symm ▸ h.ledger

theorem Revises.loose_iff (h : x.Sound) (t : Socket) :
    ((x.setContexts contexts).setDial id st').Loose t ↔
      st'.sock ≠ some t ∧ (x.Loose t ∨ st.sock = some t) := by
  constructor
  · intro ht
    refine ⟨fun hnew => ht.not_held ((hr.held_iff h t).mpr (.inl hnew)), ?_⟩
    by_cases hold : st.sock = some t
    · exact .inr hold
    · refine .inl ⟨ht.isOpen, fun hheld => ?_, ht.not_owned⟩
      exact ht.not_held ((hr.held_iff h t).mpr (.inr ⟨hheld, hold⟩))
  · rintro ⟨hnew, hloose | hold⟩
    · refine ⟨hloose.isOpen, fun hheld => ?_, hloose.not_owned⟩
      rcases (hr.held_iff h t).mp hheld with hmine | ⟨hother, -⟩
      · exact hnew hmine
      · exact hloose.not_held hother
    · refine ⟨(h.held hr.filed hold).2.1, fun hheld => ?_, fun ⟨sid, hmem⟩ => ?_⟩
      · rcases (hr.held_iff h t).mp hheld with hmine | ⟨-, hne⟩
        · exact hnew hmine
        · exact hne hold
      · exact (h.owned hmem).2 ⟨id, st, hr.filed, hold⟩

/-- A dial that is not finished changes. -/
theorem Revises.keeps (h : x.Sound) (hst : st.completed = false) (hst' : st'.completed = false) :
    x.Keeps ((x.setContexts contexts).setDial id st')
      (fun t => st'.sock ≠ some t ∧ (x.Loose t ∨ st.sock = some t))
      (fun id' => (id' = id ∧ (st'.sock = none ∨ st'.connectedEventRegistered = false) ∧
        ∀ attempt delay, DialTimer.retry id attempt delay ∉ x.timers) ∨
        (id' ≠ id ∧ x.Idle id')) where
  sound := hr.sound h
  completed {id' st''} hc := by
    by_cases heq : id' = id
    · subst heq
      rw [dials_setDial_self, hr.filed]
      constructor
      · rintro ⟨⟩
        exact absurd (hst'.symm.trans hc) Bool.false_ne_true
      · rintro ⟨⟩
        exact absurd (hst.symm.trans hc) Bool.false_ne_true
    · rw [dials_setDial_ne _ heq]
      rfl
  loose := hr.loose_iff h
  idle id' := by
    rintro ⟨st'', hid', hc, hunreg, htimers⟩
    rcases of_setDial hid' with ⟨rfl, rfl⟩ | ⟨hne, hid'⟩
    · exact .inl ⟨rfl, hunreg, htimers⟩
    · exact .inr ⟨hne, st'', hid', hc, hunreg, htimers⟩
  ledger := by
    rw [hr.ledger_eq]

end Revising

/-! ## Sockets come and go -/

section Sockets

variable {x : Wiring κ} {s : Socket} {t : Socket} {fd fd' : Int}

def close (x : Wiring κ) (fd : Int) : Wiring κ :=
  { x with files := fun fd' => if fd' = fd then none else x.files fd' }

theorem files_close {n : Nat} :
    (x.close fd).files fd' = some n ↔ fd' ≠ fd ∧ x.files fd' = some n := by
  change (if fd' = fd then none else x.files fd') = some n ↔ _
  split
  next heq => exact iff_of_false nofun fun h => h.1 heq
  next hne => exact ⟨fun h => ⟨hne, h⟩, fun h => h.2⟩

/-- A socket in hand is closed. -/
theorem Loose.close_keeps (hs : x.Loose s) (h : x.Sound) :
    x.Keeps (x.close s.fd) (fun t => x.Loose t ∧ t ≠ s) x.Idle where
  sound :=
    { h with
      held := fun {id st t} hid ht => by
        obtain ⟨hcompleted, hopen, hopened⟩ := h.held hid ht
        refine ⟨hcompleted, files_close.mpr ⟨fun hfd => ?_, hopen⟩, hopened⟩
        exact hs.not_held ⟨id, st, hid, eq_of_fd hs.isOpen hopen hfd ▸ ht⟩
      owned := fun {sid t} ht => by
        obtain ⟨hopen, hheld⟩ := h.owned ht
        refine ⟨files_close.mpr ⟨fun hfd => ?_, hopen⟩, hheld⟩
        exact hs.not_owned ⟨sid, eq_of_fd hs.isOpen hopen hfd ▸ ht⟩
      nonneg := fun hopen => h.nonneg (files_close.mp hopen).2
      bound := fun hopen => h.bound (files_close.mp hopen).2
      inj := fun hopen hopen' => h.inj (files_close.mp hopen).2 (files_close.mp hopen').2 }
  completed _ := .rfl
  loose t := by
    constructor
    · intro ht
      obtain ⟨hfd, hopen⟩ := files_close.mp ht.isOpen
      exact ⟨⟨hopen, ht.not_held, ht.not_owned⟩, fun heq => hfd (heq ▸ rfl)⟩
    · rintro ⟨ht, hne⟩
      refine ⟨files_close.mpr ⟨fun hfd => hne ?_, ht.isOpen⟩, ht.not_held, ht.not_owned⟩
      exact eq_of_fd hs.isOpen ht.isOpen hfd
  idle _ hi := hi
  ledger := .refl

/-- A new socket, opened for a dial or not. -/
def openSocket (x : Wiring κ) (fd : Int) (dial : Option Nat) : Wiring κ :=
  { x with files := fun fd' => if fd' = fd then some x.sockets else x.files fd'
           sockets := x.sockets + 1
           openedFor := x.openedFor ++ (dial.map fun k => (x.sockets, k)).toList }

theorem files_openSocket {n : Nat} {dial : Option Nat} (hfree : x.files fd = none) :
    (x.openSocket fd dial).files fd' = some n ↔
      (fd' = fd ∧ n = x.sockets) ∨ x.files fd' = some n := by
  change (if fd' = fd then some x.sockets else x.files fd') = some n ↔ _
  split
  next heq =>
    rw [heq, hfree]
    constructor
    · rintro ⟨⟩
      exact .inl ⟨rfl, rfl⟩
    · rintro (⟨-, rfl⟩ | ⟨⟨⟩⟩)
      rfl
  next hne => exact ⟨.inr, fun h => h.resolve_left fun hnew => hne hnew.1⟩

theorem mem_openSocket {fd : Int} {dial : Option Nat} {n k : Nat} :
    (n, k) ∈ (x.openSocket fd dial).openedFor ↔
      (n, k) ∈ x.openedFor ∨ (n = x.sockets ∧ dial = some k) := by
  change _ ∈ x.openedFor ++ _ ↔ _
  rw [List.mem_append, Option.mem_toList, Option.map_eq_some_iff]
  refine or_congr_right ⟨?_, ?_⟩
  · rintro ⟨k', hk, ⟨⟩⟩
    exact ⟨rfl, hk⟩
  · rintro ⟨rfl, hk⟩
    exact ⟨k, hk, rfl⟩

theorem Sound.openSocket_keeps (h : x.Sound) {fd : Int} (hfree : x.files fd = none) (hfd : 0 ≤ fd)
    (dial : Option Nat) :
    x.Keeps (x.openSocket fd dial) (fun t => x.Loose t ∨ t = ⟨fd, x.sockets⟩) x.Idle where
  sound :=
    { h with
      held := fun {id st t} hid ht => by
        obtain ⟨hcompleted, hopen, hfor⟩ := h.held hid ht
        exact ⟨hcompleted, (files_openSocket hfree).mpr (.inr hopen),
          List.mem_append_left _ hfor⟩
      owned := fun ht => ⟨(files_openSocket hfree).mpr (.inr (h.owned ht).1), (h.owned ht).2⟩
      nonneg := fun hopen => by
        rcases (files_openSocket hfree).mp hopen with ⟨rfl, -⟩ | hold
        · exact hfd
        · exact h.nonneg hold
      bound := fun hopen => by
        rcases (files_openSocket hfree).mp hopen with ⟨-, rfl⟩ | hold
        · exact Nat.lt_succ_self _
        · exact Nat.lt_succ_of_lt (h.bound hold)
      inj := fun hopen hopen' => by
        rcases (files_openSocket hfree).mp hopen with ⟨rfl, rfl⟩ | hold
        · rcases (files_openSocket hfree).mp hopen' with ⟨rfl, -⟩ | hold'
          · rfl
          · exact absurd (h.bound hold') (Nat.lt_irrefl _)
        · rcases (files_openSocket hfree).mp hopen' with ⟨-, rfl⟩ | hold'
          · exact absurd (h.bound hold) (Nat.lt_irrefl _)
          · exact h.inj hold hold'
      opened := fun hfor => by
        rcases mem_openSocket.mp hfor with hold | ⟨rfl, -⟩
        · exact Nat.lt_succ_of_lt (h.opened hold)
        · exact Nat.lt_succ_self _
      openedOnce := fun hfor hfor' => by
        rcases mem_openSocket.mp hfor with hold | ⟨rfl, hk⟩
        · rcases mem_openSocket.mp hfor' with hold' | ⟨rfl, -⟩
          · exact h.openedOnce hold hold'
          · exact absurd (h.opened hold) (Nat.lt_irrefl _)
        · rcases mem_openSocket.mp hfor' with hold' | ⟨-, hk'⟩
          · exact absurd (h.opened hold') (Nat.lt_irrefl _)
          · exact Option.some.inj (hk.symm.trans hk') }
  completed _ := .rfl
  loose t := by
    constructor
    · intro ht
      rcases (files_openSocket hfree).mp ht.isOpen with ⟨hnew, hserial⟩ | hold
      · right
        obtain ⟨tfd, n⟩ := t
        cases hnew
        cases hserial
        rfl
      · exact .inl ⟨hold, ht.not_held, ht.not_owned⟩
    · rintro (ht | rfl)
      · exact ⟨(files_openSocket hfree).mpr (.inr ht.isOpen), ht.not_held, ht.not_owned⟩
      · refine ⟨(files_openSocket hfree).mpr (.inl ⟨rfl, rfl⟩), ?_, ?_⟩
        · rintro ⟨id, st, hid, ht⟩
          exact absurd (h.bound (h.held hid ht).2.1) (Nat.lt_irrefl _)
        · rintro ⟨sid, ht⟩
          exact absurd (h.bound (h.owned ht).1) (Nat.lt_irrefl _)
  idle _ hi := hi
  ledger := .refl

/-! ## Sessions take sockets and leave with them -/

def setContext (x : Wiring κ) (fd : Int) (c : Option DialHandler) : Wiring κ :=
  x.setContexts fun fd' => if fd' = fd then c else x.contexts fd'

theorem contexts_setContext_ne {c : Option DialHandler} (h : fd' ≠ fd) :
    (x.setContext fd c).contexts fd' = x.contexts fd' := if_neg h

theorem of_setContext {c : Option DialHandler} {d : DialHandler}
    (h : (x.setContext fd c).contexts fd' = some d) :
    (fd' = fd ∧ c = some d) ∨ (fd' ≠ fd ∧ x.contexts fd' = some d) := by
  change (if fd' = fd then c else x.contexts fd') = some d at h
  split at h
  next heq => exact .inl ⟨heq, h⟩
  next hne => exact .inr ⟨hne, h⟩

/-- An id is used up. -/
def issue (x : Wiring κ) : Wiring κ :=
  { x with localCounter := x.localCounter + 1, accepts := x.accepts + 1 }

theorem Sound.counter_issue (h : x.Sound) :
    x.issue.localCounter = UInt64.ofNat (x.issue.accepts + 1) :=
  (congrArg (· + 1) h.counter).trans (UInt64.ofNat_add _ 1).symm

theorem Sound.issued_issue (h : x.Sound) {sid : UInt64} (ht : (sid, t) ∈ x.sessions) :
    ∃ c < x.issue.accepts, sid = Net.sessionId x.ownerWorkerId (c + 1) :=
  (h.issued ht).imp fun _ hc => ⟨Nat.lt_succ_of_lt hc.1, hc.2⟩

theorem Sound.issue_keeps (h : x.Sound) : x.Keeps x.issue x.Loose x.Idle where
  sound :=
    { h with
      counter := h.counter_issue
      issued := h.issued_issue
      collided := fun hle => h.collided (Nat.le_of_succ_le hle) }
  completed _ := .rfl
  loose _ := ⟨fun hs => ⟨hs.isOpen, hs.not_held, hs.not_owned⟩,
    fun hs => ⟨hs.isOpen, hs.not_held, hs.not_owned⟩⟩
  idle _ hi := hi
  ledger := .refl

theorem Sound.nextSessionId_eq (h : x.Sound) :
    x.nextSessionId = Net.sessionId x.ownerWorkerId (x.accepts + 1) := by
  rw [nextSessionId, h.counter]
  rfl

/-- Ids do not come round so soon. -/
theorem Sound.nextSessionId_free (h : x.Sound) (hle : x.accepts < 2 ^ 32) :
    x.nextSessionId ∉ x.sessions.map Prod.fst := by
  intro hmem
  obtain ⟨⟨sid, t⟩, ht, heq⟩ := List.mem_map.mp hmem
  obtain ⟨c, hc, hsid⟩ := h.issued ht
  have hsame := (hsid.symm.trans heq).trans h.nextSessionId_eq
  have := Net.sessionId_inj (by omega) hle (Nat.succ_pos c) (Nat.succ_pos x.accepts) hsame
  omega

/-- A socket is registered for a session, which is listed or not. -/
def enlist (x : Wiring κ) (s : Socket) (listed : List (UInt64 × Socket)) (collided : List Nat) :
    Wiring κ :=
  { x.issue.setContext s.fd (some (.session s.serial)) with
    sessions := x.sessions ++ listed, collided := x.collided ++ collided }

/-- The session is listed under its id, or its socket is noted, since the id is in use. -/
inductive Enlists (x : Wiring κ) (s : Socket) : List (UInt64 × Socket) → List Nat → Prop
  | listed (h : x.nextSessionId ∉ x.sessions.map Prod.fst) : Enlists x s [(x.nextSessionId, s)] []
  | collided (h : x.nextSessionId ∈ x.sessions.map Prod.fst) : Enlists x s [] [s.serial]

variable {listed : List (UInt64 × Socket)} {collided : List Nat}

section

variable (he : x.Enlists s listed collided)
include he

theorem Enlists.eq {sid : UInt64} {t : Socket} (h : (sid, t) ∈ listed) : t = s := by
  cases he with
  | listed =>
    cases List.mem_singleton.mp h
    rfl
  | collided => cases h

theorem Enlists.nodup (h : x.Sound) (hs : ¬ x.Owned s) :
    ((x.sessions ++ listed).map Prod.fst).Nodup ∧
      ((x.sessions ++ listed).map Prod.snd).Nodup := by
  cases he with
  | listed hfree =>
    rw [List.map_append, List.map_append]
    refine ⟨List.nodup_append.mpr ⟨h.ids, List.nodup_singleton _, ?_⟩,
      List.nodup_append.mpr ⟨h.sockets, List.nodup_singleton _, ?_⟩⟩
    · rintro a ha b hb rfl
      obtain rfl : a = x.nextSessionId := List.mem_singleton.mp hb
      exact hfree ha
    · rintro a ha b hb rfl
      obtain ⟨⟨sid', t⟩, hmem, rfl⟩ := List.mem_map.mp ha
      obtain rfl : t = s := List.mem_singleton.mp hb
      exact hs ⟨sid', hmem⟩
  | collided =>
    rw [List.append_nil]
    exact ⟨h.ids, h.sockets⟩

theorem Enlists.owned :
    (x.enlist s listed collided).Owned s ∨ s.serial ∈ x.collided ++ collided := by
  cases he with
  | listed => exact .inl ⟨_, List.mem_append_right _ (List.mem_singleton_self _)⟩
  | collided => exact .inr (List.mem_append_right _ (List.mem_singleton_self _))

theorem Enlists.collided_eq_nil (h : x.Sound) (hle : x.accepts + 1 ≤ 2 ^ 32) :
    x.collided ++ collided = [] := by
  rw [h.collided (Nat.le_of_succ_le hle)]
  cases he with
  | listed => rfl
  | collided hused => exact absurd hused (h.nextSessionId_free hle)

theorem Enlists.issued (h : x.Sound) {sid : UInt64} {t : Socket}
    (ht : (sid, t) ∈ x.sessions ++ listed) :
    ∃ c < x.issue.accepts, sid = Net.sessionId x.ownerWorkerId (c + 1) := by
  rcases List.mem_append.mp ht with hold | hnew
  · exact h.issued_issue hold
  · cases he with
    | listed =>
      cases List.mem_singleton.mp hnew
      exact ⟨x.accepts, Nat.lt_succ_self _, h.nextSessionId_eq⟩
    | collided => cases hnew

end

theorem Owned.enlist (h : x.Owned t) : (x.enlist s listed collided).Owned t := by
  obtain ⟨sid, hmem⟩ := h
  exact ⟨sid, List.mem_append_left _ hmem⟩

/-- The sockets of dials are on other descriptors than one in hand. -/
theorem Loose.fd_ne (hs : x.Loose s) (h : x.Sound) {id : DialId} {st : DialState κ}
    (hid : x.dials id = some st) (ht : st.sock = some t) : t.fd ≠ s.fd := fun hfd =>
  hs.not_held ⟨id, st, hid, eq_of_fd hs.isOpen (h.held hid ht).2.1 hfd ▸ ht⟩

theorem Loose.enlist_keeps (hs : x.Loose s) (h : x.Sound) (he : x.Enlists s listed collided) :
    x.Keeps (x.enlist s listed collided) (fun t => x.Loose t ∧ ∀ sid, (sid, t) ∉ listed)
      x.Idle where
  sound :=
    { h with
      registered := fun hid ht hreg =>
        (contexts_setContext_ne (hs.fd_ne h hid ht)).trans (h.registered hid ht hreg)
      dialContext := fun hctx => by
        rcases of_setContext hctx with ⟨-, ⟨⟩⟩ | ⟨-, hold⟩
        exact h.dialContext hold
      owned := fun {sid t} ht => by
        rcases List.mem_append.mp ht with hold | hnew
        · exact h.owned hold
        · cases he.eq hnew
          exact ⟨hs.isOpen, hs.not_held⟩
      sessionContext := fun {fd n} hctx => by
        rcases of_setContext hctx with ⟨rfl, hnew⟩ | ⟨-, hold⟩
        · cases hnew
          exact he.owned
        · exact (h.sessionContext hold).imp Owned.enlist fun hn => List.mem_append_left _ hn
      counter := h.counter_issue
      issued := he.issued h
      collided := he.collided_eq_nil h
      ids := (he.nodup h hs.not_owned).1
      sockets := (he.nodup h hs.not_owned).2 }
  completed _ := .rfl
  loose t := by
    constructor
    · intro ht
      refine ⟨⟨ht.isOpen, ht.not_held, fun howned => ht.not_owned howned.enlist⟩, ?_⟩
      exact fun sid hmem => ht.not_owned ⟨sid, List.mem_append_right _ hmem⟩
    · rintro ⟨ht, hnot⟩
      refine ⟨ht.isOpen, ht.not_held, fun ⟨sid, hmem⟩ => ?_⟩
      rcases List.mem_append.mp hmem with hold | hnew
      · exact ht.not_owned ⟨sid, hold⟩
      · exact hnot sid hnew
  idle _ hi := hi
  ledger := .refl

/-- A session ends. -/
def leave (x : Wiring κ) (sid : UInt64) (fd : Int) : Wiring κ :=
  { (x.setContext fd none).close fd with sessions := x.sessions.filter (·.1 ≠ sid) }

theorem mem_leave {sid sid' : UInt64} {fd : Int} :
    (sid', t) ∈ (x.leave sid fd).sessions ↔ (sid', t) ∈ x.sessions ∧ sid' ≠ sid := by
  change _ ∈ x.sessions.filter _ ↔ _
  rw [List.mem_filter, decide_eq_true_iff]

/-- Who is listed under one id has one socket, … -/
theorem Sound.socket_eq (h : x.Sound) {sid : UInt64} (hs : (sid, s) ∈ x.sessions)
    (ht : (sid, t) ∈ x.sessions) : t = s :=
  congrArg Prod.snd (List.inj_on_of_nodup_map h.ids ht hs rfl)

/-- … and the other way round. -/
theorem Sound.id_eq (h : x.Sound) {sid sid' : UInt64} (hs : (sid, s) ∈ x.sessions)
    (hs' : (sid', s) ∈ x.sessions) : sid' = sid :=
  congrArg Prod.fst (List.inj_on_of_nodup_map h.sockets hs' hs rfl)

theorem Sound.leave_keeps (h : x.Sound) {sid : UInt64} (hs : (sid, s) ∈ x.sessions) :
    x.Keeps (x.leave sid s.fd) x.Loose x.Idle := by
  obtain ⟨hopen, hheld⟩ := h.owned hs
  have hfd {t : Socket} (ht : x.files t.fd = some t.serial) (hne : t ≠ s) : t.fd ≠ s.fd :=
    fun hfd => hne (eq_of_fd hopen ht hfd)
  have hdial {id st} {t : Socket} (hid : x.dials id = some st) (ht : st.sock = some t) :
      t.fd ≠ s.fd := by
    refine hfd (h.held hid ht).2.1 ?_
    rintro rfl
    exact hheld ⟨id, st, hid, ht⟩
  have howned {sid' t} (ht : (sid', t) ∈ x.sessions) (hne : sid' ≠ sid) : t.fd ≠ s.fd := by
    refine hfd (h.owned ht).1 ?_
    rintro rfl
    exact hne (h.id_eq hs ht)
  have hfiles {fd n} (hf : (x.leave sid s.fd).files fd = some n) :
      fd ≠ s.fd ∧ x.files fd = some n := files_close.mp hf
  refine ⟨?_, fun _ => .rfl, fun t => ⟨fun ht => ?_, fun ht => ?_⟩, fun _ hi => hi, .refl⟩
  · exact
      { h with
        held := fun {id st t} hid ht =>
          ⟨(h.held hid ht).1, files_close.mpr ⟨hdial hid ht, (h.held hid ht).2.1⟩,
            (h.held hid ht).2.2⟩
        registered := fun hid ht hreg =>
          (contexts_setContext_ne (hdial hid ht)).trans (h.registered hid ht hreg)
        dialContext := fun hctx => by
          rcases of_setContext hctx with ⟨-, ⟨⟩⟩ | ⟨-, hold⟩
          exact h.dialContext hold
        owned := fun ht => by
          obtain ⟨hold, hne⟩ := mem_leave.mp ht
          exact ⟨files_close.mpr ⟨howned hold hne, (h.owned hold).1⟩, (h.owned hold).2⟩
        sessionContext := fun {fd n} hctx => by
          rcases of_setContext hctx with ⟨-, ⟨⟩⟩ | ⟨hne, hold⟩
          refine (h.sessionContext hold).imp_left fun ⟨sid', hmem⟩ =>
            ⟨sid', mem_leave.mpr ⟨hmem, ?_⟩⟩
          rintro rfl
          exact hne (congrArg Socket.fd (h.socket_eq hs hmem))
        issued := fun ht => h.issued (mem_leave.mp ht).1
        ids := h.ids.sublist (List.filter_sublist.map _)
        sockets := h.sockets.sublist (List.filter_sublist.map _)
        nonneg := fun hf => h.nonneg (hfiles hf).2
        bound := fun hf => h.bound (hfiles hf).2
        inj := fun hf hf' => h.inj (hfiles hf).2 (hfiles hf').2 }
  · obtain ⟨hne, hold⟩ := hfiles ht.isOpen
    refine ⟨hold, ht.not_held, fun ⟨sid', hmem⟩ => ht.not_owned ⟨sid', mem_leave.mpr ⟨hmem, ?_⟩⟩⟩
    rintro rfl
    exact hne (congrArg Socket.fd (h.socket_eq hs hmem))
  · refine ⟨files_close.mpr ⟨hfd ht.isOpen ?_, ht.isOpen⟩, ht.not_held, fun ⟨sid', hmem⟩ => ?_⟩
    · rintro rfl
      exact ht.not_owned ⟨sid, hs⟩
    · exact ht.not_owned ⟨sid', (mem_leave.mp hmem).1⟩

end Sockets

/-! ## Dials begin and end -/

section Dials

variable {x y z : Wiring κ} {id : DialId} {st fin : DialState κ} {L M : Socket → Prop}

/-- On the way from `x` to `y` a dial was finished, but its callback has not been called. -/
structure Finishes (x y : Wiring κ) (id : DialId) (fin : DialState κ) (loose : Socket → Prop) :
    Prop where
  sound : y.Sound
  filed : y.dials id = some fin
  done : fin.completed = true
  undone : ∀ {st}, x.dials id = some st → st.completed = false
  others : ∀ {id' st'}, st'.completed = true → id' ≠ id →
    (y.dials id' = some st' ↔ x.dials id' = some st')
  loose : ∀ s, y.Loose s ↔ loose s
  idle : ∀ id', y.Idle id' → x.Idle id'
  ledger : Ledger.Path False x.ledger y.ledger

theorem Finishes.keeps (h : x.Finishes y id fin L) (h' : y.Keeps z M y.Idle) :
    x.Finishes z id fin M where
  __ := h
  sound := h'.sound
  filed := (h'.completed h.done).mpr h.filed
  others hc hne := (h'.completed hc).trans (h.others hc hne)
  loose := h'.loose
  idle id' hi := h.idle id' (h'.idle id' hi)
  ledger := h.ledger.trans h'.ledger

theorem Finishes.congr (h : x.Finishes y id fin L) (hL : ∀ s, L s ↔ M s) :
    x.Finishes y id fin M :=
  { h with loose := fun s => (h.loose s).trans (hL s) }

theorem Revises.finishes {contexts : Int → Option DialHandler}
    (hr : x.Revises id st fin contexts) (h : x.Sound) (hst : st.completed = false)
    (hfin : fin.completed = true) :
    x.Finishes ((x.setContexts contexts).setDial id fin) id fin
      (fun t => x.Loose t ∨ st.sock = some t) where
  sound := hr.sound h
  filed := dials_setDial_self _ _ _
  done := hfin
  undone hid := by
    rw [hr.filed] at hid
    exact Option.some.inj hid ▸ hst
  others _ hne := by
    rw [dials_setDial_ne _ hne]
    rfl
  loose t := by
    rw [hr.loose_iff h]
    refine and_iff_right fun hsock => ?_
    exact absurd (hfin.symm.trans (hr.sock t hsock).1) Bool.noConfusion
  idle id' := by
    rintro ⟨st'', hid', hc, hunreg, htimers⟩
    rcases of_setDial hid' with ⟨rfl, rfl⟩ | ⟨hne, hid'⟩
    · exact absurd (hfin.symm.trans hc) Bool.noConfusion
    · exact ⟨st'', hid', hc, hunreg, htimers⟩
  ledger := by
    rw [hr.ledger_eq]

/-- The callback of a dial has returned, and the dial leaves the table. -/
def conclude (x : Wiring κ) (id : DialId) (st : DialState κ) (r : Dialed) : Wiring κ :=
  { x with dials := fun id' => if id' = id then none else x.dials id'
           invoked := x.invoked ++ [(st.serial, st.cb, r)] }

theorem dials_conclude {r : Dialed} {id' : DialId} {st' : DialState κ} :
    (x.conclude id st r).dials id' = some st' ↔ id' ≠ id ∧ x.dials id' = some st' := by
  change (if id' = id then none else x.dials id') = some st' ↔ _
  split
  next heq => exact iff_of_false nofun fun h => h.1 heq
  next hne => exact ⟨fun h => ⟨hne, h⟩, fun h => h.2⟩

theorem ledger_conclude (hid : x.dials id = some st) (r : Dialed) :
    Ledger.Move False x.ledger (x.conclude id st r).ledger := by
  have htable : x.ledger.table id = some (st.serial, some st.cb) := congrArg (Option.map _) hid
  convert Ledger.Move.finish r htable using 1
  unfold ledger conclude Ledger.strike Ledger.answer
  congr 1
  funext id'
  dsimp only
  split
  next => rfl
  next => rfl

theorem Finishes.conclude (h : x.Finishes y id fin L) (r : Dialed) :
    x.Keeps (y.conclude id fin r) L (fun id' => x.Idle id' ∧ id' ≠ id) := by
  have hfree {s} : fin.sock ≠ some s := fun hs =>
    absurd (h.done.symm.trans (h.sound.held h.filed hs).1) Bool.noConfusion
  have hheld {s} : (y.conclude id fin r).Held s ↔ y.Held s := by
    constructor
    · rintro ⟨id', st', hid', hs⟩
      exact ⟨id', st', (dials_conclude.mp hid').2, hs⟩
    · rintro ⟨id', st', hid', hs⟩
      refine ⟨id', st', dials_conclude.mpr ⟨?_, hid'⟩, hs⟩
      rintro rfl
      rw [h.filed] at hid'
      exact hfree (Option.some.inj hid' ▸ hs)
  refine ⟨?_, fun {id' st'} hc => ?_, fun s => ?_, fun id' => ?_, ?_⟩
  · exact
      { h.sound with
        held := fun hid' hs => h.sound.held (dials_conclude.mp hid').2 hs
        registered := fun hid' hs hreg => h.sound.registered (dials_conclude.mp hid').2 hs hreg
        dialContext := fun {fd id' n} hctx => by
          obtain ⟨st', hid', hs, hreg⟩ := h.sound.dialContext hctx
          refine ⟨st', dials_conclude.mpr ⟨?_, hid'⟩, hs, hreg⟩
          rintro rfl
          rw [h.filed] at hid'
          exact hfree (Option.some.inj hid' ▸ hs)
        owned := fun hs => ⟨(h.sound.owned hs).1, fun hh => (h.sound.owned hs).2 (hheld.mp hh)⟩
        ledger := h.sound.ledger.move (ledger_conclude h.filed r) }
  · rw [dials_conclude]
    by_cases heq : id' = id
    · subst heq
      refine iff_of_false (fun hd => hd.1 rfl) fun hid' => ?_
      exact absurd ((h.undone hid').symm.trans hc) Bool.noConfusion
    · rw [and_iff_right heq]
      exact h.others hc heq
  · rw [← h.loose s]
    exact ⟨fun hs => ⟨hs.isOpen, fun hh => hs.not_held (hheld.mpr hh), hs.not_owned⟩,
      fun hs => ⟨hs.isOpen, fun hh => hs.not_held (hheld.mp hh), hs.not_owned⟩⟩
  · rintro ⟨st', hid', hrest⟩
    obtain ⟨hne, hid'⟩ := dials_conclude.mp hid'
    exact ⟨h.idle id' ⟨st', hid', hrest⟩, hne⟩
  · exact h.ledger.tail (ledger_conclude h.filed r)

/-- A new dial. -/
def emplace (x : Wiring κ) (id : DialId) (opt : DialTcpOptions) (cb : κ) : Wiring κ :=
  { x.setDial id { opt, cb, serial := x.requests.length } with
    requests := x.requests ++ [(opt, cb)] }

theorem ledger_emplace (hid : x.dials id = none) (opt : DialTcpOptions) (cb : κ) :
    Ledger.Move False x.ledger (x.emplace id opt cb).ledger := by
  have htable : x.ledger.table id = none := congrArg (Option.map _) hid
  convert Ledger.Move.file id (some cb) htable using 1
  unfold ledger emplace setDial Ledger.ask Ledger.file
  congr 1
  · rw [List.map_append]
    rfl
  · funext id'
    dsimp only
    rw [List.length_map]
    split
    next => rfl
    next => rfl

theorem Sound.emplace_keeps (h : x.Sound) (hid : x.dials id = none) (opt : DialTcpOptions)
    (cb : κ) : x.Keeps (x.emplace id opt cb) x.Loose (fun id' => id' = id ∨ x.Idle id') := by
  have hold {id' st' s} (hid' : (x.emplace id opt cb).dials id' = some st')
      (hs : st'.sock = some s) : x.dials id' = some st' := by
    rcases of_setDial hid' with ⟨-, rfl⟩ | ⟨-, hid'⟩
    · cases hs
    · exact hid'
  have hne {id' st'} (hid' : x.dials id' = some st') : id' ≠ id := by
    rintro rfl
    cases hid.symm.trans hid'
  have hkept {id' st'} (hid' : x.dials id' = some st') :
      (x.emplace id opt cb).dials id' = some st' :=
    (dials_setDial_ne _ (hne hid') _).trans hid'
  have hheld {s} : (x.emplace id opt cb).Held s ↔ x.Held s :=
    ⟨fun ⟨id', st', hid', hs⟩ => ⟨id', st', hold hid' hs, hs⟩,
      fun ⟨id', st', hid', hs⟩ => ⟨id', st', hkept hid', hs⟩⟩
  refine ⟨?_, fun {id' st'} hc => ?_, fun s => ?_, fun id' => ?_, ?_⟩
  · exact
      { h with
        held := fun hid' hs => h.held (hold hid' hs) hs
        registered := fun hid' hs hreg => h.registered (hold hid' hs) hs hreg
        dialContext := fun hctx => by
          obtain ⟨st', hid', hrest⟩ := h.dialContext hctx
          exact ⟨st', hkept hid', hrest⟩
        owned := fun hs => ⟨(h.owned hs).1, fun hh => (h.owned hs).2 (hheld.mp hh)⟩
        ledger := h.ledger.move (ledger_emplace hid opt cb) }
  · refine ⟨fun hid' => ?_, hkept⟩
    rcases of_setDial hid' with ⟨-, rfl⟩ | ⟨-, hid'⟩
    · cases hc
    · exact hid'
  · exact ⟨fun hs => ⟨hs.isOpen, fun hh => hs.not_held (hheld.mpr hh), hs.not_owned⟩,
      fun hs => ⟨hs.isOpen, fun hh => hs.not_held (hheld.mp hh), hs.not_owned⟩⟩
  · rintro ⟨st', hid', hrest⟩
    rcases of_setDial hid' with ⟨rfl, -⟩ | ⟨-, hid'⟩
    · exact .inl rfl
    · exact .inr ⟨st', hid', hrest⟩
  · exact .single (ledger_emplace hid opt cb)

/-- A call of `dialTcpSession` is refused. -/
def refuse (x : Wiring κ) (opt : DialTcpOptions) (cb : κ) (r : Dialed) : Wiring κ :=
  { x with requests := x.requests ++ [(opt, cb)]
           invoked := x.invoked ++ [(x.requests.length, cb, r)] }

theorem Sound.refuse_keeps (h : x.Sound) (opt : DialTcpOptions) (cb : κ) (r : Dialed) :
    x.Keeps (x.refuse opt cb r) x.Loose x.Idle := by
  have heq : (x.refuse opt cb r).ledger =
      (x.ledger.ask (some cb)).answer x.ledger.requests.length cb r := by
    unfold Wiring.ledger refuse Ledger.ask Ledger.answer
    dsimp only
    rw [List.map_append, List.length_map]
    rfl
  have hmove : Ledger.Move False x.ledger (x.refuse opt cb r).ledger := heq ▸ .refuse cb r
  exact ⟨{ h with ledger := h.ledger.move hmove }, fun _ => .rfl,
    fun _ => ⟨fun hs => ⟨hs.isOpen, hs.not_held, hs.not_owned⟩,
      fun hs => ⟨hs.isOpen, hs.not_held, hs.not_owned⟩⟩, fun _ hi => hi, .single hmove⟩

/-- Timers are armed or fire. -/
theorem Sound.timers_keeps (h : x.Sound) (timers : List DialTimer) :
    x.Keeps { x with timers } x.Loose (fun id => x.Idle id ∨
      ∃ attempt delay, .retry id attempt delay ∈ x.timers ∧ .retry id attempt delay ∉ timers) where
  sound := { h with }
  completed _ := .rfl
  loose _ := ⟨fun hs => ⟨hs.isOpen, hs.not_held, hs.not_owned⟩,
    fun hs => ⟨hs.isOpen, hs.not_held, hs.not_owned⟩⟩
  idle id := by
    rintro ⟨st, hid, hc, hunreg, htimers⟩
    by_cases hall : ∀ attempt delay, DialTimer.retry id attempt delay ∉ x.timers
    · exact .inl ⟨st, hid, hc, hunreg, hall⟩
    · push Not at hall
      obtain ⟨attempt, delay, hmem⟩ := hall
      exact .inr ⟨attempt, delay, hmem, htimers attempt delay⟩
  ledger := .refl

theorem Sound.addTimer_keeps (h : x.Sound) (t : DialTimer) :
    x.Keeps { x with timers := x.timers ++ [t] } x.Loose
      (fun id => x.Idle id ∧ ∀ attempt delay, t ≠ .retry id attempt delay) := by
  refine (h.timers_keeps (x.timers ++ [t])).mono (fun _ => .rfl) ?_
  rintro id ⟨st, -, -, -, htimers⟩ (hi | ⟨attempt, delay, hmem, hnot⟩)
  · refine ⟨hi, ?_⟩
    rintro attempt delay rfl
    exact htimers attempt delay (List.mem_append_right _ (List.mem_singleton_self _))
  · exact absurd (List.mem_append_left _ hmem) hnot

/-! ## A dial takes a socket or gives it up -/

/-- Nothing is registered for a dial that has no socket. -/
theorem Sound.not_registered (h : x.Sound) (hid : x.dials id = some st) (hsock : st.sock = none)
    (fd : Int) (n : Nat) : x.contexts fd ≠ some (.dial id n) := by
  intro hctx
  obtain ⟨st', hid', hs, -⟩ := h.dialContext hctx
  cases hid.symm.trans hid'
  cases hsock.symm.trans hs

section Take

variable {s : Socket} (h : x.Sound) (hid : x.dials id = some st) (hsock : st.sock = none)
  (hc : st.completed = false) (hs : x.Loose s) (hopened : (s.serial, st.serial) ∈ x.openedFor)
include h hid hsock hc hs hopened

theorem Sound.take_revises (hreg : st.connectedEventRegistered = false) :
    x.Revises id st { st with sock := some s } x.contexts where
  filed := hid
  serial := rfl
  cb := rfl
  sock t ht := by
    cases ht
    exact ⟨hc, hopened, .inr hs⟩
  elsewhere _ _ := rfl
  here _ := .inl rfl
  registered fd n := by
    refine iff_of_false (h.not_registered hid hsock fd n) fun ht => ?_
    exact Bool.noConfusion (hreg.symm.trans ht.2)

theorem Sound.takeRegistered_revises :
    x.Revises id st { st with sock := some s, connectedEventRegistered := true }
      (x.setContext s.fd (some (.dial id s.serial))).contexts where
  filed := hid
  serial := rfl
  cb := rfl
  sock t ht := by
    cases ht
    exact ⟨hc, hopened, .inr hs⟩
  elsewhere fd hfd := contexts_setContext_ne fun heq => hfd s (.inr rfl) heq.symm
  here fd := by
    by_cases hfd : fd = s.fd
    · exact .inr (.inr ⟨s.serial, if_pos hfd⟩)
    · exact .inl (contexts_setContext_ne hfd)
  registered fd n := by
    constructor
    · intro hctx
      rcases of_setContext hctx with ⟨rfl, hnew⟩ | ⟨-, hold⟩
      · cases hnew
        exact ⟨rfl, rfl⟩
      · exact absurd hold (h.not_registered hid hsock fd n)
    · rintro ⟨hmine, -⟩
      cases hmine
      exact if_pos rfl

end Take

/-- The registrations without that of a dial's socket. -/
def dropped (x : Wiring κ) (st : DialState κ) : Int → Option DialHandler :=
  match st.sock with
  | some s => if st.connectedEventRegistered = true then (x.setContext s.fd none).contexts
      else x.contexts
  | none => x.contexts

def closeSock (x : Wiring κ) (st : DialState κ) : Wiring κ :=
  match st.sock with
  | some s => x.close s.fd
  | none => x

theorem dropped_cases (x : Wiring κ) (st : DialState κ) (fd : Int) :
    x.dropped st fd = x.contexts fd ∨
      (x.dropped st fd = none ∧ ∃ s, st.sock = some s ∧ s.fd = fd) := by
  unfold dropped
  cases hsock : st.sock with
  | none => exact .inl rfl
  | some s =>
    dsimp only
    split
    next =>
      by_cases hfd : fd = s.fd
      · exact .inr ⟨if_pos hfd, s, rfl, hfd.symm⟩
      · exact .inl (contexts_setContext_ne hfd)
    next => exact .inl rfl

theorem Sound.dropped_ne (h : x.Sound) (hid : x.dials id = some st) (fd : Int) (n : Nat) :
    x.dropped st fd ≠ some (.dial id n) := by
  intro hctx
  have hold : x.contexts fd = some (.dial id n) := by
    rcases x.dropped_cases st fd with hsame | ⟨hnone, -⟩
    · exact hsame.symm.trans hctx
    · cases hnone.symm.trans hctx
  obtain ⟨st', hid', hs, hreg⟩ := h.dialContext hold
  rw [hid] at hid'
  cases hid'
  unfold dropped at hctx
  rw [hs] at hctx
  dsimp only at hctx
  rw [if_pos hreg] at hctx
  rcases of_setContext hctx with ⟨-, ⟨⟩⟩ | ⟨hne, -⟩
  exact hne rfl

theorem Sound.drop_revises (h : x.Sound) (hid : x.dials id = some st) (hsock : fin.sock = none)
    (hserial : fin.serial = st.serial) (hcb : fin.cb = st.cb) :
    x.Revises id st fin (x.dropped st) where
  filed := hid
  serial := hserial
  cb := hcb
  sock s hs := by
    rw [hsock] at hs
    cases hs
  elsewhere fd hfd := by
    rcases x.dropped_cases st fd with hsame | ⟨-, s, hs, rfl⟩
    · exact hsame
    · exact absurd rfl (hfd s (.inl hs))
  here fd := (x.dropped_cases st fd).imp_right fun hnone => .inl hnone.1
  registered fd n := by
    refine iff_of_false (h.dropped_ne hid fd n) fun hs => ?_
    rw [hsock] at hs
    cases hs.1

/-- The socket that a dial has given up is closed. -/
theorem Sound.closeSock_keeps (h : y.Sound) (hloose : ∀ t, y.Loose t ↔ L t ∨ st.sock = some t)
    (hnew : ∀ {t}, st.sock = some t → ¬ L t) : y.Keeps (y.closeSock st) L y.Idle := by
  unfold closeSock
  cases hsock : st.sock with
  | none =>
    refine (Keeps.refl h).mono (fun t => ?_) fun _ hi _ => hi
    rw [hloose, hsock]
    exact or_iff_left nofun
  | some s =>
    have hs : y.Loose s := (hloose s).mpr (.inr hsock)
    refine (hs.close_keeps h).mono (fun t => ?_) fun _ hi _ => hi
    rw [hloose, hsock]
    constructor
    · rintro ⟨ht | ht, hne⟩
      · exact ht
      · exact absurd (Option.some.inj ht).symm hne
    · intro ht
      refine ⟨.inl ht, ?_⟩
      rintro rfl
      exact hnew hsock ht

/-- A dial that is idle, and not because `attempt` of it was to be finished. -/
def IdleBut (x : Wiring κ) (id : DialId) (attempt : UInt32) (id' : DialId) : Prop :=
  x.Idle id' ∧ ∀ st, id' = id → x.dials id = some st → st.attemptIndex ≠ attempt

/-- Where another attempt is under way, nothing happens. -/
theorem Sound.skip_keeps (h : x.Sound) {attempt : UInt32}
    (hskip : ∀ st, x.dials id = some st → st.completed = true ∨ st.attemptIndex ≠ attempt) :
    x.Keeps x x.Loose (x.IdleBut id attempt) := by
  refine (Keeps.refl h).mono (fun _ => .rfl) fun id' _ hi => ⟨hi, ?_⟩
  rintro st rfl hid
  obtain ⟨st', hid', hc, -⟩ := hi
  cases hid.symm.trans hid'
  exact (hskip st hid).resolve_left fun hdone => Bool.noConfusion (hc.symm.trans hdone)

theorem IdleBut.ne {attempt : UInt32} {id' : DialId} (h : x.IdleBut id attempt id')
    (hid : x.dials id = some st) (hattempt : st.attemptIndex = attempt) :
    x.Idle id' ∧ id' ≠ id :=
  ⟨h.1, fun heq => h.2 st heq hid hattempt⟩

theorem Keeps.but (h : x.Keeps y L fun id' => x.Idle id' ∧ id' ≠ id) (attempt : UInt32) :
    x.Keeps y L (x.IdleBut id attempt) :=
  h.mono (fun _ => .rfl) fun _ _ hi => ⟨hi.1, fun _ heq => absurd heq hi.2⟩

/-- A socket comes into hand and leaves it again. -/
theorem in_hand_iff {s : Socket} (hs : ¬ L s) (t : Socket) : (L t ∨ t = s) ∧ t ≠ s ↔ L t := by
  constructor
  · rintro ⟨ht | ht, hne⟩
    · exact ht
    · exact absurd ht hne
  · intro ht
    refine ⟨.inl ht, ?_⟩
    rintro rfl
    exact hs ht

theorem not_loose_of_free {s : Socket} (hfree : x.files s.fd = none) : ¬ x.Loose s := by
  intro hloose
  cases hfree.symm.trans hloose.isOpen

theorem not_loose_of_held (hid : x.dials id = some st) {s : Socket} (hs : st.sock = some s) :
    ¬ x.Loose s := fun hloose => hloose.not_held ⟨id, st, hid, hs⟩

end Dials

end Wiring

end HyperNet.Connector
