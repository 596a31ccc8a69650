import HyperNet.Lib.Index
import HyperNet.Lib.Reentrant

/-!
# The session registry

`SessionRegistry` stores the sessions of a worker with their contexts, and in three more
tables who is subscribed to what: per session its topics with a count per scope, per topic
its sessions, per scope its sessions.  Each operation updates them one after the other.

`SubscriptionIndex.Consistent` says that the three tables tell the same story, and
`Registry.Consistent` that the story is about stored sessions.  The snapshots a broadcast
takes are then exact.
-/

namespace HyperNet.App

abbrev SessionId := UInt64

abbrev ScopeId := UInt32

abbrev TopicId := UInt32

/-- A session as the application names it; the id 0 names none. -/
structure SessionHandle where
  id : SessionId
  ownerWorkerId : Int := -1
  deriving DecidableEq

def SessionHandle.isValid (h : SessionHandle) : Bool := h.id != 0

structure TopicKey where
  scope : ScopeId
  topic : TopicId
  deriving DecidableEq

inductive ConnState where
  | Connected
  | Handshaked
  | Authed
  | Joined
  | Active
  | Closing
  deriving DecidableEq

structure SessionContext where
  state : ConnState := .Connected
  accountId : UInt64 := 0
  playerId : UInt64 := 0
  scope : ScopeId := 0
  topic : TopicId := 0
  deriving DecidableEq

/-- The context with another primary topic. -/
def SessionContext.setPrimary (ctx : SessionContext) (w : ScopeId) (c : TopicId) :
    SessionContext :=
  { ctx with scope := w, topic := c }

structure StoredSession where
  handle : SessionHandle
  ctx : SessionContext
  deriving DecidableEq

structure SubscriptionState where
  subscriptions : List TopicKey := []
  scopeRefCount : AList fun _ : ScopeId => Nat := ∅

structure SubscriptionIndex where
  states : AList fun _ : SessionId => SubscriptionState := ∅
  scopeIndex : Index ScopeId SessionId := .empty
  topicIndex : Index TopicKey SessionId := .empty

namespace SubscriptionIndex

variable (s : SubscriptionIndex) (sid : SessionId) (w : ScopeId) (c : TopicId)

/-- The entry of a session; that of a session without one is empty. -/
def stateOf : SubscriptionState := (s.states.lookup sid).getD {}

def subscribe : Bool × SubscriptionIndex :=
  let st := s.stateOf sid
  if ⟨w, c⟩ ∈ st.subscriptions then (false, s)
  else
    let cnt := (st.scopeRefCount.lookup w).getD 0
    (true,
      { states := s.states.insert sid
          ⟨⟨w, c⟩ :: st.subscriptions, st.scopeRefCount.insert w (cnt + 1)⟩
        topicIndex := s.topicIndex.insert ⟨w, c⟩ sid
        scopeIndex := if cnt = 0 then s.scopeIndex.insert w sid else s.scopeIndex })

/-- One use of the scope less: the counts and the scope index after it. -/
def dropScope (refs : AList fun _ : ScopeId => Nat) :
    (AList fun _ : ScopeId => Nat) × Index ScopeId SessionId :=
  match refs.lookup w with
  | none => (refs, s.scopeIndex)
  | some cnt =>
    if cnt - 1 = 0 then (refs.erase w, s.scopeIndex.erase w sid)
    else (refs.insert w (cnt - 1), s.scopeIndex)

def unsubscribe : Bool × SubscriptionIndex :=
  match s.states.lookup sid with
  | none => (false, s)
  | some st =>
    if ⟨w, c⟩ ∈ st.subscriptions then
      let subscriptions := st.subscriptions.erase ⟨w, c⟩
      let topicIndex := s.topicIndex.erase ⟨w, c⟩ sid
      let (refs, scopeIndex) := s.dropScope sid w st.scopeRefCount
      if subscriptions = [] then
        -- the loop over what is left of the counts is defensive: nothing is
        (true, ⟨s.states.erase sid, scopeIndex.eraseAll refs.keys sid, topicIndex⟩)
      else (true, ⟨s.states.insert sid ⟨subscriptions, refs⟩, scopeIndex, topicIndex⟩)
    else (false, s)

def clearAll : SubscriptionIndex :=
  match s.states.lookup sid with
  | none => s
  | some st =>
    { states := s.states.erase sid
      topicIndex := s.topicIndex.eraseAll st.subscriptions sid
      scopeIndex := s.scopeIndex.eraseAll st.scopeRefCount.keys sid }

def contains (key : TopicKey) : Bool := key ∈ (s.stateOf sid).subscriptions

def isEmpty : Bool := (s.stateOf sid).subscriptions.isEmpty

end SubscriptionIndex

structure Registry where
  store : AList fun _ : SessionId => StoredSession := ∅
  subs : SubscriptionIndex := {}

namespace Registry

variable (r : Registry) (sid : SessionId) (w : ScopeId) (c : TopicId)

def find : Option StoredSession := r.store.lookup sid

/-- Change the context of a stored session. -/
def modifyContext (f : SessionContext → SessionContext) : Registry :=
  match r.find sid with
  | none => r
  | some rec => { r with store := r.store.insert sid { rec with ctx := f rec.ctx } }

def tryGetHandle : Option SessionHandle :=
  match r.find sid with
  | none => none
  | some rec => if rec.handle.isValid then some rec.handle else none

def tryGetContext : Option SessionContext := (r.find sid).map StoredSession.ctx

def setState (st : ConnState) : Registry := r.modifyContext sid fun ctx => { ctx with state := st }

def setAuth (aid pid : UInt64) : Registry :=
  r.modifyContext sid fun ctx => { ctx with accountId := aid, playerId := pid }

def subscribe : Bool × Registry :=
  match r.find sid with
  | none => (false, r)
  | some _ =>
    let (done, subs) := r.subs.subscribe sid w c
    (done, { r with subs })

def add (session : SessionHandle) : Registry :=
  let r := { r with store := r.store.insert session.id ⟨session, { scope := w, topic := c }⟩ }
  if w ≠ 0 ∧ c ≠ 0 then (r.subscribe session.id w c).2 else r

def remove : Registry :=
  match r.find sid with
  | none => r
  | some _ => { store := r.store.erase sid, subs := r.subs.clearAll sid }

def unsubscribe : Bool × Registry :=
  match r.find sid with
  | none => (false, r)
  | some rec =>
    match r.subs.unsubscribe sid w c with
    | (false, _) => (false, r)
    | (true, subs) =>
      let r := { r with subs }
      let r := if rec.ctx.scope = w ∧ rec.ctx.topic = c then
          r.modifyContext sid (·.setPrimary 0 0) else r
      (true, if subs.isEmpty sid then r.modifyContext sid (·.setPrimary 0 0) else r)

def unsubscribeAll : Bool × Registry :=
  match r.find sid with
  | none => (false, r)
  | some _ => (true, { r with subs := r.subs.clearAll sid }.modifyContext sid (·.setPrimary 0 0))

def setPrimaryTopic : Bool × Registry :=
  match r.find sid with
  | none => (false, r)
  | some _ =>
    if w = 0 ∧ c = 0 then (true, r.modifyContext sid (·.setPrimary 0 0))
    else if r.subs.contains sid ⟨w, c⟩ then (true, r.modifyContext sid (·.setPrimary w c))
    else (false, r)

/-- Also gives the primary topic before the move. -/
def moveToTopic : Option (ScopeId × TopicId) × Registry :=
  match r.find sid with
  | none => (none, r)
  | some rec =>
    let old := (rec.ctx.scope, rec.ctx.topic)
    let r := { r with subs := r.subs.clearAll sid }.modifyContext sid (·.setPrimary 0 0)
    if w ≠ 0 ∧ c ≠ 0 then (some old, ((r.subscribe sid w c).2.setPrimaryTopic sid w c).2)
    else (some old, r)

/-- What a snapshot keeps of the sessions it goes over. -/
def pick (exceptSid : SessionId) (sid : SessionId) : Option SessionHandle :=
  if sid = exceptSid then none else r.tryGetHandle sid

def snapshotAll (exceptSid : SessionId) : List SessionHandle :=
  r.store.keys.filterMap (r.pick exceptSid)

def snapshotScope (exceptSid : SessionId) : List SessionHandle :=
  (r.subs.scopeIndex.members w).filterMap (r.pick exceptSid)

def snapshotTopic (exceptSid : SessionId) : List SessionHandle :=
  (r.subs.topicIndex.members ⟨w, c⟩).filterMap (r.pick exceptSid)

/-- A call that changes the registry. -/
inductive Op where
  | add (session : SessionHandle) (w : ScopeId) (c : TopicId)
  | remove (sid : SessionId)
  | subscribe (sid : SessionId) (w : ScopeId) (c : TopicId)
  | unsubscribe (sid : SessionId) (w : ScopeId) (c : TopicId)
  | unsubscribeAll (sid : SessionId)
  | setPrimaryTopic (sid : SessionId) (w : ScopeId) (c : TopicId)
  | moveToTopic (sid : SessionId) (w : ScopeId) (c : TopicId)
  | setState (sid : SessionId) (st : ConnState)
  | setAuth (sid : SessionId) (aid pid : UInt64)

def step : Op → Registry
  | .add session w c => r.add w c session
  | .remove sid => r.remove sid
  | .subscribe sid w c => (r.subscribe sid w c).2
  | .unsubscribe sid w c => (r.unsubscribe sid w c).2
  | .unsubscribeAll sid => (r.unsubscribeAll sid).2
  | .setPrimaryTopic sid w c => (r.setPrimaryTopic sid w c).2
  | .moveToTopic sid w c => (r.moveToTopic sid w c).2
  | .setState sid st => r.setState sid st
  | .setAuth sid aid pid => r.setAuth sid aid pid

/-- The state of a new registry after these calls. -/
def run (ops : List Op) : Registry := ops.foldl step {}

end Registry

/-! ## The subscription tables -/

/-- How many of the topics are of the scope. -/
def scopeCount (w : ScopeId) (topics : List TopicKey) : Nat := topics.countP (·.scope = w)

namespace SubscriptionIndex

/-- The three tables agree. -/
structure Consistent (s : SubscriptionIndex) : Prop where
  topic : ∀ sid key, sid ∈ s.topicIndex.members key ↔ key ∈ (s.stateOf sid).subscriptions
  refCount : ∀ sid w, ((s.stateOf sid).scopeRefCount.lookup w).getD 0 =
    scopeCount w (s.stateOf sid).subscriptions
  scope : ∀ sid w, sid ∈ s.scopeIndex.members w ↔ 0 < scopeCount w (s.stateOf sid).subscriptions
  nodup : ∀ sid, (s.stateOf sid).subscriptions.Nodup
  nonempty : ∀ sid st, s.states.lookup sid = some st → st.subscriptions ≠ []

theorem consistent_empty : Consistent {} where
  topic _ _ := by simp [stateOf]
  refCount _ _ := by simp [stateOf, scopeCount]
  scope _ _ := by simp [stateOf, scopeCount]
  nodup _ := by simp [stateOf]
  nonempty _ _ h := by simp at h

variable {s : SubscriptionIndex} {sid : SessionId} {w : ScopeId} {c : TopicId}

theorem stateOf_eq_of_lookup {st : SubscriptionState} (h : s.states.lookup sid = some st) :
    s.stateOf sid = st := by
  rw [stateOf, h, Option.getD_some]

/-- What is to be shown of an update that concerns one session: that the tables agree on
its new entry, and that the other sessions keep theirs. -/
theorem Consistent.update {s' : SubscriptionIndex} (h : s.Consistent) {st : SubscriptionState}
    (hother : ∀ other, other ≠ sid → s'.states.lookup other = s.states.lookup other ∧
      (∀ key, other ∈ s'.topicIndex.members key ↔ other ∈ s.topicIndex.members key) ∧
      ∀ w, other ∈ s'.scopeIndex.members w ↔ other ∈ s.scopeIndex.members w)
    (hself : s'.states.lookup sid = some st ∧ st.subscriptions ≠ [] ∨
      s'.states.lookup sid = none ∧ st = {})
    (htopic : ∀ key, sid ∈ s'.topicIndex.members key ↔ key ∈ st.subscriptions)
    (hrefs : ∀ w, (st.scopeRefCount.lookup w).getD 0 = scopeCount w st.subscriptions)
    (hscope : ∀ w, sid ∈ s'.scopeIndex.members w ↔ 0 < scopeCount w st.subscriptions)
    (hnodup : st.subscriptions.Nodup) : s'.Consistent := by
  have hstate : s'.stateOf sid = st := by
    rcases hself with ⟨hst, -⟩ | ⟨hst, rfl⟩ <;> rw [stateOf, hst] <;> rfl
  have hkept : ∀ other, other ≠ sid → s'.stateOf other = s.stateOf other :=
    fun other hne => by rw [stateOf, (hother other hne).1, stateOf]
  constructor
  case topic =>
    intro sid' key
    by_cases heq : sid' = sid
    · rw [heq, hstate, htopic]
    · rw [hkept sid' heq, (hother sid' heq).2.1 key, h.topic]
  case refCount =>
    intro sid' w
    by_cases heq : sid' = sid
    · rw [heq, hstate, hrefs]
    · rw [hkept sid' heq, h.refCount]
  case scope =>
    intro sid' w
    by_cases heq : sid' = sid
    · rw [heq, hstate, hscope]
    · rw [hkept sid' heq, (hother sid' heq).2.2 w, h.scope]
  case nodup =>
    intro sid'
    by_cases heq : sid' = sid
    · rwa [heq, hstate]
    · exact hkept sid' heq ▸ h.nodup sid'
  case nonempty =>
    intro sid' st' hst'
    by_cases heq : sid' = sid
    · subst heq
      rcases hself with ⟨hst, hne⟩ | ⟨hst, -⟩
      · exact Option.some.inj (hst.symm.trans hst') ▸ hne
      · exact absurd (hst.symm.trans hst') (by simp)
    · exact h.nonempty sid' st' ((hother sid' heq).1 ▸ hst')

theorem scopeCount_cons (w : ScopeId) (key : TopicKey) (topics : List TopicKey) :
    scopeCount w (key :: topics) = scopeCount w topics + if key.scope = w then 1 else 0 := by
  simp only [scopeCount, List.countP_cons, decide_eq_true_eq]

theorem scopeCount_erase {key : TopicKey} {topics : List TopicKey} (h : key ∈ topics)
    (w : ScopeId) :
    scopeCount w topics = scopeCount w (topics.erase key) + if key.scope = w then 1 else 0 := by
  rw [← scopeCount_cons]
  exact (List.perm_cons_erase h).countP_eq _

theorem scopeCount_pos {topics : List TopicKey} (h : ⟨w, c⟩ ∈ topics) : 0 < scopeCount w topics :=
  List.countP_pos_iff.2 ⟨⟨w, c⟩, h, by simp⟩

theorem Consistent.subscribe (h : s.Consistent) (sid : SessionId) (w : ScopeId) (c : TopicId) :
    (s.subscribe sid w c).2.Consistent := by
  rw [SubscriptionIndex.subscribe]
  dsimp only
  split
  case isTrue => exact h
  case isFalse hnew =>
    have hrefs := h.refCount sid
    refine h.update ?_ (.inl ⟨AList.lookup_insert _, List.cons_ne_nil _ _⟩) ?_ ?_ ?_
      (List.nodup_cons.2 ⟨hnew, h.nodup sid⟩)
    · intro other hne
      refine ⟨AList.lookup_insert_ne hne, fun key => by simp [hne], fun w' => ?_⟩
      dsimp only
      split <;> simp [hne]
    · intro key
      simp [h.topic sid key]
    · intro w'
      rw [scopeCount_cons]
      by_cases hw : w' = w
      · subst hw
        simp [hrefs]
      · simp [AList.lookup_insert_ne hw, hrefs, Ne.symm hw]
    · intro w'
      rw [scopeCount_cons, hrefs w]
      have hscope := h.scope sid w'
      dsimp only
      by_cases hw : w' = w
      · subst hw
        split
        · simp
        · rw [hscope]; simp; omega
      · split <;> simp [hw, hscope, Ne.symm hw]

/-- What `dropScope` leaves of the counts and the scope index. -/
theorem dropScope_spec (h : s.Consistent) {st : SubscriptionState}
    (hst : s.states.lookup sid = some st) (hmem : ⟨w, c⟩ ∈ st.subscriptions) (w' : ScopeId) :
    ((s.dropScope sid w st.scopeRefCount).1.lookup w').getD 0 =
        scopeCount w' (st.subscriptions.erase ⟨w, c⟩) ∧
      (∀ other, other ≠ sid → (other ∈ (s.dropScope sid w st.scopeRefCount).2.members w' ↔
        other ∈ s.scopeIndex.members w')) ∧
      (sid ∈ (s.dropScope sid w st.scopeRefCount).2.members w' ↔
        0 < scopeCount w' (st.subscriptions.erase ⟨w, c⟩)) := by
  have hstate := stateOf_eq_of_lookup hst
  have hrefs := fun w => hstate ▸ h.refCount sid w
  have hscope := fun w => hstate ▸ h.scope sid w
  have hpos := scopeCount_pos hmem
  have herase := scopeCount_erase hmem
  rw [dropScope]
  split
  case h_1 hnone =>
    have := hrefs w
    rw [hnone, Option.getD_none] at this
    omega
  case h_2 cnt hcnt =>
    have hcount := hrefs w
    rw [hcnt, Option.getD_some] at hcount
    have hone := herase w
    rw [if_pos rfl] at hone
    by_cases hw : w' = w
    · subst hw
      split
      case isTrue hlast =>
        refine ⟨?_, fun other hne => by simp [hne], ?_⟩
        · rw [AList.lookup_erase, Option.getD_none]
          omega
        · rw [Index.mem_erase]
          exact ⟨fun hin => absurd ⟨rfl, rfl⟩ hin.2, fun hin => by omega⟩
      case isFalse hmore =>
        refine ⟨?_, fun other hne => Iff.rfl, ?_⟩
        · rw [AList.lookup_insert, Option.getD_some]
          omega
        · rw [hscope]
          omega
    · have hsame := herase w'
      rw [if_neg (Ne.symm hw), Nat.add_zero] at hsame
      rw [← hsame, ← hscope, ← hrefs]
      split
      · exact ⟨by rw [AList.lookup_erase_ne hw], fun other hne => by simp [hw], by simp [hw]⟩
      · exact ⟨by rw [AList.lookup_insert_ne hw], fun other hne => Iff.rfl, Iff.rfl⟩

theorem Consistent.unsubscribe (h : s.Consistent) (sid : SessionId) (w : ScopeId) (c : TopicId) :
    (s.unsubscribe sid w c).2.Consistent := by
  rw [SubscriptionIndex.unsubscribe]
  split
  case h_1 => exact h
  case h_2 st hst =>
    split
    case isFalse => exact h
    case isTrue hmem =>
      have hdrop := dropScope_spec h hst hmem
      have hstate := stateOf_eq_of_lookup hst
      have hnodup : st.subscriptions.Nodup := hstate ▸ h.nodup sid
      have htopic : ∀ key, sid ∈ (s.topicIndex.erase ⟨w, c⟩ sid).members key ↔
          key ∈ st.subscriptions.erase ⟨w, c⟩ := by
        intro key
        rw [Index.mem_erase, h.topic, hstate, hnodup.mem_erase_iff]
        tauto
      dsimp only
      split
      case isTrue hnil =>
        rw [hnil] at hdrop htopic
        refine h.update ?_ (.inr ⟨AList.lookup_erase _ _, rfl⟩) htopic
          (fun _ => by simp [scopeCount]) ?_ List.nodup_nil
        · intro other hne
          exact ⟨AList.lookup_erase_ne hne, fun key => by simp [hne],
            fun w' => by simp [hne, (hdrop w').2.1 other hne]⟩
        · intro w'
          rw [Index.mem_eraseAll, (hdrop w').2.2]
          exact and_iff_left_of_imp fun hpos => absurd hpos (Nat.lt_irrefl 0)
      case isFalse hne =>
        refine h.update ?_ (.inl ⟨AList.lookup_insert _, hne⟩) htopic (fun w' => (hdrop w').1)
          (fun w' => (hdrop w').2.2) (hnodup.erase _)
        intro other hother
        exact ⟨AList.lookup_insert_ne hother, fun key => by simp [hother],
          fun w' => (hdrop w').2.1 other hother⟩

theorem Consistent.clearAll (h : s.Consistent) (sid : SessionId) :
    (s.clearAll sid).Consistent := by
  rw [SubscriptionIndex.clearAll]
  split
  case h_1 => exact h
  case h_2 st hst =>
    have hstate := stateOf_eq_of_lookup hst
    refine h.update ?_ (.inr ⟨AList.lookup_erase _ _, rfl⟩) ?_ (fun _ => by simp [scopeCount]) ?_
      List.nodup_nil
    · intro other hne
      exact ⟨AList.lookup_erase_ne hne, fun key => by simp [hne], fun w => by simp [hne]⟩
    · intro key
      rw [Index.mem_eraseAll, h.topic, hstate]
      simp
    · intro w
      -- a scope the session is indexed under has a count, hence a key in the counts
      rw [Index.mem_eraseAll, h.scope, hstate]
      have hkey : 0 < scopeCount w st.subscriptions → w ∈ st.scopeRefCount.keys := by
        intro hpos
        rw [← hstate, ← h.refCount, hstate] at hpos
        rw [← AList.mem_keys, ← AList.lookup_isSome]
        cases hw : st.scopeRefCount.lookup w with
        | none => rw [hw] at hpos; exact absurd hpos (Nat.lt_irrefl 0)
        | some n => rfl
      simp only [scopeCount, List.countP_nil, Nat.lt_irrefl, iff_false, not_and, and_true, not_not]
      exact hkey

/-! ### Who has an entry -/

theorem subscribe_isSome {other : SessionId}
    (h : ((s.subscribe sid w c).2.states.lookup other).isSome) :
    other = sid ∨ (s.states.lookup other).isSome := by
  by_cases hother : other = sid
  · exact .inl hother
  · rw [subscribe] at h
    dsimp only at h
    split at h
    · exact .inr h
    · rw [AList.lookup_insert_ne hother] at h
      exact .inr h

theorem unsubscribe_isSome {other : SessionId}
    (h : ((s.unsubscribe sid w c).2.states.lookup other).isSome) :
    (s.states.lookup other).isSome := by
  rw [unsubscribe] at h
  split at h
  case h_1 => exact h
  case h_2 st hst =>
    by_cases hother : other = sid
    · rw [hother, hst]; rfl
    · split at h
      · dsimp only at h
        split at h
        · rwa [AList.lookup_erase_ne hother] at h
        · rwa [AList.lookup_insert_ne hother] at h
      · exact h

theorem clearAll_isSome {other : SessionId} (h : ((s.clearAll sid).states.lookup other).isSome) :
    other ≠ sid ∧ (s.states.lookup other).isSome := by
  rw [clearAll] at h
  split at h
  case h_1 hnone =>
    refine ⟨?_, h⟩
    rintro rfl
    rw [hnone] at h
    cases h
  case h_2 =>
    by_cases hother : other = sid
    · rw [hother, AList.lookup_erase] at h
      cases h
    · exact ⟨hother, by rwa [AList.lookup_erase_ne hother] at h⟩

end SubscriptionIndex

namespace Registry

/-! ## The registry -/

/-- The tables agree and are about stored sessions. -/
structure Consistent (r : Registry) : Prop where
  subs : r.subs.Consistent
  stored : ∀ sid, (r.subs.states.lookup sid).isSome → (r.find sid).isSome
  handle_id : ∀ sid rec, r.find sid = some rec → rec.handle.id = sid

theorem consistent_empty : Consistent {} where
  subs := SubscriptionIndex.consistent_empty
  stored _ h := by cases h
  handle_id _ _ h := by cases h

variable {r : Registry} {sid : SessionId} {w : ScopeId} {c : TopicId}

@[simp] theorem modifyContext_subs (f : SessionContext → SessionContext) :
    (r.modifyContext sid f).subs = r.subs := by
  rw [modifyContext]
  split <;> rfl

/-- A change of context leaves the handles. -/
theorem find_modifyContext (r : Registry) (sid : SessionId) (f : SessionContext → SessionContext)
    (other : SessionId) :
    ((r.modifyContext sid f).find other).map StoredSession.handle =
      (r.find other).map StoredSession.handle := by
  rw [modifyContext]
  split
  case h_1 => rfl
  case h_2 rec hrec =>
    by_cases hother : other = sid
    · rw [hother, hrec, find, AList.lookup_insert]; rfl
    · rw [find, AList.lookup_insert_ne hother, ← find]

section

variable (h : r.Consistent)
include h

theorem Consistent.modifyContext (sid : SessionId) (f : SessionContext → SessionContext) :
    (r.modifyContext sid f).Consistent where
  subs := (modifyContext_subs f).symm ▸ h.subs
  stored other hsome := by
    rw [modifyContext_subs] at hsome
    rw [← Option.isSome_map (f := StoredSession.handle), find_modifyContext, Option.isSome_map]
    exact h.stored other hsome
  handle_id other rec hrec := by
    have hmap := find_modifyContext r sid f other
    rw [hrec] at hmap
    obtain ⟨old, hold, heq⟩ := Option.map_eq_some_iff.1 hmap.symm
    rw [← h.handle_id other old hold, heq]

theorem Consistent.subscribe : (r.subscribe sid w c).2.Consistent := by
  rw [Registry.subscribe]
  split
  case h_1 => exact h
  case h_2 rec hrec =>
    refine ⟨h.subs.subscribe sid w c, ?_, h.handle_id⟩
    intro other hsome
    rcases SubscriptionIndex.subscribe_isSome hsome with rfl | hold
    · exact Option.isSome_iff_exists.2 ⟨rec, hrec⟩
    · exact h.stored other hold

theorem Consistent.add (session : SessionHandle) : (r.add w c session).Consistent := by
  have hstore : Consistent
      { r with store := r.store.insert session.id ⟨session, { scope := w, topic := c }⟩ } := by
    refine ⟨h.subs, ?_, ?_⟩
    · intro sid hsome
      by_cases hsid : sid = session.id
      · rw [hsid, find, AList.lookup_insert]; rfl
      · rw [find, AList.lookup_insert_ne hsid]
        exact h.stored sid hsome
    · intro sid rec hrec
      by_cases hsid : sid = session.id
      · rw [hsid, find, AList.lookup_insert] at hrec
        rw [← Option.some.inj hrec, hsid]
      · rw [find, AList.lookup_insert_ne hsid] at hrec
        exact h.handle_id sid rec hrec
  rw [Registry.add]
  split
  exacts [hstore.subscribe, hstore]

theorem Consistent.remove : (r.remove sid).Consistent := by
  rw [Registry.remove]
  split
  case h_1 => exact h
  case h_2 =>
    refine ⟨h.subs.clearAll sid, ?_, ?_⟩
    · intro other hsome
      obtain ⟨hother, hold⟩ := SubscriptionIndex.clearAll_isSome hsome
      rw [find, AList.lookup_erase_ne hother]
      exact h.stored other hold
    · intro other rec hrec
      by_cases hother : other = sid
      · rw [hother, find, AList.lookup_erase] at hrec
        cases hrec
      · rw [find, AList.lookup_erase_ne hother] at hrec
        exact h.handle_id other rec hrec

/-- The subscriptions of a session are cleared. -/
theorem Consistent.clearAll (sid : SessionId) : Consistent { r with subs := r.subs.clearAll sid } :=
  ⟨h.subs.clearAll sid, fun other hsome =>
    h.stored other (SubscriptionIndex.clearAll_isSome hsome).2, h.handle_id⟩

theorem Consistent.unsubscribe : (r.unsubscribe sid w c).2.Consistent := by
  have hsubs : Consistent { r with subs := (r.subs.unsubscribe sid w c).2 } :=
    ⟨h.subs.unsubscribe sid w c, fun other hsome =>
      h.stored other (SubscriptionIndex.unsubscribe_isSome hsome), h.handle_id⟩
  rw [Registry.unsubscribe]
  split
  case h_1 => exact h
  case h_2 rec hrec =>
    generalize r.subs.unsubscribe sid w c = result at hsubs ⊢
    obtain ⟨_ | _, subs⟩ := result
    · exact h
    · dsimp only
      split <;> split
      exacts [(hsubs.modifyContext sid _).modifyContext sid _, hsubs.modifyContext sid _,
        hsubs.modifyContext sid _, hsubs]

theorem Consistent.unsubscribeAll : (r.unsubscribeAll sid).2.Consistent := by
  rw [Registry.unsubscribeAll]
  split
  exacts [h, (h.clearAll sid).modifyContext sid (·.setPrimary 0 0)]

theorem Consistent.setPrimaryTopic : (r.setPrimaryTopic sid w c).2.Consistent := by
  rw [Registry.setPrimaryTopic]
  split
  · exact h
  · split
    · exact h.modifyContext sid (·.setPrimary 0 0)
    · split
      exacts [h.modifyContext sid (·.setPrimary w c), h]

theorem Consistent.moveToTopic : (r.moveToTopic sid w c).2.Consistent := by
  rw [Registry.moveToTopic]
  split
  · exact h
  · have hcleared := (h.clearAll sid).modifyContext sid (·.setPrimary 0 0)
    dsimp only
    split
    exacts [hcleared.subscribe.setPrimaryTopic, hcleared]

theorem Consistent.step : ∀ op, (r.step op).Consistent
  | .add session _ _ => h.add session
  | .remove _ => h.remove
  | .subscribe _ _ _ => h.subscribe
  | .unsubscribe _ _ _ => h.unsubscribe
  | .unsubscribeAll _ => h.unsubscribeAll
  | .setPrimaryTopic _ _ _ => h.setPrimaryTopic
  | .moveToTopic _ _ _ => h.moveToTopic
  | .setState sid st => h.modifyContext sid fun ctx => { ctx with state := st }
  | .setAuth sid aid pid =>
    h.modifyContext sid fun ctx => { ctx with accountId := aid, playerId := pid }

end

theorem consistent_run (ops : List Op) : (run ops).Consistent :=
  Reentrant.foldl_invariant (I := Consistent) (fun _ op h => h.step op) {} consistent_empty ops

/-! ## Lookups after a call -/

theorem find_subscribe (r : Registry) (x : SessionId) (sid : SessionId) :
    (r.subscribe x w c).2.find sid = r.find sid := by
  rw [Registry.subscribe]
  split <;> rfl

theorem find_add (r : Registry) (session : SessionHandle) (sid : SessionId) :
    (r.add w c session).find sid =
      if sid = session.id then some ⟨session, { scope := w, topic := c }⟩ else r.find sid := by
  have hinsert : find { r with
      store := r.store.insert session.id ⟨session, { scope := w, topic := c }⟩ } sid =
        if sid = session.id then some ⟨session, { scope := w, topic := c }⟩ else r.find sid := by
    split
    case isTrue h => rw [h]; exact AList.lookup_insert _
    case isFalse h => exact AList.lookup_insert_ne h
  rw [Registry.add]
  split
  · rw [find_subscribe, hinsert]
  · exact hinsert

theorem find_remove (r : Registry) (x sid : SessionId) :
    (r.remove x).find sid = if sid = x then none else r.find sid := by
  rw [Registry.remove]
  split
  case h_1 hnone =>
    split
    case isTrue h => rw [h, hnone]
    case isFalse => rfl
  case h_2 =>
    split
    case isTrue h => rw [h]; exact AList.lookup_erase _ _
    case isFalse h => exact AList.lookup_erase_ne h

theorem find_modifyContext_ne (r : Registry) {x sid : SessionId}
    (f : SessionContext → SessionContext) (h : sid ≠ x) :
    (r.modifyContext x f).find sid = r.find sid := by
  rw [modifyContext]
  split
  · rfl
  · exact AList.lookup_insert_ne h

/-! ## Handles -/

/-- Every stored handle has the property. -/
def AllHandles (P : SessionHandle → Prop) (r : Registry) : Prop :=
  ∀ sid rec, r.find sid = some rec → P rec.handle

section AllHandles

variable {P : SessionHandle → Prop} (h : r.AllHandles P)
include h

theorem AllHandles.of_handles {r' : Registry}
    (heq : ∀ sid, (r'.find sid).map StoredSession.handle = (r.find sid).map StoredSession.handle) :
    r'.AllHandles P := by
  intro sid rec hrec
  have hsame := heq sid
  rw [hrec, Option.map_some] at hsame
  obtain ⟨old, hold, hhandle⟩ := Option.map_eq_some_iff.1 hsame.symm
  exact hhandle ▸ h sid old hold

theorem AllHandles.modifyContext (sid : SessionId) (f : SessionContext → SessionContext) :
    (r.modifyContext sid f).AllHandles P :=
  h.of_handles (find_modifyContext r sid f)

theorem AllHandles.subscribe : (r.subscribe sid w c).2.AllHandles P := by
  rw [Registry.subscribe]
  split
  · exact h
  · exact h

theorem AllHandles.add {session : SessionHandle} (hs : P session) :
    (r.add w c session).AllHandles P := by
  have hstore : AllHandles P { r with
      store := r.store.insert session.id ⟨session, { scope := w, topic := c }⟩ } := by
    intro sid rec hrec
    by_cases hsid : sid = session.id
    · rw [hsid, find, AList.lookup_insert] at hrec
      exact Option.some.inj hrec ▸ hs
    · rw [find, AList.lookup_insert_ne hsid] at hrec
      exact h sid rec hrec
  rw [Registry.add]
  split
  · exact hstore.subscribe
  · exact hstore

theorem AllHandles.remove : (r.remove sid).AllHandles P := by
  rw [Registry.remove]
  split
  · exact h
  · intro other rec hrec
    by_cases hother : other = sid
    · rw [hother, find, AList.lookup_erase] at hrec
      cases hrec
    · rw [find, AList.lookup_erase_ne hother] at hrec
      exact h other rec hrec

theorem AllHandles.unsubscribe : (r.unsubscribe sid w c).2.AllHandles P := by
  rw [Registry.unsubscribe]
  split
  · exact h
  · split
    · exact h
    case h_2 subs _ =>
      have hsubs : AllHandles P { r with subs } := h
      dsimp only
      split <;> split <;> first | exact hsubs | exact hsubs.modifyContext _ _ |
        exact (hsubs.modifyContext _ _).modifyContext _ _

theorem AllHandles.setPrimaryTopic : (r.setPrimaryTopic sid w c).2.AllHandles P := by
  rw [Registry.setPrimaryTopic]
  split
  · exact h
  · split
    · exact h.modifyContext _ _
    · split
      · exact h.modifyContext _ _
      · exact h

theorem AllHandles.clearAll (sid : SessionId) :
    ({ r with subs := r.subs.clearAll sid }.modifyContext sid (·.setPrimary 0 0)).AllHandles P :=
  AllHandles.modifyContext (r := { r with subs := r.subs.clearAll sid }) h sid _

theorem AllHandles.moveToTopic : (r.moveToTopic sid w c).2.AllHandles P := by
  rw [Registry.moveToTopic]
  split
  · exact h
  · dsimp only
    split
    · exact (h.clearAll sid).subscribe.setPrimaryTopic
    · exact h.clearAll sid

/-- The calls keep the handles they find; only `add` brings in another. -/
theorem AllHandles.step {op : Op} (hadd : ∀ session w c, op = .add session w c → P session) :
    (r.step op).AllHandles P := by
  cases op with
  | add session w c => exact h.add (hadd session w c rfl)
  | remove sid => exact h.remove
  | subscribe sid w c => exact h.subscribe
  | unsubscribe sid w c => exact h.unsubscribe
  | unsubscribeAll sid =>
    rw [Registry.step, Registry.unsubscribeAll]
    split
    · exact h
    · exact h.clearAll sid
  | setPrimaryTopic sid w c => exact h.setPrimaryTopic
  | moveToTopic sid w c => exact h.moveToTopic
  | setState sid st | setAuth sid aid pid => exact h.modifyContext sid _

end AllHandles

/-! ## Snapshots -/

/-- The list holds the handles of just the stored sessions with the property, each once. -/
structure Lists (r : Registry) (l : List SessionHandle) (P : SessionId → Prop) : Prop where
  nodup : l.Nodup
  mem_iff : ∀ h, h ∈ l ↔ (∃ rec, r.find h.id = some rec ∧ rec.handle = h) ∧ P h.id

theorem pick_eq_some (hr : r.Consistent) {x : SessionId} {h : SessionHandle} :
    r.pick x sid = some h ↔
      (∃ rec, r.find sid = some rec ∧ rec.handle = h) ∧ h.id = sid ∧ sid ≠ x ∧ sid ≠ 0 := by
  rw [pick, tryGetHandle]
  by_cases hx : sid = x
  · simp [hx]
  · cases hrec : r.find sid with
    | none => simp [hx]
    | some rec =>
      have hid := hr.handle_id sid rec hrec
      simp only [hx, if_false, SessionHandle.isValid, hid, bne_iff_ne, ne_eq,
        Option.ite_none_right_eq_some, Option.some.injEq, exists_eq_left']
      constructor
      · rintro ⟨h0, rfl⟩
        exact ⟨rfl, hid, not_false, h0⟩
      · rintro ⟨rfl, -, -, h0⟩
        exact ⟨h0, rfl⟩

/-- Going over a set of sessions lists it, but for the excepted one and the null one. -/
theorem lists_filterMap (hr : r.Consistent) (x : SessionId) {members : List SessionId}
    (hmembers : members.Nodup) :
    r.Lists (members.filterMap (r.pick x)) fun sid => sid ∈ members ∧ sid ≠ x ∧ sid ≠ 0 where
  nodup := hmembers.filterMap fun a b h ha hb =>
    ((pick_eq_some hr).1 ha).2.1.symm.trans ((pick_eq_some hr).1 hb).2.1
  mem_iff h := by
    simp only [List.mem_filterMap, pick_eq_some hr]
    constructor
    · rintro ⟨sid, hmem, hrec, rfl, hx, h0⟩
      exact ⟨hrec, hmem, hx, h0⟩
    · rintro ⟨hrec, hmem, hx, h0⟩
      exact ⟨h.id, hmem, hrec, rfl, hx, h0⟩

theorem Lists.congr {l : List SessionHandle} {P Q : SessionId → Prop} (h : r.Lists l P)
    (hiff : ∀ sid, P sid ↔ Q sid) : r.Lists l Q :=
  ⟨h.nodup, fun s => by rw [h.mem_iff, hiff]⟩

/-- The session is subscribed to the topic. -/
def Subscribed (r : Registry) (sid : SessionId) (key : TopicKey) : Prop :=
  key ∈ (r.subs.stateOf sid).subscriptions

theorem scopeCount_pos_iff {topics : List TopicKey} :
    0 < scopeCount w topics ↔ ∃ c, ⟨w, c⟩ ∈ topics := by
  rw [scopeCount, List.countP_pos_iff]
  constructor
  · rintro ⟨⟨w', c⟩, hmem, heq⟩
    exact ⟨c, of_decide_eq_true heq ▸ hmem⟩
  · rintro ⟨c, hmem⟩
    exact ⟨⟨w, c⟩, hmem, decide_eq_true rfl⟩

theorem lists_snapshotTopic (hr : r.Consistent) (x : SessionId) :
    r.Lists (r.snapshotTopic w c x) fun sid => r.Subscribed sid ⟨w, c⟩ ∧ sid ≠ x ∧ sid ≠ 0 :=
  (lists_filterMap hr x (Index.members_nodup _ _)).congr fun sid => by
    rw [hr.subs.topic, Subscribed]

theorem lists_snapshotScope (hr : r.Consistent) (x : SessionId) :
    r.Lists (r.snapshotScope w x)
      fun sid => (∃ c, r.Subscribed sid ⟨w, c⟩) ∧ sid ≠ x ∧ sid ≠ 0 :=
  (lists_filterMap hr x (Index.members_nodup _ _)).congr fun sid => by
    rw [hr.subs.scope, scopeCount_pos_iff]
    rfl

theorem Subscribed.stored (hr : r.Consistent) {key : TopicKey} (h : r.Subscribed sid key) :
    (r.find sid).isSome := by
  apply hr.stored
  cases hst : r.subs.states.lookup sid with
  | none =>
    rw [Subscribed, SubscriptionIndex.stateOf, hst] at h
    cases h
  | some => rfl

/-- After every sequence of calls the tables agree, hold no empty sets and name stored
sessions only, and the snapshots list the subscribed sessions.  The null session is stored
and subscribed like another, but no snapshot lists it. -/
theorem registry_agrees (ops : List Op) :
    let r := run ops
    (∀ sid key, sid ∈ r.subs.topicIndex.members key ↔ r.Subscribed sid key) ∧
    (∀ sid w, ((r.subs.stateOf sid).scopeRefCount.lookup w).getD 0 =
      scopeCount w (r.subs.stateOf sid).subscriptions) ∧
    (∀ sid w, sid ∈ r.subs.scopeIndex.members w ↔
      0 < scopeCount w (r.subs.stateOf sid).subscriptions) ∧
    (∀ key l, r.subs.topicIndex.table.lookup key = some l → l ≠ []) ∧
    (∀ w l, r.subs.scopeIndex.table.lookup w = some l → l ≠ []) ∧
    (∀ sid st, r.subs.states.lookup sid = some st → st.subscriptions ≠ []) ∧
    (∀ sid key, sid ∈ r.subs.topicIndex.members key → (r.find sid).isSome) ∧
    (∀ sid w, sid ∈ r.subs.scopeIndex.members w → (r.find sid).isSome) ∧
    (∀ w c x, r.Lists (r.snapshotTopic w c x)
      fun sid => r.Subscribed sid ⟨w, c⟩ ∧ sid ≠ x ∧ sid ≠ 0) ∧
    (∀ w x, r.Lists (r.snapshotScope w x)
      fun sid => (∃ c, r.Subscribed sid ⟨w, c⟩) ∧ sid ≠ x ∧ sid ≠ 0) := by
  intro r
  have h : r.Consistent := consistent_run ops
  refine ⟨h.subs.topic, h.subs.refCount, h.subs.scope, r.subs.topicIndex.nonempty,
    r.subs.scopeIndex.nonempty, h.subs.nonempty, ?_, ?_,
    fun w c x => lists_snapshotTopic h x, fun w x => lists_snapshotScope h x⟩
  · intro sid key hmem
    exact Subscribed.stored h ((h.subs.topic sid key).1 hmem)
  · intro sid w hmem
    obtain ⟨c, hc⟩ := scopeCount_pos_iff.1 ((h.subs.scope sid w).1 hmem)
    exact Subscribed.stored h hc

/-- The null session in topic (1, 1): stored and subscribed, and not in the snapshot. -/
theorem null_session_not_listed :
    let r := run [.add ⟨0, 0⟩ 1 1]
    (r.find 0).isSome ∧ r.Subscribed 0 ⟨1, 1⟩ ∧ (0 : SessionId) ≠ 7 ∧
      r.snapshotTopic 1 1 7 = [] := by
  refine ⟨by decide +kernel, ?_, by decide, by decide +kernel⟩
  rw [Subscribed]
  decide +kernel

end Registry

end HyperNet.App
