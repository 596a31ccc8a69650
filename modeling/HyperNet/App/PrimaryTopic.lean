import HyperNet.App.Registry

/-!
# The primary topic of a session

The context of a stored session names a primary topic, `(0, 0)` standing for none.  Nothing
but the order of the updates ties it to the subscriptions: `unsubscribe` and its kind reset it,
`setPrimaryTopic` asks whether the session is subscribed, and `add` writes what it is given but
subscribes only if neither component is zero.

So it is `add` with just one zero component that leaves a primary topic without a subscription
(`grounded_iff`).  The same test in `moveToTopic` is why it does less than the three calls that
are to replace it (`moveToTopic_eq_iff`), which `subscribe` to any topic.
-/

namespace HyperNet.App

/-! ## Subscriptions after a call -/

namespace SubscriptionIndex

variable {s : SubscriptionIndex} {sid other : SessionId} {w : ScopeId} {c : TopicId}
  {key : TopicKey}

theorem mem_subscribe : key ∈ ((s.subscribe sid w c).2.stateOf other).subscriptions ↔
    (other = sid ∧ key = ⟨w, c⟩) ∨ key ∈ (s.stateOf other).subscriptions := by
  rw [subscribe]
  dsimp only
  split
  next hmem =>
    refine ⟨.inr, fun h => h.elim ?_ id⟩
    rintro ⟨rfl, rfl⟩
    exact hmem
  next =>
    by_cases hother : other = sid
    · subst hother
      rw [stateOf, AList.lookup_insert, Option.getD_some, List.mem_cons]
      exact or_congr_left (and_iff_right rfl).symm
    · rw [stateOf, AList.lookup_insert_ne hother, ← stateOf]
      exact (or_iff_right fun h => hother h.1).symm

theorem mem_clearAll : key ∈ ((s.clearAll sid).stateOf other).subscriptions ↔
    other ≠ sid ∧ key ∈ (s.stateOf other).subscriptions := by
  have hgone (t : SubscriptionIndex) (h : t.states.lookup sid = none) :
      key ∉ (t.stateOf sid).subscriptions := by
    rw [stateOf, h]
    exact List.not_mem_nil
  rw [clearAll]
  by_cases hother : other = sid
  · subst hother
    refine iff_of_false ?_ fun h => h.1 rfl
    split
    next hnone => exact hgone s hnone
    next => exact hgone _ (AList.lookup_erase _ _)
  · rw [and_iff_right hother]
    split
    next => exact .rfl
    next => rw [stateOf, AList.lookup_erase_ne hother, ← stateOf]

/-- A topic other than the one a session leaves stays. -/
theorem mem_unsubscribe_of_ne (h : key ∈ (s.stateOf other).subscriptions)
    (hne : ¬ (other = sid ∧ key = ⟨w, c⟩)) :
    key ∈ ((s.unsubscribe sid w c).2.stateOf other).subscriptions := by
  rw [unsubscribe]
  split
  next => exact h
  next st hst =>
    split
    next =>
      by_cases hother : other = sid
      · subst hother
        rw [stateOf_eq_of_lookup hst] at h
        have hleft : key ∈ st.subscriptions.erase ⟨w, c⟩ :=
          (List.mem_erase_of_ne fun heq => hne ⟨rfl, heq⟩).mpr h
        dsimp only
        rw [if_neg (List.ne_nil_of_mem hleft), stateOf, AList.lookup_insert]
        exact hleft
      · dsimp only
        split
        next => rwa [stateOf, AList.lookup_erase_ne hother, ← stateOf]
        next => rwa [stateOf, AList.lookup_insert_ne hother, ← stateOf]
    next => exact h

end SubscriptionIndex

namespace Registry

variable {r r' : Registry} {sid other : SessionId} {w : ScopeId} {c : TopicId}

theorem find_modifyContext_self (r : Registry) (sid : SessionId)
    (f : SessionContext → SessionContext) :
    (r.modifyContext sid f).find sid =
      (r.find sid).map fun rec => { rec with ctx := f rec.ctx } := by
  rw [modifyContext]
  split
  next hnone =>
    rw [hnone]
    rfl
  next rec hrec =>
    rw [hrec]
    exact AList.lookup_insert _

theorem subscribed_modifyContext (f : SessionContext → SessionContext) (key : TopicKey) :
    (r.modifyContext sid f).Subscribed other key ↔ r.Subscribed other key := by
  rw [Subscribed, modifyContext_subs, Subscribed]

theorem subscribed_subscribe (hstored : (r.find sid).isSome) (key : TopicKey) :
    (r.subscribe sid w c).2.Subscribed other key ↔
      (other = sid ∧ key = ⟨w, c⟩) ∨ r.Subscribed other key := by
  obtain ⟨rec, hrec⟩ := Option.isSome_iff_exists.mp hstored
  rw [Registry.subscribe, hrec]
  exact SubscriptionIndex.mem_subscribe

/-! ## Grounded contexts -/

/-- A context names no primary topic, or one the session is subscribed to. -/
def GroundedAt (r : Registry) (sid : SessionId) : Prop :=
  ∀ rec, r.find sid = some rec →
    (rec.ctx.scope = 0 ∧ rec.ctx.topic = 0) ∨ r.Subscribed sid ⟨rec.ctx.scope, rec.ctx.topic⟩

def Grounded (r : Registry) : Prop := ∀ sid, r.GroundedAt sid

theorem GroundedAt.mono (h : r.GroundedAt sid) (hfind : r'.find sid = r.find sid)
    (hsubs : ∀ key, r.Subscribed sid key → r'.Subscribed sid key) : r'.GroundedAt sid :=
  fun rec hrec => (h rec (hfind ▸ hrec)).imp_right (hsubs _)

/-- The context of one session changes, and those of the others stay good. -/
theorem Grounded.modifyContext {f : SessionContext → SessionContext}
    (hother : ∀ other, other ≠ sid → r.GroundedAt other)
    (hself : ∀ rec, r.find sid = some rec →
      ((f rec.ctx).scope = 0 ∧ (f rec.ctx).topic = 0) ∨
        r.Subscribed sid ⟨(f rec.ctx).scope, (f rec.ctx).topic⟩) :
    (r.modifyContext sid f).Grounded := by
  intro other
  by_cases heq : other = sid
  · subst heq
    intro rec hrec
    rw [find_modifyContext_self] at hrec
    obtain ⟨old, hold, rfl⟩ := Option.map_eq_some_iff.mp hrec
    exact (hself old hold).imp_right (subscribed_modifyContext f _).mpr
  · exact (hother other heq).mono (find_modifyContext_ne r f heq)
      fun key => (subscribed_modifyContext f key).mpr

theorem Grounded.reset (hother : ∀ other, other ≠ sid → r.GroundedAt other) :
    (r.modifyContext sid (·.setPrimary 0 0)).Grounded :=
  .modifyContext hother fun _ _ => .inl ⟨rfl, rfl⟩

theorem Grounded.subscribe (h : r.Grounded) : (r.subscribe sid w c).2.Grounded := by
  intro other
  refine (h other).mono (find_subscribe r sid other) fun key hkey => ?_
  rw [Registry.subscribe]
  split
  next => exact hkey
  next => exact SubscriptionIndex.mem_subscribe.mpr (.inr hkey)

theorem GroundedAt.clearAll (h : r.GroundedAt other) (hne : other ≠ sid) :
    GroundedAt { r with subs := r.subs.clearAll sid } other :=
  h.mono rfl fun _ hkey => SubscriptionIndex.mem_clearAll.mpr ⟨hne, hkey⟩

section

variable (h : r.Grounded)
include h

theorem Grounded.clear :
    ({ r with subs := r.subs.clearAll sid }.modifyContext sid (·.setPrimary 0 0)).Grounded :=
  .reset fun other hne => (h other).clearAll hne

theorem Grounded.remove : (r.remove sid).Grounded := by
  intro other
  by_cases heq : other = sid
  · intro rec hrec
    rw [find_remove, if_pos heq] at hrec
    cases hrec
  · refine (h other).mono (by rw [find_remove, if_neg heq]) fun key hkey => ?_
    rw [Registry.remove]
    split
    next => exact hkey
    next => exact SubscriptionIndex.mem_clearAll.mpr ⟨heq, hkey⟩

theorem Grounded.unsubscribe : (r.unsubscribe sid w c).2.Grounded := by
  rw [Registry.unsubscribe]
  split
  next => exact h
  next rec hrec =>
    have hleft (other : SessionId) (key : TopicKey) (hkey : r.Subscribed other key)
        (hne : ¬ (other = sid ∧ key = ⟨w, c⟩)) :
        key ∈ ((r.subs.unsubscribe sid w c).2.stateOf other).subscriptions :=
      SubscriptionIndex.mem_unsubscribe_of_ne hkey hne
    generalize r.subs.unsubscribe sid w c = result at hleft ⊢
    obtain ⟨done, subs⟩ := result
    cases done with
    | false => exact h
    | true =>
      have hother (other : SessionId) (hne : other ≠ sid) :
          GroundedAt { r with subs } other :=
        (h other).mono rfl fun key hkey => hleft other key hkey fun heq => hne heq.1
      -- the context is reset, or it names another topic
      have hself : Grounded (if rec.ctx.scope = w ∧ rec.ctx.topic = c then
          { r with subs }.modifyContext sid (·.setPrimary 0 0) else { r with subs }) := by
        split
        next => exact .reset hother
        next hprimary =>
          intro other
          by_cases heq : other = sid
          · subst heq
            intro rec' hrec'
            cases hrec.symm.trans hrec'
            refine (h other rec hrec).imp_right fun hkey => hleft other _ hkey ?_
            rintro ⟨-, ⟨⟩⟩
            exact hprimary ⟨rfl, rfl⟩
          · exact hother other heq
      dsimp only
      generalize (if rec.ctx.scope = w ∧ rec.ctx.topic = c then _ else _ : Registry) = r₁
        at hself ⊢
      split
      next => exact .reset fun other _ => hself other
      next => exact hself

theorem Grounded.setPrimaryTopic : (r.setPrimaryTopic sid w c).2.Grounded := by
  rw [Registry.setPrimaryTopic]
  split
  next => exact h
  next =>
    split
    next => exact .reset fun other _ => h other
    next =>
      split
      next hcontains =>
        have hkey : r.Subscribed sid ⟨w, c⟩ := of_decide_eq_true (p := _ ∈ _) hcontains
        exact .modifyContext (fun other _ => h other) fun _ _ => .inr hkey
      next => exact h

theorem Grounded.moveToTopic : (r.moveToTopic sid w c).2.Grounded := by
  rw [Registry.moveToTopic]
  split
  next => exact h
  next =>
    dsimp only
    split
    next => exact h.clear.subscribe.setPrimaryTopic
    next => exact h.clear

/-- The call stores a context with a primary topic of one zero component that the session is not
subscribed to. -/
def Dangles (r : Registry) : Op → Prop
  | .add session w c =>
    ¬ (w = 0 ∧ c = 0) ∧ ¬ (w ≠ 0 ∧ c ≠ 0) ∧ ¬ r.Subscribed session.id ⟨w, c⟩
  | _ => False

theorem grounded_add_iff (session : SessionHandle) :
    (r.add w c session).Grounded ↔ ¬ r.Dangles (.add session w c) := by
  have hfind := find_add (w := w) (c := c) r session
  -- subscriptions are only added, and the new one only where neither component is zero
  have hsubs (sid : SessionId) (key : TopicKey) : (r.add w c session).Subscribed sid key ↔
      ((w ≠ 0 ∧ c ≠ 0) ∧ sid = session.id ∧ key = ⟨w, c⟩) ∨ r.Subscribed sid key := by
    rw [Registry.add]
    split
    next hboth =>
      rw [subscribed_subscribe (by rw [find, AList.lookup_insert]; rfl), and_iff_right hboth]
      rfl
    next hnot => exact (or_iff_right fun hnew => hnot hnew.1).symm
  have hother (other : SessionId) (hne : other ≠ session.id) :
      (r.add w c session).GroundedAt other :=
    (h other).mono (by rw [hfind, if_neg hne]) fun key hkey => (hsubs other key).mpr (.inr hkey)
  have hself : (r.add w c session).GroundedAt session.id ↔
      (w = 0 ∧ c = 0) ∨ (w ≠ 0 ∧ c ≠ 0) ∨ r.Subscribed session.id ⟨w, c⟩ := by
    have hnew : (r.add w c session).GroundedAt session.id ↔
        (w = 0 ∧ c = 0) ∨ (r.add w c session).Subscribed session.id ⟨w, c⟩ := by
      unfold GroundedAt
      rw [hfind, if_pos rfl]
      constructor
      · intro hall
        exact hall _ rfl
      · rintro hnew _ ⟨⟩
        exact hnew
    rw [hnew, hsubs, and_iff_left (And.intro rfl rfl)]
  have hall : (r.add w c session).Grounded ↔ (r.add w c session).GroundedAt session.id := by
    refine ⟨fun hg => hg _, fun hg other => ?_⟩
    by_cases heq : other = session.id
    · exact heq ▸ hg
    · exact hother other heq
  rw [hall, hself, Dangles]
  tauto

theorem grounded_step_iff (op : Op) : (r.step op).Grounded ↔ ¬ r.Dangles op := by
  have hkeeps (hg : (r.step op).Grounded) (hnot : ¬ r.Dangles op) :
      (r.step op).Grounded ↔ ¬ r.Dangles op := iff_of_true hg hnot
  cases op with
  | add session w c => exact grounded_add_iff h session
  | remove sid => exact hkeeps h.remove id
  | subscribe sid w c => exact hkeeps h.subscribe id
  | unsubscribe sid w c => exact hkeeps h.unsubscribe id
  | unsubscribeAll sid =>
    refine hkeeps ?_ id
    rw [Registry.step, Registry.unsubscribeAll]
    split
    next => exact h
    next => exact h.clear
  | setPrimaryTopic sid w c => exact hkeeps h.setPrimaryTopic id
  | moveToTopic sid w c => exact hkeeps h.moveToTopic id
  | setState sid st | setAuth sid aid pid =>
    exact hkeeps (.modifyContext (fun other _ => h other) fun rec => h sid rec) id

end

/-- **Primary topics are subscriptions** at every point of a sequence of calls just when none of
them adds a session under a topic of one zero component that it is not subscribed to. -/
theorem grounded_iff (ops : List Op) :
    (∀ n, (run (ops.take n)).Grounded) ↔
      Reentrant.AllSteps step (fun r op => ¬ r.Dangles op) {} ops := by
  refine Reentrant.throughout_iff_allSteps (I := Grounded) (Q := fun _ _ => True) (fun _ h => h)
    (fun r op h _ => (grounded_step_iff h op).mpr) (fun r op h _ => (grounded_step_iff h op).mp) {}
    ?_ ops (Reentrant.allSteps_of_forall (fun _ _ => trivial) _ ops)
  intro sid rec hrec
  cases hrec

/-- A session added under the scope 5 and no topic has a primary topic it is not subscribed to. -/
theorem scope_without_topic_dangles :
    let r := run [.add ⟨7, 0⟩ 5 0]
    r.tryGetContext 7 = some { scope := 5, topic := 0 } ∧ ¬ r.Subscribed 7 ⟨5, 0⟩ := by
  refine ⟨by decide +kernel, ?_⟩
  rw [Subscribed]
  decide +kernel

/-! ## Moving to a topic -/

/-- The calls that are to replace `moveToTopic`. -/
def resubscribe (r : Registry) (sid : SessionId) (w : ScopeId) (c : TopicId) : Registry :=
  (((r.unsubscribeAll sid).2.subscribe sid w c).2.setPrimaryTopic sid w c).2

theorem subscribed_setPrimaryTopic (key : TopicKey) :
    (r.setPrimaryTopic sid w c).2.Subscribed other key ↔ r.Subscribed other key := by
  rw [Registry.setPrimaryTopic]
  split
  next => exact .rfl
  next =>
    split
    next => exact subscribed_modifyContext _ key
    next =>
      split
      next => exact subscribed_modifyContext _ key
      next => exact .rfl

/-- `moveToTopic` does what the three calls do just when neither component is zero: else it
does not subscribe. -/
theorem moveToTopic_eq_iff (r : Registry) {sid : SessionId} (hstored : (r.find sid).isSome)
    (w : ScopeId) (c : TopicId) :
    (r.moveToTopic sid w c).2 = r.resubscribe sid w c ↔ w ≠ 0 ∧ c ≠ 0 := by
  obtain ⟨rec, hrec⟩ := Option.isSome_iff_exists.mp hstored
  rw [Registry.moveToTopic, resubscribe, Registry.unsubscribeAll, hrec]
  dsimp only
  generalize hr₁ : ({ r with subs := r.subs.clearAll sid } : Registry).modifyContext sid _ = r₁
  have hstored₁ : (r₁.find sid).isSome := by
    rw [← hr₁, find_modifyContext_self]
    change ((r.find sid).map _).isSome
    rw [hrec]
    rfl
  have hcleared : ¬ r₁.Subscribed sid ⟨w, c⟩ := by
    rw [← hr₁, subscribed_modifyContext]
    exact fun hkey => (SubscriptionIndex.mem_clearAll.mp hkey).1 rfl
  by_cases hboth : w ≠ 0 ∧ c ≠ 0
  · rw [if_pos hboth]
    exact iff_of_true rfl hboth
  · rw [if_neg hboth]
    refine iff_of_false (fun heq => hcleared ?_) hboth
    change r₁ = _ at heq
    rw [heq, subscribed_setPrimaryTopic, subscribed_subscribe hstored₁]
    exact .inl ⟨rfl, rfl⟩

theorem moveToTopic_eq_iff_sample :
    ((run [.add ⟨7, 0⟩ 1 1]).find 7).isSome ∧
    (((run [.add ⟨7, 0⟩ 1 1]).moveToTopic 7 5 6).2 =
      (run [.add ⟨7, 0⟩ 1 1]).resubscribe 7 5 6 ↔ (5 : ScopeId) ≠ 0 ∧ (6 : TopicId) ≠ 0) :=
  have hstored : ((run [.add ⟨7, 0⟩ 1 1]).find 7).isSome := by decide +kernel
  ⟨hstored, moveToTopic_eq_iff _ hstored 5 6⟩

/-- Moved to the scope 5 and no topic, a session is subscribed to nothing; the three calls
subscribe it. -/
theorem move_without_topic :
    let r := run [.add ⟨7, 0⟩ 1 1]
    (r.find 7).isSome ∧ ¬ ((5 : ScopeId) = 0 ∧ (0 : TopicId) = 0) ∧
    (r.moveToTopic 7 5 0).2.snapshotTopic 5 0 0 = [] ∧
    (r.resubscribe 7 5 0).snapshotTopic 5 0 0 = [⟨7, 0⟩] :=
  ⟨by decide +kernel, by decide, by decide +kernel, by decide +kernel⟩

end Registry

end HyperNet.App
