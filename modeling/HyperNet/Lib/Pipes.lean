import HyperNet.Lib.Reentrant
import Mathlib.Logic.Function.Basic
import Mathlib.Data.List.Nodup

/-!
# Queues along fixed routes

Items travel through first-in-first-out queues.  Each item belongs to a flow, and each flow has a
route, a list of places from where its items enter to where they end.  An item at the head of a
queue passes to the next place of its route or is lost.  Many flows share a queue.

What a flow has on its route, read from the far end, is then what has entered it in this order,
but for what was lost: items of a flow do not overtake one another, however the queues are served.
-/

namespace HyperNet.Pipes

variable {P φ κ : Type}

/-- The queues, and what has entered each flow. -/
@[ext] structure Net (P φ κ : Type) where
  queue : P → List (φ × κ) := fun _ => []
  entered : φ → List κ := fun _ => []

inductive Move (P φ κ : Type) where
  | enter (f : φ) (k : κ)
  | pass (p : P)
  | lose (p : P)

/-- The place behind `p` on a route. -/
def nextOn [DecidableEq P] (p : P) : List P → Option P
  | q :: r :: rest => if q = p then some r else nextOn p (r :: rest)
  | _ => none

namespace Net

variable [DecidableEq P] [DecidableEq φ] (route : φ → List P) (s : Net P φ κ)

def push (p : P) (x : φ × κ) : Net P φ κ :=
  { s with queue := Function.update s.queue p (s.queue p ++ [x]) }

def pop (p : P) : Net P φ κ :=
  { s with queue := Function.update s.queue p (s.queue p).tail }

def record (f : φ) (k : κ) : Net P φ κ :=
  { s with entered := Function.update s.entered f (s.entered f ++ [k]) }

/-- An item stays where it is if its route does not go on from there. -/
def step : Move P φ κ → Net P φ κ
  | .enter f k =>
    match (route f).head? with
    | none => s
    | some p => (s.push p (f, k)).record f k
  | .pass p =>
    match s.queue p with
    | [] => s
    | x :: _ =>
      match nextOn p (route x.1) with
      | none => s
      | some q => (s.pop p).push q x
  | .lose p => s.pop p

def run (moves : List (Move P φ κ)) : Net P φ κ := moves.foldl (step route) {}

end Net

/-! ## What a flow has on its way -/

section Content

variable [DecidableEq φ]

/-- The items of one flow in a queue. -/
def only (f : φ) (xs : List (φ × κ)) : List κ :=
  xs.filterMap fun x => if x.1 = f then some x.2 else none

@[simp] theorem only_nil (f : φ) : only f ([] : List (φ × κ)) = [] := rfl

@[simp] theorem only_append (f : φ) (xs ys : List (φ × κ)) :
    only f (xs ++ ys) = only f xs ++ only f ys := List.filterMap_append

@[simp] theorem only_cons (f : φ) (x : φ × κ) (xs : List (φ × κ)) :
    only f (x :: xs) = if x.1 = f then x.2 :: only f xs else only f xs := by
  by_cases h : x.1 = f <;> simp [only, h]

theorem only_tail_sublist (f : φ) (xs : List (φ × κ)) : (only f xs.tail).Sublist (only f xs) :=
  (List.tail_sublist xs).filterMap _

/-- What a flow has on a route, the far end first. -/
def content (queue : P → List (φ × κ)) (f : φ) : List P → List κ
  | [] => []
  | p :: rest => content queue f rest ++ only f (queue p)

variable {queue queue' : P → List (φ × κ)} {f : φ} {k : κ} {p q : P} {route : List P}

theorem content_congr (h : ∀ p ∈ route, only f (queue' p) = only f (queue p)) :
    content queue' f route = content queue f route := by
  induction route with
  | nil => rfl
  | cons p rest ih =>
    rw [content, content, h p List.mem_cons_self, ih fun q hq => h q (List.mem_cons_of_mem p hq)]

theorem content_sublist (h : ∀ p ∈ route, (only f (queue' p)).Sublist (only f (queue p))) :
    (content queue' f route).Sublist (content queue f route) := by
  induction route with
  | nil => exact List.Sublist.refl _
  | cons p rest ih =>
    exact (ih fun q hq => h q (List.mem_cons_of_mem p hq)).append (h p List.mem_cons_self)

theorem only_sublist_content (hp : p ∈ route) :
    (only f (queue p)).Sublist (content queue f route) := by
  induction route with
  | nil => cases hp
  | cons q rest ih =>
    rw [content]
    rcases List.mem_cons.mp hp with rfl | hp
    · exact List.sublist_append_right ..
    · exact (ih hp).trans (List.sublist_append_left ..)

variable [DecidableEq P]

omit [DecidableEq φ] in
theorem mem_of_nextOn (h : nextOn p route = some q) : p ∈ route ∧ q ∈ route := by
  induction route with
  | nil => cases h
  | cons a rest ih =>
    cases rest with
    | nil => cases h
    | cons b rest =>
      rw [nextOn] at h
      split at h
      case isTrue hp =>
        cases h
        exact ⟨hp ▸ List.mem_cons_self, List.mem_cons_of_mem a List.mem_cons_self⟩
      case isFalse =>
        obtain ⟨hp, hq⟩ := ih h
        exact ⟨List.mem_cons_of_mem a hp, List.mem_cons_of_mem a hq⟩

omit [DecidableEq φ] in
theorem nextOn_ne (hnodup : route.Nodup) (h : nextOn p route = some q) : q ≠ p := by
  induction route with
  | nil => cases h
  | cons a rest ih =>
    cases rest with
    | nil => cases h
    | cons b rest =>
      obtain ⟨ha, hnodup'⟩ := List.nodup_cons.mp hnodup
      rw [nextOn] at h
      split at h
      case isTrue hp =>
        cases h
        rintro rfl
        exact ha (hp ▸ List.mem_cons_self)
      case isFalse => exact ih hnodup' h

/-- An item that passes from one place of its route to the next keeps its place in the order. -/
theorem content_pass (hnodup : route.Nodup) (hnext : nextOn p route = some q)
    (hp : only f (queue p) = k :: only f (queue' p))
    (hq : only f (queue' q) = only f (queue q) ++ [k])
    (hrest : ∀ r, r ≠ p → r ≠ q → only f (queue' r) = only f (queue r)) :
    content queue' f route = content queue f route := by
  induction route with
  | nil => cases hnext
  | cons a rest ih =>
    cases rest with
    | nil => cases hnext
    | cons b rest =>
      obtain ⟨ha, hnodup'⟩ := List.nodup_cons.mp hnodup
      obtain ⟨hb, -⟩ := List.nodup_cons.mp hnodup'
      rw [nextOn] at hnext
      split at hnext
      case isTrue hap =>
        -- the two places are the first two, and the others are not touched
        subst hap
        cases hnext
        have hfar : content queue' f rest = content queue f rest := by
          refine content_congr fun r hr => hrest r ?_ ?_
          · rintro rfl
            exact ha (List.mem_cons_of_mem _ hr)
          · rintro rfl
            exact hb hr
        simp only [content, hfar, hp, hq, List.append_assoc, List.singleton_append]
      case isFalse hap =>
        have haq : a ≠ q := by
          rintro rfl
          exact ha (mem_of_nextOn hnext).2
        change content queue' f (b :: rest) ++ _ = content queue f (b :: rest) ++ _
        rw [ih hnodup' hnext, hrest a hap haq]

end Content

/-! ## Whole runs -/

namespace Net

variable [DecidableEq P] {route : φ → List P} {s : Net P φ κ}

/-- An item is on the route of its flow. -/
def OnRoute (route : φ → List P) (s : Net P φ κ) : Prop :=
  ∀ p, ∀ x ∈ s.queue p, p ∈ route x.1

/-- The items of a flow are in the order in which they have entered. -/
def Ordered [DecidableEq φ] (route : φ → List P) (s : Net P φ κ) : Prop :=
  ∀ f, (content s.queue f (route f)).Sublist (s.entered f)

@[simp] theorem queue_push_self (p : P) (x : φ × κ) : (s.push p x).queue p = s.queue p ++ [x] :=
  Function.update_self ..

theorem queue_push_of_ne {p q : P} (h : q ≠ p) (x : φ × κ) : (s.push p x).queue q = s.queue q :=
  Function.update_of_ne h ..

@[simp] theorem queue_pop_self (p : P) : (s.pop p).queue p = (s.queue p).tail :=
  Function.update_self ..

theorem queue_pop_of_ne {p q : P} (h : q ≠ p) : (s.pop p).queue q = s.queue q :=
  Function.update_of_ne h ..

theorem OnRoute.push (h : s.OnRoute route) {p : P} {x : φ × κ} (hx : p ∈ route x.1) :
    (s.push p x).OnRoute route := by
  intro q y hy
  by_cases hq : q = p
  · subst hq
    rw [queue_push_self] at hy
    rcases List.mem_append.mp hy with hy | hy
    · exact h q y hy
    · rw [List.mem_singleton.mp hy]
      exact hx
  · rw [queue_push_of_ne hq] at hy
    exact h q y hy

theorem OnRoute.pop (h : s.OnRoute route) (p : P) : (s.pop p).OnRoute route := by
  intro q y hy
  by_cases hq : q = p
  · subst hq
    rw [queue_pop_self] at hy
    exact h q y (List.mem_of_mem_tail hy)
  · rw [queue_pop_of_ne hq] at hy
    exact h q y hy

variable [DecidableEq φ]

theorem entered_pass (p : P) : (s.step route (.pass p)).entered = s.entered := by
  rw [Net.step]
  split
  · rfl
  · split <;> rfl

theorem OnRoute.step (h : s.OnRoute route) (m : Move P φ κ) : (s.step route m).OnRoute route := by
  cases m with
  | enter f k =>
    rw [Net.step]
    split
    · exact h
    case h_2 p hp => exact (h.push (List.mem_of_mem_head? hp) : (s.push p (f, k)).OnRoute route)
  | pass p =>
    rw [Net.step]
    split
    · exact h
    · split
      · exact h
      case h_2 q hq => exact (h.pop p).push (mem_of_nextOn hq).2
  | lose p => exact h.pop p

theorem content_push_of_ne {f g : φ} (h : g ≠ f) (p : P) (k : κ) (places : List P) :
    content (s.push p (f, k)).queue g places = content s.queue g places := by
  refine content_congr fun q _ => ?_
  by_cases hq : q = p
  · subst hq
    rw [queue_push_self, only_append, only_cons, if_neg (Ne.symm h), only_nil, List.append_nil]
  · rw [queue_push_of_ne hq]

/-- What enters a route comes last. -/
theorem content_push_head {places : List P} (hnodup : places.Nodup) {p : P}
    (hp : places.head? = some p) (f : φ) (k : κ) :
    content (s.push p (f, k)).queue f places = content s.queue f places ++ [k] := by
  cases places with
  | nil => cases hp
  | cons a rest =>
    cases hp
    have hfar : content (s.push p (f, k)).queue f rest = content s.queue f rest := by
      refine content_congr fun q hq => ?_
      rw [queue_push_of_ne]
      rintro rfl
      exact (List.nodup_cons.mp hnodup).1 hq
    rw [content, content, hfar, queue_push_self]
    simp

section Runs

variable (hnodup : ∀ f, (route f).Nodup)
include hnodup

theorem content_enter (s : Net P φ κ) {f : φ} (k : κ) {p : P} (hp : (route f).head? = some p)
    (g : φ) : content (s.push p (f, k)).queue g (route g) =
      content s.queue g (route g) ++ if g = f then [k] else [] := by
  by_cases hg : g = f
  · subst hg
    rw [content_push_head (hnodup g) hp, if_pos rfl]
  · rw [content_push_of_ne hg, if_neg hg, List.append_nil]

/-- Passing an item on changes nothing in what the flows have on their routes. -/
theorem content_step_pass (s : Net P φ κ) (p : P) (g : φ) :
    content (s.step route (.pass p)).queue g (route g) = content s.queue g (route g) := by
  rw [Net.step]
  split
  · rfl
  case h_2 x rest hqueue =>
    split
    · rfl
    case h_2 q hq =>
      have hpq : q ≠ p := by
        rintro rfl
        exact nextOn_ne (hnodup x.1) hq rfl
      have hothers : ∀ r, r ≠ p → r ≠ q → ((s.pop p).push q x).queue r = s.queue r := by
        intro r hrp hrq
        rw [queue_push_of_ne hrq, queue_pop_of_ne hrp]
      have hat : ((s.pop p).push q x).queue p = rest := by
        rw [queue_push_of_ne (Ne.symm hpq), queue_pop_self, hqueue, List.tail_cons]
      have hto : ((s.pop p).push q x).queue q = s.queue q ++ [x] := by
        rw [queue_push_self, queue_pop_of_ne hpq]
      by_cases hg : x.1 = g
      · subst hg
        refine content_pass (hnodup x.1) hq (k := x.2) ?_ ?_ fun r hrp hrq => ?_
        · rw [hqueue, hat, only_cons, if_pos rfl]
        · rw [hto, only_append, only_cons, if_pos rfl, only_nil]
        · rw [hothers r hrp hrq]
      · refine content_congr fun r _ => ?_
        by_cases hrp : r = p
        · subst hrp
          rw [hat, hqueue, only_cons, if_neg hg]
        · by_cases hrq : r = q
          · subst hrq
            rw [hto, only_append, only_cons, if_neg hg, only_nil, List.append_nil]
          · rw [hothers r hrp hrq]

theorem Ordered.step (h : s.Ordered route) (m : Move P φ κ) : (s.step route m).Ordered route := by
  intro g
  cases m with
  | enter f k =>
    rw [Net.step]
    split
    · exact h g
    case h_2 p hp =>
      change (content (s.push p (f, k)).queue g (route g)).Sublist
        (Function.update s.entered f (s.entered f ++ [k]) g)
      rw [content_enter hnodup s k hp]
      by_cases hg : g = f
      · subst hg
        rw [if_pos rfl, Function.update_self]
        exact (h g).append (List.Sublist.refl _)
      · rw [if_neg hg, Function.update_of_ne hg, List.append_nil]
        exact h g
  | pass p =>
    rw [content_step_pass hnodup, entered_pass]
    exact h g
  | lose p =>
    refine (content_sublist fun q _ => ?_).trans (h g)
    change (only g ((s.pop p).queue q)).Sublist _
    by_cases hq : q = p
    · subst hq
      rw [queue_pop_self]
      exact only_tail_sublist g _
    · rw [queue_pop_of_ne hq]

/-- In every run the items of each flow are on its route and in order. -/
theorem run_ordered (moves : List (Move P φ κ)) :
    (run route moves).OnRoute route ∧ (run route moves).Ordered route := by
  have hinit : Net.Ordered route ({} : Net P φ κ) := by
    intro f
    have hempty : ∀ places : List P, content (fun _ => []) f places = ([] : List κ) := by
      intro places
      induction places with
      | nil => rfl
      | cons p rest ih => rw [content, ih, only_nil, List.append_nil]
    change (content (fun _ => []) f (route f)).Sublist _
    rw [hempty]
  have hroute : Net.OnRoute route ({} : Net P φ κ) := by
    intro p x hx
    cases hx
  exact Reentrant.foldl_invariant (I := fun s : Net P φ κ => s.OnRoute route ∧ s.Ordered route)
    (fun _ m h => ⟨h.1.step m, h.2.step hnodup m⟩) _ ⟨hroute, hinit⟩ moves

end Runs

/-! ## Nets that a run reaches -/

def Reached (route : φ → List P) (s : Net P φ κ) : Prop := ∃ moves, s = run route moves

namespace Reached

theorem empty (route : φ → List P) : Reached route ({} : Net P φ κ) := ⟨[], rfl⟩

section

variable (h : s.Reached route)
include h

theorem step (m : Move P φ κ) : (s.step route m).Reached route := by
  obtain ⟨moves, rfl⟩ := h
  refine ⟨moves ++ [m], ?_⟩
  rw [run, run, List.foldl_append]
  rfl

theorem enter {f : φ} {p : P} (hp : (route f).head? = some p) (k : κ) :
    ((s.push p (f, k)).record f k).Reached route := by
  have hstep := h.step (.enter f k)
  rw [Net.step, hp] at hstep
  exact hstep

theorem pass {p q : P} {x : φ × κ} {rest : List (φ × κ)} (hx : s.queue p = x :: rest)
    (hq : nextOn p (route x.1) = some q) : ((s.pop p).push q x).Reached route := by
  have hstep := h.step (.pass p)
  rw [Net.step, hx] at hstep
  simp only [hq] at hstep
  exact hstep

theorem lose (p : P) : (s.pop p).Reached route := h.step (.lose p)

/-- An item is met on its route only. -/
theorem mem_route (hnodup : ∀ f, (route f).Nodup) {p : P} {x : φ × κ} {rest : List (φ × κ)}
    (hx : s.queue p = x :: rest) : p ∈ route x.1 := by
  obtain ⟨moves, rfl⟩ := h
  exact (run_ordered hnodup moves).1 p x (hx ▸ List.mem_cons_self)

/-- What a flow has at a place is in the order in which it has entered. -/
theorem only_sublist (hnodup : ∀ f, (route f).Nodup) {f : φ} {p : P} (hp : p ∈ route f) :
    (only f (s.queue p)).Sublist (s.entered f) := by
  obtain ⟨moves, rfl⟩ := h
  exact (only_sublist_content hp).trans ((run_ordered hnodup moves).2 f)

end

end Reached

end Net

end HyperNet.Pipes
