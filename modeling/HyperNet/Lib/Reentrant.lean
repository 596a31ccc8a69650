import Mathlib.Logic.Relation
import Mathlib.Tactic.Common

/-!
# Components that call their user back

A component offers calls `A`; while it works on one it may call its user back with
some `C`, and the user may answer by further calls, at any depth.  `Script` is what
the user does during one such stay: the calls it makes, what it does in each
callback and how it goes on, all of which may depend on the state.  A script is a
finite tree, so a stay ends; nothing else is assumed of the user.

The component is a function `step a app w`: the state after the call `a` in state
`w`, where `app` stands for the user during its callbacks.  `Script.run_rel` is the
rule for such components.  A relation between states that may be composed holds
across every stay if it holds across each call whenever it holds across the
callbacks made from it.

Some components do nothing after a callback.  For them nesting makes no difference
(`Script.run_eq_inSequence`), and results about sequences of calls cover every user.
-/

namespace HyperNet.Reentrant

/-- What a user does while it is in control. -/
inductive Script (A C W : Type) where
  | done
  | call (a : A) (onCallback : C → W → Script A C W) (next : W → Script A C W)

variable {A C W : Type} {S : Type}

/-- The state after a stay of the user. -/
def Script.run (step : A → (C → W → W) → W → W) : Script A C W → W → W
  | .done, w => w
  | .call a onCallback next, w =>
    let w' := step a (fun c w => (onCallback c w).run step w) w
    (next w').run step w'

/-- What a callback of a user does to the state. -/
def respond (step : A → (C → W → W) → W → W) (user : C → W → Script A C W) (c : C) (w : W) : W :=
  (user c w).run step w

/-- A user makes no calls but such, in callbacks neither. -/
def Script.Only (P : A → Prop) : Script A C W → Prop
  | .done => True
  | .call a onCallback next =>
    P a ∧ (∀ c w, (onCallback c w).Only P) ∧ ∀ w, (next w).Only P

theorem Script.only_of_forall {P : A → Prop} (h : ∀ a, P a) (s : Script A C W) : s.Only P := by
  induction s with
  | done => trivial
  | call a onCallback next ihCallback ihNext => exact ⟨h a, ihCallback, ihNext⟩

section Rules

variable {step : A → (C → W → W) → W → W} {R : W → W → Prop}

/-- A composable relation that each call of some kind keeps, given its callbacks do, holds
across a whole stay of a user that makes no others. -/
theorem Script.run_rel_of_only {P : A → Prop} (refl : ∀ w, R w w)
    (trans : ∀ {u v w}, R u v → R v w → R u w)
    (call : ∀ a app w, P a → (∀ c w, R w (app c w)) → R w (step a app w)) {s : Script A C W}
    (hs : s.Only P) (w : W) : R w (s.run step w) := by
  induction s generalizing w with
  | done => exact refl w
  | call a onCallback next ihCallback ihNext =>
    obtain ⟨ha, hcallback, hnext⟩ := hs
    have hcall := call a (fun c w => (onCallback c w).run step w) w ha
      fun c w => ihCallback c w (hcallback c w) w
    exact trans hcall (ihNext _ (hnext _) _)

/-- A composable relation that each call keeps, given its callbacks do, holds
across a whole stay. -/
theorem Script.run_rel (refl : ∀ w, R w w) (trans : ∀ {u v w}, R u v → R v w → R u w)
    (call : ∀ a app w, (∀ c w, R w (app c w)) → R w (step a app w)) (s : Script A C W) (w : W) :
    R w (s.run step w) :=
  run_rel_of_only refl trans (fun a app w _ => call a app w) (s.only_of_forall fun _ => trivial) w

theorem respond_rel (refl : ∀ w, R w w) (trans : ∀ {u v w}, R u v → R v w → R u w)
    (call : ∀ a app w, (∀ c w, R w (app c w)) → R w (step a app w)) (user : C → W → Script A C W)
    (c : C) (w : W) : R w (respond step user c w) :=
  Script.run_rel refl trans call (user c w) w

end Rules

/-! ## Callbacks made last -/

/-- The user that does nothing when it is called back. -/
def passive (_ : C) (w : W) : W := w

/-- There is no callback, or one that is the last thing done. -/
def CallsBackLast (f : (C → W → W) → W) : Prop :=
  (∀ app, f app = f passive) ∨ ∃ c, ∀ app, f app = app c (f passive)

/-- The state after a sequence of calls none of which is made in a callback. -/
def inSequence (step : A → (C → W → W) → W → W) (calls : List A) (w : W) : W :=
  calls.foldl (fun w a => step a passive w) w

/-- Where callbacks come last, the calls a user makes in one could as well be made
after the call has returned: a stay is a sequence of calls. -/
theorem Script.run_eq_inSequence {step : A → (C → W → W) → W → W}
    (hstep : ∀ a w, CallsBackLast fun app => step a app w) (s : Script A C W) (w : W) :
    ∃ calls, s.run step w = inSequence step calls w := by
  refine Script.run_rel (R := fun u v => ∃ calls, v = inSequence step calls u)
    (fun _ => ⟨[], rfl⟩) ?_ ?_ s w
  · rintro u v w ⟨first, rfl⟩ ⟨second, rfl⟩
    exact ⟨first ++ second, List.foldl_append.symm⟩
  · intro a app w happ
    rcases hstep a w with h | ⟨c, h⟩
    · exact ⟨[a], h app⟩
    · obtain ⟨calls, hcalls⟩ := happ c (step a passive w)
      exact ⟨a :: calls, (h app).trans hcalls⟩

/-- The user that makes these calls and does nothing in callbacks. -/
def Script.sequence (calls : List A) : Script A C W :=
  calls.foldr (fun a rest => .call a (fun _ _ => .done) fun _ => rest) .done

/-! ## Runs -/

/-- An invariant of each step is one of every run. -/
theorem foldl_invariant {next : W → S → W} {I : W → Prop} (step : ∀ w s, I w → I (next w s)) (w : W)
    (h : I w) (run : List S) : I (run.foldl next w) := by
  induction run generalizing w with
  | nil => exact h
  | cons s run ih => exact ih (next w s) (step w s h)

/-- Every step of a run meets a condition in the state it is taken in. -/
def AllSteps {S : Type} (next : W → S → W) (P : W → S → Prop) : W → List S → Prop
  | _, [] => True
  | w, s :: run => P w s ∧ AllSteps next P (next w s) run

/-- An invariant of each step that meets the condition is one of every such run. -/
theorem foldl_invariant_of_allSteps {next : W → S → W} {P : W → S → Prop} {I : W → Prop}
    (step : ∀ w s, I w → P w s → I (next w s)) (w : W) (h : I w) (run : List S)
    (hrun : AllSteps next P w run) : I (run.foldl next w) := by
  induction run generalizing w with
  | nil => exact h
  | cons s run ih => exact ih (next w s) (step w s h hrun.1) hrun.2

/-- If a step that does not meet the condition breaks something for good, then a run is
broken or has met the condition throughout. -/
theorem allSteps_or_broken {next : W → S → W} {P : W → S → Prop} {I B : W → Prop}
    (step : ∀ w s, I w → P w s → I (next w s)) (breaks : ∀ w s, I w → ¬ P w s → B (next w s))
    (stays : ∀ w s, B w → B (next w s)) (w : W) (h : I w) (run : List S) :
    (AllSteps next P w run ∧ I (run.foldl next w)) ∨
      (¬ AllSteps next P w run ∧ B (run.foldl next w)) := by
  induction run generalizing w with
  | nil => exact .inl ⟨trivial, h⟩
  | cons s run ih =>
    by_cases hs : P w s
    · refine (ih (next w s) (step w s h hs)).imp (fun hrun => ⟨⟨hs, hrun.1⟩, hrun.2⟩) ?_
      exact fun hrun => ⟨fun hall => hrun.1 hall.2, hrun.2⟩
    · refine .inr ⟨fun hall => hs hall.1, ?_⟩
      exact foldl_invariant stays (next w s) (breaks w s h hs) run

theorem allSteps_of_forall {next : W → S → W} {P : W → S → Prop} (h : ∀ w s, P w s) (w : W)
    (run : List S) : AllSteps next P w run := by
  induction run generalizing w with
  | nil => trivial
  | cons s run ih => exact ⟨h w s, ih _⟩

/-- If a step keeps an invariant when it meets a condition, and when it does not is seen to break
what follows from the invariant, then this holds throughout a run just when every step of the
run meets the condition. -/
theorem throughout_iff_allSteps {next : W → S → W} {P Q : W → S → Prop} {I K : W → Prop}
    (holds : ∀ w, I w → K w) (keeps : ∀ w s, I w → Q w s → P w s → I (next w s))
    (shows : ∀ w s, I w → Q w s → K (next w s) → P w s) (w : W) (h : I w) (run : List S)
    (hrun : AllSteps next Q w run) :
    (∀ n, K ((run.take n).foldl next w)) ↔ AllSteps next P w run := by
  induction run generalizing w with
  | nil =>
    refine iff_of_true (fun n => ?_) trivial
    rw [List.take_nil]
    exact holds w h
  | cons s run ih =>
    constructor
    · intro hall
      have hs := shows w s h hrun.1 (hall 1)
      exact ⟨hs, (ih _ (keeps w s h hrun.1 hs) hrun.2).mp fun n => hall (n + 1)⟩
    · rintro ⟨hs, hrest⟩ n
      cases n with
      | zero => exact holds w h
      | succ n => exact (ih _ (keeps w s h hrun.1 hs) hrun.2).mpr hrest n

/-- A composable relation that each step keeps holds across every run. -/
theorem foldl_rel {next : W → S → W} {R : W → W → Prop} (refl : ∀ w, R w w)
    (trans : ∀ {u v w}, R u v → R v w → R u w) (step : ∀ w s, R w (next w s)) (w : W)
    (run : List S) : R w (run.foldl next w) :=
  foldl_invariant (fun v s h => trans h (step v s)) w (refl w) run

/-- A goal can be reached if there is always a step towards it. -/
theorem foldl_reaches {S β : Type} {next : W → S → W} {I goal : W → Prop} {r : β → β → Prop}
    (wf : WellFounded r) (distance : W → β)
    (step : ∀ w, I w → ¬ goal w → ∃ s, I (next w s) ∧ r (distance (next w s)) (distance w))
    (w : W) (h : I w) : ∃ run : List S, goal (run.foldl next w) := by
  induction hd : distance w using wf.induction generalizing w with
  | _ d ih =>
    by_cases hgoal : goal w
    · exact ⟨[], hgoal⟩
    · obtain ⟨s, hs, hcloser⟩ := step w h hgoal
      obtain ⟨run, hrun⟩ := ih _ (hd ▸ hcloser) (next w s) hs rfl
      exact ⟨s :: run, hrun⟩

/-- An invariant of each move is one of every path of moves. -/
theorem path_invariant {R : W → W → Prop} {I : W → Prop} (step : ∀ {u v}, R u v → I u → I v)
    {u v : W} (h : Relation.ReflTransGen R u v) (hu : I u) : I v := by
  induction h with
  | refl => exact hu
  | tail _ hstep ih => exact step hstep ih

end HyperNet.Reentrant
