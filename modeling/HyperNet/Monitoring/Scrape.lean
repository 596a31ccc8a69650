import Mathlib.Algebra.BigOperators.Group.Finset.Basic
import Mathlib.Algebra.Order.BigOperators.Group.Finset
import Mathlib.Algebra.BigOperators.Fin
import HyperNet.Monitoring.HttpStatus
import HyperNet.Net.Lifecycle

/-!
# What a scrape says

The workers of an engine share one `EngineMetrics`.  Each worker adds to it as it opens and closes
sessions, receives messages and meets errors, and the status server reads it from a thread of its
own.  Here the workers take the steps of their event loops in any order, and what a step adds is
what it changes in the counters of the worker's own model.  Then the number of connections that a
client of the status server reads is the number of sessions in the maps of all workers.
-/

namespace HyperNet.Monitoring

open Net Reentrant

variable {n : Nat}

/-- The workers and what they share. -/
structure Engine (n : Nat) where
  workers : Fin n → World
  metrics : EngineMetrics := {}

/-- What a worker has done to the metrics on its way from one state to another. -/
def EngineMetrics.addSteps (m : EngineMetrics) (w w' : World) : EngineMetrics :=
  { m with
    currentConnections :=
      m.currentConnections + Int64.ofInt (w'.currentConnections - w.currentConnections)
    rxMessagesTotal := m.rxMessagesTotal + UInt64.ofInt (w'.rxMessages - w.rxMessages)
    errorsTotal := m.errorsTotal + UInt64.ofInt (w'.errors - w.errors) }

namespace Engine

/-- A worker takes a step of its event loop. -/
def step (e : Engine n) (move : Fin n × Step) : Engine n where
  workers := Function.update e.workers move.1 (Net.step (e.workers move.1) move.2)
  metrics := e.metrics.addSteps (e.workers move.1) (Net.step (e.workers move.1) move.2)

/-- The engine after `reset` and some steps of its workers. -/
def run (cfg : Fin n → Config) (arrivals : Fin n → Nat) (moves : List (Fin n × Step)) : Engine n :=
  moves.foldl step { workers := fun i => { cfg := cfg i, arrivals := arrivals i } }

/-- The steps of one worker. -/
def stepsOf (i : Fin n) (moves : List (Fin n × Step)) : List Step :=
  moves.filterMap fun move => if move.1 = i then some move.2 else none

/-- A worker does not notice the others. -/
theorem run_worker (cfg : Fin n → Config) (arrivals : Fin n → Nat) (moves : List (Fin n × Step))
    (i : Fin n) :
    (run cfg arrivals moves).workers i = Net.run (cfg i) (arrivals i) (stepsOf i moves) := by
  induction moves using List.reverseRecOn with
  | nil => rfl
  | append_singleton moves move ih =>
    have hrun : run cfg arrivals (moves ++ [move]) = (run cfg arrivals moves).step move := by
      rw [run, List.foldl_append]
      rfl
    rw [hrun, stepsOf, List.filterMap_append]
    change Function.update (run cfg arrivals moves).workers move.1
      (Net.step ((run cfg arrivals moves).workers move.1) move.2) i =
        Net.run _ _ (stepsOf i moves ++ _)
    by_cases hi : move.1 = i
    · subst hi
      rw [Function.update_self, ih, Net.run, Net.run, List.foldl_append]
      simp
    · rw [Function.update_of_ne (Ne.symm hi), ih]
      simp [hi]

/-- The metrics are the sums over the workers. -/
structure Summed (e : Engine n) : Prop where
  connections : e.metrics.currentConnections = Int64.ofInt (∑ i, (e.workers i).currentConnections)
  rxMessages : e.metrics.rxMessagesTotal = UInt64.ofInt (∑ i, ((e.workers i).rxMessages : Int))
  errors : e.metrics.errorsTotal = UInt64.ofInt (∑ i, ((e.workers i).errors : Int))

/-- How a sum over the workers changes with one of them. -/
theorem sum_update (f : World → Int) (workers : Fin n → World) (i : Fin n) (w : World) :
    ∑ j, f (Function.update workers i w j) = ∑ j, f (workers j) + (f w - f (workers i)) := by
  have hsame : (fun j => f (Function.update workers i w j)) =
      Function.update (fun j => f (workers j)) i (f w) := by
    funext j
    by_cases hj : j = i
    · subst hj
      simp
    · simp [hj]
  have hrest := Finset.sum_erase_add Finset.univ (fun j => f (workers j)) (Finset.mem_univ i)
  rw [hsame, Finset.sum_update_of_mem (Finset.mem_univ i), ← hrest, Finset.sdiff_singleton_eq_erase]
  omega

theorem Summed.step {e : Engine n} (h : e.Summed) (move : Fin n × Step) : (e.step move).Summed where
  connections := by
    change e.metrics.currentConnections + Int64.ofInt _ = Int64.ofInt _
    rw [h.connections, ← Int64.ofInt_add]
    exact congrArg Int64.ofInt (sum_update World.currentConnections ..).symm
  rxMessages := by
    change e.metrics.rxMessagesTotal + UInt64.ofInt _ = UInt64.ofInt _
    rw [h.rxMessages, ← UInt64.ofInt_add]
    exact congrArg UInt64.ofInt (sum_update (fun w => (w.rxMessages : Int)) ..).symm
  errors := by
    change e.metrics.errorsTotal + UInt64.ofInt _ = UInt64.ofInt _
    rw [h.errors, ← UInt64.ofInt_add]
    exact congrArg UInt64.ofInt (sum_update (fun w => (w.errors : Int)) ..).symm

theorem summed_run (cfg : Fin n → Config) (arrivals : Fin n → Nat)
    (moves : List (Fin n × Step)) : (run cfg arrivals moves).Summed := by
  have hzero : ∑ _i : Fin n, (0 : Int) = 0 := Finset.sum_const_zero
  refine foldl_invariant (fun _ move h => h.step move) _ ⟨?_, ?_, ?_⟩ moves
  · exact congrArg Int64.ofInt hzero.symm
  · exact congrArg UInt64.ofInt hzero.symm
  · exact congrArg UInt64.ofInt hzero.symm

end Engine

/-- A worker has no more sessions than ids were issued. -/
theorem sessions_length_le {w : World} (h : Lifecycle w) : w.sessions.length ≤ 2 ^ 32 + 1 := by
  have hids : (w.sessions.map Prod.fst).Nodup := by
    refine h.nodup.map_on ?_
    intro e he e' he' heq
    obtain ⟨ho, hid⟩ := h.entries e he
    obtain ⟨ho', hid'⟩ := h.entries e' he'
    have hobj := h.distinct e.2 ho e'.2 ho' (by rw [hid, hid', heq])
    exact Prod.ext heq hobj
  have hissued : w.sessions.map Prod.fst ⊆
      (List.range (w.accepts + 1)).map (sessionId w.cfg.ownerWorkerId) := by
    intro id hid
    obtain ⟨e, he, rfl⟩ := List.mem_map.mp hid
    obtain ⟨ho, hid⟩ := h.entries e he
    obtain ⟨c, -, hc, hc'⟩ := h.issued e.2 ho
    exact List.mem_map.mpr ⟨c, List.mem_range.mpr (Nat.lt_succ_of_le hc), hc'.symm.trans hid⟩
  have hle := (hids.subperm hissued).length_le
  have hbound := h.bound
  unfold idSpace at hbound
  simp only [List.length_map, List.length_range] at hle
  omega

theorem toNat_clampNonNegative {k : Nat} (h : k < 2 ^ 63) :
    (clampNonNegative (Int64.ofInt k)).toNat = k := by
  have hint : (Int64.ofInt k).toInt = k := by
    rw [Int64.toInt_ofInt]
    exact Int.bmod_eq_of_le (by simp [Int64.size]) (by simp [Int64.size]; omega)
  have hnonneg : 0 ≤ Int64.ofInt k := by
    rw [Int64.le_iff_toInt_le, hint]
    exact Int.natCast_nonneg k
  have hnot : ¬ Int64.ofInt k < 0 := by
    rw [Int64.not_lt]
    exact hnonneg
  rw [clampNonNegative, if_neg hnot, Int64.toNat_toUInt64_of_le hnonneg, Int64.toNatClampNeg, hint]
  rfl

/-- The connections that are read in a scrape are the sessions in the maps of all workers, between
whatever steps of theirs it is made. -/
theorem scrape_counts_sessions (cfg : Fin n → Config) {arrivals : Fin n → Nat} (hn : n ≤ 2 ^ 30)
    (harrivals : ∀ i, arrivals i < 2 ^ 32) (moves : List (Fin n × Step))
    {req target version : List Char} (hreq : RequestLine req get target version)
    (htarget : IsMetrics target) :
    (samples (reply (Engine.run cfg arrivals moves).metrics req).body).lookup
          kMCurrentConnections =
        some (∑ i, ((Engine.run cfg arrivals moves).workers i).sessions.length) ∧
      ∀ results, SendResult.failed ∉ results →
        (sendTextResponse (reply (Engine.run cfg arrivals moves).metrics req) results).2 ≠ none →
          readResponse
              (sendTextResponse (reply (Engine.run cfg arrivals moves).metrics req) results).1 =
            some (200, (reply (Engine.run cfg arrivals moves).metrics req).body, []) := by
  have hsum := Engine.summed_run cfg arrivals moves
  have hlife : ∀ i, Lifecycle ((Engine.run cfg arrivals moves).workers i) := by
    intro i
    rw [Engine.run_worker]
    exact lifecycle_run (cfg i) (lt_idSpace (harrivals i)) _
  generalize Engine.run cfg arrivals moves = e at hsum hlife
  obtain ⟨hcode, hsamples⟩ := hreq.reply_metrics htarget e.metrics
  refine ⟨?_, fun results hnone hreturned => ?_⟩
  · have htotal : ∑ i, (e.workers i).currentConnections =
        ((∑ i, (e.workers i).sessions.length : Nat) : Int) := by
      rw [Nat.cast_sum]
      exact Finset.sum_congr rfl fun i _ => (hlife i).gauge
    have hbound : ∑ i, (e.workers i).sessions.length < 2 ^ 63 := by
      have hle := Finset.sum_le_card_nsmul Finset.univ
        (fun i => (e.workers i).sessions.length) (2 ^ 32 + 1)
        fun i _ => sessions_length_le (hlife i)
      rw [Finset.card_univ, Fintype.card_fin, smul_eq_mul] at hle
      calc ∑ i, (e.workers i).sessions.length ≤ n * (2 ^ 32 + 1) := hle
        _ ≤ 2 ^ 30 * (2 ^ 32 + 1) := Nat.mul_le_mul_right _ hn
        _ < 2 ^ 63 := by decide
    rw [hsamples]
    change some (e.metrics.snapshot.currentConnections.toNat) = _
    change some (clampNonNegative e.metrics.currentConnections).toNat = _
    rw [hsum.connections, htotal, toNat_clampNonNegative hbound]
  · rw [((reply_valid e.metrics req).delivered hnone).2 hreturned, hcode]

/-- A scrape of two workers, after one of them has accepted a connection. -/
theorem scrape_counts_sessions_one :
    (samples (reply (Engine.run (fun _ => sampleConfig) (fun _ : Fin 2 => 1)
        [(1, { input := .accept 5 true })]).metrics
          "GET /metrics HTTP/1.1\r\n\r\n".toList).body).lookup kMCurrentConnections =
      some (∑ i, ((Engine.run (fun _ => sampleConfig) (fun _ : Fin 2 => 1)
        [(1, { input := .accept 5 true })]).workers i).sessions.length) :=
  have hreq : RequestLine "GET /metrics HTTP/1.1\r\n\r\n".toList get "/metrics".toList
      "HTTP/1.1".toList := ⟨.crlf crlf rfl (by decide), by decide, by decide⟩
  (scrape_counts_sessions (fun _ => sampleConfig) (by decide) (fun _ => by decide)
    [(1, { input := .accept 5 true })] hreq (.inl rfl)).1

end HyperNet.Monitoring
