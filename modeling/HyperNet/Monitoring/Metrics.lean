import HyperNet.Lib.Text

/-!
# The metrics and their text

`EngineMetrics` (`engine/include/hypernet/monitoring/Metrics.hpp`, `Metrics.cpp`) and the text it is
served as.  The text is in the exposition format of Prometheus: for each metric two comments and a
line with the name and the value.  `samples` is the reader's side of that format: comments are
skipped, and a line is a name, a blank and a number.
-/

namespace HyperNet.Monitoring

open Parsing Text

/-- The counters.  All are updated by `fetch_add` and `fetch_sub`, which wrap around. -/
structure EngineMetrics where
  currentConnections : Int64 := 0
  rxMessagesTotal : UInt64 := 0
  txMessagesTotal : UInt64 := 0
  errorsTotal : UInt64 := 0
  connectorPending : Int64 := 0
  connectorTotal : UInt64 := 0
  connectorSuccessTotal : UInt64 := 0
  connectorTimeoutTotal : UInt64 := 0
  connectorFailureTotal : UInt64 := 0
deriving DecidableEq, Repr

structure EngineMetricsSnapshot where
  currentConnections : UInt64
  rxMessagesTotal : UInt64
  txMessagesTotal : UInt64
  errorsTotal : UInt64
  connectorPending : UInt64
  connectorTotal : UInt64
  connectorSuccessTotal : UInt64
  connectorTimeoutTotal : UInt64
  connectorFailureTotal : UInt64
deriving DecidableEq, Repr

/-- `max(0, v)`. -/
def clampNonNegative (v : Int64) : UInt64 := if v < 0 then 0 else v.toUInt64

def EngineMetrics.snapshot (m : EngineMetrics) : EngineMetricsSnapshot where
  currentConnections := clampNonNegative m.currentConnections
  rxMessagesTotal := m.rxMessagesTotal
  txMessagesTotal := m.txMessagesTotal
  errorsTotal := m.errorsTotal
  connectorPending := clampNonNegative m.connectorPending
  connectorTotal := m.connectorTotal
  connectorSuccessTotal := m.connectorSuccessTotal
  connectorTimeoutTotal := m.connectorTimeoutTotal
  connectorFailureTotal := m.connectorFailureTotal

/-! ## The text -/

def kMCurrentConnections : List Char := "hypernet_engine_current_connections".toList
def kMRxMessagesTotal : List Char := "hypernet_engine_rx_messages_total".toList
def kMTxMessagesTotal : List Char := "hypernet_engine_tx_messages_total".toList
def kMErrorsTotal : List Char := "hypernet_engine_errors_total".toList
def kMConnectorPending : List Char := "hypernet_connector_pending".toList
def kMConnectorTotal : List Char := "hypernet_connector_total".toList
def kMConnectorSuccessTotal : List Char := "hypernet_connector_success_total".toList
def kMConnectorTimeoutTotal : List Char := "hypernet_connector_timeout_total".toList
def kMConnectorFailureTotal : List Char := "hypernet_connector_failure_total".toList

/-- A line of text. -/
def line (text : List Char) : List Char := text ++ ['\n']

/-- The line with the value. -/
def sampleLine (name : List Char) (value : UInt64) : List Char :=
  name ++ ' ' :: Nat.toDigits 10 value.toNat

/-- What `appendGauge` and `appendCounter` have in common. -/
def appendMetric (type name help : List Char) (value : UInt64) : List Char :=
  line ("# HELP ".toList ++ name ++ ' ' :: help) ++
    line ("# TYPE ".toList ++ name ++ ' ' :: type) ++ line (sampleLine name value)

def appendGauge : List Char → List Char → UInt64 → List Char := appendMetric "gauge".toList

def appendCounter : List Char → List Char → UInt64 → List Char := appendMetric "counter".toList

inductive MetricType where
  | gauge
  | counter
deriving DecidableEq, Repr

/-- A metric: its type and texts, and the value of a snapshot that is shown. -/
structure Metric where
  type : MetricType
  name : List Char
  help : List Char
  value : EngineMetricsSnapshot → UInt64

def Metric.append (m : Metric) (s : EngineMetricsSnapshot) : List Char :=
  match m.type with
  | .gauge => appendGauge m.name m.help (m.value s)
  | .counter => appendCounter m.name m.help (m.value s)

/-- The metrics in the order of the text. -/
def metrics : List Metric :=
  [⟨.gauge, kMCurrentConnections, "Current number of active TCP sessions.".toList,
      (·.currentConnections)⟩,
    ⟨.counter, kMRxMessagesTotal,
      "Total number of framed messages received (dispatcher level).".toList,
      (·.rxMessagesTotal)⟩,
    ⟨.counter, kMTxMessagesTotal,
      "Total number of framed messages sent (dispatcher level).".toList, (·.txMessagesTotal)⟩,
    ⟨.counter, kMErrorsTotal, "Total number of engine/network errors.".toList, (·.errorsTotal)⟩,
    ⟨.gauge, kMConnectorPending, "Number of in-flight connector attempts.".toList,
      (·.connectorPending)⟩,
    ⟨.counter, kMConnectorTotal, "Total connector attempts.".toList, (·.connectorTotal)⟩,
    ⟨.counter, kMConnectorSuccessTotal, "Total successful connector attempts.".toList,
      (·.connectorSuccessTotal)⟩,
    ⟨.counter, kMConnectorTimeoutTotal, "Total timed-out connector attempts.".toList,
      (·.connectorTimeoutTotal)⟩,
    ⟨.counter, kMConnectorFailureTotal, "Total failed connector attempts.".toList,
      (·.connectorFailureTotal)⟩]

def EngineMetricsSnapshot.toText (s : EngineMetricsSnapshot) : List Char :=
  metrics.flatMap (·.append s)

def EngineMetrics.toPrometheusText (m : EngineMetrics) : List Char := m.snapshot.toText

/-! ## Reading it -/

/-- A line of the exposition format: a name and a value, or nothing. -/
def sample (text : List Char) : Option (List Char × Nat) :=
  match text with
  | '#' :: _ => none
  | _ =>
    match upTo ' ' text with
    | none => none
    | some (name, rest) =>
      match decimal rest with
      | some (value, []) => some (name, value)
      | _ => none

def samples (text : List Char) : List (List Char × Nat) := (pieces '\n' text).filterMap sample

/-- What a metric's name may be: one word, and not the start of a comment. -/
structure IsName (name : List Char) : Prop where
  noBlank : ' ' ∉ name
  noBreak : '\n' ∉ name
  noComment : name.head? ≠ some '#'

instance (name : List Char) : Decidable (IsName name) :=
  decidable_of_iff (' ' ∉ name ∧ '\n' ∉ name ∧ name.head? ≠ some '#')
    ⟨fun h => ⟨h.1, h.2.1, h.2.2⟩, fun h => ⟨h.1, h.2, h.3⟩⟩

theorem samples_line {text : List Char} (h : '\n' ∉ text) (rest : List Char) :
    samples (line text ++ rest) = (sample text).toList ++ samples rest := by
  rw [line, List.append_assoc, List.singleton_append, samples, pieces_append h,
    List.filterMap_cons]
  cases sample text <;> rfl

theorem sample_sampleLine {name : List Char} (h : IsName name) (value : UInt64) :
    sample (sampleLine name value) = some (name, value.toNat) := by
  have hread : upTo ' ' (sampleLine name value) = some (name, Nat.toDigits 10 value.toNat) :=
    upTo_append h.noBlank _
  have hvalue := decimal_toDigits value.toNat noDigit_nil
  rw [List.append_nil] at hvalue
  unfold sample
  split
  next hcomment =>
    -- the name does not start a comment, and it is not empty before the blank
    cases name with
    | nil => cases hcomment
    | cons c name =>
      cases hcomment
      exact absurd rfl h.noComment
  next => simp only [hread, hvalue]

/-- The texts of a metric keep to its lines. -/
structure Metric.Valid (m : Metric) : Prop where
  name : IsName m.name
  help : '\n' ∉ m.help

instance (m : Metric) : Decidable m.Valid :=
  decidable_of_iff (IsName m.name ∧ '\n' ∉ m.help)
    ⟨fun h => ⟨h.1, h.2⟩, fun h => ⟨h.name, h.help⟩⟩

theorem valid_of_mem_metrics : ∀ m ∈ metrics, m.Valid := by decide

theorem samples_appendMetric {type name help : List Char} (hname : IsName name)
    (hhelp : '\n' ∉ help) (htype : '\n' ∉ type) (value : UInt64) (rest : List Char) :
    samples (appendMetric type name help value ++ rest) =
      (name, value.toNat) :: samples rest := by
  have hbreak : '\n' ∉ Nat.toDigits 10 value.toNat := notMem_toDigits (by decide) _
  have hcomment : ∀ {word text : List Char}, '\n' ∉ word → '\n' ∉ text →
      '\n' ∉ word ++ name ++ ' ' :: text := by
    intro word text hword htext
    simp [hword, htext, hname.noBreak]
  rw [appendMetric, List.append_assoc, List.append_assoc,
    samples_line (hcomment (by decide) hhelp), samples_line (hcomment (by decide) htype),
    samples_line (by simp [sampleLine, hname.noBreak, hbreak]), sample_sampleLine hname]
  rfl

/-- What is written for a metric is read as one sample. -/
theorem Metric.Valid.samples_append {m : Metric} (h : m.Valid) (s : EngineMetricsSnapshot)
    (rest : List Char) :
    samples (m.append s ++ rest) = (m.name, (m.value s).toNat) :: samples rest := by
  unfold Metric.append
  split
  · exact samples_appendMetric h.name h.help (by decide) _ rest
  · exact samples_appendMetric h.name h.help (by decide) _ rest

theorem samples_flatMap {ms : List Metric} (h : ∀ m ∈ ms, m.Valid) (s : EngineMetricsSnapshot) :
    samples (ms.flatMap (·.append s)) = ms.map fun m => (m.name, (m.value s).toNat) := by
  induction ms with
  | nil => rfl
  | cons m ms ih =>
    rw [List.flatMap_cons, (h m List.mem_cons_self).samples_append,
      ih fun m' hm' => h m' (List.mem_cons_of_mem _ hm'), List.map_cons]

/-- The values of a snapshot under their names. -/
def EngineMetricsSnapshot.values (s : EngineMetricsSnapshot) : List (List Char × Nat) :=
  metrics.map fun m => (m.name, (m.value s).toNat)

/-- What is served is read as the values of all metrics and nothing else. -/
theorem samples_toText (s : EngineMetricsSnapshot) : samples s.toText = s.values :=
  samples_flatMap valid_of_mem_metrics s

end HyperNet.Monitoring
