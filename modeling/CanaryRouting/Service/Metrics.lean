import CanaryRouting.Data.KeyMap
import CanaryRouting.Decimal.Positional

/-!
# Metrics

The service counts its operations by outcome and records how long they take. The metrics are
written in the text format of Prometheus: a header for each family, then its series in the order
of their labels. A family without series is not written.
-/

namespace CanaryRouting

/-- How long the operations of one name took. -/
structure Histogram where
  /-- For each bound, how many took at least as long as the bound before and at most this one. -/
  buckets : List Nat
  /-- How long all of them took together, in seconds. -/
  sum : Float := 0
  /-- How many there were. -/
  count : Nat := 0

namespace Histogram

/-- The bounds, in seconds. -/
def bounds : List Float := [0.01, 0.05, 0.1, 0.25, 0.5, 1, 2.5, 5, 10]

/-- The histogram of no operation. -/
def empty : Histogram := { buckets := bounds.map fun _ => 0 }

/-- Counts a duration in the first bucket whose bound it does not exceed. -/
def observeIn (seconds : Float) : List Float → List Nat → List Nat
  | bound :: bounds, n :: ns =>
    if seconds ≤ bound then (n + 1) :: ns else n :: observeIn seconds bounds ns
  | _, ns => ns

/-- Records a duration. -/
def observe (h : Histogram) (seconds : Float) : Histogram where
  buckets := observeIn seconds bounds h.buckets
  sum := h.sum + seconds
  count := h.count + 1

/-- How many operations took at most as long as each bound. -/
def cumulative (h : Histogram) : List Nat :=
  (h.buckets.foldl (fun (sums, total) n => (sums ++ [total + n], total + n))
    (([] : List Nat), 0)).1

end Histogram

/-- The outcomes and durations of the operations of one name. -/
structure OperationMetrics where
  /-- How many succeeded. -/
  succeeded : Nat := 0
  /-- How many failed. -/
  failed : Nat := 0
  /-- How long they took. -/
  durations : Histogram := Histogram.empty

/-- The metrics of the service, by the name of the operation. -/
structure Metrics where
  /-- The operations that have been recorded. -/
  operations : KeyMap String OperationMetrics := KeyMap.empty

namespace Metrics

/-- Records an operation. -/
def record (m : Metrics) (operation : String) (success : Bool) (seconds : Float) : Metrics :=
  let o := (m.operations.get? operation).getD {}
  ⟨m.operations.insert operation
    { succeeded := o.succeeded + if success then 1 else 0
      failed := o.failed + if success then 0 else 1
      durations := o.durations.observe seconds }⟩

/-! ### The text format -/

/-- How one character of a label value is written. -/
def escapeLabelChar (c : Char) : List Char :=
  if c = '\\' then ['\\', '\\']
  else if c = '\n' then ['\\', 'n']
  else if c = '"' then ['\\', '"']
  else [c]

/-- A label with its value. -/
def label (name value : String) : String :=
  name ++ "=\"" ++ String.ofList (value.toList.flatMap escapeLabelChar) ++ "\""

/-- The line of a series. -/
def series (name : String) (labels : List String) (value : String) : String :=
  name ++ "\x7b" ++ ",".intercalate labels ++ "\x7d " ++ value

/-- The lines of a family. -/
def family (name help type : String) (lines : List String) : List String :=
  if lines.isEmpty then []
  else ["# HELP " ++ name ++ " " ++ help, "# TYPE " ++ name ++ " " ++ type] ++ lines

/-- The name of the counter of operations. -/
def counterName : String := "trafficrouter_operations_total"

/-- The name of the histogram of durations. -/
def histogramName : String := "trafficrouter_operation_duration_seconds"

/-- The lines of the counter for one operation; an outcome that has not occurred has none. -/
def counterLines (operation : String) (o : OperationMetrics) : List String :=
  let line (result : String) (n : Nat) : List String :=
    if n = 0 then []
    else [series counterName [label "operation" operation, label "result" result] (toString n)]
  line "error" o.failed ++ line "success" o.succeeded

/-- The lines of the histogram for one operation. -/
def histogramLines (operation : String) (h : Histogram) : List String :=
  let operation := label "operation" operation
  let bucket (bound : String) (n : Nat) : String :=
    series (histogramName ++ "_bucket") [operation, label "le" bound] (toString n)
  (Histogram.bounds.zip h.cumulative).map
      (fun (bound, n) => bucket (Decimal.doubleText bound.toBits) n)
    ++ [bucket "+Inf" h.count,
      series (histogramName ++ "_sum") [operation] (Decimal.doubleText h.sum.toBits),
      series (histogramName ++ "_count") [operation] (toString h.count)]

/-- The lines of all metrics. -/
def lines (m : Metrics) : List String :=
  family histogramName "Time spent serving traffic router operations" "histogram"
      (m.operations.entries.flatMap fun e => histogramLines e.1 e.2.durations)
    ++ family counterName "Traffic router operations by outcome" "counter"
      (m.operations.entries.flatMap fun e => counterLines e.1 e.2)

/-- The text of all metrics. -/
def text (m : Metrics) : String := String.join (m.lines.map (· ++ "\n"))

end Metrics

end CanaryRouting
