import BotHive.Library.InsertionMap
import Mathlib.Algebra.Order.Field.Basic
import Mathlib.Data.Rat.Cast.Order

/-!
# The metrics registry

The API keeps its metrics in one registry: counters that are added to, gauges that are set, and
histograms that count the values they are shown in buckets. A series is known by its metric's name
and its labels. Values are exact.

## Main definitions

- `SeriesKey`, `HistogramBucket`, `MetricsRegistry`
- `MetricsRegistry.incrementCounter`, `setGauge`, `observe`: the operations
- `MetricsCall`, `MetricsRegistry.call`, `recorded`: the registry after some operations
- `counted`, `gauged`, `observed`: what the operations say about each series

## Main results

- `recorded_counters`, `recorded_gauges`, `recorded_histograms`: a series holds what its own
  operations make of it
-/

namespace BotHive.Metrics

open InsertionMap

abbrev Labels : Type :=
  List (String × String)

/-- What identifies a series: the name of its metric and its labels. -/
structure SeriesKey where
  name : String
  labels : Labels
  deriving DecidableEq

structure HistogramBucket where
  le : ℚ
  count : ℕ
  sum : ℚ
  deriving DecidableEq

def HISTOGRAM_BUCKETS : List ℚ :=
  [5 / 1000, 1 / 100, 25 / 1000, 5 / 100, 1 / 10, 1 / 4, 1 / 2, 1, 5 / 2, 5, 10]

/-- Show a value to a bucket. -/
def HistogramBucket.observe (bucket : HistogramBucket) (value : ℚ) : HistogramBucket :=
  { bucket with
    count := if value ≤ bucket.le then bucket.count + 1 else bucket.count
    sum := bucket.sum + value }

structure MetricsRegistry where
  counters : InsertionMap SeriesKey ℚ
  gauges : InsertionMap SeriesKey ℚ
  histograms : InsertionMap SeriesKey (List HistogramBucket)

namespace MetricsRegistry

def empty : MetricsRegistry :=
  ⟨InsertionMap.empty, InsertionMap.empty, InsertionMap.empty⟩

/-- Add to a counter. -/
def increased (existing : Option ℚ) (amount : ℚ) : ℚ :=
  match existing with
  | some value => value + amount
  | none => amount

def incrementCounter (r : MetricsRegistry) (name : String) (labels : Labels) (amount : ℚ) :
    MetricsRegistry :=
  let key : SeriesKey := ⟨name, labels⟩
  { r with counters := r.counters.set key (increased (r.counters.get key) amount) }

def setGauge (r : MetricsRegistry) (name : String) (value : ℚ) (labels : Labels) :
    MetricsRegistry :=
  { r with gauges := r.gauges.set ⟨name, labels⟩ value }

/-- Show a value to the buckets of a histogram, which are made when it gets its first one. -/
def bucketsAfter (existing : Option (List HistogramBucket)) (value : ℚ) : List HistogramBucket :=
  (existing.getD (HISTOGRAM_BUCKETS.map fun le => ⟨le, 0, 0⟩)).map fun bucket =>
    bucket.observe value

def observe (r : MetricsRegistry) (name : String) (value : ℚ) (labels : Labels) :
    MetricsRegistry :=
  let key : SeriesKey := ⟨name, labels⟩
  { r with histograms := r.histograms.set key (bucketsAfter (r.histograms.get key) value) }

end MetricsRegistry

/-- A use of the registry. -/
inductive MetricsCall where
  | incrementCounter (name : String) (labels : Labels) (amount : ℚ)
  | setGauge (name : String) (value : ℚ) (labels : Labels)
  | observe (name : String) (value : ℚ) (labels : Labels)

namespace MetricsRegistry

def call (r : MetricsRegistry) : MetricsCall → MetricsRegistry
  | .incrementCounter name labels amount => r.incrementCounter name labels amount
  | .setGauge name value labels => r.setGauge name value labels
  | .observe name value labels => r.observe name value labels

/-- The registry after some operations. -/
def recorded (calls : List MetricsCall) : MetricsRegistry :=
  calls.foldl call empty

end MetricsRegistry

namespace MetricsCall

/-- The series a counter operation adds to, and how much. -/
def counted : MetricsCall → Option (SeriesKey × ℚ)
  | .incrementCounter name labels amount => some (⟨name, labels⟩, amount)
  | _ => none

def gauged : MetricsCall → Option (SeriesKey × ℚ)
  | .setGauge name value labels => some (⟨name, labels⟩, value)
  | _ => none

def observed : MetricsCall → Option (SeriesKey × ℚ)
  | .observe name value labels => some (⟨name, labels⟩, value)
  | _ => none

end MetricsCall

/-- The values that some operations give to a series. -/
def valuesOf (shows : MetricsCall → Option (SeriesKey × ℚ)) (calls : List MetricsCall)
    (key : SeriesKey) : List ℚ :=
  ((calls.filterMap shows).filter fun e => e.1 = key).map Prod.snd

/-- The series that some operations name, in the order in which they are first named. -/
def seriesOf (shows : MetricsCall → Option (SeriesKey × ℚ)) (calls : List MetricsCall) :
    List SeriesKey :=
  distinct ((calls.filterMap shows).map Prod.fst)

/-- The buckets of some values: each counts the values up to its bound, and sums all. -/
def bucketsOf (values : List ℚ) : List HistogramBucket :=
  HISTOGRAM_BUCKETS.map fun le => ⟨le, values.countP (· ≤ le), values.sum⟩

section Series

variable (calls : List MetricsCall) (r : MetricsRegistry)

/-- Of the operations, one map of the registry sees those that name its series. -/
theorem foldl_call {α : Type*} (shows : MetricsCall → Option (SeriesKey × ℚ))
    (part : MetricsRegistry → InsertionMap SeriesKey α) (f : Option α → ℚ → α)
    (hpart : ∀ r c, part (r.call c) =
      match shows c with
      | some e => (part r).set e.1 (f ((part r).get e.1) e.2)
      | none => part r) :
    part (calls.foldl MetricsRegistry.call r) =
      accumulate f (calls.filterMap shows) (part r) := by
  induction calls generalizing r with
  | nil => rfl
  | cons c rest ih =>
    rw [List.foldl_cons, ih, hpart]
    cases hc : shows c with
    | none => rw [List.filterMap_cons_none hc]
    | some e =>
      rw [List.filterMap_cons_some hc]
      rfl

/-- A series that is named has a value. -/
theorem valuesOf_ne_nil {shows : MetricsCall → Option (SeriesKey × ℚ)} {calls : List MetricsCall}
    {key : SeriesKey} (h : key ∈ (calls.filterMap shows).map Prod.fst) :
    valuesOf shows calls key ≠ [] := by
  obtain ⟨e, he, hkey⟩ := List.mem_map.mp h
  have hmem : e.2 ∈ valuesOf shows calls key :=
    List.mem_map_of_mem (List.mem_filter.mpr ⟨he, by simpa using hkey⟩)
  exact List.ne_nil_of_mem hmem

theorem foldl_increased (values : List ℚ) (total : ℚ) :
    values.foldl (fun v b => some (MetricsRegistry.increased v b)) (some total) =
      some (total + values.sum) := by
  induction values generalizing total with
  | nil => simp
  | cons v rest ih =>
    show rest.foldl _ (some (total + v)) = _
    rw [ih, List.sum_cons, add_assoc]

/-- **Counters**: each holds the sum of what was added to it. -/
theorem recorded_counters :
    (MetricsRegistry.recorded calls).counters.entries =
      (seriesOf MetricsCall.counted calls).map fun key =>
        (key, (valuesOf MetricsCall.counted calls key).sum) := by
  rw [MetricsRegistry.recorded, foldl_call calls .empty MetricsCall.counted
    MetricsRegistry.counters MetricsRegistry.increased (fun r c => by cases c <;> rfl)]
  refine entries_accumulate _ _ _ fun key hkey => ?_
  show (valuesOf MetricsCall.counted calls key).foldl _ none = _
  cases hvalues : valuesOf MetricsCall.counted calls key with
  | nil => exact absurd hvalues (valuesOf_ne_nil hkey)
  | cons v rest =>
    rw [List.foldl_cons, List.sum_cons]
    exact foldl_increased rest v

theorem foldl_last (values : List ℚ) (existing : Option ℚ) :
    values.foldl (fun _ b => some b) existing = values.getLast?.or existing := by
  induction values generalizing existing with
  | nil => rfl
  | cons v rest ih =>
    rw [List.foldl_cons, ih, List.getLast?_cons]
    cases rest.getLast? <;> rfl

/-- **Gauges**: each holds the last value it was set to. -/
theorem recorded_gauges :
    (MetricsRegistry.recorded calls).gauges.entries =
      (seriesOf MetricsCall.gauged calls).map fun key =>
        (key, (valuesOf MetricsCall.gauged calls key).getLast?.getD 0) := by
  rw [MetricsRegistry.recorded, foldl_call calls .empty MetricsCall.gauged MetricsRegistry.gauges
    (fun _ value => value) (fun r c => by cases c <;> rfl)]
  refine entries_accumulate _ _ _ fun key hkey => ?_
  obtain ⟨last, hlast⟩ := Option.isSome_iff_exists.mp
    (List.getLast?_isSome.mpr (valuesOf_ne_nil hkey))
  show (valuesOf MetricsCall.gauged calls key).foldl (fun _ b => some b) none = _
  rw [foldl_last, Option.or_none, hlast, Option.getD_some]

theorem bucketsAfter_bucketsOf (values : List ℚ) (value : ℚ) :
    MetricsRegistry.bucketsAfter (some (bucketsOf values)) value =
      bucketsOf (values ++ [value]) := by
  rw [MetricsRegistry.bucketsAfter, Option.getD_some, bucketsOf, bucketsOf, List.map_map]
  refine List.map_congr_left fun le _ => ?_
  rw [Function.comp_apply, HistogramBucket.observe, List.countP_append,
    List.sum_append, List.countP_singleton, List.sum_singleton]
  by_cases hle : value ≤ le <;> simp [hle]

theorem foldl_bucketsAfter (values seen : List ℚ) :
    values.foldl (fun v b => some (MetricsRegistry.bucketsAfter v b)) (some (bucketsOf seen)) =
      some (bucketsOf (seen ++ values)) := by
  induction values generalizing seen with
  | nil => rw [List.foldl_nil, List.append_nil]
  | cons v rest ih => rw [List.foldl_cons, bucketsAfter_bucketsOf, ih, List.append_assoc,
      List.singleton_append]

/-- **Histograms**: each bucket counts the values up to its bound and sums all values. -/
theorem recorded_histograms :
    (MetricsRegistry.recorded calls).histograms.entries =
      (seriesOf MetricsCall.observed calls).map fun key =>
        (key, bucketsOf (valuesOf MetricsCall.observed calls key)) := by
  rw [MetricsRegistry.recorded, foldl_call calls .empty MetricsCall.observed
    MetricsRegistry.histograms MetricsRegistry.bucketsAfter (fun r c => by cases c <;> rfl)]
  refine entries_accumulate _ _ _ fun key hkey => ?_
  show (valuesOf MetricsCall.observed calls key).foldl _ none = _
  cases hvalues : valuesOf MetricsCall.observed calls key with
  | nil => exact absurd hvalues (valuesOf_ne_nil hkey)
  | cons v rest =>
    have hfirst : MetricsRegistry.bucketsAfter none v = bucketsOf [v] :=
      bucketsAfter_bucketsOf [] v
    rw [List.foldl_cons, hfirst]
    exact foldl_bucketsAfter rest [v]

end Series

end BotHive.Metrics
