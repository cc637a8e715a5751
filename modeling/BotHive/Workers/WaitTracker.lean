import Mathlib.Data.List.Sort
import BotHive.Library.JsNumber
import BotHive.Library.OrderStatistic
import BotHive.Library.RingBuffer

/-!
# Wait times

A tracker keeps the wait times of the last jobs in a ring buffer and reports their median, 95th and
99th percentile, over the samples within a window of time.

## Main definitions

- `WaitTimeTracker.record`, `WaitTimeTracker.percentiles`
- `waitsAt`: the wait times that a report is about
- `Reports`: what a report says about them

## Main results

- `percentiles_run`: the report after any calls of `record`
-/

namespace BotHive.Workers

open JsNumber (finite posInfinity nan)

section Definitions

structure WaitTimeTrackerOptions where
  capacity : Option JsNumber := none
  windowMs : Option JsNumber := none

def DEFAULT_CAPACITY : JsNumber := finite 1000

def DEFAULT_WINDOW_MS : JsNumber := finite 600000

structure WaitSample where
  ts : JsNumber
  ms : ℚ

/-- A slot is named by its index; `none` is the name of the index that is not a number. -/
structure WaitTimeTracker where
  samples : Option ℕ → Option WaitSample
  capacity : JsNumber
  windowMs : JsNumber
  next : Option ℕ
  size : ℕ

structure Percentiles where
  p50 : JsNumber
  p95 : JsNumber
  p99 : JsNumber
  deriving DecidableEq

/-- The arguments of a call of `record`, and the clock. -/
structure WaitRecord where
  waitMs : JsNumber
  ts : Option JsNumber
  now : ℤ

/-- The sample of a call, if its wait time is finite and not negative. -/
def WaitRecord.sample? (r : WaitRecord) : Option WaitSample :=
  match r.waitMs with
  | .finite ms => if ms < 0 then none else some { ts := r.ts.getD (finite r.now), ms }
  | _ => none

/-- The index behind one, modulo the capacity. -/
def nextIndex (capacity : JsNumber) (index : Option ℕ) : Option ℕ :=
  match capacity, index with
  | .finite c, some i => some ((i + 1) % ⌊c⌋₊)
  | .posInfinity, some i => some (i + 1)
  | _, _ => none

namespace WaitTimeTracker

def new (options : WaitTimeTrackerOptions) : WaitTimeTracker where
  samples _ := none
  capacity := (finite 1).max (options.capacity.getD DEFAULT_CAPACITY).floor
  windowMs := (finite 1).max (options.windowMs.getD DEFAULT_WINDOW_MS).floor
  next := some 0
  size := 0

def record (t : WaitTimeTracker) (r : WaitRecord) : WaitTimeTracker :=
  match r.sample? with
  | some sample =>
    { t with
      samples := Function.update t.samples t.next (some sample)
      next := nextIndex t.capacity t.next
      size := if (finite t.size).lt t.capacity then t.size + 1 else t.size }
  | none => t

def isFresh (t : WaitTimeTracker) (now : ℤ) (sample : WaitSample) : Bool :=
  ((finite now).sub t.windowMs).le sample.ts

def fresh (t : WaitTimeTracker) (now : ℤ) : List ℚ :=
  (((List.range t.size).filterMap fun i => t.samples (some i)).filter (t.isFresh now)).map (·.ms)

/-- A quantile of sorted wait times in seconds. -/
def quantile (sorted : List ℚ) (q : ℚ) : JsNumber :=
  let index : ℤ := min (sorted.length - 1) (max 0 (⌈q * sorted.length⌉ - 1))
  match if 0 ≤ index then sorted[index.toNat]? else none with
  | some ms => finite (ms / 1000)
  | none => nan

def percentiles (t : WaitTimeTracker) (now : ℤ) : Percentiles :=
  let fresh := t.fresh now
  if fresh.length = 0 then ⟨finite 0, finite 0, finite 0⟩
  else
    let sorted := fresh.mergeSort
    ⟨quantile sorted (1 / 2), quantile sorted (95 / 100), quantile sorted (99 / 100)⟩

/-- A tracker after some calls of `record`. -/
def run (options : WaitTimeTrackerOptions) (records : List WaitRecord) : WaitTimeTracker :=
  records.foldl record (new options)

end WaitTimeTracker

/-- The last items of a list, as many as there is room for. -/
def lastFor {α : Type*} (capacity : JsNumber) (l : List α) : List α :=
  match capacity with
  | .finite c => l.rtake ⌊c⌋₊
  | .posInfinity => l
  | _ => []

/-- The wait times within the window among the last valid samples. -/
def waitsAt (options : WaitTimeTrackerOptions) (records : List WaitRecord) (now : ℤ) : List ℚ :=
  let t := WaitTimeTracker.new options
  ((lastFor t.capacity (records.filterMap (·.sample?))).filter (t.isFresh now)).map (·.ms)

/-- A wait time of the nearest rank, in seconds. -/
def IsQuantile (q : ℚ) (waits : List ℚ) (p : JsNumber) : Prop :=
  ∃ ms, IsKthSmallest (nearestRank q waits.length).toNat waits ms ∧ p = finite (ms / 1000)

/-- A report is about the quantiles of some wait times, or has zeros if there are none. -/
structure Reports (waits : List ℚ) (p : Percentiles) : Prop where
  zeros : waits = [] → p = ⟨finite 0, finite 0, finite 0⟩
  median : waits ≠ [] → IsQuantile (1 / 2) waits p.p50
  p95 : waits ≠ [] → IsQuantile (95 / 100) waits p.p95
  p99 : waits ≠ [] → IsQuantile (99 / 100) waits p.p99
  le95 : p.p50.le p.p95 = true
  le99 : p.p95.le p.p99 = true

end Definitions

variable {options : WaitTimeTrackerOptions} {t : WaitTimeTracker} {l : List WaitSample}
  {sample : WaitSample} {r : WaitRecord} {now : ℤ}

section Samples

/-- The slots by their indices. -/
def WaitTimeTracker.slots (t : WaitTimeTracker) (i : ℕ) : Option WaitSample :=
  t.samples (some i)

theorem slots_update (samples : Option ℕ → Option WaitSample) (i : ℕ) (sample : WaitSample) :
    (fun j => Function.update samples (some i) (some sample) (some j)) =
      Function.update (fun j => samples (some j)) i (some sample) :=
  Function.update_comp_eq_of_injective samples (Option.some_injective ℕ) i (some sample)

theorem record_of_sample (hr : r.sample? = some sample) :
    t.record r = { t with
      samples := Function.update t.samples t.next (some sample)
      next := nextIndex t.capacity t.next
      size := if (finite t.size).lt t.capacity then t.size + 1 else t.size } := by
  rw [WaitTimeTracker.record, hr]

/-- A tracker with `c` slots holds the last samples of a history as a ring. -/
structure IsRing (c : ℕ) (t : WaitTimeTracker) (head : ℕ) (l : List WaitSample) : Prop where
  capacity : t.capacity = finite c
  pos : 0 < c
  holds : RingBuffer.Holds c ⟨t.slots, head, t.size⟩ l
  next : t.next = some ((head + t.size) % c)
  start : t.size < c → head = 0

/-- A tracker without a bound holds its history. -/
structure IsArray (t : WaitTimeTracker) (l : List WaitSample) : Prop where
  capacity : t.capacity = posInfinity
  slots : ∀ i < l.length, t.slots i = l[i]?
  next : t.next = some l.length
  size : t.size = l.length

/-- A tracker of a capacity that is not a number never fills. -/
structure IsVoid (t : WaitTimeTracker) : Prop where
  capacity : t.capacity = nan
  size : t.size = 0

/-- What a tracker holds of the samples that it was given. -/
inductive HoldsSamples (t : WaitTimeTracker) (l : List WaitSample) : Prop
  | ring (c head : ℕ) (h : IsRing c t head l)
  | array (h : IsArray t l)
  | void (h : IsVoid t)

theorem max_one_floor_cases (n : JsNumber) :
    (∃ c : ℕ, 0 < c ∧ (finite 1).max n.floor = finite c) ∨
      (finite 1).max n.floor = posInfinity ∨ (finite 1).max n.floor = nan := by
  cases n with
  | nan => exact .inr (.inr rfl)
  | posInfinity => exact .inr (.inl rfl)
  | negInfinity => exact .inl ⟨1, one_pos, rfl⟩
  | finite q =>
    refine .inl ⟨(max 1 ⌊q⌋).toNat, by omega, ?_⟩
    have hcast : (((max 1 ⌊q⌋).toNat : ℕ) : ℚ) = max 1 (⌊q⌋ : ℚ) := by
      have htoNat : (((max 1 ⌊q⌋).toNat : ℕ) : ℤ) = max 1 ⌊q⌋ := Int.toNat_of_nonneg (by omega)
      exact_mod_cast congrArg (Int.cast : ℤ → ℚ) htoNat
    rw [hcast, JsNumber.floor, JsNumber.max, if_neg (by simp), max_def]
    by_cases h : (1 : ℚ) ≤ ⌊q⌋
    · rw [if_pos (JsNumber.finite_le.mpr h), if_pos h]
    · rw [if_neg (fun hle => h (JsNumber.finite_le.mp hle)), if_neg h]

theorem holdsSamples_new (options : WaitTimeTrackerOptions) :
    HoldsSamples (WaitTimeTracker.new options) [] := by
  obtain ⟨c, hpos, hc⟩ | hinf | hnan :=
    max_one_floor_cases (options.capacity.getD DEFAULT_CAPACITY)
  · have hnext : (WaitTimeTracker.new options).next = some ((0 + 0) % c) :=
      congrArg some (Nat.zero_mod c).symm
    exact .ring c 0 ⟨hc, hpos, RingBuffer.holds_empty c, hnext, fun _ => rfl⟩
  · exact .array ⟨hinf, fun i hi => absurd hi (Nat.not_lt_zero i), rfl, rfl⟩
  · exact .void ⟨hnan, rfl⟩

theorem IsRing.record {c head : ℕ} (h : IsRing c t head l) (hr : r.sample? = some sample) :
    ∃ head', IsRing c (t.record r) head' (l ++ [sample]) := by
  have hrecord : t.record r = _ := record_of_sample hr
  have hslots : (t.record r).slots =
      Function.update t.slots ((head + t.size) % c) (some sample) := by
    funext i
    rw [WaitTimeTracker.slots, hrecord, h.next]
    exact congrFun (slots_update t.samples _ sample) i
  have hnext : (t.record r).next = some (((head + t.size) % c + 1) % c) := by
    rw [hrecord, h.next, h.capacity]
    exact congrArg (fun n => some (((head + t.size) % c + 1) % n)) (Nat.floor_natCast c)
  have hpush := h.holds.push sample
  have hlt : (finite t.size).lt t.capacity = true ↔ t.size < c := by
    rw [h.capacity, JsNumber.finite_lt, Nat.cast_lt]
  have hcapacity : (t.record r).capacity = finite c := by rw [hrecord, ← h.capacity]
  by_cases hsize : t.size < c
  · have hsize' : (t.record r).size = t.size + 1 := by rw [hrecord]; exact if_pos (hlt.mpr hsize)
    refine ⟨head, hcapacity, h.pos, ?_, ?_, fun _ => h.start hsize⟩
    · rw [RingBuffer.push, if_pos hsize] at hpush
      rwa [hslots, hsize']
    · rw [hnext, hsize', Nat.mod_add_mod, Nat.add_assoc]
  · have hsize' : (t.record r).size = t.size := by
      rw [hrecord]
      exact if_neg fun hlt' => hsize (hlt.mp hlt')
    refine ⟨(head + 1) % c, hcapacity, h.pos, ?_, ?_, fun hlt' => absurd (hsize' ▸ hlt') hsize⟩
    · rw [RingBuffer.push, if_neg hsize] at hpush
      rwa [hslots, hsize']
    · rw [hnext, hsize', Nat.mod_add_mod, Nat.mod_add_mod, Nat.add_right_comm]

theorem IsArray.record (h : IsArray t l) (hr : r.sample? = some sample) :
    IsArray (t.record r) (l ++ [sample]) := by
  have hrecord : t.record r = _ := record_of_sample hr
  have hlength : (l ++ [sample]).length = l.length + 1 := List.length_append
  refine ⟨by rw [hrecord, ← h.capacity], fun i hi => ?_, ?_, ?_⟩
  · have hslot : (t.record r).slots i =
        Function.update t.slots l.length (some sample) i := by
      rw [WaitTimeTracker.slots, hrecord, h.next]
      exact congrFun (slots_update t.samples _ sample) i
    rw [hslot]
    obtain hlt | rfl := Nat.lt_or_eq_of_le (Nat.le_of_lt_succ (hlength ▸ hi))
    · rw [Function.update_of_ne hlt.ne, h.slots i hlt, List.getElem?_append_left hlt]
    · rw [Function.update_self, List.getElem?_concat_length]
  · rw [hrecord, h.next, h.capacity, hlength]
    rfl
  · rw [hrecord, h.capacity, h.size, hlength]
    rfl

theorem HoldsSamples.record (h : HoldsSamples t l) (r : WaitRecord) :
    HoldsSamples (t.record r) (l ++ r.sample?.toList) := by
  cases hr : r.sample? with
  | none =>
    have hrecord : t.record r = t := by rw [WaitTimeTracker.record, hr]
    rwa [hrecord, Option.toList_none, List.append_nil]
  | some sample =>
    rw [Option.toList_some]
    cases h with
    | ring c head h =>
      obtain ⟨head', h'⟩ := h.record hr
      exact .ring c head' h'
    | array h => exact .array (h.record hr)
    | void h =>
      have hrecord : t.record r = _ := record_of_sample hr
      refine .void ⟨by rw [hrecord, ← h.capacity], ?_⟩
      rw [hrecord, h.capacity, h.size]
      rfl

theorem holdsSamples_run (options : WaitTimeTrackerOptions) (records : List WaitRecord) :
    HoldsSamples (WaitTimeTracker.run options records) (records.filterMap (·.sample?)) := by
  induction records using List.reverseRecOn with
  | nil => exact holdsSamples_new options
  | append_singleton records r ih =>
    rw [WaitTimeTracker.run, List.foldl_append, List.filterMap_append]
    have hsingle : [r].filterMap (·.sample?) = r.sample?.toList := by
      cases hr : r.sample? with
      | none => rw [List.filterMap_cons_none hr]; rfl
      | some sample => rw [List.filterMap_cons_some hr]; rfl
    rw [hsingle]
    exact ih.record r

/-- The slots that `percentiles` reads have the last samples. -/
theorem HoldsSamples.slots_perm (h : HoldsSamples t l) :
    ((List.range t.size).filterMap t.slots).Perm (lastFor t.capacity l) := by
  cases h with
  | ring c head h =>
    have hlast : lastFor t.capacity l = l.rtake c := by
      rw [h.capacity, lastFor, Nat.floor_natCast]
    rw [hlast, ← h.holds.toList_eq]
    exact RingBuffer.slots_perm_toList h.holds.count_le h.start
  | array h =>
    have hslots : (List.range t.size).filterMap t.slots = l := by
      rw [h.size]
      exact (List.filterMap_congr fun i hi => h.slots i (List.mem_range.mp hi)).trans
        (RingBuffer.filterMap_getElem? l)
    rw [hslots, h.capacity]
    exact List.Perm.refl l
  | void h =>
    rw [h.size, h.capacity]
    exact List.Perm.refl []

end Samples

section Quantiles

variable {waits sorted : List ℚ} {q q' : ℚ}

theorem record_options (t : WaitTimeTracker) (r : WaitRecord) :
    (t.record r).capacity = t.capacity ∧ (t.record r).windowMs = t.windowMs := by
  rw [WaitTimeTracker.record]
  split <;> exact ⟨rfl, rfl⟩

theorem run_options (options : WaitTimeTrackerOptions) (records : List WaitRecord) :
    (WaitTimeTracker.run options records).capacity = (WaitTimeTracker.new options).capacity ∧
      (WaitTimeTracker.run options records).windowMs = (WaitTimeTracker.new options).windowMs := by
  induction records using List.reverseRecOn with
  | nil => exact ⟨rfl, rfl⟩
  | append_singleton records r ih =>
    obtain ⟨hcapacity, hwindow⟩ := record_options (WaitTimeTracker.run options records) r
    rw [WaitTimeTracker.run, List.foldl_append]
    exact ⟨hcapacity.trans ih.1, hwindow.trans ih.2⟩

/-- The fresh wait times are the ones of the last samples. -/
theorem fresh_perm (options : WaitTimeTrackerOptions) (records : List WaitRecord) (now : ℤ) :
    ((WaitTimeTracker.run options records).fresh now).Perm (waitsAt options records now) := by
  obtain ⟨hcapacity, hwindow⟩ := run_options options records
  have hfresh : (WaitTimeTracker.run options records).isFresh now =
      (WaitTimeTracker.new options).isFresh now := by
    funext sample
    rw [WaitTimeTracker.isFresh, WaitTimeTracker.isFresh, hwindow]
  have hslots := (holdsSamples_run options records).slots_perm
  rw [hcapacity] at hslots
  rw [WaitTimeTracker.fresh, hfresh, waitsAt]
  exact (hslots.filter _).map _

/-- The index of a quantile is in range, and the item there has its nearest rank. -/
theorem quantile_eq (hsorted : sorted.Pairwise (· ≤ ·)) (hne : sorted ≠ []) (hq : 0 < q)
    (hq1 : q ≤ 1) :
    ∃ ms, IsKthSmallest (nearestRank q sorted.length).toNat sorted ms ∧
      WaitTimeTracker.quantile sorted q = finite (ms / 1000) := by
  have hlength := List.length_pos_iff.mpr hne
  have hpos := nearestRank_pos hq hlength
  have hle := nearestRank_le (n := sorted.length) hq1
  obtain ⟨k, hk⟩ : ∃ k : ℕ, nearestRank q sorted.length = k + 1 :=
    ⟨(nearestRank q sorted.length).toNat - 1, by omega⟩
  have hklt : k < sorted.length := by omega
  have hindex : min ((sorted.length : ℤ) - 1) (max 0 (⌈q * sorted.length⌉ - 1)) = k := by
    rw [nearestRank] at hk
    omega
  refine ⟨sorted[k], ?_, ?_⟩
  · have hrank : (nearestRank q sorted.length).toNat = k + 1 := by omega
    rw [hrank]
    exact isKthSmallest_getElem hsorted hklt
  · rw [WaitTimeTracker.quantile, hindex, if_pos (Int.natCast_nonneg k), Int.toNat_natCast, List.getElem?_eq_getElem hklt]

theorem isQuantile_quantile (hperm : sorted.Perm waits) (hsorted : sorted.Pairwise (· ≤ ·))
    (hne : waits ≠ []) (hq : 0 < q) (hq1 : q ≤ 1) :
    IsQuantile q waits (WaitTimeTracker.quantile sorted q) := by
  have hne' : sorted ≠ [] := fun h => hne (List.nil_perm.mp (h ▸ hperm))
  obtain ⟨ms, hms, heq⟩ := quantile_eq hsorted hne' hq hq1
  rw [hperm.length_eq] at hms
  exact ⟨ms, hms.perm hperm, heq⟩

/-- A larger quantile is not below a smaller one. -/
theorem IsQuantile.le {p p' : JsNumber} (h : IsQuantile q waits p) (h' : IsQuantile q' waits p')
    (hqq : q ≤ q') : p.le p' = true := by
  obtain ⟨ms, hms, rfl⟩ := h
  obtain ⟨ms', hms', rfl⟩ := h'
  have hrank : (nearestRank q waits.length).toNat ≤ (nearestRank q' waits.length).toNat :=
    Int.toNat_le_toNat (nearestRank_mono hqq)
  rw [JsNumber.finite_le]
  exact div_le_div_of_nonneg_right (hms.le_of_le hms' hrank) (by norm_num)

end Quantiles

/-- **Wait times**: after any calls of `record`, with any values and times, the report gives the
    nearest-rank quantiles of the last valid samples that are within the window, and zeros if there
    are none. -/
theorem percentiles_run (options : WaitTimeTrackerOptions) (records : List WaitRecord) (now : ℤ) :
    Reports (waitsAt options records now)
      ((WaitTimeTracker.run options records).percentiles now) := by
  set waits := waitsAt options records now
  have hperm : ((WaitTimeTracker.run options records).fresh now).Perm waits :=
    fresh_perm options records now
  rw [WaitTimeTracker.percentiles]
  dsimp only
  by_cases hnil : waits = []
  · rw [if_pos (by rw [hperm.length_eq, hnil]; rfl)]
    exact ⟨fun _ => rfl, absurd hnil, absurd hnil, absurd hnil, rfl, rfl⟩
  · have hlength : ((WaitTimeTracker.run options records).fresh now).length ≠ 0 := by
      rw [hperm.length_eq]
      exact fun h => hnil (List.length_eq_zero_iff.mp h)
    rw [if_neg hlength]
    have hsorted : (((WaitTimeTracker.run options records).fresh now).mergeSort).Pairwise
        (· ≤ ·) := List.pairwise_mergeSort' _ _
    have hquantile {q : ℚ} (hq : 0 < q) (hq1 : q ≤ 1) :=
      isQuantile_quantile ((List.mergeSort_perm _ _).trans hperm) hsorted hnil hq hq1
    have h50 := hquantile (q := 1 / 2) (by norm_num) (by norm_num)
    have h95 := hquantile (q := 95 / 100) (by norm_num) (by norm_num)
    have h99 := hquantile (q := 99 / 100) (by norm_num) (by norm_num)
    exact ⟨fun h => absurd h hnil, fun _ => h50, fun _ => h95, fun _ => h99,
      h50.le h95 (by norm_num), h95.le h99 (by norm_num)⟩

end BotHive.Workers
