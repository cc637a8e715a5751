import BotHive.Library.Cumulative
import BotHive.Library.Machine
import BotHive.Metrics.Registry
import Mathlib.Data.List.Nodup
import Mathlib.Logic.Function.Basic

/-!
# Counters across restarts

A worker counts what each of its bots does and publishes the counts in the bot's health payload.
A scrape of the API reads the payloads and adds to the exported counters what has been counted
since the last scrape; the value it has read is the baseline of the next one. The baselines are
mirrored in Redis, so an API that restarts goes on from them. A count that is smaller than its
baseline has started again from zero.

What the counters of all lives of the API have been raised by, taken together, is what a query over
the exported counter computes, since it takes a drop for a restart too.

## Main definitions

- `HealthCounter`: a counter of the payload, with its series
- `incrementCounterFromCumulative`, `collectBotHealth`: a scrape
- `MetricsState`, `MetricsAction`, `metricsStep`: workers, Redis and the API
- `BaselinesKept`: no baseline is lost at a step
- `NoticesRestarts`: a scrape can tell which counts have started again

## Main results

- `viewOf_collectBotHealth`: a scrape raises each series by its own reading
- `Accounted.step`: what the steps keep
- `baselinesKept_of_writesLand`: no baseline is lost while every write to Redis lands
- `exported_everywhere`: no more is exported than has been counted
- `exported_sighted_iff`: what is exported is what the scrapes have seen of each count, exactly in
  the runs in which no restart goes unnoticed
-/

namespace BotHive.Metrics

open InsertionMap

/-- The counters in the health payload of a bot. -/
inductive HealthCounter where
  | actionsSuccess
  | actionsFailed
  | reconnectAttempts
  | scriptExecutions
  | scriptErrors
  | cryptoOrders
  | cryptoFills
  | cryptoOrderErrors
  | cryptoVolumeUsdt
  deriving DecidableEq

namespace HealthCounter

/-- The counters in the order in which a scrape reads them. -/
def all : List HealthCounter :=
  [.actionsSuccess, .actionsFailed, .reconnectAttempts, .scriptExecutions, .scriptErrors,
    .cryptoOrders, .cryptoFills, .cryptoOrderErrors, .cryptoVolumeUsdt]

def metric : HealthCounter → String
  | .actionsSuccess | .actionsFailed => "bothive_bot_actions_total"
  | .reconnectAttempts => "bothive_bot_reconnect_attempts_total"
  | .scriptExecutions => "bothive_bot_script_executions_total"
  | .scriptErrors => "bothive_bot_script_errors_total"
  | .cryptoOrders => "bothive_crypto_orders_total"
  | .cryptoFills => "bothive_crypto_fills_total"
  | .cryptoOrderErrors => "bothive_crypto_order_errors_total"
  | .cryptoVolumeUsdt => "bothive_crypto_volume_usdt_total"

def labels (botId : String) : HealthCounter → Labels
  | .actionsSuccess => [("bot_id", botId), ("result", "success")]
  | .actionsFailed => [("bot_id", botId), ("result", "failure")]
  | _ => [("bot_id", botId)]

def series (botId : String) (c : HealthCounter) : SeriesKey :=
  ⟨c.metric, c.labels botId⟩

/-- The counters of trading are read only when they are above zero. -/
def onlyPositive : HealthCounter → Bool
  | .cryptoOrders | .cryptoFills | .cryptoOrderErrors | .cryptoVolumeUsdt => true
  | _ => false

end HealthCounter

structure BotHealthPayload where
  score : Option ℚ
  status : Option String
  uptimeSeconds : Option ℚ
  counter : HealthCounter → Option ℚ

/-- The value of a counter, if a scrape reads it. -/
def BotHealthPayload.reading (p : BotHealthPayload) (c : HealthCounter) : Option ℚ :=
  (p.counter c).filter fun v => !c.onlyPositive || 0 < v

/-- The metrics of an API and their baselines in Redis. -/
structure ApiMetrics where
  registry : MetricsRegistry
  lastBotCounterValues : InsertionMap SeriesKey ℚ
  persisted : InsertionMap SeriesKey ℚ

section Scrape

variable (landed : SeriesKey → Bool)

/-- Write a baseline to Redis, which can fail. -/
def persistCounterBaseline (api : ApiMetrics) (key : SeriesKey) (value : ℚ) : ApiMetrics :=
  if landed key then { api with persisted := api.persisted.set key value } else api

def incrementCounterFromCumulative (api : ApiMetrics) (key : SeriesKey) (cumulative : ℚ) :
    ApiMetrics :=
  if cumulative < 0 then api
  else
    match api.lastBotCounterValues.get key with
    | none =>
      persistCounterBaseline landed
        { api with
          lastBotCounterValues := api.lastBotCounterValues.set key cumulative
          registry := api.registry.incrementCounter key.name key.labels (max 0 cumulative) }
        key cumulative
    | some last =>
      let delta := if last ≤ cumulative then cumulative - last else cumulative
      let api := { api with
        lastBotCounterValues := api.lastBotCounterValues.set key cumulative
        registry :=
          if 0 < delta then api.registry.incrementCounter key.name key.labels delta
          else api.registry }
      if 0 < delta ∨ cumulative ≠ last then persistCounterBaseline landed api key cumulative else api

/-- Set the gauges of a bot. -/
def setHealthGauges (api : ApiMetrics) (botId : String) (parsed : BotHealthPayload) : ApiMetrics :=
  let labels : Labels := [("bot_id", botId), ("status", parsed.status.getD "unknown")]
  let registry :=
    match parsed.score with
    | some score => api.registry.setGauge "bothive_bot_health_score" score labels
    | none => api.registry
  { api with
    registry :=
      match parsed.uptimeSeconds with
      | some uptime => registry.setGauge "bothive_bot_uptime_seconds" uptime labels
      | none => registry }

/-- The counters of a payload that a scrape reads, with their series. -/
def readings (e : String × BotHealthPayload) : List (SeriesKey × ℚ) :=
  HealthCounter.all.filterMap fun c => (e.2.reading c).map fun v => (c.series e.1, v)

def collectBotHealth (payloads : List (String × BotHealthPayload)) (api : ApiMetrics) :
    ApiMetrics :=
  payloads.foldl (fun api e => (readings e).foldl
    (fun api r => incrementCounterFromCumulative landed api r.1 r.2)
    (setHealthGauges api e.1 e.2)) api

end Scrape

/-- The value of an exported counter. -/
def counterValue (api : ApiMetrics) (key : SeriesKey) : ℚ :=
  (api.registry.counters.get key).getD 0

/-- Workers, Redis and the API. A count of a worker carries what was counted before it started
    again; `publishedAt`, `retired` and `sightings` are kept for the statements only: the counts as
    they were last published, what the earlier lives of the API have exported, and what the scrapes
    have read. -/
structure MetricsState where
  counts : String → HealthCounter → Cumulative ℚ
  healthKeys : InsertionMap String BotHealthPayload
  api : ApiMetrics
  loaded : Bool
  publishedAt : String → HealthCounter → Cumulative ℚ
  retired : SeriesKey → ℚ
  sightings : String → HealthCounter → Sightings ℚ

inductive MetricsAction where
  /-- Something happens that is counted. -/
  | count (botId : String) (c : HealthCounter) (amount : ℚ)
  /-- A count starts again, since its worker, its connection or its entry is a new one. -/
  | startAgain (botId : String) (c : HealthCounter)
  | publish (botId : String) (score : ℚ) (status : String) (uptimeSeconds : ℚ)
  /-- The health payload of a bot expires. -/
  | expire (botId : String)
  /-- A scrape, of whose writes to Redis some land. -/
  | scrape (landed : SeriesKey → Bool)
  | restartApi
  | loadCounterBaselines
  /-- A baseline expires in Redis. -/
  | expireBaseline (key : SeriesKey)

namespace MetricsState

def start : MetricsState where
  counts _ _ := .zero
  healthKeys := .empty
  api := ⟨.empty, .empty, .empty⟩
  loaded := false
  publishedAt _ _ := .zero
  retired _ := 0
  sightings _ _ := .none

/-- Change a count. -/
def setCount (s : MetricsState) (botId : String) (c : HealthCounter) (count : Cumulative ℚ) :
    MetricsState :=
  { s with counts := fun b => if b = botId then Function.update (s.counts b) c count else s.counts b }

/-- What a scrape reads of a counter of a bot. -/
def reading (s : MetricsState) (botId : String) (c : HealthCounter) : Option ℚ :=
  (s.healthKeys.get botId).bind fun p => p.reading c

/-- All that has been exported for a counter of a bot, in all lives of the API. -/
def exported (s : MetricsState) (botId : String) (c : HealthCounter) : ℚ :=
  s.retired (c.series botId) + counterValue s.api (c.series botId)

/-- A scrape, of whose writes to Redis some land. -/
def scraped (s : MetricsState) (landed : SeriesKey → Bool) : MetricsState :=
  { s with
    api := collectBotHealth landed s.healthKeys.entries s.api
    sightings := fun b c =>
      match s.reading b c with
      | some _ => (s.sightings b c).sight (s.publishedAt b c)
      | none => s.sightings b c }

end MetricsState

/-- A step of the workers, Redis or the API. -/
def metricsStep (s : MetricsState) : MetricsAction → Option MetricsState
  | .count botId c amount =>
    if 0 ≤ amount then some (s.setCount botId c ((s.counts botId c).add amount)) else none
  | .startAgain botId c => some (s.setCount botId c (s.counts botId c).restart)
  | .publish botId score status uptimeSeconds =>
    some { s with
      healthKeys := s.healthKeys.set botId
        ⟨some score, some status, some uptimeSeconds, fun c => some (s.counts botId c).value⟩
      publishedAt := Function.update s.publishedAt botId (s.counts botId) }
  | .expire botId => some { s with healthKeys := s.healthKeys.delete botId }
  | .scrape landed => some (s.scraped landed)
  | .restartApi =>
    some { s with
      api := { s.api with registry := .empty, lastBotCounterValues := .empty }
      loaded := false
      retired := fun key => s.retired key + counterValue s.api key }
  | .loadCounterBaselines =>
    if s.loaded then none
    else some { s with
      api := { s.api with
        lastBotCounterValues :=
          s.api.persisted.entries.foldl (fun m e => m.set e.1 e.2) s.api.lastBotCounterValues }
      loaded := true }
  | .expireBaseline key =>
    some { s with api := { s.api with persisted := s.api.persisted.delete key } }

/-- No baseline is lost at a step: an API stops only when all of its baselines are in Redis, they
    stay there until it has loaded them, and only then is it scraped. -/
def BaselinesKept (s : MetricsState) : MetricsAction → Prop
  | .scrape _ => s.loaded = true
  | .restartApi =>
    s.loaded = true → ∀ key, s.api.persisted.get key = s.api.lastBotCounterValues.get key
  | .expireBaseline _ => s.loaded = true
  | _ => True

/-- A scrape can tell which of the counts that it reads have started again since the last one. -/
def NoticesRestarts (s : MetricsState) : MetricsAction → Prop
  | .scrape _ =>
    ∀ botId c, (s.reading botId c).isSome → (s.sightings botId c).Notices (s.publishedAt botId c)
  | _ => True

section View

variable {landed : SeriesKey → Bool} {api : ApiMetrics} {key : SeriesKey}

/-- What a scrape makes of a series: its baseline and its exported value. -/
structure SeriesView where
  last : Option ℚ
  value : ℚ

def SeriesView.read (w : SeriesView) (cumulative : ℚ) : SeriesView :=
  if cumulative < 0 then w
  else ⟨some cumulative, w.value + Cumulative.increase w.last cumulative⟩

def viewOf (key : SeriesKey) (api : ApiMetrics) : SeriesView :=
  ⟨api.lastBotCounterValues.get key, counterValue api key⟩

theorem viewOf_persist (k : SeriesKey) (value : ℚ) :
    viewOf key (persistCounterBaseline landed api k value) = viewOf key api := by
  rw [persistCounterBaseline]
  split <;> rfl

theorem counterValue_incrementCounter (k : SeriesKey) (amount : ℚ) :
    ((api.registry.incrementCounter k.name k.labels amount).counters.get key).getD 0 =
      counterValue api key + if key = k then amount else 0 := by
  show ((api.registry.counters.set k
    (MetricsRegistry.increased (api.registry.counters.get k) amount)).get key).getD 0 = _
  rw [InsertionMap.get_set, counterValue]
  by_cases hkey : key = k
  · subst hkey
    rw [if_pos rfl, if_pos rfl]
    cases api.registry.counters.get key with
    | none => exact (zero_add amount).symm
    | some value => rfl
  · rw [if_neg hkey, if_neg hkey, add_zero]

/-- A new baseline, and what the series is raised by. -/
theorem viewOf_raised (k : SeriesKey) (cumulative amount : ℚ) :
    viewOf key { api with
        lastBotCounterValues := api.lastBotCounterValues.set k cumulative
        registry := api.registry.incrementCounter k.name k.labels amount } =
      if k = key then ⟨some cumulative, (viewOf key api).value + amount⟩ else viewOf key api := by
  show SeriesView.mk ((api.lastBotCounterValues.set k cumulative).get key) (Option.getD _ 0) = _
  rw [InsertionMap.get_set, counterValue_incrementCounter]
  by_cases hkey : k = key
  · subst hkey
    rw [if_pos rfl, if_pos rfl, if_pos rfl]
    rfl
  · have hkey' : ¬ key = k := fun h => hkey h.symm
    rw [if_neg hkey', if_neg hkey', if_neg hkey, add_zero]
    rfl

theorem viewOf_seen (k : SeriesKey) (cumulative : ℚ) :
    viewOf key { api with lastBotCounterValues := api.lastBotCounterValues.set k cumulative } =
      if k = key then ⟨some cumulative, (viewOf key api).value⟩ else viewOf key api := by
  show SeriesView.mk ((api.lastBotCounterValues.set k cumulative).get key) _ = _
  rw [InsertionMap.get_set]
  by_cases hkey : k = key
  · subst hkey
    rw [if_pos rfl, if_pos rfl]
    rfl
  · have hkey' : ¬ key = k := fun h => hkey h.symm
    rw [if_neg hkey', if_neg hkey]
    rfl

/-- A reading changes its own series only. -/
theorem viewOf_increment (k : SeriesKey) (cumulative : ℚ) :
    viewOf key (incrementCounterFromCumulative landed api k cumulative) =
      if k = key then (viewOf key api).read cumulative else viewOf key api := by
  rw [incrementCounterFromCumulative, SeriesView.read]
  by_cases hneg : cumulative < 0
  · rw [if_pos hneg, if_pos hneg, ite_self]
  rw [if_neg hneg, if_neg hneg]
  have hpos : 0 ≤ cumulative := not_lt.mp hneg
  cases hlast : api.lastBotCounterValues.get k with
  | none =>
    show viewOf key (persistCounterBaseline landed _ k cumulative) = _
    rw [viewOf_persist, viewOf_raised, max_eq_right hpos]
    split
    · rename_i hkey
      subst hkey
      rw [show (viewOf k api).last = none from hlast]
      rfl
    · rfl
  | some last =>
    have hincrease : k = key → Cumulative.increase (viewOf key api).last cumulative =
        if last ≤ cumulative then cumulative - last else cumulative := by
      rintro rfl
      rw [show (viewOf k api).last = some last from hlast]
      rfl
    have hnonneg : 0 ≤ if last ≤ cumulative then cumulative - last else cumulative := by
      split
      · rename_i hle
        exact sub_nonneg.mpr hle
      · exact hpos
    show viewOf key (if _ then persistCounterBaseline landed _ k cumulative else _) = _
    rw [apply_ite (viewOf key), viewOf_persist, ite_self]
    by_cases hdelta : 0 < if last ≤ cumulative then cumulative - last else cumulative
    · rw [if_pos hdelta, viewOf_raised]
      by_cases hkey : k = key
      · rw [if_pos hkey, if_pos hkey, hincrease hkey]
      · rw [if_neg hkey, if_neg hkey]
    · have hzero : (if last ≤ cumulative then cumulative - last else cumulative) = 0 :=
        le_antisymm (not_lt.mp hdelta) hnonneg
      rw [if_neg hdelta]
      refine (viewOf_seen k cumulative).trans ?_
      by_cases hkey : k = key
      · rw [if_pos hkey, if_pos hkey, hincrease hkey, hzero, add_zero]
      · rw [if_neg hkey, if_neg hkey]

theorem viewOf_setHealthGauges (botId : String) (parsed : BotHealthPayload) :
    viewOf key (setHealthGauges api botId parsed) = viewOf key api := by
  rw [setHealthGauges]
  cases parsed.score <;> cases parsed.uptimeSeconds <;> rfl

/-- A scrape makes of a series what the readings of that series make of it. -/
theorem viewOf_collectBotHealth_eq (payloads : List (String × BotHealthPayload)) :
    viewOf key (collectBotHealth landed payloads api) =
      (payloads.flatMap readings).foldl
        (fun w r => if r.1 = key then w.read r.2 else w) (viewOf key api) := by
  have hreadings : ∀ (rs : List (SeriesKey × ℚ)) (api : ApiMetrics),
      viewOf key (rs.foldl (fun api r => incrementCounterFromCumulative landed api r.1 r.2) api) =
        rs.foldl (fun w r => if r.1 = key then w.read r.2 else w) (viewOf key api) := by
    intro rs
    induction rs with
    | nil => intro api; rfl
    | cons r rest ih =>
      intro api
      rw [List.foldl_cons, List.foldl_cons, ih, viewOf_increment]
  induction payloads generalizing api with
  | nil => rfl
  | cons e rest ih =>
    rw [collectBotHealth, List.foldl_cons, ← collectBotHealth, ih, hreadings,
      viewOf_setHealthGauges, List.flatMap_cons, List.foldl_append]

end View

section Readings

variable {botId : String} {c : HealthCounter} {payloads : List (String × BotHealthPayload)} {q : ℚ}

/-- A series is that of one counter of one bot. -/
theorem series_inj {botId' : String} {c' : HealthCounter}
    (h : c.series botId = c'.series botId') : botId = botId' ∧ c = c' := by
  obtain ⟨hname, hlabels⟩ := SeriesKey.mk.inj h
  cases c <;> cases c' <;> first
    | exact ⟨by simpa [HealthCounter.labels] using hlabels, rfl⟩
    | exact absurd hname (by decide)
    | exact absurd hlabels (by simp [HealthCounter.labels])

theorem mem_readings_iff {e : String × BotHealthPayload} {key : SeriesKey} :
    (key, q) ∈ readings e ↔ ∃ c : HealthCounter, c.series e.1 = key ∧ e.2.reading c = some q := by
  have hall : ∀ c : HealthCounter, c ∈ HealthCounter.all := by
    intro c
    cases c <;> decide
  rw [readings, List.mem_filterMap]
  constructor
  · rintro ⟨c, _, hc⟩
    obtain ⟨v, hv, hkey⟩ := Option.map_eq_some_iff.mp hc
    obtain ⟨rfl, rfl⟩ := Prod.mk.inj hkey
    exact ⟨c, rfl, hv⟩
  · rintro ⟨c, rfl, hv⟩
    exact ⟨c, hall c, by rw [hv]; rfl⟩

/-- A scrape reads no series twice. -/
theorem nodup_readings (h : (payloads.map Prod.fst).Nodup) :
    ((payloads.flatMap readings).map Prod.fst).Nodup := by
  have hkey : ∀ (e : String × BotHealthPayload) (r : SeriesKey × ℚ), r ∈ readings e →
      ∃ c : HealthCounter, r.1 = c.series e.1 := by
    rintro e ⟨key, q⟩ hr
    obtain ⟨c, hc, _⟩ := mem_readings_iff.mp hr
    exact ⟨c, hc.symm⟩
  rw [List.map_flatMap, List.nodup_flatMap]
  constructor
  · intro e _
    rw [readings, List.map_filterMap]
    refine List.Nodup.filterMap ?_ (by decide)
    intro c c' key hmem hmem'
    obtain ⟨r, hr, hkey⟩ := Option.map_eq_some_iff.mp hmem
    obtain ⟨r', hr', hkey'⟩ := Option.map_eq_some_iff.mp hmem'
    obtain ⟨v, _, rfl⟩ := Option.map_eq_some_iff.mp hr
    obtain ⟨v', _, rfl⟩ := Option.map_eq_some_iff.mp hr'
    exact (series_inj (hkey.trans hkey'.symm)).2
  · refine (List.pairwise_map.mp h).imp ?_
    intro e e' hne
    refine List.disjoint_left.mpr fun key hmem hmem' => ?_
    obtain ⟨r, hr, rfl⟩ := List.mem_map.mp hmem
    obtain ⟨r', hr', heq⟩ := List.mem_map.mp hmem'
    obtain ⟨c, hc⟩ := hkey e r hr
    obtain ⟨c', hc'⟩ := hkey e' r' hr'
    exact hne (series_inj (hc.symm.trans (heq.symm.trans hc'))).1

theorem foldl_read {rs : List (SeriesKey × ℚ)} {key : SeriesKey}
    (h : (rs.map Prod.fst).Nodup) (w : SeriesView) :
    rs.foldl (fun w r => if r.1 = key then w.read r.2 else w) w =
      match lookup key rs with
      | none => w
      | some q => w.read q := by
  induction rs generalizing w with
  | nil => rfl
  | cons r rest ih =>
    rw [List.map_cons, List.nodup_cons] at h
    rw [List.foldl_cons, ih h.2, lookup]
    by_cases hkey : r.1 = key
    · subst hkey
      rw [lookup_eq_none h.1, if_pos rfl, if_pos rfl]
    · rw [if_neg hkey, if_neg hkey]

theorem lookup_readings (m : InsertionMap String BotHealthPayload) :
    lookup (c.series botId) (m.entries.flatMap readings) =
      (m.get botId).bind fun p => p.reading c := by
  ext q
  rw [lookup_eq_some_iff (nodup_readings m.nodup), List.mem_flatMap, Option.bind_eq_some_iff]
  constructor
  · rintro ⟨e, he, hq⟩
    obtain ⟨c', hseries, hq'⟩ := mem_readings_iff.mp hq
    obtain ⟨rfl, rfl⟩ := series_inj hseries
    exact ⟨e.2, (mem_entries_iff m e.1 e.2).mp he, hq'⟩
  · rintro ⟨p, hp, hq⟩
    exact ⟨(botId, p), (mem_entries_iff m botId p).mpr hp, mem_readings_iff.mpr ⟨c, rfl, hq⟩⟩

/-- **A scrape**: each series is raised by its own reading, if there is one, and by nothing else. -/
theorem viewOf_collectBotHealth (landed : SeriesKey → Bool) (s : MetricsState) (botId : String)
    (c : HealthCounter) :
    viewOf (c.series botId) (collectBotHealth landed s.healthKeys.entries s.api) =
      match s.reading botId c with
      | none => viewOf (c.series botId) s.api
      | some q => (viewOf (c.series botId) s.api).read q := by
  rw [viewOf_collectBotHealth_eq, foldl_read (nodup_readings s.healthKeys.nodup), lookup_readings]
  rfl

end Readings

/-- What the steps keep, as long as no baseline is lost: the counts only go up, what has been
    published came before them and what has been read before that, a baseline is what was read, and
    no more has been exported than had been counted by then. -/
structure Accounted (s : MetricsState) : Prop where
  counts_sound : ∀ b c, (s.counts b c).Sound
  published_sound : ∀ b c, (s.publishedAt b c).Sound
  published_before : ∀ b c, (s.publishedAt b c).Before (s.counts b c)
  payload : ∀ b p, s.healthKeys.get b = some p → ∀ c, p.counter c = some (s.publishedAt b c).value
  read_sound : ∀ b c r, (s.sightings b c).reading = some r → r.Sound
  read_before : ∀ b c r, (s.sightings b c).reading = some r → r.Before (s.publishedAt b c)
  baseline : ∀ b c,
    (if s.loaded then s.api.lastBotCounterValues else s.api.persisted).get (c.series b) =
      (s.sightings b c).reading.map Cumulative.value
  unloaded : s.loaded = false → ∀ key, s.api.lastBotCounterValues.get key = none
  exported_le : ∀ b c, s.exported b c ≤
    match (s.sightings b c).reading with
    | none => 0
    | some r => r.total

section Steps

variable {s s' : MetricsState} {a : MetricsAction} {botId : String} {c : HealthCounter}

theorem accounted_start : Accounted .start where
  counts_sound _ _ := Cumulative.sound_zero
  published_sound _ _ := Cumulative.sound_zero
  published_before _ _ := Cumulative.Before.refl _
  payload _ _ h := absurd h (by simp [MetricsState.start])
  read_sound _ _ _ h := absurd h (by simp [MetricsState.start, Sightings.none])
  read_before _ _ _ h := absurd h (by simp [MetricsState.start, Sightings.none])
  baseline _ _ := rfl
  unloaded _ _ := rfl
  exported_le _ _ := by
    show (0 : ℚ) + 0 ≤ 0
    rw [add_zero]

/-- A count goes up or starts again. -/
theorem Accounted.setCount (h : Accounted s) {count : Cumulative ℚ} (hsound : count.Sound)
    (hbefore : (s.counts botId c).Before count) : Accounted (s.setCount botId c count) := by
  have hcounts : ∀ b d, ((s.setCount botId c count).counts b d).Sound ∧
      (s.counts b d).Before ((s.setCount botId c count).counts b d) := by
    intro b d
    show Cumulative.Sound ((if b = botId then _ else s.counts b) d) ∧
      Cumulative.Before _ ((if b = botId then _ else s.counts b) d)
    split
    · rename_i hb
      subst hb
      by_cases hd : d = c
      · subst hd
        rw [Function.update_self]
        exact ⟨hsound, hbefore⟩
      · rw [Function.update_of_ne hd]
        exact ⟨h.counts_sound b d, Cumulative.Before.refl _⟩
    · exact ⟨h.counts_sound b d, Cumulative.Before.refl _⟩
  exact { h with
    counts_sound := fun b d => (hcounts b d).1
    published_before := fun b d =>
      (h.published_before b d).trans (hcounts b d).2 (h.counts_sound b d) }

theorem Accounted.publish (h : Accounted s) (score uptime : ℚ) (status : String) :
    Accounted { s with
      healthKeys := s.healthKeys.set botId
        ⟨some score, some status, some uptime, fun c => some (s.counts botId c).value⟩
      publishedAt := Function.update s.publishedAt botId (s.counts botId) } := by
  have hlater : ∀ b d, (s.publishedAt b d).Before
      (Function.update s.publishedAt botId (s.counts botId) b d) ∧
      (Function.update s.publishedAt botId (s.counts botId) b d).Sound ∧
      (Function.update s.publishedAt botId (s.counts botId) b d).Before (s.counts b d) := by
    intro b d
    by_cases hb : b = botId
    · subst hb
      rw [Function.update_self]
      exact ⟨h.published_before b d, h.counts_sound b d, Cumulative.Before.refl _⟩
    · rw [Function.update_of_ne hb]
      exact ⟨Cumulative.Before.refl _, h.published_sound b d, h.published_before b d⟩
  exact { h with
    published_sound := fun b d => (hlater b d).2.1
    published_before := fun b d => (hlater b d).2.2
    payload := by
      intro b p hp d
      change (s.healthKeys.set botId _).get b = some p at hp
      rw [InsertionMap.get_set] at hp
      show p.counter d = some (Function.update s.publishedAt botId (s.counts botId) b d).value
      by_cases hb : b = botId
      · subst hb
        rw [if_pos rfl] at hp
        rw [Function.update_self, ← Option.some.inj hp]
      · rw [if_neg hb] at hp
        rw [Function.update_of_ne hb]
        exact h.payload b p hp d
    read_before := fun b d r hr =>
      (h.read_before b d r hr).trans (hlater b d).1 (h.published_sound b d) }

/-- What is read of a counter is what was last published. -/
theorem Accounted.reading_eq (h : Accounted s) {q : ℚ} (hq : s.reading botId c = some q) :
    q = (s.publishedAt botId c).value := by
  obtain ⟨p, hp, hread⟩ := Option.bind_eq_some_iff.mp hq
  rw [BotHealthPayload.reading, h.payload botId p hp c] at hread
  exact (Option.some.inj (Option.filter_eq_some_iff.mp hread).1).symm

theorem Accounted.last_eq (h : Accounted s) (hloaded : s.loaded = true) (b : String)
    (c : HealthCounter) :
    s.api.lastBotCounterValues.get (c.series b) =
      (s.sightings b c).reading.map Cumulative.value := by
  have hlast := h.baseline b c
  rwa [hloaded, if_pos rfl] at hlast

/-- A scrape leaves a counter that it does not read alone, and raises the series of one that it
    reads by what the last baseline leaves of the reading. -/
theorem Accounted.scraped_cases (h : Accounted s) (hloaded : s.loaded = true)
    (landed : SeriesKey → Bool) (b : String) (c : HealthCounter) :
    (s.reading b c = none ∧ (s.scraped landed).sightings b c = s.sightings b c ∧
      (s.scraped landed).api.lastBotCounterValues.get (c.series b) =
        s.api.lastBotCounterValues.get (c.series b) ∧
      (s.scraped landed).exported b c = s.exported b c) ∨
    ((s.reading b c).isSome ∧
      (s.scraped landed).sightings b c = (s.sightings b c).sight (s.publishedAt b c) ∧
      (s.scraped landed).api.lastBotCounterValues.get (c.series b) =
        some (s.publishedAt b c).value ∧
      (s.scraped landed).exported b c = s.exported b c +
        Cumulative.increase ((s.sightings b c).reading.map Cumulative.value)
          (s.publishedAt b c).value) := by
  have hview := viewOf_collectBotHealth landed s b c
  have hsightings : (s.scraped landed).sightings b c =
      match s.reading b c with
      | some _ => (s.sightings b c).sight (s.publishedAt b c)
      | none => s.sightings b c := rfl
  cases hreading : s.reading b c with
  | none =>
    rw [hreading] at hview hsightings
    refine Or.inl ⟨rfl, hsightings, congrArg SeriesView.last hview, ?_⟩
    exact congrArg (s.retired (c.series b) + ·) (congrArg SeriesView.value hview)
  | some q =>
    rw [hreading] at hview hsightings
    have hread : (viewOf (c.series b) s.api).read q = ⟨some (s.publishedAt b c).value,
        counterValue s.api (c.series b) + Cumulative.increase
          ((s.sightings b c).reading.map Cumulative.value) (s.publishedAt b c).value⟩ := by
      rw [h.reading_eq hreading, SeriesView.read,
        if_neg (not_lt.mpr (h.published_sound b c).value_nonneg), ← h.last_eq hloaded]
      rfl
    refine Or.inr ⟨rfl, hsightings, congrArg SeriesView.last (hview.trans hread), ?_⟩
    rw [MetricsState.exported, MetricsState.exported, add_assoc]
    exact congrArg (s.retired (c.series b) + ·) (congrArg SeriesView.value (hview.trans hread))

theorem Accounted.scraped (h : Accounted s) (hloaded : s.loaded = true)
    (landed : SeriesKey → Bool) : Accounted (s.scraped landed) where
  counts_sound := h.counts_sound
  published_sound := h.published_sound
  published_before := h.published_before
  payload := h.payload
  read_sound b c r hr := by
    rcases h.scraped_cases hloaded landed b c with ⟨_, hsame, _⟩ | ⟨_, hsight, _⟩
    · rw [hsame] at hr
      exact h.read_sound b c r hr
    · rw [hsight] at hr
      exact Option.some.inj hr ▸ h.published_sound b c
  read_before b c r hr := by
    show r.Before (s.publishedAt b c)
    rcases h.scraped_cases hloaded landed b c with ⟨_, hsame, _⟩ | ⟨_, hsight, _⟩
    · rw [hsame] at hr
      exact h.read_before b c r hr
    · rw [hsight] at hr
      exact Option.some.inj hr ▸ Cumulative.Before.refl _
  baseline b c := by
    show (if s.loaded then (s.scraped landed).api.lastBotCounterValues else _).get (c.series b) = _
    rw [hloaded, if_pos rfl]
    rcases h.scraped_cases hloaded landed b c with ⟨_, hsame, hlast, _⟩ | ⟨_, hsight, hlast, _⟩
    · rw [hlast, hsame, h.last_eq hloaded]
    · rw [hlast, hsight]
      rfl
  unloaded hunloaded := absurd (hloaded.symm.trans hunloaded) (by decide)
  exported_le b c := by
    have hexported := h.exported_le b c
    rcases h.scraped_cases hloaded landed b c with
      ⟨_, hsame, _, hexp⟩ | ⟨_, hsight, _, hexp⟩
    · rw [hsame, hexp]
      exact hexported
    · rw [hsight, hexp]
      show _ ≤ (s.publishedAt b c).total
      cases hlast : (s.sightings b c).reading with
      | none =>
        rw [hlast] at hexported
        have hfirst := Cumulative.increase_none_le_total (h.published_sound b c)
        rw [Option.map_none]
        linarith
      | some r =>
        rw [hlast] at hexported
        exact Cumulative.add_increase_le_total (h.read_before b c r hlast)
          (h.read_sound b c r hlast) hexported

/-- The API starts anew, with its baselines in Redis. -/
theorem Accounted.restartApi (h : Accounted s) (hkept : BaselinesKept s .restartApi) :
    Accounted { s with
      api := { s.api with registry := .empty, lastBotCounterValues := .empty }
      loaded := false
      retired := fun key => s.retired key + counterValue s.api key } :=
  { h with
    baseline := by
      intro b c
      have hbaseline := h.baseline b c
      show s.api.persisted.get (c.series b) = _
      by_cases hloaded : s.loaded = true
      · rw [hkept hloaded, h.last_eq hloaded]
      · rwa [if_neg hloaded] at hbaseline
    unloaded := fun _ _ => rfl
    exported_le := by
      intro b c
      have hexported := h.exported_le b c
      show s.exported b c + 0 ≤ _
      rw [add_zero]
      exact hexported }

theorem Accounted.loadCounterBaselines (h : Accounted s) (hunloaded : s.loaded = false) :
    Accounted { s with
      api := { s.api with
        lastBotCounterValues :=
          s.api.persisted.entries.foldl (fun m e => m.set e.1 e.2) s.api.lastBotCounterValues }
      loaded := true } :=
  { h with
    baseline := by
      intro b c
      have hbaseline := h.baseline b c
      rw [hunloaded, if_neg Bool.false_ne_true] at hbaseline
      show (s.api.persisted.entries.foldl _ s.api.lastBotCounterValues).get (c.series b) = _
      rw [get_foldl_set s.api.persisted.nodup, h.unloaded hunloaded, Option.or_none, ← hbaseline]
      rfl
    unloaded := fun hfalse => nomatch (show true = false from hfalse) }

/-- **Steps** that lose no baseline keep the accounts. -/
theorem Accounted.step (s : MetricsState) (a : MetricsAction) (s' : MetricsState) (h : Accounted s)
    (hkept : BaselinesKept s a) (hstep : metricsStep s a = some s') : Accounted s' := by
  cases a with
  | count b c amount =>
    rw [metricsStep] at hstep
    split at hstep
    · rename_i hamount
      rw [← Option.some.inj hstep]
      exact h.setCount ((h.counts_sound b c).add hamount) (Cumulative.before_add _ hamount)
    · cases hstep
  | startAgain b c =>
    rw [← Option.some.inj hstep]
    exact h.setCount (h.counts_sound b c).restart (Cumulative.before_restart _)
  | publish b score status uptime =>
    rw [← Option.some.inj hstep]
    exact h.publish score uptime status
  | expire b =>
    rw [← Option.some.inj hstep]
    refine { h with payload := fun b' p hp => h.payload b' p ?_ }
    change (s.healthKeys.delete b).get b' = some p at hp
    rw [get_delete] at hp
    split at hp
    · cases hp
    · exact hp
  | scrape landed =>
    rw [← Option.some.inj hstep]
    exact h.scraped hkept landed
  | restartApi =>
    rw [← Option.some.inj hstep]
    exact h.restartApi hkept
  | loadCounterBaselines =>
    rw [metricsStep] at hstep
    split at hstep
    · cases hstep
    · rename_i hloaded
      rw [← Option.some.inj hstep]
      exact h.loadCounterBaselines (eq_false_of_ne_true hloaded)
  | expireBaseline key =>
    rw [← Option.some.inj hstep]
    refine { h with baseline := fun b c => ?_ }
    have hbaseline := h.baseline b c
    rw [show s.loaded = true from hkept] at hbaseline ⊢
    exact hbaseline

/-- **No overcounting**: as long as no baseline is lost, whatever workers and the API do and however
    often they restart, no more is exported for a counter of a bot than the bot has counted. -/
theorem exported_everywhere {as : List MetricsAction}
    (hkept : Machine.Along metricsStep BaselinesKept .start as) :
    Machine.Everywhere metricsStep
      (fun s => ∀ botId c, s.exported botId c ≤ (s.counts botId c).total) .start as := by
  refine Machine.everywhere_of_invariant Accounted _ Accounted.step ?_ accounted_start hkept
  intro s h b c
  have hexported := h.exported_le b c
  have hpublished : (s.publishedAt b c).total ≤ (s.counts b c).total :=
    (h.published_before b c).total_le (h.counts_sound b c)
  cases hlast : (s.sightings b c).reading with
  | none =>
    rw [hlast] at hexported
    have htotal := add_nonneg (h.counts_sound b c).earlier_nonneg (h.counts_sound b c).value_nonneg
    exact hexported.trans htotal
  | some r =>
    rw [hlast] at hexported
    have hread : r.total ≤ (s.publishedAt b c).total :=
      (h.read_before b c r hlast).total_le (h.published_sound b c)
    exact hexported.trans (hread.trans hpublished)

/-- The baselines are in Redis as they are in memory. -/
def Mirrored (api : ApiMetrics) : Prop :=
  ∀ key, api.persisted.get key = api.lastBotCounterValues.get key

/-- Every write to Redis lands, nothing expires there, and a scrape waits for the baselines. -/
def WritesLand (s : MetricsState) : MetricsAction → Prop
  | .scrape landed => s.loaded = true ∧ ∀ key, landed key = true
  | .expireBaseline _ => False
  | _ => True

theorem Mirrored.increment {landed : SeriesKey → Bool} {api : ApiMetrics} (h : Mirrored api)
    (hlanded : ∀ key, landed key = true) (k : SeriesKey) (cumulative : ℚ) :
    Mirrored (incrementCounterFromCumulative landed api k cumulative) := by
  have hpersist : ∀ (api' : ApiMetrics), api'.persisted = api.persisted →
      api'.lastBotCounterValues = api.lastBotCounterValues.set k cumulative →
      Mirrored (persistCounterBaseline landed api' k cumulative) := by
    intro api' hpersisted hlast key
    rw [persistCounterBaseline, if_pos (hlanded k), hlast, hpersisted, InsertionMap.get_set,
      InsertionMap.get_set, h key]
  rw [incrementCounterFromCumulative]
  split
  · exact h
  · cases hlast : api.lastBotCounterValues.get k with
    | none => exact hpersist _ rfl rfl
    | some last =>
      by_cases hchange : (0 < if last ≤ cumulative then cumulative - last else cumulative) ∨
          cumulative ≠ last
      · show Mirrored (if _ then persistCounterBaseline landed _ k cumulative else _)
        rw [if_pos hchange]
        exact hpersist _ rfl rfl
      · have hcumulative : cumulative = last := not_not.mp (not_or.mp hchange).2
        show Mirrored (if _ then persistCounterBaseline landed _ k cumulative else _)
        rw [if_neg hchange]
        intro key
        show api.persisted.get key = (api.lastBotCounterValues.set k cumulative).get key
        rw [InsertionMap.get_set]
        split
        · rename_i hkey
          rw [hkey, h k, hlast, hcumulative]
        · exact h key

theorem Mirrored.collectBotHealth {landed : SeriesKey → Bool} {api : ApiMetrics}
    (h : Mirrored api) (hlanded : ∀ key, landed key = true)
    (payloads : List (String × BotHealthPayload)) :
    Mirrored (collectBotHealth landed payloads api) := by
  have hreadings : ∀ (rs : List (SeriesKey × ℚ)) (api : ApiMetrics), Mirrored api → Mirrored
      (rs.foldl (fun api r => incrementCounterFromCumulative landed api r.1 r.2) api) := by
    intro rs
    induction rs with
    | nil => exact fun _ h => h
    | cons r rest ih => exact fun api h => ih _ (h.increment hlanded r.1 r.2)
  induction payloads generalizing api with
  | nil => exact h
  | cons e rest ih => exact ih (hreadings (readings e) _ h)

/-- While every write lands, no baseline is lost. -/
theorem baselinesKept_of_writesLand {as : List MetricsAction}
    (hland : Machine.Along metricsStep WritesLand .start as) :
    Machine.Along metricsStep BaselinesKept .start as := by
  refine Machine.along_of_invariant
    (fun s => if s.loaded then Mirrored s.api
      else ∀ key, s.api.lastBotCounterValues.get key = none) ?_ ?_ (fun _ => rfl) hland
  · intro s a s' hInv hok hstep
    cases a with
    | count b c amount =>
      rw [metricsStep] at hstep
      split at hstep
      · rw [← Option.some.inj hstep]
        exact hInv
      · cases hstep
    | startAgain b c => exact Option.some.inj hstep ▸ hInv
    | publish b score status uptime => exact Option.some.inj hstep ▸ hInv
    | expire b => exact Option.some.inj hstep ▸ hInv
    | scrape landed =>
      obtain ⟨hloaded, hlanded⟩ := hok
      rw [hloaded, if_pos rfl] at hInv
      rw [← Option.some.inj hstep]
      show if s.loaded then Mirrored (collectBotHealth landed _ s.api) else _
      rw [hloaded, if_pos rfl]
      exact hInv.collectBotHealth hlanded _
    | restartApi =>
      rw [← Option.some.inj hstep]
      exact fun _ => rfl
    | loadCounterBaselines =>
      rw [metricsStep] at hstep
      split at hstep
      · cases hstep
      · rename_i hloaded
        rw [if_neg hloaded] at hInv
        rw [← Option.some.inj hstep]
        intro key
        show _ = (s.api.persisted.entries.foldl _ s.api.lastBotCounterValues).get key
        rw [get_foldl_set s.api.persisted.nodup, hInv key, Option.or_none]
        rfl
    | expireBaseline key => exact hok.elim
  · intro s a s' hInv hok _
    cases a with
    | scrape landed => exact hok.1
    | restartApi =>
      intro hloaded
      rw [hloaded, if_pos rfl] at hInv
      exact hInv
    | expireBaseline key => exact hok.elim
    | _ => trivial

theorem metricsStep_count {s : MetricsState} {b : String} {c : HealthCounter} {amount : ℚ}
    (hamount : 0 ≤ amount) : metricsStep s (.count b c amount) =
      some (s.setCount b c ((s.counts b c).add amount)) :=
  if_pos hamount

/-- A bot whose worker and whose API restart between two scrapes. -/
def restarting : List MetricsAction :=
  [.loadCounterBaselines, .count "bot" .actionsSuccess 3, .publish "bot" 100 "running" 1,
    .scrape fun _ => true, .restartApi, .loadCounterBaselines, .startAgain "bot" .actionsSuccess,
    .count "bot" .actionsSuccess 2, .publish "bot" 100 "running" 1, .scrape fun _ => true]

theorem writesLand_restarting : Machine.Along metricsStep WritesLand .start restarting := by
  have hthree : (0 : ℚ) ≤ 3 := by norm_num
  have htwo : (0 : ℚ) ≤ 2 := by norm_num
  have hlands : ∀ key : SeriesKey, (fun _ : SeriesKey => true) key = true := fun _ => rfl
  exact Machine.along_cons rfl trivial <| Machine.along_cons (metricsStep_count hthree) trivial <|
    Machine.along_cons rfl trivial <| Machine.along_cons rfl ⟨rfl, hlands⟩ <|
    Machine.along_cons rfl trivial <| Machine.along_cons rfl trivial <|
    Machine.along_cons rfl trivial <| Machine.along_cons (metricsStep_count htwo) trivial <|
    Machine.along_cons rfl trivial <| Machine.along_cons rfl ⟨rfl, hlands⟩ trivial

theorem exported_everywhere_restarting :
    Machine.Everywhere metricsStep
      (fun s => ∀ botId c, s.exported botId c ≤ (s.counts botId c).total) .start restarting :=
  exported_everywhere (baselinesKept_of_writesLand writesLand_restarting)

/-- What is exported is what has been read of each count. -/
def ExportsSightings (s : MetricsState) : Prop :=
  ∀ botId c, s.exported botId c = (s.sightings botId c).total

/-- A scrape keeps the exports accurate exactly if it notices what has started again. -/
theorem Accounted.exportsSightings_scraped (h : Accounted s) (hloaded : s.loaded = true)
    (hexports : ExportsSightings s) (landed : SeriesKey → Bool) :
    ExportsSightings (s.scraped landed) ↔ NoticesRestarts s (.scrape landed) := by
  refine forall_congr' fun b => forall_congr' fun c => ?_
  rcases h.scraped_cases hloaded landed b c with
    ⟨hnone, hsame, _, hexp⟩ | ⟨hsome, hsight, _, hexp⟩
  · rw [hexp, hsame, hnone]
    exact iff_of_true (hexports b c) fun hsome => absurd hsome (by decide)
  · rw [hexp, hsight, hexports b c, Sightings.total_sight_iff (h.read_before b c)
      (h.published_sound b c)]
    exact ⟨fun hnotices _ => hnotices, fun hnotices => hnotices hsome⟩

theorem Accounted.exportsSightings_step (s : MetricsState) (a : MetricsAction) (s' : MetricsState)
    (h : Accounted s) (hexports : ExportsSightings s) (hkept : BaselinesKept s a)
    (hstep : metricsStep s a = some s') : ExportsSightings s' ↔ NoticesRestarts s a := by
  cases a with
  | count b c amount =>
    rw [metricsStep] at hstep
    split at hstep
    · rw [← Option.some.inj hstep]
      exact iff_of_true hexports trivial
    · cases hstep
  | scrape landed =>
    rw [← Option.some.inj hstep]
    exact h.exportsSightings_scraped hkept hexports landed
  | restartApi =>
    rw [← Option.some.inj hstep]
    refine iff_of_true (fun b c => ?_) trivial
    show s.exported b c + 0 = _
    rw [add_zero]
    exact hexports b c
  | loadCounterBaselines =>
    rw [metricsStep] at hstep
    split at hstep
    · cases hstep
    · rw [← Option.some.inj hstep]
      exact iff_of_true hexports trivial
  | startAgain b c => exact Option.some.inj hstep ▸ iff_of_true hexports trivial
  | publish b score status uptime => exact Option.some.inj hstep ▸ iff_of_true hexports trivial
  | expire b => exact Option.some.inj hstep ▸ iff_of_true hexports trivial
  | expireBaseline key => exact Option.some.inj hstep ▸ iff_of_true hexports trivial

/-- **Accuracy**: as long as no baseline is lost, the exported counters are what the scrapes have
    seen of each count, summed over the counts that began one after the other, exactly in the runs
    in which each scrape notices what has started again since the last one. -/
theorem exported_sighted_iff {as : List MetricsAction}
    (hkept : Machine.Along metricsStep BaselinesKept .start as) :
    Machine.Everywhere metricsStep ExportsSightings .start as ↔
      Machine.Along metricsStep NoticesRestarts .start as :=
  Machine.everywhere_iff_along_of_guarded Accounted Accounted.step
    Accounted.exportsSightings_step accounted_start (fun _ _ => add_zero 0) hkept

theorem exported_sighted_iff_restarting :
    Machine.Everywhere metricsStep ExportsSightings .start restarting ↔
      Machine.Along metricsStep NoticesRestarts .start restarting :=
  exported_sighted_iff (baselinesKept_of_writesLand writesLand_restarting)

end Steps

end BotHive.Metrics
