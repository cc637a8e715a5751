import BotHive.Library.Json
import BotHive.Crypto.DryRun
import BotHive.Events.PlatformEvent
import BotHive.Workers.ScriptRegistry

/-!
# Dispatching events to scripts

The workers flatten every event into one record before they look up its scripts: the
envelope first, the payload over it. A payload with a key `type`, `botId`, `platform` or
`eventId` of its own takes the place of the envelope's, and the trade events of the crypto
worker carry the type of the order under `type`.

## Main definitions

- `scriptEvent`: the record that scripts are looked up by and see
- `ScriptEngine.runScripts`: the scripts that an event runs
- `Dispatched`: what dispatching an event should do
- `KeepsEnvelope`, `Unheard`: when it does

## Main results

- `dispatched_iff`: what decides it on a registry in agreement with the registrations
- `dispatched_iff_keepsEnvelope`: the same after every sequence of registrations
- `not_keepsEnvelope_trade`: no trade event of the crypto worker keeps its type
-/

namespace BotHive.Workers

open Events (PlatformEvent Record)

/-- The record that the event handler passes on. -/
def scriptEvent (event : PlatformEvent) : Record :=
  event.toRecord.spread event.payload

section Dispatch

variable {Step : Type} (rt : ScriptRuntime)

namespace ScriptEngine

def hasMatch (engine : ScriptEngine Step) (botId eventType : String) : Bool :=
  !(engine.matching botId eventType).isEmpty

/-- The scripts that an event runs, none when its type has no text. -/
def runScripts (engine : ScriptEngine Step) (botId : String) (event : Record) :
    List (ScriptConfig Step) :=
  match rt.text ((eventField rt event.entries "type").orElse (.str "")) with
  | none => []
  | some eventType =>
    if engine.hasMatch botId eventType then
      (engine.concerned rt botId event.entries).map Prod.fst
    else []

end ScriptEngine

/-- The fields of the envelope that scripts rely on. -/
def envelope (event : PlatformEvent) : List (String × String) :=
  [("botId", event.botId), ("platform", event.platform), ("type", event.type),
    ("eventId", event.eventId)]

/-- Exactly the scripts registered for the bot and the type of the event run, and they see
    the envelope as it is. -/
structure Dispatched (registered : List (Registration Step))
    (executed : List (ScriptConfig Step)) (event : PlatformEvent) : Prop where
  exactly : executed.Perm
    ((registered.filter (Registration.concerns event.botId event.type)).map (·.script))
  envelope_seen : executed ≠ [] → ∀ e ∈ envelope event,
    eventField rt (scriptEvent event).entries e.1 = .str e.2

/-- The payload has no other values under the names of the envelope. -/
def KeepsEnvelope (event : PlatformEvent) : Prop :=
  ∀ e ∈ envelope event, ∀ v, event.payload.get e.1 = some v → v = .str e.2

/-- What the payload has for a type, else the type of the event. -/
def payloadType (event : PlatformEvent) : Value :=
  (event.payload.get "type").getD (.str event.type)

/-- The bot has no script for the event, and none that the type in its payload finds. -/
def Unheard (registered : List (Registration Step)) (event : PlatformEvent) : Prop :=
  registered.filter (Registration.concerns event.botId event.type) = [] ∧
    ∀ found ran, rt.text ((payloadType event).orElse (.str "")) = some found →
      rt.text (payloadType event) = some ran →
      registered.filter (Registration.concerns event.botId found) = [] ∨
        registered.filter (Registration.concerns event.botId ran) = []

theorem ownField_entries (m : Record) (name : String) :
    Value.ownField name m.entries = m.get name :=
  Value.ownField_eq_lookup name m.entries

theorem get_toRecord {event : PlatformEvent} {e : String × String} (he : e ∈ envelope event) :
    event.toRecord.get e.1 = some (.str e.2) := by
  simp only [envelope, List.mem_cons, List.not_mem_nil, or_false] at he
  rcases he with rfl | rfl | rfl | rfl <;>
    cases hreplayed : event.replayed <;> cases hraw : event.raw <;>
      simp [PlatformEvent.toRecord, InsertionMap.ofList, InsertionMap.get_set, hreplayed, hraw]

/-- A script reads a field of the envelope from the payload, if that has it. -/
theorem eventField_scriptEvent {event : PlatformEvent} {e : String × String}
    (he : e ∈ envelope event) :
    eventField rt (scriptEvent event).entries e.1 = (event.payload.get e.1).getD (.str e.2) := by
  rw [eventField, Value.member, ownField_entries, scriptEvent, Record.get_spread,
    get_toRecord he]
  cases event.payload.get e.1 <;> rfl

theorem keepsEnvelope_iff (event : PlatformEvent) :
    (∀ e ∈ envelope event, eventField rt (scriptEvent event).entries e.1 = .str e.2) ↔
      KeepsEnvelope event := by
  refine forall₂_congr fun e he => ?_
  rw [eventField_scriptEvent rt he]
  cases event.payload.get e.1 with
  | none => simp
  | some v => simp

/-- The scripts of an event are looked up by its text and run by its value. -/
theorem runScripts_scriptEvent (engine : ScriptEngine Step) (event : PlatformEvent) :
    engine.runScripts rt event.botId (scriptEvent event) =
      match rt.text ((payloadType event).orElse (.str "")), rt.text (payloadType event) with
      | some found, some ran =>
        if engine.matching event.botId found = [] then [] else engine.matching event.botId ran
      | _, _ => [] := by
  have htype : eventField rt (scriptEvent event).entries "type" = payloadType event :=
    eventField_scriptEvent rt (e := ("type", event.type)) (by simp [envelope])
  rw [ScriptEngine.runScripts, ScriptEngine.concerned, htype]
  cases rt.text ((payloadType event).orElse (.str "")) with
  | none => rfl
  | some found =>
    cases rt.text (payloadType event) with
    | none => simp
    | some ran =>
      cases hmatch : engine.matching event.botId found with
      | nil => simp [ScriptEngine.hasMatch, hmatch]
      | cons script rest => simp [ScriptEngine.hasMatch, hmatch]

variable {registry : ScriptRegistry Step} {registered : List (Registration Step)}

theorem Indexed.matching_eq_nil_iff (h : Indexed registry registered) (botId type : String) :
    registry.matching botId type = [] ↔
      registered.filter (Registration.concerns botId type) = [] := by
  have hperm := h.matching_perm botId type
  constructor
  · intro hnil
    rw [hnil] at hperm
    exact List.map_eq_nil_iff.mp hperm.nil_eq.symm
  · intro hnil
    rw [hnil] at hperm
    exact hperm.eq_nil

/-- The scripts of an event that keeps its envelope are those of its type. -/
theorem runScripts_of_keepsEnvelope (engine : ScriptEngine Step) {event : PlatformEvent}
    (h : KeepsEnvelope event) :
    engine.runScripts rt event.botId (scriptEvent event) =
      engine.matching event.botId event.type := by
  have htype : payloadType event = .str event.type := by
    rw [payloadType]
    cases hv : event.payload.get "type" with
    | none => rfl
    | some v => exact h ("type", event.type) (by simp [envelope]) v hv
  rw [runScripts_scriptEvent, htype]
  simp only [Value.orElse, Value.isNullish, Bool.false_eq_true, if_false, ScriptRuntime.text]
  split_ifs with hmatch
  · exact hmatch.symm
  · rfl

/-- No script runs on an event that none hears of. -/
theorem runScripts_of_unheard (h : Indexed registry registered) {event : PlatformEvent}
    (hunheard : Unheard rt registered event) :
    registry.runScripts rt event.botId (scriptEvent event) = [] := by
  rw [runScripts_scriptEvent]
  cases hfound : rt.text ((payloadType event).orElse (.str "")) with
  | none => rfl
  | some found =>
    cases hran : rt.text (payloadType event) with
    | none => rfl
    | some ran =>
      dsimp only
      rcases hunheard.2 found ran hfound hran with hempty | hempty
      · rw [if_pos ((h.matching_eq_nil_iff _ _).mpr hempty)]
      · rw [(h.matching_eq_nil_iff _ _).mpr hempty, ite_self]

/-- If nothing runs on an event that is dispatched, no script hears of it. -/
theorem unheard_of_runScripts_eq_nil (h : Indexed registry registered) {event : PlatformEvent}
    (hd : Dispatched rt registered (registry.runScripts rt event.botId (scriptEvent event)) event)
    (hnil : registry.runScripts rt event.botId (scriptEvent event) = []) :
    Unheard rt registered event := by
  refine ⟨?_, fun found ran hfound hran => ?_⟩
  · have hperm := hd.exactly
    rw [hnil] at hperm
    exact List.map_eq_nil_iff.mp hperm.nil_eq.symm
  · rw [runScripts_scriptEvent, hfound, hran] at hnil
    dsimp only at hnil
    rw [← h.matching_eq_nil_iff, ← h.matching_eq_nil_iff]
    -- either the test finds no script, or the run does
    split_ifs at hnil with hmatch
    · exact Or.inl hmatch
    · exact Or.inr hnil

/-- **Dispatch**: an event is dispatched exactly when its payload keeps the envelope, or no
    script hears of the event at all. -/
theorem dispatched_iff (h : Indexed registry registered) (event : PlatformEvent) :
    Dispatched rt registered (registry.runScripts rt event.botId (scriptEvent event)) event ↔
      KeepsEnvelope event ∨ Unheard rt registered event := by
  constructor
  · intro hd
    by_cases hnil : registry.runScripts rt event.botId (scriptEvent event) = []
    · exact Or.inr (unheard_of_runScripts_eq_nil rt h hd hnil)
    · exact Or.inl ((keepsEnvelope_iff rt event).mp (hd.envelope_seen hnil))
  · rintro (hkeeps | hunheard)
    · rw [runScripts_of_keepsEnvelope rt registry.toScriptEngine hkeeps]
      exact ⟨h.matching_perm event.botId event.type,
        fun _ => (keepsEnvelope_iff rt event).mpr hkeeps⟩
    · rw [runScripts_of_unheard rt h hunheard]
      refine ⟨?_, fun hne => absurd rfl hne⟩
      rw [hunheard.1]
      exact .refl _

/-- **Script dispatch**: after every sequence of registrations, every event is dispatched
    exactly when its payload keeps the envelope or no script hears of it. -/
theorem dispatched_iff_keepsEnvelope (ops : List (RegistryOp Step)) (event : PlatformEvent) :
    let registry := ops.foldl RegistryOp.apply ScriptRegistry.empty
    let registered := ops.foldl RegistryOp.meaning []
    Dispatched rt registered (registry.runScripts rt event.botId (scriptEvent event)) event ↔
      KeepsEnvelope event ∨ Unheard rt registered event :=
  dispatched_iff rt (Indexed.start.foldl ops) event

end Dispatch

section Trades

open Crypto

/-- The payload of a trade event; the fields of the execution come last. -/
def tradePayload (trade : TradeEvent) : Record :=
  let optional (q : Option ℚ) : Value := q.elim .undefined .num
  .ofList
    [("symbol", .str trade.symbol),
      ("side", .str (if trade.side = .buy then "buy" else "sell")),
      ("type", .str (if trade.type = .limit then "limit" else "market")),
      ("quantity", optional trade.quantity),
      ("quoteOrderQty", optional trade.quoteOrderQty),
      ("price", .num trade.executed.price),
      ("valueUsdt", .num trade.valueUsdt),
      ("tradeMode", .str (if trade.tradeMode = .live then "live" else "dry")),
      ("simulated", .bool trade.executed.simulated),
      ("origin", .str trade.origin),
      ("orderId", .str trade.executed.orderId),
      ("status", .str trade.executed.status),
      ("executedQty", .num trade.executed.executedQty)]

/-- The event that the crypto worker emits for a trade. -/
def tradeEvent (botId eventId : String) (timestamp : Value) (trade : TradeEvent) :
    PlatformEvent where
  botId := botId
  platform := "crypto"
  type := "trade"
  payload := tradePayload trade
  timestamp := timestamp
  replayed := none
  raw := none
  v := 1
  eventId := eventId

/-- The type of the order takes the place of the type of the event. -/
theorem get_type_tradePayload (trade : TradeEvent) :
    (tradePayload trade).get "type" =
      some (.str (if trade.type = .limit then "limit" else "market")) := by
  simp [tradePayload, InsertionMap.ofList, InsertionMap.get_set]

/-- No trade event keeps its envelope. -/
theorem not_keepsEnvelope_trade (botId eventId : String) (timestamp : Value)
    (trade : TradeEvent) : ¬ KeepsEnvelope (tradeEvent botId eventId timestamp trade) := by
  intro h
  have htype := h ("type", "trade") (by simp [envelope, tradeEvent]) _ (get_type_tradePayload trade)
  rw [Value.str.injEq] at htype
  split_ifs at htype <;> exact absurd htype (by decide)

/-- A script of bot `b1` that logs every trade. -/
def logTrades : Registration String where
  botId := "b1"
  script := ⟨some "s1", "trade", [], ["log"], none, none⟩
  botId_plain := by decide
  trigger_plain := by decide

/-- A runtime whose conversions read strings only. -/
def stringRuntime : ScriptRuntime where
  cachedRegex _ := none
  isExpressionAllowed _ := false
  stringOf _ := none
  inherited _ _ := .undefined

/-- A bot with a script for trades buys in dry mode: the script does not run. -/
theorem dispatched_fails_on_trade :
    let plan : OrderPlan := ⟨"BTCUSDT", .buy, .market, none, some 100, none, 100⟩
    let trade := (DryState.empty.placeOrder plan 50 "auto-signal" 0).1
    let event := tradeEvent "b1" "e1" (.num 0) trade
    let ops := [RegistryOp.register logTrades]
    let registry := ops.foldl RegistryOp.apply ScriptRegistry.empty
    let executed := registry.runScripts stringRuntime "b1" (scriptEvent event)
    executed = [] ∧
      ¬ Dispatched stringRuntime (ops.foldl RegistryOp.meaning []) executed event := by
  intro plan trade event ops registry executed
  have hnil : executed.length = 0 := by
    decide
  refine ⟨List.length_eq_zero_iff.mp hnil, fun h => ?_⟩
  have hlength := h.exactly.length_eq
  rw [hnil] at hlength
  revert hlength
  decide

end Trades

end BotHive.Workers
