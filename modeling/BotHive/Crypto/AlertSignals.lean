import BotHive.Crypto.Evaluate

/-!
# Alerts

The `alert` strategy compares the price of an evaluation with the price that is cached for the
symbol. Evaluations of the REST poll and of stream ticks store their price when they end, after
the events and the trade they wait for; throttled ticks and lookups of a price store theirs as
well. This is the strategy for one symbol of a bot without protective exits.

## Main definitions

- `alertSignal`, `evaluateAlert`: the strategy
- `AlertState`: what the worker keeps for the symbol, and the evaluations that wait
- `AlertState.step`: points, ticks, lookups and the promises they wait for, in any order

The prices of all evaluations (`evaluated`), what the strategy said of each (`detected`) and
the signals that were emitted are kept for the statement only, the newest first.
-/

namespace BotHive.Crypto

inductive PriceSource where
  | binance
  | coingecko
  deriving DecidableEq

structure PricePoint where
  price : ℚ
  change24h : Option ℚ
  source : PriceSource
  /-- in milliseconds -/
  timestamp : ℤ

structure HubTick where
  price : ℚ
  change24h : Option ℚ
  timestamp : ℤ

/-- Ticks of a symbol are evaluated at most this often, in milliseconds. -/
def tickEvalMinMs : ℤ := 2000

/-- A cached price of this age is still used, in milliseconds. -/
def priceStaleMs : ℤ := 30000

/-- The settings of the bot. Thresholds are missing unless they are finite numbers. -/
structure AlertConfig where
  upThreshold : Option ℚ
  downThreshold : Option ℚ
  autoTrade : Bool
  priceEventIntervalMs : ℤ

def alertSignal (current previous : ℚ) (upThreshold downThreshold : Option ℚ) :
    Option SignalDirection :=
  if upThreshold.any (fun up => previous ≤ up ∧ up < current) then some .buy
  else if downThreshold.any (fun down => down ≤ previous ∧ current < down) then some .sell
  else none

structure StrategySignal where
  direction : SignalDirection
  reason : String
  price : ℚ

def evaluateAlert (config : AlertConfig) (currentPrice previousPrice : ℚ) :
    Option StrategySignal :=
  (alertSignal currentPrice previousPrice config.upThreshold config.downThreshold).map
    fun direction =>
      { direction := direction
        reason := "Price " ++ (if direction = .buy then "broke above" else "broke below") ++
          " threshold"
        price := currentPrice }

structure SignalEvent where
  direction : SignalDirection
  price : ℚ
  reason : String
  source : PriceSource
  change24h : Option ℚ

/-- Where an evaluation of a point waits. -/
inductive AlertTask where
  | signalEmit (point : PricePoint)
  | trade (point : PricePoint)
  | priceEmit (point : PricePoint)

structure AlertState where
  now : ℤ
  lastPrice : Option PricePoint
  lastSignal : Option SignalDirection
  lastTickEval : ℤ
  lastPriceEvent : ℤ
  tasks : ℕ → Option AlertTask
  /-- The lookups that wait for the feed. -/
  fetching : ℕ
  evaluated : List ℚ
  detected : List (Option SignalDirection)
  emitted : List SignalEvent

inductive AlertAction where
  | wait (ms : ℕ)
  /-- The poll has a point for the symbol. -/
  | point (task : ℕ) (point : PricePoint)
  | tick (task : ℕ) (tick : HubTick)
  /-- A script or an order asks for the price. -/
  | getPrice
  /-- The feed answers a lookup, perhaps without a price for the symbol. -/
  | fetched (point : Option PricePoint)
  /-- The promise that an evaluation waits for is resolved, or rejected. -/
  | resume (task : ℕ)
  | fail (task : ℕ)

namespace AlertState

variable (config : AlertConfig)

/-- A bot that has connected with the prices of a first refresh. -/
def start (now : ℤ) (initial : Option PricePoint) : AlertState where
  now := now
  lastPrice := initial
  lastSignal := none
  lastTickEval := 0
  lastPriceEvent := 0
  tasks _ := none
  fetching := 0
  evaluated := []
  detected := []
  emitted := []

def goto (s : AlertState) (i : ℕ) (task : Option AlertTask) : AlertState :=
  { s with tasks := Function.update s.tasks i task }

/-- The last step of an evaluation. -/
def store (s : AlertState) (i : ℕ) (point : PricePoint) : AlertState :=
  { s with lastPrice := some point }.goto i none

/-- After the signal: the price event, at most once in its interval. -/
def afterSignal (s : AlertState) (i : ℕ) (point : PricePoint) : AlertState :=
  if config.priceEventIntervalMs ≤ s.now - s.lastPriceEvent then
    { s with lastPriceEvent := s.now }.goto i (some (.priceEmit point))
  else s.store i point

/-- The price that an evaluation compares with. -/
def previousPrice (s : AlertState) (point : PricePoint) : ℚ :=
  (s.lastPrice.map PricePoint.price).getD point.price

def evaluateSymbol (s : AlertState) (i : ℕ) (point : PricePoint) : AlertState :=
  let signal := evaluateAlert config point.price (s.previousPrice point)
  let noted := { s with
    evaluated := point.price :: s.evaluated
    detected := signal.map StrategySignal.direction :: s.detected }
  match signal with
  | none => noted.afterSignal config i point
  | some signal =>
    if s.lastSignal ≠ some signal.direction then
      { noted with
        lastSignal := some signal.direction
        emitted := ⟨signal.direction, signal.price, signal.reason, point.source,
          point.change24h⟩ :: s.emitted }.goto i (some (.signalEmit point))
    else noted.afterSignal config i point

/-- The point of a tick. -/
def tickPoint (current : PricePoint) (tick : HubTick) : PricePoint :=
  { current with
    price := tick.price
    change24h := tick.change24h.or current.change24h
    timestamp := tick.timestamp }

def onStreamTick (s : AlertState) (i : ℕ) (tick : HubTick) : AlertState :=
  match s.lastPrice with
  | none => s
  | some current =>
    if tickEvalMinMs ≤ s.now - s.lastTickEval then
      { s with lastTickEval := s.now }.evaluateSymbol config i (tickPoint current tick)
    else { s with lastPrice := some (tickPoint current tick) }

def resume (s : AlertState) (i : ℕ) : AlertTask → AlertState
  | .signalEmit point =>
    if config.autoTrade then s.goto i (some (.trade point)) else s.afterSignal config i point
  | .trade point => s.afterSignal config i point
  | .priceEmit point => s.store i point

def step (s : AlertState) : AlertAction → Option AlertState
  | .wait ms => some { s with now := s.now + ms }
  | .point i point =>
    if (s.tasks i).isSome then none else some (s.evaluateSymbol config i point)
  | .tick i tick => if (s.tasks i).isSome then none else some (s.onStreamTick config i tick)
  | .getPrice =>
    if s.lastPrice.any fun cached => s.now - cached.timestamp ≤ priceStaleMs then some s
    else some { s with fetching := s.fetching + 1 }
  | .fetched point =>
    if s.fetching = 0 then none
    else some { s with fetching := s.fetching - 1, lastPrice := point.or s.lastPrice }
  | .resume i => (s.tasks i).map (s.resume config i)
  | .fail i => (s.tasks i).map fun _ => s.goto i none

end AlertState

end BotHive.Crypto
