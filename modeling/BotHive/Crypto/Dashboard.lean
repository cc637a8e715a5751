import BotHive.Crypto.DryRun
import BotHive.Crypto.LedgerSnapshot
import BotHive.Crypto.LiveTrading

/-!
# The trading state on the dashboard

A worker persists the ledger of a live bot and the positions of a dry one under keys of their own,
and counts the spend of each day. Nothing is removed when a bot changes its mode. The API
reads all of these keys and shows one state.

Bot ids are generated, so the pattern of the daily keys matches those of the bot only.

## Main definitions

- `CryptoKeys`: the keys of a bot in Redis
- `CryptoKeys.step`: what the worker does to them
- `getCryptoState`: what the API reads out of them
- `Shows`: the state shown is the one that was persisted last
-/

namespace BotHive.Crypto

section Worker

variable [CaseMapping]

/-- A ledger as the operations of the worker build it. -/
abbrev BuiltLedger := { ledger : TradeLedger // ledger.WellFormed }

/-- What a worker persisted last. -/
inductive Persisted where
  | nothing
  | live (ledger : BuiltLedger)
  | dry (state : DryState)

/-- The keys of a bot: the JSON texts, and the cents of each day. -/
structure CryptoKeys where
  now : ℕ
  live : Option Value
  positions : Option Value
  daily : InsertionMap ℕ DayCounter
  last : Persisted

/-- An amount in JSON text, which has no `NaN`. -/
def Amount.toValue : Amount → Value
  | .finite q => .num q
  | .nan => .null

/-- The dry state in its current format. -/
def DryState.toValue (state : DryState) : Value :=
  .obj
    [("positions", TradeLedger.record .num state.positions),
      ("avgEntry", TradeLedger.record Amount.toValue state.avgEntries),
      ("trailingHigh", TradeLedger.record .num state.trailingHighs)]

inductive CryptoWrite where
  | saveLedger (ledger : BuiltLedger)
  | saveDryState (state : DryState)
  /-- An order claims its cents of the current day. -/
  | claimDailySpend (cents capCents : ℤ)
  | refundDailySpend (cents : ℤ)
  | tick (ms : ℕ)

namespace CryptoKeys

def start : CryptoKeys :=
  ⟨0, none, none, .empty, .nothing⟩

def today (s : CryptoKeys) : ℕ :=
  utcDate s.now

def counter (s : CryptoKeys) (day : ℕ) : DayCounter :=
  (s.daily.get day).getD .missing

def step (s : CryptoKeys) : CryptoWrite → CryptoKeys
  | .saveLedger ledger =>
    { s with live := (ledger.1.snapshot s.now).jsonCopy, last := .live ledger }
  | .saveDryState state => { s with positions := state.toValue.jsonCopy, last := .dry state }
  | .claimDailySpend cents capCents =>
    { s with daily := s.daily.set s.today ((s.counter s.today).claim s.now cents capCents).2 }
  | .refundDailySpend cents =>
    { s with daily := s.daily.set s.today ((s.counter s.today).refund s.now cents) }
  | .tick ms => { s with now := s.now + ms }

def after (writes : List CryptoWrite) : CryptoKeys :=
  writes.foldl step start

end CryptoKeys

end Worker

section Api

structure CryptoPosition where
  symbol : String
  quantity : ℚ
  avgEntry : Option ℚ
  deriving DecidableEq

structure CryptoOpenOrder where
  clientOrderId : String
  symbol : String
  side : Side
  type : OrderType
  price : Option ℚ
  quantity : ℚ
  placedAt : ℚ
  deriving DecidableEq

structure CryptoState where
  /-- none for a bot that has persisted nothing -/
  tradeMode : Option TradeMode
  positions : List CryptoPosition
  realizedPnl : Option ℚ
  openOrders : List CryptoOpenOrder
  dailySpendUsdt : ℚ
  /-- in milliseconds -/
  updatedAt : Option ℚ

def CryptoState.none : CryptoState where
  tradeMode := Option.none
  positions := []
  realizedPnl := Option.none
  openOrders := []
  dailySpendUsdt := 0
  updatedAt := Option.none

/-- A number, if it is positive. -/
def positive? (v : Value) : Option ℚ :=
  v.number?.filter (0 < ·)

/-- What the key of a day adds to the spend. -/
def DayCounter.spend (counter : DayCounter) (now : ℕ) : ℚ :=
  if 0 < (counter.read now).cents then (counter.read now).cents / 100 else 0

variable [CaseMapping]

/-- The sum over the keys of all days. -/
def CryptoKeys.dailySpendUsdt (s : CryptoKeys) : ℚ :=
  s.daily.total fun _ counter => counter.spend s.now

/-- The positions of a record, with the average entries of another one. -/
def readPositions (positions avgEntry : Value) : List CryptoPosition :=
  positions.entries.filterMap fun (symbol, qty) =>
    (positive? qty).map fun quantity =>
      { symbol := toUpperCase symbol
        quantity := quantity
        avgEntry := positive? (avgEntry.field symbol) }

/-- `stringOf` is the text of a value that is no string. -/
def readOrder (stringOf : Value → String) (order : Value) : Option CryptoOpenOrder :=
  match (order.field "clientOrderId").text? with
  | none => none
  | some clientOrderId =>
    if clientOrderId = "" then none
    else
      let symbol := (order.field "symbol").orElse (.str "")
      some
        { clientOrderId := clientOrderId
          symbol := toUpperCase ((symbol.text?).getD (stringOf symbol))
          side := if (order.field "side").text? = some "sell" then .sell else .buy
          type := if (order.field "type").text? = some "limit" then .limit else .market
          price := positive? (order.field "price")
          quantity := (positive? (order.field "quantity")).getD 0
          placedAt := (order.field "placedAt").number?.getD 0 }

def readOrders (stringOf : Value → String) (orders : Value) : List CryptoOpenOrder :=
  (orders.entries.map Prod.snd).filterMap (readOrder stringOf)

variable (stringOf : Value → String) (collate : String → String → Bool)

def sortPositions (positions : List CryptoPosition) : List CryptoPosition :=
  positions.mergeSort fun a b => collate a.symbol b.symbol

def getCryptoState (s : CryptoKeys) : CryptoState :=
  match s.live with
  | some snapshot =>
    if snapshot.isNullish then .none
    else
      { tradeMode := some .live
        positions := sortPositions collate
          (readPositions (snapshot.field "positions") (snapshot.field "avgEntry"))
        realizedPnl := some ((snapshot.field "realizedPnl").number?.getD 0)
        openOrders := (readOrders stringOf (snapshot.field "openOrders")).mergeSort
          fun a b => a.placedAt ≤ b.placedAt
        dailySpendUsdt := s.dailySpendUsdt
        updatedAt := (snapshot.field "updatedAt").number? }
  | none =>
    match s.positions with
    | some positions =>
      if positions.isNullish then .none
      else
        { CryptoState.none with
          tradeMode := some .dry
          -- the format without average entries
          positions := sortPositions collate (readPositions positions .undefined)
          dailySpendUsdt := s.dailySpendUsdt }
    | none => { CryptoState.none with dailySpendUsdt := s.dailySpendUsdt }

end Api

section Claim

/-- The amount, unless it is no number. -/
def Amount.toOption : Amount → Option ℚ
  | .finite q => some q
  | .nan => none

/-- A tracked order as it is shown. -/
def TrackedOrder.shown (order : TrackedOrder) : CryptoOpenOrder where
  clientOrderId := order.clientOrderId
  symbol := order.symbol
  side := order.side
  type := order.type
  price := order.price
  quantity := order.quantity
  placedAt := order.placedAt

variable [CaseMapping]

namespace Persisted

def tradeMode : Persisted → Option TradeMode
  | .nothing => none
  | .live _ => some .live
  | .dry _ => some .dry

def positions : Persisted → List CryptoPosition
  | .nothing => []
  | .live ledger => ledger.1.positions.entries.map fun e => ⟨e.1, e.2, ledger.1.avgEntry.get e.1⟩
  | .dry state =>
    state.positions.entries.map fun e =>
      ⟨e.1, e.2, (state.avgEntries.get e.1).bind Amount.toOption⟩

end Persisted

/-- The state shown is the one that was persisted last, with the spend of the current day. -/
structure Shows (s : CryptoKeys) (shown : CryptoState) : Prop where
  tradeMode : shown.tradeMode = s.last.tradeMode
  positions : shown.positions.Perm s.last.positions
  realizedPnl : ∀ ledger, s.last = .live ledger → shown.realizedPnl = some ledger.1.realizedPnl
  openOrders : ∀ ledger, s.last = .live ledger →
    shown.openOrders.Perm (ledger.1.openOrders.values.map TrackedOrder.shown)
  dailySpendUsdt : shown.dailySpendUsdt = (s.counter s.today).spend s.now

end Claim

end BotHive.Crypto
