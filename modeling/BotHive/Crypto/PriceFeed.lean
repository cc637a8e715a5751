import BotHive.Crypto.AlertSignals
import BotHive.Crypto.Symbols

/-!
# The price feed

A feed takes its symbols in upper case and without duplicates, and the ids of their coins as they
are configured. CoinGecko is asked for the ids, and the symbols take the prices of the ids at
their own positions.

## Main definitions

- `PriceFeed.ofOptions`: the constructor
- `CoinGeckoClient.getPrices`, `PriceFeed.fromCoinGecko`: prices by id, and by symbol
- `PricesBelong`: every symbol has the price of an id that was configured for it

## Main results

- `get_fromCoinGecko_iff`: which price a symbol carries
- `pricesBelong_iff`: when every symbol carries the price of its own coin, whatever comes back
-/

namespace BotHive.Crypto

open InsertionMap (distinct)

structure CoinGeckoPrice where
  price : ℚ
  change24h : Option ℚ

/-- What CoinGecko says of an id; `usd` is missing unless it is a number. -/
structure CoinGeckoRow where
  usd : Option ℚ
  usd24hChange : Option ℚ

/-- The price in a row, if there is one. -/
def CoinGeckoRow.price? (row : CoinGeckoRow) : Option CoinGeckoPrice :=
  row.usd.map fun usd => { price := usd, change24h := row.usd24hChange }

structure CoinGeckoClient where
  /-- The last prices, and until when they are used. -/
  priceCache : Option (ℤ × InsertionMap String CoinGeckoPrice)
  priceCacheMs : ℤ

namespace CoinGeckoClient

/-- What an answer says of some ids. -/
def readPrices (answer : String → Option CoinGeckoRow) (ids : List String) :
    InsertionMap String CoinGeckoPrice :=
  .ofList ((distinct ids).filterMap fun id =>
    ((answer id).bind CoinGeckoRow.price?).map fun price => (id, price))

/-- `getPrices` of a request that CoinGecko answers. -/
def getPrices (client : CoinGeckoClient) (now : ℤ) (answer : String → Option CoinGeckoRow)
    (ids : List String) : InsertionMap String CoinGeckoPrice × CoinGeckoClient :=
  match client.priceCache.filter fun cache => now < cache.1 with
  | some cache => (cache.2, client)
  | none =>
    if ids = [] then (.empty, client)
    else
      let out := readPrices answer ids
      (out, { client with priceCache := some (now + client.priceCacheMs, out) })

end CoinGeckoClient

def coingeckoIdBySymbol : List (String × String) :=
  [("BTC", "bitcoin"), ("ETH", "ethereum"), ("BNB", "binancecoin"), ("SOL", "solana"),
    ("XRP", "ripple"), ("ADA", "cardano"), ("DOGE", "dogecoin"), ("DOT", "polkadot"),
    ("AVAX", "avalanche-2"), ("MATIC", "matic-network"), ("POL", "polygon-ecosystem-token"),
    ("LINK", "chainlink"), ("LTC", "litecoin"), ("UNI", "uniswap"), ("ATOM", "cosmos"),
    ("TON", "the-open-network"), ("TRX", "tron"), ("NEAR", "near"), ("APT", "aptos"),
    ("ARB", "arbitrum")]

structure PriceFeedOptions where
  symbols : List String
  coinIds : Option (List String)

inductive PriceFeedError where
  | noSymbols
  | coinIdsLength
  | noCoinId (symbol : String)
  deriving DecidableEq

def PriceFeedError.text : PriceFeedError → String
  | .noSymbols => "crypto.symbols must contain at least one symbol"
  | .coinIdsLength => "crypto.coinIds must match crypto.symbols one-to-one"
  | .noCoinId symbol =>
    "No CoinGecko id known for " ++ symbol ++ "; set crypto.coinIds to map symbols to ids"

structure PriceFeed where
  symbols : List String
  coinIds : Option (List String)
  nodup : symbols.Nodup

/-- The point of a price from CoinGecko. -/
def CoinGeckoPrice.point (price : CoinGeckoPrice) (timestamp : ℤ) : PricePoint where
  price := price.price
  change24h := price.change24h
  source := .coingecko
  timestamp := timestamp

section Feed

variable [CaseMapping]

namespace PriceFeed

/-- The constructor. -/
def ofOptions (opts : PriceFeedOptions) : Except PriceFeedError PriceFeed :=
  if opts.symbols = [] then .error .noSymbols
  else if opts.coinIds.any fun ids => ids.length ≠ opts.symbols.length then
    .error .coinIdsLength
  else
    .ok {
      symbols := distinct (opts.symbols.map toUpperCase)
      coinIds := opts.coinIds
      nodup := InsertionMap.nodup_distinct _ }

/-- The ids that CoinGecko is asked for. -/
def ids (feed : PriceFeed) : Except PriceFeedError (List String) :=
  match feed.coinIds with
  | some ids => .ok ids
  | none => feed.symbols.mapM fun symbol =>
    match coingeckoIdBySymbol.lookup (baseOf symbol) with
    | some id => .ok id
    | none => .error (.noCoinId symbol)

/-- The symbols with the prices of the ids at their positions. -/
def points (feed : PriceFeed) (ids : List String) (prices : InsertionMap String CoinGeckoPrice)
    (timestamp : ℤ) : InsertionMap String PricePoint :=
  .ofList ((feed.symbols.zip ids).filterMap fun pair =>
    (prices.get pair.2).map fun price => (pair.1, price.point timestamp))

def fromCoinGecko (feed : PriceFeed) (client : CoinGeckoClient) (now timestamp : ℤ)
    (answer : String → Option CoinGeckoRow) :
    Except PriceFeedError (InsertionMap String PricePoint × CoinGeckoClient) := do
  let ids ← feed.ids
  let (prices, client) := client.getPrices now answer ids
  return (feed.points ids prices timestamp, client)

end PriceFeed

/-- Symbols and ids at the same positions of a configuration. -/
def configured (symbols coinIds : List String) : List (String × String) :=
  (symbols.map toUpperCase).zip coinIds

/-- Whatever comes back, every symbol in the result carries the price of an id that was
    configured at a position of this symbol. -/
def PricesBelong (symbols coinIds : List String) (feed : PriceFeed) : Prop :=
  ∀ client now timestamp answer result, feed.fromCoinGecko client now timestamp answer = .ok result →
    ∀ symbol point, result.1.get symbol = some point →
      ∃ id price, (symbol, id) ∈ configured symbols coinIds ∧
        (client.getPrices now answer coinIds).1.get id = some price ∧
        point = price.point timestamp

end Feed

section Keys

variable {α β κ γ : Type*}

/-- Entries that are kept have their keys in the order of the list they come from. -/
theorem keys_filterMap_sublist (key : α → κ) (f : α → Option γ) (l : List α) :
    ((l.filterMap fun a => (f a).map fun c => (key a, c)).map Prod.fst).Sublist (l.map key) := by
  induction l with
  | nil => exact List.Sublist.refl _
  | cons a l ih =>
    rw [List.filterMap_cons, List.map_cons]
    cases f a with
    | none => exact ih.cons (key a)
    | some c => exact ih.cons_cons (key a)

theorem map_fst_zip_sublist (xs : List α) (ys : List β) :
    ((xs.zip ys).map Prod.fst).Sublist xs := by
  induction xs generalizing ys with
  | nil => exact List.Sublist.refl _
  | cons x xs ih =>
    cases ys with
    | nil => exact List.nil_sublist _
    | cons y ys => exact (ih ys).cons_cons x

end Keys

section Points

variable {feed : PriceFeed} {ids : List String} {prices : InsertionMap String CoinGeckoPrice}
  {timestamp : ℤ}

/-- The price that a symbol carries is that of the id at its position. -/
theorem get_points_iff (symbol : String) (point : PricePoint) :
    (feed.points ids prices timestamp).get symbol = some point ↔
      ∃ id price, (symbol, id) ∈ feed.symbols.zip ids ∧ prices.get id = some price ∧
        point = price.point timestamp := by
  have hnodup := ((keys_filterMap_sublist Prod.fst
    (fun pair => (prices.get pair.2).map fun price => price.point timestamp)
    (feed.symbols.zip ids)).trans (map_fst_zip_sublist _ _)).nodup feed.nodup
  simp only [Option.map_map, Function.comp_def] at hnodup
  rw [PriceFeed.points, InsertionMap.get_ofList_iff hnodup, List.mem_filterMap]
  constructor
  · rintro ⟨⟨other, id⟩, hmem, hmap⟩
    obtain ⟨price, hprice, heq⟩ := Option.map_eq_some_iff.mp hmap
    cases heq
    exact ⟨id, price, hmem, hprice, rfl⟩
  · rintro ⟨id, price, hmem, hprice, rfl⟩
    exact ⟨(symbol, id), hmem, by rw [hprice]; rfl⟩

end Points

/-- A client that has not asked for prices yet. -/
def freshClient : CoinGeckoClient where
  priceCache := none
  priceCacheMs := 10000

/-- An answer with a price for one id only. -/
def onlyPriceOf (id other : String) : Option CoinGeckoRow :=
  if other = id then some { usd := some 1, usd24hChange := none } else none

/-- The prices that are read are those in the rows of the ids. -/
theorem get_readPrices_iff {answer : String → Option CoinGeckoRow} {ids : List String} {id : String}
    {price : CoinGeckoPrice} :
    (CoinGeckoClient.readPrices answer ids).get id = some price ↔
      id ∈ ids ∧ (answer id).bind CoinGeckoRow.price? = some price := by
  have hnodup := (keys_filterMap_sublist (fun id => id)
    (fun id => (answer id).bind CoinGeckoRow.price?) (distinct ids)).nodup
    ((List.map_id' (distinct ids)).symm ▸ InsertionMap.nodup_distinct ids)
  rw [CoinGeckoClient.readPrices, InsertionMap.get_ofList_iff hnodup, List.mem_filterMap]
  constructor
  · rintro ⟨other, hmem, hmap⟩
    obtain ⟨found, hfound, heq⟩ := Option.map_eq_some_iff.mp hmap
    cases heq
    exact ⟨(InsertionMap.mem_distinct ids id).mp hmem, hfound⟩
  · rintro ⟨hmem, hprice⟩
    exact ⟨id, (InsertionMap.mem_distinct ids id).mpr hmem, by rw [hprice]; rfl⟩

section Belong

variable [CaseMapping] {symbols coinIds : List String} {feed : PriceFeed}

theorem ofOptions_some (h : PriceFeed.ofOptions ⟨symbols, some coinIds⟩ = .ok feed) :
    feed.symbols = distinct (symbols.map toUpperCase) ∧ feed.coinIds = some coinIds := by
  rw [PriceFeed.ofOptions] at h
  split_ifs at h
  cases h
  exact ⟨rfl, rfl⟩

theorem fromCoinGecko_of_coinIds (h : feed.coinIds = some coinIds) (client : CoinGeckoClient)
    (now timestamp : ℤ) (answer : String → Option CoinGeckoRow) :
    feed.fromCoinGecko client now timestamp answer =
      .ok (feed.points coinIds (client.getPrices now answer coinIds).1 timestamp,
        (client.getPrices now answer coinIds).2) := by
  rw [PriceFeed.fromCoinGecko, PriceFeed.ids, h]
  rfl

/-- Every symbol carries the price of its own coin, whatever comes back, exactly when each id
    among the first ones, as many as there are distinct symbols, is configured at a position of
    the distinct symbol with its number. -/
theorem pricesBelong_iff (symbols coinIds : List String) (feed : PriceFeed)
    (h : PriceFeed.ofOptions ⟨symbols, some coinIds⟩ = .ok feed) :
    PricesBelong symbols coinIds feed ↔
      ∀ pair ∈ (distinct (symbols.map toUpperCase)).zip coinIds,
        pair ∈ configured symbols coinIds := by
  obtain ⟨hsymbols, hids⟩ := ofOptions_some h
  constructor
  · rintro hbelong ⟨symbol, id⟩ hpair
    have hmem : id ∈ coinIds := (List.of_mem_zip hpair).2
    have hne : coinIds ≠ [] := List.ne_nil_of_mem hmem
    -- only this id has a price, and its symbol carries it
    have hread : (freshClient.getPrices 0 (onlyPriceOf id) coinIds).1 =
        CoinGeckoClient.readPrices (onlyPriceOf id) coinIds := by
      rw [CoinGeckoClient.getPrices]
      exact congrArg Prod.fst (if_neg hne)
    have hprice : (CoinGeckoClient.readPrices (onlyPriceOf id) coinIds).get id =
        some { price := 1, change24h := none } :=
      get_readPrices_iff.mpr ⟨hmem, by rw [onlyPriceOf, if_pos rfl]; rfl⟩
    have hcarries : (feed.points coinIds (freshClient.getPrices 0 (onlyPriceOf id) coinIds).1
        0).get symbol = some (CoinGeckoPrice.point { price := 1, change24h := none } 0) :=
      (get_points_iff symbol _).mpr ⟨id, _, hsymbols ▸ hpair, hread ▸ hprice, rfl⟩
    obtain ⟨other, price, hconfigured, hother, -⟩ := hbelong freshClient 0 0 (onlyPriceOf id) _
      (fromCoinGecko_of_coinIds hids _ _ _ _) symbol _ hcarries
    rw [hread] at hother
    have hrow := (get_readPrices_iff.mp hother).2
    rw [onlyPriceOf] at hrow
    split_ifs at hrow with hid
    · exact hid ▸ hconfigured
    · cases hrow
  · intro hall client now timestamp answer result hresult symbol point hpoint
    rw [fromCoinGecko_of_coinIds hids, Except.ok.injEq] at hresult
    obtain rfl := hresult
    obtain ⟨id, price, hmem, hprice, heq⟩ := (get_points_iff symbol point).mp hpoint
    exact ⟨id, price, hall _ (hsymbols ▸ hmem), hprice, heq⟩

end Belong

/-- Symbols without duplicates carry their own prices. -/
theorem pricesBelong_twoCoins :
    PricesBelong ["BTCUSDT", "ethusdt"] ["bitcoin", "ethereum"]
      ⟨["BTCUSDT", "ETHUSDT"], some ["bitcoin", "ethereum"], by decide⟩ :=
  (pricesBelong_iff ["BTCUSDT", "ethusdt"] ["bitcoin", "ethereum"] _ rfl).mpr (by decide)

/-- A symbol that is configured twice moves the following symbol to the id of the first one. -/
theorem not_pricesBelong_duplicate :
    PriceFeed.ofOptions
        ⟨["BTCUSDT", "btcusdt", "ETHUSDT"], some ["bitcoin", "bitcoin", "ethereum"]⟩ =
      .ok ⟨["BTCUSDT", "ETHUSDT"], some ["bitcoin", "bitcoin", "ethereum"], by decide⟩ ∧
    ¬ PricesBelong ["BTCUSDT", "btcusdt", "ETHUSDT"] ["bitcoin", "bitcoin", "ethereum"]
      ⟨["BTCUSDT", "ETHUSDT"], some ["bitcoin", "bitcoin", "ethereum"], by decide⟩ := by
  refine ⟨rfl, fun h => ?_⟩
  obtain ⟨id, price, hconfigured, hprice, -⟩ :=
    h freshClient 0 0 (onlyPriceOf "bitcoin") _ rfl "ETHUSDT" _ rfl
  have hpairs : configured ["BTCUSDT", "btcusdt", "ETHUSDT"] ["bitcoin", "bitcoin", "ethereum"] =
      [("BTCUSDT", "bitcoin"), ("BTCUSDT", "bitcoin"), ("ETHUSDT", "ethereum")] := rfl
  rw [hpairs] at hconfigured
  obtain rfl : id = "ethereum" := by simpa using hconfigured
  cases hprice

end BotHive.Crypto
