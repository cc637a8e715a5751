import BotHive.Library.Text

/-!
# Trading symbols

A trading symbol is the base asset followed by the quote currency (`BTCUSDT`).
`baseOf` finds the base asset by stripping the first known quote currency that
the symbol properly ends in.
-/

namespace BotHive.Crypto

/-- The quote currencies in the order in which they are tried. -/
def quoteCurrencies : List String :=
  ["USDT", "USDC", "BUSD", "FDUSD", "TUSD", "DAI", "EUR", "BTC", "ETH"]

section BaseOf

variable [CaseMapping]

/-- The base asset of a symbol; a symbol without a known quote currency is its own base. -/
def baseOf (symbol : String) : String :=
  let upper := toUpperCase symbol
  (quoteCurrencies.findSome? (properlyStripSuffix? upper)).getD upper

end BaseOf

-- a symbol that is nothing but a quote currency keeps it
example : baseOf "btcusdt" = "BTC" ∧ baseOf "usdt" = "USDT" := by decide

end BotHive.Crypto
