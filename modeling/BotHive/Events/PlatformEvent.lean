import BotHive.Library.InsertionMap
import BotHive.Library.Value

/-!
# Platform events

An adapter hands over an envelope with a payload of its own; the worker stamps the
version of the contract and the idempotency key on it.

## Main definitions

- `PlatformEventInput`: an event as an adapter produces it
- `PlatformEvent`: the event with version and idempotency key
- `PlatformEvent.toRecord`: the event as an object
-/

namespace BotHive.Events

/-- A record: a value under each of its names. -/
abbrev Record := InsertionMap String Value

structure PlatformEventInput where
  botId : String
  platform : String
  type : String
  payload : Record
  timestamp : Value
  /-- Set when the event comes from the replay of a stored one. -/
  replayed : Option Bool
  raw : Option Value

structure PlatformEvent extends PlatformEventInput where
  v : ℕ
  eventId : String

/-- The fields of the event as an object. -/
def PlatformEvent.toRecord (event : PlatformEvent) : Record :=
  .ofList
    ([("botId", .str event.botId),
      ("platform", .str event.platform),
      ("type", .str event.type),
      ("payload", .obj event.payload.entries),
      ("timestamp", event.timestamp),
      ("v", .num event.v),
      ("eventId", .str event.eventId)] ++
    (event.replayed.map fun b => ("replayed", Value.bool b)).toList ++
    (event.raw.map fun raw => ("raw", raw)).toList)

/-- The object literal `{ ...base, ...extra }`. -/
def Record.spread (base extra : Record) : Record :=
  extra.entries.foldl (fun m e => m.set e.1 e.2) base

/-- A name that both have is read from the second record. -/
theorem Record.get_spread (base extra : Record) (name : String) :
    (base.spread extra).get name = (extra.get name).or (base.get name) :=
  InsertionMap.get_foldl_set extra.nodup base name

end BotHive.Events
