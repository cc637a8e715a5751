import BotHive.Events.PlatformEvent

/-!
# What the adapters emit

The handlers of the Telegram, Discord and Slack adapters: from an update of the platform
to the event they emit, or to nothing when they ignore it. The Telegram handlers of voice
and audio messages are left out: the handler of all messages is registered before them
and passes nothing on.

## Main definitions

- `TelegramUpdate`, `DiscordUpdate`, `SlackUpdate`: what the platforms deliver
- `Delivery.event`: what a handler emits for a delivery
- `SourceId`, `Delivery.source`: the platform event that is delivered
-/

namespace BotHive.Events

/-- The id of a platform's object, never the empty text. -/
def PlatformId : Type :=
  { s : String // s ≠ "" }
  deriving DecidableEq

namespace PlatformId

def toValue (i : PlatformId) : Value :=
  .str i.val

@[simp] theorem val_inj {i j : PlatformId} : i.val = j.val ↔ i = j :=
  Subtype.ext_iff.symm

end PlatformId

/-- A text that a payload may lack. -/
def optionalText (s : Option String) : Value :=
  (s.map Value.str).getD .undefined

def optionalId (i : Option PlatformId) : Value :=
  (i.map PlatformId.toValue).getD .undefined

structure TelegramChat where
  id : ℤ
  other : List (String × Value)

def TelegramChat.toValue (chat : TelegramChat) : Value :=
  .obj (("id", .num chat.id) :: chat.other)

inductive TelegramUpdate where
  | message (text : Option String) (sender : Value) (chat : TelegramChat) (messageId : ℕ)
  | callbackQuery (id : PlatformId) (data : String) (sender : Value)
    (origin : Option (TelegramChat × ℕ))
  | myChatMember (updateId : ℕ) (chat : TelegramChat) (oldState newState : Value)

/-- The handlers of `TelegramWorker.connect`. -/
def TelegramUpdate.event (botId : String) (timestamp : Value) :
    TelegramUpdate → Option PlatformEventInput
  | .message text sender chat messageId =>
    some
      { botId := botId, platform := "telegram", type := "message"
        payload := .ofList
          [("text", optionalText text),
            ("from", sender),
            ("chat", chat.toValue),
            ("chatId", .num chat.id),
            ("messageId", .num messageId)]
        timestamp := timestamp, replayed := none, raw := none }
  | .callbackQuery id data sender origin =>
    some
      { botId := botId, platform := "telegram", type := "message"
        payload := .ofList
          [("id", id.toValue),
            ("callbackData", .str data),
            ("from", sender),
            ("chatId", (origin.map fun m => Value.num m.1.id).getD .undefined),
            ("messageId", (origin.map fun m => Value.num m.2).getD .undefined)]
        timestamp := timestamp, replayed := none, raw := none }
  | .myChatMember _ chat oldState newState =>
    some
      { botId := botId, platform := "telegram", type := "message"
        payload := .ofList
          [("chat", chat.toValue), ("oldState", oldState), ("newState", newState)]
        timestamp := timestamp, replayed := none, raw := none }

structure DiscordUser where
  id : PlatformId
  username : String
  discriminator : String
  bot : Bool

/-- An emoji of the platform, which has a name, or one of a server. -/
structure DiscordEmoji where
  id : Option PlatformId
  name : Option String
  deriving DecidableEq

structure DiscordChannel where
  id : PlatformId
  type : ℕ
  name : Option String

structure DiscordAttachment where
  id : PlatformId
  url : String
  contentType : Option String
  size : ℕ

def DiscordAttachment.toValue (a : DiscordAttachment) : Value :=
  .obj
    [("id", a.id.toValue),
      ("url", .str a.url),
      ("contentType", (a.contentType.map Value.str).getD .null),
      ("size", .num a.size)]

inductive DiscordUpdate where
  | messageCreate (id : PlatformId) (content : String) (author : DiscordUser)
    (channel : DiscordChannel) (guildId : Option PlatformId)
    (attachments : List DiscordAttachment)
  | messageReactionAdd (messageId channelId : PlatformId) (guildId : Option PlatformId)
    (emoji : DiscordEmoji) (user : DiscordUser)
  | guildMemberAdd (user : DiscordUser) (guildId : PlatformId) (guildName : String)
    (joinedAt : Option String)

/-- The handlers of `DiscordWorker.connect`. -/
def DiscordUpdate.event (botId : String) (timestamp : Value) :
    DiscordUpdate → Option PlatformEventInput
  | .messageCreate id content author channel guildId attachments =>
    if author.bot then none
    else some
      { botId := botId, platform := "discord", type := "message"
        payload := .ofList
          [("text", .str content),
            ("from", .obj
              [("id", author.id.toValue),
                ("username", .str author.username),
                ("discriminator", .str author.discriminator),
                ("bot", .bool author.bot)]),
            ("channel", .obj
              [("id", channel.id.toValue),
                ("type", .num channel.type),
                ("guildId", optionalId guildId),
                ("name", optionalText channel.name)]),
            ("messageId", id.toValue),
            ("guildId", optionalId guildId),
            ("attachments", .arr (attachments.map DiscordAttachment.toValue))]
        timestamp := timestamp, replayed := none, raw := none }
  | .messageReactionAdd messageId channelId guildId emoji user =>
    if user.bot then none
    else some
      { botId := botId, platform := "discord", type := "reaction"
        payload := .ofList
          [("emoji", ((emoji.name.map Value.str).or (emoji.id.map PlatformId.toValue)).getD .null),
            ("messageId", messageId.toValue),
            ("channelId", channelId.toValue),
            ("guildId", optionalId guildId),
            ("userId", user.id.toValue),
            ("username", .str user.username)]
        timestamp := timestamp, replayed := none, raw := none }
  | .guildMemberAdd user guildId guildName joinedAt =>
    some
      { botId := botId, platform := "discord", type := "member_join"
        payload := .ofList
          [("userId", user.id.toValue),
            ("username", .str user.username),
            ("guildId", guildId.toValue),
            ("guildName", .str guildName),
            ("joinedAt", optionalText joinedAt)]
        timestamp := timestamp, replayed := none, raw := none }

/-- What a reaction is on: a message in a channel, or another item such as a file. -/
inductive SlackItem where
  | message (channel ts : PlatformId)
  | other (id : PlatformId)
  deriving DecidableEq

def SlackItem.channel : SlackItem → Option PlatformId
  | .message channel _ => some channel
  | .other _ => none

def SlackItem.ts : SlackItem → Option PlatformId
  | .message _ ts => some ts
  | .other _ => none

/-- The events of a workspace. The envelope of a delivery carries an event id, which the
    handlers are not given. -/
inductive SlackUpdate where
  | message (channel ts : PlatformId) (text user sentByBot threadTs subtype : Option String)
    (profileName : Option String)
  | reactionAdded (item : SlackItem) (reaction : String) (user ownUser : PlatformId)
  | memberJoinedChannel (eventId user channel : PlatformId)
  | teamJoin (eventId user : PlatformId) (name realName : Option String)

/-- The sender of a message, under the name that `users.info` answers. -/
def slackUserInfo (user profileName : Option String) : Value :=
  let user := user.getD ""
  if user = "" then .obj [("id", .str "unknown"), ("name", .str "unknown")]
  else .obj [("id", .str user), ("name", .str (profileName.getD user))]

/-- The handlers of `SlackWorker.connect`. -/
def SlackUpdate.event (botId : String) (timestamp : Value) :
    SlackUpdate → Option PlatformEventInput
  | .message channel ts text user sentByBot threadTs subtype profileName =>
    if sentByBot.any (· ≠ "") then none
    else some
      { botId := botId, platform := "slack", type := "message"
        payload := .ofList
          [("text", .str (text.getD "")),
            ("from", slackUserInfo user profileName),
            ("channel", channel.toValue),
            ("channelId", channel.toValue),
            ("messageId", ts.toValue),
            ("threadTs", optionalText threadTs),
            ("subtype", optionalText subtype)]
        timestamp := timestamp, replayed := none, raw := none }
  | .reactionAdded item reaction user ownUser =>
    if user = ownUser then none
    else some
      { botId := botId, platform := "slack", type := "reaction"
        payload := .ofList
          [("emoji", .str reaction),
            ("messageId", optionalId item.ts),
            ("channelId", optionalId item.channel),
            ("userId", user.toValue)]
        timestamp := timestamp, replayed := none, raw := none }
  | .memberJoinedChannel _ user channel =>
    some
      { botId := botId, platform := "slack", type := "member_join"
        payload := .ofList [("userId", user.toValue), ("channelId", channel.toValue)]
        timestamp := timestamp, replayed := none, raw := none }
  | .teamJoin _ user name realName =>
    some
      { botId := botId, platform := "slack", type := "team_join"
        payload := .ofList
          [("userId", user.toValue),
            ("username", optionalText name),
            ("realName", optionalText realName)]
        timestamp := timestamp, replayed := none, raw := none }

inductive Delivery where
  | telegram (update : TelegramUpdate)
  | discord (update : DiscordUpdate)
  | slack (update : SlackUpdate)

/-- What the adapter of a bot emits for a delivery. -/
def Delivery.event (botId : String) (timestamp : Value) : Delivery → Option PlatformEventInput
  | .telegram update => update.event botId timestamp
  | .discord update => update.event botId timestamp
  | .slack update => update.event botId timestamp

/-- Which platform event a delivery delivers. Message ids of Telegram are unique in their
    chat, timestamps of Slack in their channel, the other ids everywhere. -/
inductive SourceId where
  | telegramMessage (chatId : ℤ) (messageId : ℕ)
  | telegramClick (id : PlatformId)
  | telegramMembership (updateId : ℕ)
  | discordMessage (id : PlatformId)
  | discordReaction (messageId user : PlatformId) (emoji : DiscordEmoji)
  | discordMemberJoin (guildId user : PlatformId) (joinedAt : Option String)
  | slackMessage (channel ts : PlatformId)
  | slackReaction (channel ts user : PlatformId) (reaction : String)
  | slackItemReaction (item user : PlatformId) (reaction : String)
  | slackMemberJoin (eventId : PlatformId)
  | slackTeamJoin (eventId : PlatformId)
  deriving DecidableEq

def Delivery.source : Delivery → SourceId
  | .telegram (.message _ _ chat messageId) => .telegramMessage chat.id messageId
  | .telegram (.callbackQuery id _ _ _) => .telegramClick id
  | .telegram (.myChatMember updateId _ _ _) => .telegramMembership updateId
  | .discord (.messageCreate id _ _ _ _ _) => .discordMessage id
  | .discord (.messageReactionAdd messageId _ _ emoji user) =>
    .discordReaction messageId user.id emoji
  | .discord (.guildMemberAdd user guildId _ joinedAt) =>
    .discordMemberJoin guildId user.id joinedAt
  | .slack (.message channel ts _ _ _ _ _ _) => .slackMessage channel ts
  | .slack (.reactionAdded (.message channel ts) reaction user _) =>
    .slackReaction channel ts user reaction
  | .slack (.reactionAdded (.other item) reaction user _) => .slackItemReaction item user reaction
  | .slack (.memberJoinedChannel eventId _ _) => .slackMemberJoin eventId
  | .slack (.teamJoin eventId _ _ _) => .slackTeamJoin eventId

end BotHive.Events
