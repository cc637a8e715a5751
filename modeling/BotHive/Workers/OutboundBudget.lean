import BotHive.Library.Text
import BotHive.Queues.DeadLetter
import BotHive.RateLimit.RateLimiter
import BotHive.Workers.SendPath

/-!
# The outbound budget of a bot

Every action that is not exempt is charged against a budget: the one of its type in the bot's
or the environment's `rateLimitBudgets`, else the bot's `rateLimitPerMinute`, else the global
one. The settings of a bot ride its entry, where rebuilding the credentials puts them; the
limiters are created with the first charge and kept. The counters live in Redis.

## Main definitions

- `OutboundState.assertOutboundAllowed`: the charge
- `OutboundState.executeRateLimited`: the charges of one action
- `governing`: which budget the settings give an action type

## Main results

- `counterKey_inj`: budgets, bots and action types have counters of their own
- `OutboundState.assertOutboundAllowed_eq`: a charge is a check of the governing limiter
-/

namespace BotHive.Workers

open Queues RateLimit

structure RateLimitBudget where
  maxRequests : ℕ
  windowMs : ℕ
  windowMs_pos : 0 < windowMs
  deriving DecidableEq

structure RateLimitBudgets where
  default : RateLimitBudget
  /-- An override of an action type replaces the default. -/
  overrides : String → Option RateLimitBudget

def resolveActionBudget (budgets : RateLimitBudgets) (actionType : String) : RateLimitBudget :=
  (budgets.overrides actionType).getD budgets.default

/-- An id that the database has generated: letters and digits. -/
structure BotId where
  text : String
  ne_empty : text ≠ ""
  no_colon : ':' ∉ text.toList
  deriving DecidableEq

/-- The part of a bot's config, or of its entry, that sets its budget. -/
structure BudgetSettings where
  rateLimitPerMinute : Option ℕ := none
  rateLimitBudgets : Option RateLimitBudgets := none

/-- The platform of a worker and its environment. -/
structure OutboundEnv where
  platform : Platform
  rateLimitBudgets : Option RateLimitBudgets
  outboundBudget : RateLimitBudget

/-- The platforms whose `executeAction` asserts the outbound budget itself. -/
def chargesAgain : Platform → Bool
  | .discord | .slack | .bluesky => true
  | .telegram | .twitch | .youtube | .twitter | .crypto => false

/-- The platforms whose `disconnect` deletes the entry of the bot. -/
def deletesEntry : Platform → Bool
  | .telegram | .twitch | .youtube | .twitter | .crypto => true
  | .discord | .slack | .bluesky => false

/-- Where the budget of an action comes from. -/
inductive BudgetSource where
  | actionBudget
  | perMinute
  | outbound
  deriving DecidableEq

/-- The prefix of the limiter of a budget. -/
def limiterPrefix (botId : BotId) : BudgetSource → String
  | .actionBudget => "bothive:budget:" ++ botId.text ++ ":"
  | .perMinute => "bothive:outbound:" ++ botId.text ++ ":"
  | .outbound => "bothive:outbound:"

/-- The scope for which the limiter of a budget is asked. -/
def limiterScope (botId : BotId) (actionType : String) : BudgetSource → String
  | .actionBudget | .perMinute => actionType
  | .outbound => botId.text ++ ":" ++ actionType

/-- The Redis key that counts an action type of a bot. -/
def counterKey (source : BudgetSource) (botId : BotId) (actionType : String) : String :=
  limiterPrefix botId source ++ ":" ++ limiterScope botId actionType source

/-- The budget that settings give an action type. -/
def governing (env : OutboundEnv) (settings : BudgetSettings) (actionType : String) :
    BudgetSource × RateLimitBudget :=
  match settings.rateLimitBudgets.or env.rateLimitBudgets with
  | some budgets => (.actionBudget, resolveActionBudget budgets actionType)
  | none =>
    match settings.rateLimitPerMinute with
    | none => (.outbound, env.outboundBudget)
    | some perMinute =>
      if 0 < perMinute then (.perMinute, ⟨perMinute, 60000, by decide⟩)
      else (.outbound, env.outboundBudget)

/-- What the charges of a worker read and write. -/
structure OutboundState where
  redis : RedisCounters
  bots : BotId → Option BudgetSettings
  botBudgetLimiters : BotId → String → Option RedisRateLimiter
  botRateLimiters : BotId → Option RedisRateLimiter
  outboundLimiter : RedisRateLimiter

namespace OutboundState

/-- A worker that has just started, with a client for Redis. -/
def start (env : OutboundEnv) : OutboundState where
  redis := fun _ => none
  bots := fun _ => none
  botBudgetLimiters := fun _ _ => none
  botRateLimiters := fun _ => none
  outboundLimiter :=
    .new true "bothive:outbound:" env.outboundBudget.maxRequests env.outboundBudget.windowMs

variable (o : OutboundState)

/-- The settings in the entry of a bot; without an entry there are none. -/
def settings (botId : BotId) : BudgetSettings :=
  (o.bots botId).getD {}

def ensureBot (botId : BotId) : OutboundState :=
  { o with bots := Function.update o.bots botId (some (o.settings botId)) }

/-- The settings of a bot after its credentials have been built from its config: what the config
    does not set stays. -/
def buildCredentials (botId : BotId) (config : BudgetSettings) : OutboundState :=
  let entry := o.settings botId
  { o with
    bots := Function.update o.bots botId (some
      { rateLimitPerMinute :=
          (config.rateLimitPerMinute.filter (0 < ·)).or entry.rateLimitPerMinute
        rateLimitBudgets := config.rateLimitBudgets.or entry.rateLimitBudgets }) }

/-- The auto-start of a bot builds its credentials and then takes the settings over from the row
    that it has listed before. -/
def autoStart (botId : BotId) (listed config : BudgetSettings) : OutboundState :=
  let built := o.buildCredentials botId config
  { built with
    bots := Function.update built.bots botId (some
      { rateLimitPerMinute := listed.rateLimitPerMinute
        rateLimitBudgets :=
          listed.rateLimitBudgets.or (built.settings botId).rateLimitBudgets }) }

def disconnect (env : OutboundEnv) (botId : BotId) : OutboundState :=
  if deletesEntry env.platform then { o with bots := Function.update o.bots botId none } else o

/-- The worker gives up its lease. -/
def disconnectAll (env : OutboundEnv) : OutboundState :=
  { o with
    bots := if deletesEntry env.platform then fun _ => none else o.bots
    botRateLimiters := fun _ => none }

/-- Charge an action; tell whether the budget allows it. -/
def assertOutboundAllowed (env : OutboundEnv) (now : ℕ) (botId : BotId) (actionType : String) :
    Bool × OutboundState :=
  if isExempt actionType then (true, o)
  else
    match (o.settings botId).rateLimitBudgets.or env.rateLimitBudgets with
    | some budgets =>
      let budget := resolveActionBudget budgets actionType
      let limiter := (o.botBudgetLimiters botId actionType).getD
        (.new true ("bothive:budget:" ++ botId.text ++ ":") budget.maxRequests budget.windowMs)
      let (allowed, limiter, redis) := limiter.check o.redis true now actionType
      (allowed,
        { o with
          redis := redis
          botBudgetLimiters := Function.update o.botBudgetLimiters botId
            (Function.update (o.botBudgetLimiters botId) actionType (some limiter)) })
    | none =>
      match (o.settings botId).rateLimitPerMinute.filter (0 < ·) with
      | some perMinute =>
        let limiter := (o.botRateLimiters botId).getD
          (.new true ("bothive:outbound:" ++ botId.text ++ ":") perMinute 60000)
        let (allowed, limiter, redis) := limiter.check o.redis true now actionType
        (allowed,
          { o with
            redis := redis
            botRateLimiters := Function.update o.botRateLimiters botId (some limiter) })
      | none =>
        let (allowed, limiter, redis) :=
          o.outboundLimiter.check o.redis true now (botId.text ++ ":" ++ actionType)
        (allowed, { o with redis := redis, outboundLimiter := limiter })

/-- The charges of one action of a bot that is neither paused nor warming: by the base worker,
    and by the `executeAction` of some platforms. Tells whether the provider is called. -/
def executeRateLimited (env : OutboundEnv) (now : ℕ) (botId : BotId) (actionType : String) :
    Bool × OutboundState :=
  let (allowed, charged) := (o.ensureBot botId).assertOutboundAllowed env now botId actionType
  if allowed && chargesAgain env.platform then
    charged.assertOutboundAllowed env now botId actionType
  else (allowed, charged)

end OutboundState

-- ════════════════════════════════════════════════════════════════════════
-- Counters
-- ════════════════════════════════════════════════════════════════════════

section Keys

theorem toList_colon : ":".toList = [':'] := by
  simp

/-- The text of a counter with a prefix of its own for the bot. -/
theorem toList_doubleColon (front a b : String) :
    (front ++ a ++ ":" ++ ":" ++ b).toList =
      front.toList ++ (a.toList ++ ':' :: ':' :: b.toList) := by
  simp only [String.toList_append, toList_colon, List.append_assoc, List.cons_append,
    List.nil_append]

theorem toList_singleColon (front a b : String) :
    (front ++ ":" ++ (a ++ ":" ++ b)).toList =
      front.toList ++ ':' :: (a.toList ++ ':' :: b.toList) := by
  simp only [String.toList_append, toList_colon, List.append_assoc, List.cons_append,
    List.nil_append]

variable {botId botId' : BotId} {actionType actionType' : String}

theorem BotId.ext_toList (h : botId.text.toList = botId'.text.toList) : botId = botId' := by
  have htext : botId.text = botId'.text := String.toList_injective h
  cases botId
  cases botId'
  cases htext
  rfl

/-- Counters with a prefix of their own for the bot. -/
theorem doubleColon_inj {front : String}
    (h : front ++ botId.text ++ ":" ++ ":" ++ actionType =
      front ++ botId'.text ++ ":" ++ ":" ++ actionType') :
    botId = botId' ∧ actionType = actionType' := by
  have hlist := congrArg String.toList h
  rw [toList_doubleColon, toList_doubleColon, List.append_cancel_left_eq,
    append_separator_inj botId.no_colon botId'.no_colon] at hlist
  exact ⟨BotId.ext_toList hlist.1, String.toList_injective (List.cons.inj hlist.2).2⟩

/-- Counters of the global limiter. -/
theorem singleColon_inj {front : String}
    (h : front ++ ":" ++ (botId.text ++ ":" ++ actionType) =
      front ++ ":" ++ (botId'.text ++ ":" ++ actionType')) :
    botId = botId' ∧ actionType = actionType' := by
  have hlist := congrArg String.toList h
  rw [toList_singleColon, toList_singleColon, List.append_cancel_left_eq, List.cons.injEq,
    append_separator_inj botId.no_colon botId'.no_colon] at hlist
  exact ⟨BotId.ext_toList hlist.2.1, String.toList_injective hlist.2.2⟩

/-- An id neither is empty nor starts with the separator. -/
theorem doubleColon_ne_singleColon (front : String) :
    front ++ botId.text ++ ":" ++ ":" ++ actionType ≠
      front ++ ":" ++ (botId'.text ++ ":" ++ actionType') := by
  intro h
  have hlist := congrArg String.toList h
  rw [toList_doubleColon, toList_singleColon, List.append_cancel_left_eq] at hlist
  have hne : botId.text.toList ≠ [] := fun hnil => botId.ne_empty (String.toList_eq_nil_iff.mp hnil)
  obtain ⟨c, rest, hcons⟩ := List.exists_cons_of_ne_nil hne
  rw [hcons, List.cons_append, List.cons.injEq] at hlist
  refine botId.no_colon ?_
  rw [hcons, hlist.1]
  exact List.mem_cons_self

/-- The two prefixes differ in their ninth character. -/
theorem budget_ne_outbound (a b : List Char) :
    "bothive:budget:".toList ++ a ≠ "bothive:outbound:".toList ++ b := by
  intro h
  have hninth := congrArg (fun l => l[8]?) h
  have hleft : ("bothive:budget:".toList ++ a)[8]? = some 'b' := by simp
  have hright : ("bothive:outbound:".toList ++ b)[8]? = some 'o' := by simp
  simp only [hleft, hright] at hninth
  cases hninth

theorem budget_ne_perMinute (a b : String) :
    "bothive:budget:" ++ botId.text ++ ":" ++ ":" ++ a ≠
      "bothive:outbound:" ++ botId'.text ++ ":" ++ ":" ++ b := by
  intro h
  have hlist := congrArg String.toList h
  rw [toList_doubleColon, toList_doubleColon] at hlist
  exact budget_ne_outbound _ _ hlist

theorem budget_ne_global (a b : String) :
    "bothive:budget:" ++ botId.text ++ ":" ++ ":" ++ a ≠
      "bothive:outbound:" ++ ":" ++ (botId'.text ++ ":" ++ b) := by
  intro h
  have hlist := congrArg String.toList h
  rw [toList_doubleColon, toList_singleColon] at hlist
  exact budget_ne_outbound _ _ hlist

end Keys

/-- Budgets, bots and action types have counters of their own. -/
theorem counterKey_inj {source source' : BudgetSource} {botId botId' : BotId}
    {actionType actionType' : String}
    (h : counterKey source botId actionType = counterKey source' botId' actionType') :
    source = source' ∧ botId = botId' ∧ actionType = actionType' := by
  cases source with
  | actionBudget =>
    cases source' with
    | actionBudget => exact ⟨rfl, doubleColon_inj h⟩
    | perMinute => exact absurd h (budget_ne_perMinute _ _)
    | outbound => exact absurd h (budget_ne_global _ _)
  | perMinute =>
    cases source' with
    | actionBudget => exact absurd h.symm (budget_ne_perMinute _ _)
    | perMinute => exact ⟨rfl, doubleColon_inj h⟩
    | outbound => exact absurd h (doubleColon_ne_singleColon _)
  | outbound =>
    cases source' with
    | actionBudget => exact absurd h.symm (budget_ne_global _ _)
    | perMinute => exact absurd h.symm (doubleColon_ne_singleColon _)
    | outbound => exact ⟨rfl, singleColon_inj h⟩

namespace OutboundState

variable (o : OutboundState)

/-- The limiter that a charge finds for a budget. -/
def cachedLimiter (botId : BotId) (actionType : String) : BudgetSource → Option RedisRateLimiter
  | .actionBudget => o.botBudgetLimiters botId actionType
  | .perMinute => o.botRateLimiters botId
  | .outbound => some o.outboundLimiter

/-- The limiter that a charge asks for a budget. -/
def limiterFor (botId : BotId) (actionType : String) (source : BudgetSource)
    (budget : RateLimitBudget) : RedisRateLimiter :=
  (o.cachedLimiter botId actionType source).getD
    (.new true (limiterPrefix botId source) budget.maxRequests budget.windowMs)

/-- Keep the limiter that has been asked. -/
def putLimiter (botId : BotId) (actionType : String) (limiter : RedisRateLimiter) :
    BudgetSource → OutboundState
  | .actionBudget =>
    { o with
      botBudgetLimiters := Function.update o.botBudgetLimiters botId
        (Function.update (o.botBudgetLimiters botId) actionType (some limiter)) }
  | .perMinute => { o with botRateLimiters := Function.update o.botRateLimiters botId (some limiter) }
  | .outbound => { o with outboundLimiter := limiter }

/-- A charge is a check of the governing limiter. -/
theorem assertOutboundAllowed_eq (env : OutboundEnv) (now : ℕ) (botId : BotId)
    {actionType : String} (hexempt : isExempt actionType = false) {source : BudgetSource}
    {budget : RateLimitBudget}
    (hgoverning : governing env (o.settings botId) actionType = (source, budget)) :
    o.assertOutboundAllowed env now botId actionType =
      let (allowed, limiter, redis) := (o.limiterFor botId actionType source budget).check
        o.redis true now (limiterScope botId actionType source)
      (allowed, { o.putLimiter botId actionType limiter source with redis := redis }) := by
  rw [governing] at hgoverning
  rw [assertOutboundAllowed, if_neg (Bool.eq_false_iff.mp hexempt)]
  cases hbudgets : (o.settings botId).rateLimitBudgets.or env.rateLimitBudgets with
  | some budgets =>
    rw [hbudgets] at hgoverning
    cases hgoverning
    rfl
  | none =>
    rw [hbudgets] at hgoverning
    dsimp only at hgoverning ⊢
    cases hperMinute : (o.settings botId).rateLimitPerMinute with
    | none =>
      rw [hperMinute] at hgoverning
      cases hgoverning
      rfl
    | some perMinute =>
      rw [hperMinute] at hgoverning
      dsimp only at hgoverning
      by_cases hpos : 0 < perMinute
      · rw [if_pos hpos] at hgoverning
        cases hgoverning
        have hfilter : (some perMinute).filter (fun n => decide (0 < n)) = some perMinute :=
          Option.filter_some_pos (decide_eq_true hpos)
        rw [hfilter]
        rfl
      · rw [if_neg hpos] at hgoverning
        cases hgoverning
        have hfilter : (some perMinute).filter (fun n => decide (0 < n)) = none :=
          Option.filter_some_neg (decide_eq_false hpos)
        rw [hfilter]
        rfl

end OutboundState

end BotHive.Workers
