import BotHive.Domain.StoredError
import BotHive.Library.Machine

/-!
# The lifecycle of a bot

A bot moves through eight states by a table of transitions. Its methods keep two fields beside the
state: the time of the connect and the last error. Only `stop` forgets the time of the connect, and
a report of a connect is accepted from an idle bot too.

## Main definitions

- `transitions`, `BotAggregate.step`
- `Consistent`: a connected bot is running or paused, and a bot in error has an error
- `Regular`: the condition on a call

## Main results

- `consistent_everywhere_iff`
-/

namespace BotHive.Domain

section Definitions

inductive BotTransition
  | start
  | stop
  | pause
  | resume
  | connect
  | disconnect
  | fail
  | reconnect
  | remove
  | timeout
  deriving DecidableEq

def BotState.text : BotState → String
  | idle => "idle"
  | connecting => "connecting"
  | running => "running"
  | paused => "paused"
  | error => "error"
  | reconnecting => "reconnecting"
  | disconnecting => "disconnecting"
  | removed => "removed"

def BotTransition.text : BotTransition → String
  | start => "start"
  | stop => "stop"
  | pause => "pause"
  | resume => "resume"
  | connect => "connect"
  | disconnect => "disconnect"
  | fail => "fail"
  | reconnect => "reconnect"
  | remove => "remove"
  | timeout => "timeout"

def transitions : BotState → BotTransition → Option BotState
  | .idle, .start => some .connecting
  | .idle, .connect => some .connecting
  | .idle, .remove => some .removed
  | .connecting, .connect => some .running
  | .connecting, .fail => some .error
  | .connecting, .timeout => some .error
  | .connecting, .stop => some .idle
  | .running, .stop => some .idle
  | .running, .pause => some .paused
  | .running, .fail => some .error
  | .running, .disconnect => some .idle
  | .running, .reconnect => some .reconnecting
  | .paused, .resume => some .running
  | .paused, .stop => some .idle
  | .paused, .fail => some .error
  | .error, .reconnect => some .reconnecting
  | .error, .start => some .connecting
  | .error, .resume => some .connecting
  | .error, .stop => some .idle
  | .error, .remove => some .removed
  | .reconnecting, .connect => some .running
  | .reconnecting, .fail => some .error
  | .reconnecting, .stop => some .idle
  | .reconnecting, .timeout => some .error
  | .disconnecting, .disconnect => some .idle
  | .disconnecting, .fail => some .error
  | _, _ => none

def canTransition (source : BotState) (transition : BotTransition) : Bool :=
  (transitions source transition).isSome

structure AppError where
  message : String
  code : String
  statusCode : ℕ

def AppError.badRequest (message : String) : AppError :=
  ⟨message, "BAD_REQUEST", 400⟩

def AppError.internal (message : String) : AppError :=
  ⟨message, "INTERNAL_ERROR", 500⟩

structure BotAggregate extends Bot where
  connectedAt : Option ℤ

/-- A call of a method, with its readings of the clock, or a dispatch to the state machine. -/
inductive BotCall
  | start (now : ℤ)
  | stop (now : ℤ)
  | onConnected (now later : ℤ)
  | onError (now : ℤ) (error : Utf16)
  | onReconnect (now : ℤ)
  | pause
  | resume

namespace BotAggregate

def create (now : ℤ) (credentials : Option BotCredentials) : BotAggregate where
  credentials := credentials.getD ⟨none, none, none, none, none, none, none, none, none, none⟩
  state := .idle
  updatedAt := now
  lastError := none
  connectedAt := none

/-- The state machine moves on, or throws. -/
def dispatch (bot : BotAggregate) (transition : BotTransition) : Except String BotAggregate :=
  match transitions bot.state transition with
  | some state => .ok { bot with state }
  | none => .error s!"Cannot transition from {bot.state.text} via {transition.text}"

def start (bot : BotAggregate) (now : ℤ) : Except AppError Unit × BotAggregate :=
  if !canTransition bot.state .start then
    (.error (.badRequest s!"Cannot start bot in state {bot.state.text}"), bot)
  else
    match bot.dispatch .start with
    | .ok bot => (.ok (), { bot with updatedAt := now })
    | .error e => (.error (.internal s!"Start failed: Error: {e}"), bot)

def stop (bot : BotAggregate) (now : ℤ) : Except AppError Unit × BotAggregate :=
  if !canTransition bot.state .stop then
    (.error (.badRequest s!"Cannot stop bot in state {bot.state.text}"), bot)
  else
    match bot.dispatch .stop with
    | .ok bot => (.ok (), { bot with connectedAt := none, updatedAt := now })
    | .error e => (.error (.internal s!"Stop failed: Error: {e}"), bot)

def onConnected (bot : BotAggregate) (now later : ℤ) : BotAggregate :=
  match bot.dispatch .connect with
  | .ok bot => { bot with connectedAt := some now, lastError := none, updatedAt := later }
  | .error _ => bot

/-- Where sanitizing throws, the bot stays as it is. -/
def onError (bot : BotAggregate) (now : ℤ) (error : Utf16) : BotAggregate :=
  match bot.toBot.onError now error with
  | some failed => { bot with toBot := failed }
  | none => bot

def onReconnect (bot : BotAggregate) (now : ℤ) : BotAggregate :=
  if canTransition bot.state .reconnect then
    match bot.dispatch .reconnect with
    | .ok bot => { bot with updatedAt := now }
    | .error _ => bot
  else bot

/-- A dispatch of the state machine itself. -/
def dispatched (bot : BotAggregate) (transition : BotTransition) : BotAggregate :=
  match bot.dispatch transition with
  | .ok bot => bot
  | .error _ => bot

def step (bot : BotAggregate) : BotCall → BotAggregate
  | .start now => (bot.start now).2
  | .stop now => (bot.stop now).2
  | .onConnected now later => bot.onConnected now later
  | .onError now error => bot.onError now error
  | .onReconnect now => bot.onReconnect now
  | .pause => bot.dispatched .pause
  | .resume => bot.dispatched .resume

end BotAggregate

/-- The bot is running or paused. -/
def BotState.Online (state : BotState) : Prop :=
  state = running ∨ state = paused

instance (state : BotState) : Decidable state.Online :=
  inferInstanceAs (Decidable (_ ∨ _))

/-- A connected bot is running or paused, and a bot in error has an error. -/
structure Consistent (bot : BotAggregate) : Prop where
  connectedAt : bot.connectedAt.isSome → bot.state.Online
  lastError : bot.state = .error → bot.lastError.isSome

/-- A secret has a lone surrogate, so that no error can be sanitized. -/
def BotCredentials.Unencodable (credentials : BotCredentials) : Prop :=
  ∃ value ∈ credentials.secrets, Utf16.encodeURIComponent value = none

/-- An idle bot is not reported to be connected, and a connected one neither to fail, unless the
    error cannot be sanitized, nor to reconnect. -/
def Regular (bot : BotAggregate) : BotCall → Prop
  | .onConnected _ _ => bot.state ≠ .idle
  | .onError _ _ => bot.state.Online → bot.credentials.Unencodable
  | .onReconnect _ => bot.state ≠ .running
  | _ => True

end Definitions

variable {bot : BotAggregate} {credentials : BotCredentials} {error : Utf16} {now : ℤ}

theorem not_online_idle : ¬BotState.idle.Online := by decide

theorem not_online_connecting : ¬BotState.connecting.Online := by decide

theorem not_online_reconnecting : ¬BotState.reconnecting.Online := by decide

section Sanitizing

theorem fail_eq_transitions (state : BotState) : state.fail = transitions state .fail := by
  cases state <;> rfl

/-- Masking throws exactly at a secret that cannot be encoded. -/
theorem maskSecrets_eq_none_iff : maskSecrets error credentials = none ↔ credentials.Unencodable := by
  rw [maskSecrets, BotCredentials.Unencodable]
  generalize credentials.secrets = secrets
  induction secrets generalizing error with
  | nil => exact iff_of_false (Option.some_ne_none _) fun ⟨_, h, _⟩ => List.not_mem_nil h
  | cons value rest ih =>
    rw [List.foldlM_cons, List.exists_mem_cons_iff, maskSecret]
    cases hencoded : Utf16.encodeURIComponent value with
    | none => exact iff_of_true rfl (Or.inl rfl)
    | some encoded =>
      have hrest : rest.foldlM maskSecret
          (replaceList encoded stars (replaceList value stars error)) = none ↔ _ := ih
      exact hrest.trans (or_iff_right (Option.some_ne_none encoded)).symm

/-- What a report of an error leaves of a bot. -/
theorem onError_cases (bot : BotAggregate) (now : ℤ) (error : Utf16) :
    (bot.credentials.Unencodable ∧ bot.onError now error = bot) ∨
      ¬bot.credentials.Unencodable ∧ ∃ stored, bot.onError now error =
        { bot with
          lastError := some stored
          updatedAt := now
          state := (transitions bot.state .fail).getD bot.state } := by
  rw [BotAggregate.onError, Bot.onError, sanitizeErrorMessage, fail_eq_transitions]
  cases hmasked : maskSecrets error bot.credentials with
  | none => exact .inl ⟨maskSecrets_eq_none_iff.mp hmasked, rfl⟩
  | some masked =>
    have hencodable : ¬bot.credentials.Unencodable := fun h =>
      Option.some_ne_none masked (hmasked ▸ maskSecrets_eq_none_iff.mpr h)
    exact .inr ⟨hencodable, _, rfl⟩

end Sanitizing

section Runs

/-- What every run keeps: a bot that is running or paused is connected, and a bot in error has an
    error. -/
structure Recorded (bot : BotAggregate) : Prop where
  connectedAt : bot.state.Online → bot.connectedAt.isSome
  lastError : bot.state = .error → bot.lastError.isSome

namespace BotAggregate

/-- What a start leaves of a bot. -/
theorem start_cases (bot : BotAggregate) (now : ℤ) :
    (bot.start now).2 = bot ∨
      (bot.state = .idle ∨ bot.state = .error) ∧
        (bot.start now).2 = { bot with state := .connecting, updatedAt := now } := by
  obtain ⟨⟨credentials, state, updatedAt, lastError⟩, connectedAt⟩ := bot
  cases state with
  | idle => exact .inr ⟨.inl rfl, rfl⟩
  | error => exact .inr ⟨.inr rfl, rfl⟩
  | connecting | running | paused | reconnecting | disconnecting | removed => exact .inl rfl

theorem stop_cases (bot : BotAggregate) (now : ℤ) :
    (bot.stop now).2 = bot ∨
      (bot.stop now).2 = { bot with state := .idle, connectedAt := none, updatedAt := now } := by
  obtain ⟨⟨credentials, state, updatedAt, lastError⟩, connectedAt⟩ := bot
  cases state with
  | idle | disconnecting | removed => exact .inl rfl
  | connecting | running | paused | error | reconnecting => exact .inr rfl

/-- A report of a connect makes an idle bot connecting, and a connecting one running. -/
theorem onConnected_cases (bot : BotAggregate) (now later : ℤ) :
    bot.state ≠ .idle ∧ bot.onConnected now later = bot ∨
      ∃ state, (bot.state = .idle ∧ state = .connecting ∨ bot.state ≠ .idle ∧ state = .running) ∧
        bot.onConnected now later =
          { bot with state, connectedAt := some now, lastError := none, updatedAt := later } := by
  obtain ⟨⟨credentials, state, updatedAt, lastError⟩, connectedAt⟩ := bot
  cases state with
  | idle => exact .inr ⟨_, .inl ⟨rfl, rfl⟩, rfl⟩
  | connecting | reconnecting => exact .inr ⟨_, .inr ⟨nofun, rfl⟩, rfl⟩
  | running | paused | error | disconnecting | removed => exact .inl ⟨nofun, rfl⟩

theorem onReconnect_cases (bot : BotAggregate) (now : ℤ) :
    bot.state ≠ .running ∧ bot.onReconnect now = bot ∨
      (bot.state = .running ∨ bot.state = .error) ∧
        bot.onReconnect now = { bot with state := .reconnecting, updatedAt := now } := by
  obtain ⟨⟨credentials, state, updatedAt, lastError⟩, connectedAt⟩ := bot
  cases state with
  | running => exact .inr ⟨.inl rfl, rfl⟩
  | error => exact .inr ⟨.inr rfl, rfl⟩
  | idle | connecting | paused | reconnecting | disconnecting | removed => exact .inl ⟨nofun, rfl⟩

theorem pause_cases (bot : BotAggregate) :
    bot.dispatched .pause = bot ∨
      bot.state = .running ∧ bot.dispatched .pause = { bot with state := .paused } := by
  obtain ⟨⟨credentials, state, updatedAt, lastError⟩, connectedAt⟩ := bot
  cases state with
  | running => exact .inr ⟨rfl, rfl⟩
  | idle | connecting | paused | error | reconnecting | disconnecting | removed => exact .inl rfl

theorem resume_cases (bot : BotAggregate) :
    bot.dispatched .resume = bot ∨
      ∃ state, (bot.state = .paused ∧ state = .running ∨ bot.state = .error ∧ state = .connecting) ∧
        bot.dispatched .resume = { bot with state } := by
  obtain ⟨⟨credentials, state, updatedAt, lastError⟩, connectedAt⟩ := bot
  cases state with
  | paused => exact .inr ⟨_, .inl ⟨rfl, rfl⟩, rfl⟩
  | error => exact .inr ⟨_, .inr ⟨rfl, rfl⟩, rfl⟩
  | idle | connecting | running | reconnecting | disconnecting | removed => exact .inl rfl

end BotAggregate

/-- **Step**: every call keeps the records. -/
theorem Recorded.step (h : Recorded bot) (call : BotCall) : Recorded (bot.step call) := by
  cases call with
  | start now =>
    obtain heq | ⟨-, heq⟩ := bot.start_cases now <;> rw [BotAggregate.step, heq]
    · exact h
    · exact ⟨fun honline => absurd honline not_online_connecting, nofun⟩
  | stop now =>
    obtain heq | heq := bot.stop_cases now <;> rw [BotAggregate.step, heq]
    · exact h
    · exact ⟨fun honline => absurd honline not_online_idle, nofun⟩
  | onConnected now later =>
    obtain ⟨-, heq⟩ | ⟨state, hstate, heq⟩ := bot.onConnected_cases now later <;>
      rw [BotAggregate.step, heq]
    · exact h
    · obtain ⟨-, rfl⟩ | ⟨-, rfl⟩ := hstate <;> exact ⟨fun _ => rfl, nofun⟩
  | onError now error =>
    obtain ⟨-, heq⟩ | ⟨-, stored, heq⟩ := onError_cases bot now error <;>
      rw [BotAggregate.step, heq]
    · exact h
    · refine ⟨fun honline => ?_, fun _ => rfl⟩
      -- No transition of a failure leads to a state that is online.
      have hstate : ((transitions bot.state .fail).getD bot.state).Online → bot.state.Online := by
        cases bot.state <;> decide
      exact h.connectedAt (hstate honline)
  | onReconnect now =>
    obtain ⟨-, heq⟩ | ⟨-, heq⟩ := bot.onReconnect_cases now <;> rw [BotAggregate.step, heq]
    · exact h
    · exact ⟨fun honline => absurd honline not_online_reconnecting, nofun⟩
  | pause =>
    obtain heq | ⟨hrunning, heq⟩ := bot.pause_cases <;> rw [BotAggregate.step, heq]
    · exact h
    · exact ⟨fun _ => h.connectedAt (.inl hrunning), nofun⟩
  | resume =>
    obtain heq | ⟨state, hstate, heq⟩ := bot.resume_cases <;> rw [BotAggregate.step, heq]
    · exact h
    · obtain ⟨hpaused, rfl⟩ | ⟨-, rfl⟩ := hstate
      · exact ⟨fun _ => h.connectedAt (.inr hpaused), nofun⟩
      · exact ⟨fun honline => absurd honline not_online_connecting, nofun⟩

/-- A consistent bot that is not online has no time of a connect. -/
theorem Consistent.connectedAt_eq_none (h : Consistent bot) (hstate : ¬bot.state.Online) :
    ¬bot.connectedAt.isSome :=
  fun hsome => hstate (h.connectedAt hsome)

/-- **Step**: a call keeps a bot consistent exactly if it is regular. -/
theorem consistent_step_iff (hrecorded : Recorded bot) (h : Consistent bot) (call : BotCall) :
    Consistent (bot.step call) ↔ Regular bot call := by
  cases call with
  | start now =>
    obtain heq | ⟨hstate, heq⟩ := bot.start_cases now <;> rw [BotAggregate.step, heq]
    · exact iff_of_true h trivial
    · have hnone := h.connectedAt_eq_none (by obtain heq | heq := hstate <;> rw [heq] <;> decide)
      exact iff_of_true ⟨fun hsome => absurd hsome hnone, nofun⟩ trivial
  | stop now =>
    obtain heq | heq := bot.stop_cases now <;> rw [BotAggregate.step, heq]
    · exact iff_of_true h trivial
    · exact iff_of_true ⟨nofun, nofun⟩ trivial
  | onConnected now later =>
    obtain ⟨hidle, heq⟩ | ⟨state, hstate, heq⟩ := bot.onConnected_cases now later <;>
      rw [BotAggregate.step, heq]
    · exact iff_of_true h hidle
    · obtain ⟨hidle, rfl⟩ | ⟨hidle, rfl⟩ := hstate
      · -- The bot has only begun to connect.
        exact iff_of_false (fun hc => not_online_connecting (hc.connectedAt rfl)) (absurd hidle)
      · exact iff_of_true ⟨fun _ => .inl rfl, nofun⟩ hidle
  | onError now error =>
    obtain ⟨hsecret, heq⟩ | ⟨hsecret, stored, heq⟩ := onError_cases bot now error <;>
      rw [BotAggregate.step, heq]
    · exact iff_of_true h fun _ => hsecret
    · by_cases honline : bot.state.Online
      · -- The bot is in error, and still has the time of its connect.
        have hfailed : ¬((transitions bot.state .fail).getD bot.state).Online := by
          obtain heq | heq := honline <;> rw [heq] <;> decide
        exact iff_of_false (fun hc => hfailed (hc.connectedAt (hrecorded.connectedAt honline)))
          fun hregular => hsecret (hregular honline)
      · have hnone := h.connectedAt_eq_none honline
        exact iff_of_true ⟨fun hsome => absurd hsome hnone, fun _ => rfl⟩
          fun honline' => absurd honline' honline
  | onReconnect now =>
    obtain ⟨hrunning, heq⟩ | ⟨hstate, heq⟩ := bot.onReconnect_cases now <;>
      rw [BotAggregate.step, heq]
    · exact iff_of_true h hrunning
    · obtain hrunning | herror := hstate
      · refine iff_of_false (fun hc => not_online_reconnecting ?_) (absurd hrunning)
        exact hc.connectedAt (hrecorded.connectedAt (.inl hrunning))
      · have hnone := h.connectedAt_eq_none (by rw [herror]; decide)
        exact iff_of_true ⟨fun hsome => absurd hsome hnone, nofun⟩
          fun hrunning => absurd (hrunning.symm.trans herror) (by decide)
  | pause =>
    obtain heq | ⟨-, heq⟩ := bot.pause_cases <;> rw [BotAggregate.step, heq]
    · exact iff_of_true h trivial
    · exact iff_of_true ⟨fun _ => .inr rfl, nofun⟩ trivial
  | resume =>
    obtain heq | ⟨state, hstate, heq⟩ := bot.resume_cases <;> rw [BotAggregate.step, heq]
    · exact iff_of_true h trivial
    · obtain ⟨-, rfl⟩ | ⟨herror, rfl⟩ := hstate
      · exact iff_of_true ⟨fun _ => .inl rfl, nofun⟩ trivial
      · have hnone := h.connectedAt_eq_none (by rw [herror]; decide)
        exact iff_of_true ⟨fun hsome => absurd hsome hnone, nofun⟩ trivial

/-- **Lifecycle**: from its creation a bot has the time of a connect only while it is running or
    paused, and an error while it is in error, exactly in the runs whose calls are regular. -/
theorem consistent_everywhere_iff (now : ℤ) (credentials : Option BotCredentials)
    (calls : List BotCall) :
    Machine.Everywhere (Machine.total BotAggregate.step) Consistent
        (BotAggregate.create now credentials) calls ↔
      Machine.Along (Machine.total BotAggregate.step) Regular
        (BotAggregate.create now credentials) calls := by
  refine Machine.everywhere_iff_along_of_invariant Recorded ?_ ?_ ?_ ?_
  · rintro s call s' hs ⟨⟩
    exact hs.step call
  · rintro s call s' hs hP ⟨⟩
    exact consistent_step_iff hs hP call
  · exact ⟨fun honline => absurd honline not_online_idle, nofun⟩
  · exact ⟨nofun, nofun⟩

/-- A connect reported to a bot that was not started gives a connecting bot the time of a connect;
    so does an error of a running bot to a bot in error. -/
theorem not_consistent_everywhere :
    (¬Machine.Everywhere (Machine.total BotAggregate.step) Consistent
        (BotAggregate.create 0 none) [.onConnected 1 1]) ∧
      ¬Machine.Everywhere (Machine.total BotAggregate.step) Consistent
        (BotAggregate.create 0 none) [.start 1, .onConnected 2 2, .onError 3 []] := by
  constructor <;> intro h
  · exact not_online_connecting ((h.at_end rfl).connectedAt rfl)
  · have herror : ¬BotState.error.Online := by decide
    exact herror ((h.at_end rfl).connectedAt rfl)

end Runs

end BotHive.Domain
