import BotHive.Library.Remembered

/-!
# Polling for follows and notifications

Three adapters have no push events for what they report, and poll a list of the provider, the
newest item first. Each has its own notion of what is new: the items outside a bounded set, with
the first poll not reported (Twitter: the first poll that finds no set, Twitch: a poll that finds
it empty), or all items of a page that continues where the page before it ended (Bluesky).

## Main definitions

- `Feed`: the list of a provider, with what should be and has been emitted
- `TwitterFollowers.step`, `TwitchFollowers.step`, `Notifications.step`: a connection with its
  polls, and with items that come and go between them

The parts of a feed other than its items are kept for the statement only. A poll that does not
get its first answer changes nothing and is left out; a later failure, of the provider or of a
handler of an event, breaks a poll off.
-/

namespace BotHive.Workers

/-- A list at a provider, the newest item first. -/
structure Feed (α : Type*) where
  items : List α
  /-- The items that have come since the first completed poll and are not emitted. -/
  due : List α
  /-- How many items have come since the last completed poll. -/
  news : ℕ
  /-- A poll has completed. -/
  polled : Bool
  /-- What was emitted without being due. -/
  unexpected : List α
  /-- What was due and not emitted by a completed poll. -/
  missed : List α

namespace Feed

variable {α : Type*} [DecidableEq α]

def empty : Feed α where
  items := []
  due := []
  news := 0
  polled := false
  unexpected := []
  missed := []

def appear (f : Feed α) (u : α) : Feed α :=
  { f with
    items := u :: f.items
    due := if f.polled then u :: f.due else f.due
    news := f.news + 1 }

def vanish (f : Feed α) (u : α) : Feed α :=
  { f with
    items := f.items.filter fun v => v ≠ u
    due := f.due.filter fun v => v ≠ u }

def emit (f : Feed α) (u : α) : Feed α :=
  if u ∈ f.due then { f with due := f.due.filter fun v => v ≠ u }
  else { f with unexpected := u :: f.unexpected }

def emitAll (f : Feed α) (us : List α) : Feed α :=
  us.foldl emit f

/-- A poll has completed. -/
def complete (f : Feed α) : Feed α :=
  { f with missed := f.missed ++ f.due, due := [], news := 0, polled := true }

/-- What is due is emitted, once, and nothing else is. -/
structure ExactlyOnce (f : Feed α) : Prop where
  unexpected : f.unexpected = []
  missed : f.missed = []

end Feed

/-- Between and during the polls for followers. -/
inductive FollowerAction (α : Type*) where
  | appear (u : α)
  | vanish (u : α)
  /-- A poll, with the number of users after which it breaks off, if it does. -/
  | poll (broken : Option ℕ)

/-- What a poll goes through of its listing. -/
def reached {α : Type*} (listing : List α) : Option ℕ → List α
  | none => listing
  | some n => listing.take n

section Followers

variable {α : Type*} [DecidableEq α]

/-- The Twitter worker's own, and its followers. -/
structure TwitterFollowers (α : Type*) where
  seenFollowers : Option (List α)
  feed : Feed α

def dedupBound : ℕ := 5000

namespace TwitterFollowers

def start : TwitterFollowers α := ⟨none, .empty⟩

/-- All pages of the followers. -/
def pollFollowers (s : TwitterFollowers α) (broken : Option ℕ) : TwitterFollowers α :=
  let firstRun := s.seenFollowers.isNone
  let (seen, new) := pickNew dedupBound (s.seenFollowers.getD []) (reached s.feed.items broken)
  let feed := if firstRun then s.feed else s.feed.emitAll new
  { seenFollowers := some seen
    feed := if broken.isNone then feed.complete else feed }

def step (s : TwitterFollowers α) : FollowerAction α → Option (TwitterFollowers α)
  | .appear u => if u ∈ s.feed.items then none else some { s with feed := s.feed.appear u }
  | .vanish u => some { s with feed := s.feed.vanish u }
  | .poll broken => some (s.pollFollowers broken)

end TwitterFollowers

/-- The Twitch worker's own, and the followers of the channel. -/
structure TwitchFollowers (α : Type*) where
  seenFollowers : Option (List α)
  feed : Feed α

def followerPage : ℕ := 100

def seenBound : ℕ := 5000

namespace TwitchFollowers

def start : TwitchFollowers α := ⟨none, .empty⟩

def page (s : TwitchFollowers α) : List α :=
  s.feed.items.take followerPage

/-- The first page of the followers; without events there is nothing to break the loop off. -/
def poll (s : TwitchFollowers α) (broken : Option ℕ) : Option (TwitchFollowers α) :=
  let firstRun := (s.seenFollowers.getD []).isEmpty
  let (seen, new) := pickNew seenBound (s.seenFollowers.getD []) (reached s.page broken)
  let feed := if firstRun then s.feed else s.feed.emitAll new
  if broken.isNone then some { seenFollowers := some seen, feed := feed.complete }
  else if firstRun then none
  else some { seenFollowers := some seen, feed := feed }

/-- At most a page of followers comes between two completed polls. -/
def step (s : TwitchFollowers α) : FollowerAction α → Option (TwitchFollowers α)
  | .appear u =>
    if u ∈ s.feed.items ∨ followerPage ≤ s.feed.news then none
    else some { s with feed := s.feed.appear u }
  | .vanish u => some { s with feed := s.feed.vanish u }
  | .poll broken => s.poll broken

end TwitchFollowers

end Followers

/-- The Bluesky worker's own, and the notifications, numbered as they come. A cursor is a number,
    and stands for the notifications before it. -/
structure Notifications where
  lastSeenCursor : Option ℕ
  feed : Feed ℕ
  next : ℕ

inductive NotificationAction where
  | appear
  | vanish (n : ℕ)
  /-- A poll with the cursor of its page, or the number of events after which it breaks off. -/
  | poll (cursor : Option ℕ)
  | breakOff (n : ℕ)

def notificationLimit : ℕ := 50

namespace Notifications

def start : Notifications := ⟨none, .empty, 0⟩

def page (s : Notifications) : List ℕ :=
  match s.lastSeenCursor with
  | none => s.feed.items.take notificationLimit
  | some c => (s.feed.items.filter fun n => n < c).take notificationLimit

/-- The cursor of a page goes on behind its last notification. -/
def Continues (s : Notifications) : Option ℕ → Prop
  | none => True
  | some c => c ≤ s.next ∧ ∀ n ∈ s.page, c ≤ n

instance decidableContinues (s : Notifications) :
    (cursor : Option ℕ) → Decidable (s.Continues cursor)
  | none => inferInstanceAs (Decidable True)
  | some c => inferInstanceAs (Decidable (c ≤ s.next ∧ ∀ n ∈ s.page, c ≤ n))

def poll (s : Notifications) (cursor : Option ℕ) : Notifications :=
  { s with
    feed := (s.feed.emitAll s.page).complete
    lastSeenCursor := cursor.or s.lastSeenCursor }

/-- At most a page of notifications comes between two completed polls. -/
def step (s : Notifications) : NotificationAction → Option Notifications
  | .appear =>
    if notificationLimit ≤ s.feed.news then none
    else some { s with feed := s.feed.appear s.next, next := s.next + 1 }
  | .vanish n => some { s with feed := s.feed.vanish n }
  | .poll cursor => if s.Continues cursor then some (s.poll cursor) else none
  | .breakOff n => some { s with feed := s.feed.emitAll (s.page.take n) }

end Notifications

end BotHive.Workers
