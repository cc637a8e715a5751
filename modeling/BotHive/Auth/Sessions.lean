import BotHive.Library.Machine
import BotHive.Library.TimedKey
import Mathlib.Logic.Function.Basic

/-!
# Sessions and their revocation

A login verifies the password against the stored hash and then signs a token with the
revocation epoch of the user. A password change writes the new hash and then bumps the epoch. A
logout sets a key for the one token. An authenticated request verifies the token and compares it
with the epoch and the key. Each step between two awaits is an event of its own, so the
requests of all clients interleave freely.

A hash is told apart from the ones before it by how often the hash of its user was written, and
whether a password matches a hash is part of the event.

## Main definitions

- `Sessions.step`: the steps of logins, password changes, logouts and authenticated requests
- `RevokesAt`: what is asked of each step of a run
- `NotOvertaken`: the steps at which no revocation comes too late and no key too early
-/

namespace BotHive.Auth

section Tokens

/-- A signed token. `exp` is in seconds. `proven` is not in the token: it is the version of the
    hash that the login verified. -/
structure Token where
  user : String
  ver : ℕ
  jti : ℕ
  exp : ℕ
  proven : ℕ
  deriving DecidableEq

/-- A token is valid up to and including the instant of its expiry. -/
def Token.validAt (t : Token) (now : ℕ) : Prop :=
  now ≤ t.exp * 1000

instance (t : Token) (now : ℕ) : Decidable (t.validAt now) :=
  inferInstanceAs (Decidable (now ≤ t.exp * 1000))

/-- The lifetime of tokens in seconds. -/
def tokenLifetime : ℕ := 86400

/-- The lifetime in seconds of the key that a logout sets. -/
def logoutTtl (t : Token) (now : ℕ) : ℕ :=
  max 1 (min 86400 ((t.exp * 1000 - now) / 1000))

def isTokenRevoked (t : Token) (epoch : ℕ) (loggedOut : Bool) : Bool :=
  loggedOut || t.ver < epoch

end Tokens

section Handlers

inductive LoginPhase where
  | checking
  | verified
  /-- the epoch is read -/
  | signing (epoch : ℕ)
  | done
  | refused
  deriving DecidableEq

/-- A login with the version of the hash that it read. -/
structure Login where
  user : String
  version : ℕ
  phase : LoginPhase
  deriving DecidableEq

inductive ChangePhase where
  | started
  | verified
  /-- the hash is written, as the version -/
  | updated (version : ℕ)
  | bumped (version : ℕ)
  | answered (version : ℕ)
  | refused
  deriving DecidableEq

structure PasswordChange where
  user : String
  phase : ChangePhase
  deriving DecidableEq

/-- The version of the hash that a change wrote. -/
def PasswordChange.written (c : PasswordChange) : Option ℕ :=
  match c.phase with
  | .updated v | .bumped v | .answered v => some v
  | .started | .verified | .refused => none

def PasswordChange.hasBumped (c : PasswordChange) : Bool :=
  match c.phase with
  | .bumped _ | .answered _ => true
  | .started | .verified | .updated _ | .refused => false

inductive LogoutPhase where
  | verified
  | setting (ttl : ℕ)
  | set
  | answered
  deriving DecidableEq

structure Logout where
  token : Token
  phase : LogoutPhase
  deriving DecidableEq

inductive CheckPhase where
  | checking
  | passed
  | accepted
  | served
  | rejected
  deriving DecidableEq

/-- A run of `verifyUser` with the answers of Redis that it has. -/
structure UserCheck where
  token : Token
  epoch : Option ℕ
  loggedOut : Option Bool
  phase : CheckPhase
  deriving DecidableEq

end Handlers

/-- The clock in milliseconds, the database, Redis, the tokens that were issued, and the requests
    that were received. -/
structure Sessions where
  now : ℕ
  /-- how often the hash of a user was written -/
  hash : String → ℕ
  epoch : String → ℕ
  logoutKeys : String × ℕ → Option (TimedKey Unit)
  tokens : List Token
  logins : List Login
  changes : List PasswordChange
  logouts : List Logout
  checks : List UserCheck

inductive SessionEvent where
  | tick (ms : ℕ)
  /-- a login reads the row of its user -/
  | login (user : String)
  | authenticate (i : ℕ) (ok : Bool)
  | readEpoch (i : ℕ)
  | sign (i : ℕ)
  /-- an accepted request turns out to be a password change -/
  | change (r : ℕ)
  | verifyPassword (k : ℕ) (ok : Bool)
  | updateHash (k : ℕ)
  | bumpEpoch (k : ℕ)
  | answerChange (k : ℕ)
  /-- a logout verifies the signature and the expiry of its token -/
  | logout (t : Token)
  | computeTtl (k : ℕ)
  | setKey (k : ℕ)
  | answerLogout (k : ℕ)
  /-- an authenticated request verifies the signature and the expiry of its token -/
  | request (t : Token)
  | checkEpoch (r : ℕ)
  | checkKey (r : ℕ)
  | decide (r : ℕ)
  /-- the user is found, and the request goes on to its handler -/
  | accept (r : ℕ)
  deriving DecidableEq

namespace Sessions

def start : Sessions where
  now := 0
  hash _ := 0
  epoch _ := 0
  logoutKeys _ := none
  tokens := []
  logins := []
  changes := []
  logouts := []
  checks := []

/-- Only tokens that were signed verify. -/
def Issued (s : Sessions) (t : Token) : Prop :=
  s.tokens[t.jti]? = some t

instance (s : Sessions) (t : Token) : Decidable (s.Issued t) :=
  inferInstanceAs (Decidable (s.tokens[t.jti]? = some t))

/-- Whether the key of a token is visible. -/
def keyVisible (s : Sessions) (t : Token) : Bool :=
  (TimedKey.read (s.logoutKeys (t.user, t.jti)) s.now).isSome

section Steps

def setLogin (s : Sessions) (i : ℕ) (l : Login) : Sessions :=
  { s with logins := s.logins.set i l }

def setChange (s : Sessions) (k : ℕ) (c : PasswordChange) : Sessions :=
  { s with changes := s.changes.set k c }

def setLogout (s : Sessions) (k : ℕ) (l : Logout) : Sessions :=
  { s with logouts := s.logouts.set k l }

def setCheck (s : Sessions) (r : ℕ) (c : UserCheck) : Sessions :=
  { s with checks := s.checks.set r c }

/-- `issueUserToken` after the epoch is read. -/
def issueUserToken (s : Sessions) (i : ℕ) (l : Login) (epoch : ℕ) : Sessions :=
  { s.setLogin i { l with phase := .done } with
    tokens := s.tokens ++ [{
      user := l.user
      ver := epoch
      jti := s.tokens.length
      exp := s.now / 1000 + tokenLifetime
      proven := l.version }] }

def loginStep (s : Sessions) (i : ℕ) (l : Login) : SessionEvent → Option Sessions
  | .authenticate _ ok =>
    if l.phase = .checking then
      some (s.setLogin i { l with phase := if ok then .verified else .refused })
    else none
  | .readEpoch _ =>
    if l.phase = .verified then some (s.setLogin i { l with phase := .signing (s.epoch l.user) })
    else none
  | .sign _ =>
    match l.phase with
    | .signing epoch => some (s.issueUserToken i l epoch)
    | _ => none
  | _ => none

def changeStep (s : Sessions) (k : ℕ) (c : PasswordChange) : SessionEvent → Option Sessions
  | .verifyPassword _ ok =>
    if c.phase = .started then
      some (s.setChange k { c with phase := if ok then .verified else .refused })
    else none
  | .updateHash _ =>
    if c.phase = .verified then
      some { s.setChange k { c with phase := .updated (s.hash c.user + 1) } with
        hash := Function.update s.hash c.user (s.hash c.user + 1) }
    else none
  | .bumpEpoch _ =>
    match c.phase with
    | .updated v =>
      some { s.setChange k { c with phase := .bumped v } with
        epoch := Function.update s.epoch c.user (s.epoch c.user + 1) }
    | _ => none
  | .answerChange _ =>
    match c.phase with
    | .bumped v => some (s.setChange k { c with phase := .answered v })
    | _ => none
  | _ => none

def logoutStep (s : Sessions) (k : ℕ) (l : Logout) : SessionEvent → Option Sessions
  | .computeTtl _ =>
    if l.phase = .verified then
      some (s.setLogout k { l with phase := .setting (logoutTtl l.token s.now) })
    else none
  | .setKey _ =>
    match l.phase with
    | .setting ttl =>
      some { s.setLogout k { l with phase := .set } with
        logoutKeys := Function.update s.logoutKeys (l.token.user, l.token.jti)
          (some ⟨(), s.now + ttl * 1000⟩) }
    | _ => none
  | .answerLogout _ =>
    if l.phase = .set then some (s.setLogout k { l with phase := .answered }) else none
  | _ => none

def checkStep (s : Sessions) (r : ℕ) (c : UserCheck) : SessionEvent → Option Sessions
  | .checkEpoch _ =>
    if c.phase = .checking ∧ c.epoch = none then
      some (s.setCheck r { c with epoch := some (s.epoch c.token.user) })
    else none
  | .checkKey _ =>
    if c.phase = .checking ∧ c.loggedOut = none then
      some (s.setCheck r { c with loggedOut := some (s.keyVisible c.token) })
    else none
  | .decide _ =>
    if c.phase = .checking then
      match c.epoch, c.loggedOut with
      | some epoch, some loggedOut =>
        some (s.setCheck r { c with
          phase := if isTokenRevoked c.token epoch loggedOut then .rejected else .passed })
      | _, _ => none
    else none
  | .accept _ =>
    if c.phase = .passed then some (s.setCheck r { c with phase := .accepted }) else none
  | .change _ =>
    if c.phase = .accepted then
      some { s.setCheck r { c with phase := .served } with
        changes := s.changes ++ [⟨c.token.user, .started⟩] }
    else none
  | _ => none

def step (s : Sessions) (e : SessionEvent) : Option Sessions :=
  match e with
  | .tick ms => some { s with now := s.now + ms }
  | .login user => some { s with logins := s.logins ++ [⟨user, s.hash user, .checking⟩] }
  | .authenticate i _ | .readEpoch i | .sign i => s.logins[i]?.bind fun l => s.loginStep i l e
  | .verifyPassword k _ | .updateHash k | .bumpEpoch k | .answerChange k =>
    s.changes[k]?.bind fun c => s.changeStep k c e
  | .logout t =>
    if s.Issued t then
      some { s with
        logouts := s.logouts ++ [⟨t, if t.validAt s.now then .verified else .answered⟩] }
    else none
  | .computeTtl k | .setKey k | .answerLogout k => s.logouts[k]?.bind fun l => s.logoutStep k l e
  | .request t =>
    if s.Issued t then
      some { s with
        checks := s.checks ++
          [⟨t, none, none, if t.validAt s.now then .checking else .rejected⟩] }
    else none
  | .checkEpoch r | .checkKey r | .decide r | .accept r | .change r =>
    s.checks[r]?.bind fun c => s.checkStep r c e

end Steps

section Properties

/-- A password change after the one that a token proves has been answered. -/
def ChangedSince (s : Sessions) (t : Token) : Prop :=
  ∃ c ∈ s.changes, c.user = t.user ∧ ∃ v, c.phase = .answered v ∧ t.proven < v

/-- A logout with a token has been answered. -/
def LoggedOut (s : Sessions) (t : Token) : Prop :=
  ∃ l ∈ s.logouts, l.token = t ∧ l.phase = .answered

/-- A logout with a token has set its key. -/
def KeySet (s : Sessions) (t : Token) : Prop :=
  ∃ l ∈ s.logouts, l.token = t ∧ (l.phase = .set ∨ l.phase = .answered)

/-- Revocation is effective at a step: a token is not accepted after a password change that it
    does not prove or up to its expiry after a logout, and the revocation check does not reject a
    token that proves the current password and whose session was not logged out. -/
def RevokesAt (s : Sessions) : SessionEvent → Prop
  | .accept r => ∀ c, s.checks[r]? = some c →
      ¬ s.ChangedSince c.token ∧ (c.token.validAt s.now → ¬ s.LoggedOut c.token)
  | .decide r => ∀ c epoch loggedOut, s.checks[r]? = some c → c.epoch = some epoch →
      c.loggedOut = some loggedOut → isTokenRevoked c.token epoch loggedOut = true →
        c.token.proven < s.hash c.token.user ∨ s.KeySet c.token
  | _ => True

/-- No step of a revocation falls in between at a step: a login reads the epoch when exactly the
    changes up to the password that it verified have bumped it, the key of a logout outlives the
    token, and a request is accepted while what it read of Redis still holds. -/
def NotOvertaken (s : Sessions) : SessionEvent → Prop
  | .readEpoch i => ∀ l, s.logins[i]? = some l → ∀ c ∈ s.changes, c.user = l.user →
      ∀ v, c.written = some v → (c.hasBumped = true ↔ v ≤ l.version)
  | .setKey k => ∀ l ttl, s.logouts[k]? = some l → l.phase = .setting ttl →
      l.token.exp * 1000 < s.now + ttl * 1000
  | .accept r => ∀ c, s.checks[r]? = some c →
      c.epoch = some (s.epoch c.token.user) ∧ c.loggedOut = some (s.keyVisible c.token)
  | _ => True

end Properties

section Deciding

instance (p : ChangePhase) (m : ℕ) : Decidable (∃ v, p = .answered v ∧ m < v) :=
  match p with
  | .answered v => decidable_of_iff (m < v) (by simp)
  | .started | .verified | .updated _ | .bumped _ | .refused => isFalse (by simp)

instance (p : LogoutPhase) (P : ℕ → Prop) [DecidablePred P] :
    Decidable (∀ ttl, p = .setting ttl → P ttl) :=
  match p with
  | .setting ttl => decidable_of_iff (P ttl) (by simp)
  | .verified | .set | .answered => isTrue (by simp)

instance (s : Sessions) (t : Token) : Decidable (s.ChangedSince t) :=
  inferInstanceAs (Decidable (∃ c ∈ s.changes, _ ∧ _))

instance (s : Sessions) (t : Token) : Decidable (s.LoggedOut t) :=
  inferInstanceAs (Decidable (∃ l ∈ s.logouts, _ ∧ _))

instance (s : Sessions) (t : Token) : Decidable (s.KeySet t) :=
  inferInstanceAs (Decidable (∃ l ∈ s.logouts, _ ∧ _))

instance (s : Sessions) : (e : SessionEvent) → Decidable (s.RevokesAt e)
  | .accept r => inferInstanceAs (Decidable (∀ c ∈ s.checks[r]?,
      ¬ s.ChangedSince c.token ∧ (c.token.validAt s.now → ¬ s.LoggedOut c.token)))
  | .decide r => decidable_of_iff (∀ c ∈ s.checks[r]?, ∀ epoch ∈ c.epoch, ∀ loggedOut ∈ c.loggedOut,
      isTokenRevoked c.token epoch loggedOut = true →
        c.token.proven < s.hash c.token.user ∨ s.KeySet c.token)
      ⟨fun h c epoch loggedOut hc he hout => h c hc epoch he loggedOut hout,
        fun h c hc epoch he loggedOut hout => h c epoch loggedOut hc he hout⟩
  | .tick _ | .login _ | .authenticate _ _ | .readEpoch _ | .sign _ | .change _
  | .verifyPassword _ _ | .updateHash _ | .bumpEpoch _ | .answerChange _ | .logout _ | .computeTtl _
  | .setKey _ | .answerLogout _ | .request _ | .checkEpoch _ | .checkKey _ => isTrue trivial

instance (s : Sessions) : (e : SessionEvent) → Decidable (s.NotOvertaken e)
  | .readEpoch i => inferInstanceAs (Decidable (∀ l ∈ s.logins[i]?, ∀ c ∈ s.changes,
      c.user = l.user → ∀ v ∈ c.written, (c.hasBumped = true ↔ v ≤ l.version)))
  | .setKey k => decidable_of_iff (∀ l ∈ s.logouts[k]?, ∀ ttl, l.phase = .setting ttl →
      l.token.exp * 1000 < s.now + ttl * 1000)
      ⟨fun h l ttl hl => h l hl ttl, fun h l hl ttl => h l ttl hl⟩
  | .accept r => inferInstanceAs (Decidable (∀ c ∈ s.checks[r]?,
      c.epoch = some (s.epoch c.token.user) ∧ c.loggedOut = some (s.keyVisible c.token)))
  | .tick _ | .login _ | .authenticate _ _ | .sign _ | .change _ | .verifyPassword _ _
  | .updateHash _ | .bumpEpoch _ | .answerChange _ | .logout _ | .computeTtl _ | .answerLogout _
  | .request _ | .checkEpoch _ | .checkKey _ | .decide _ => isTrue trivial

end Deciding

end Sessions

end BotHive.Auth
