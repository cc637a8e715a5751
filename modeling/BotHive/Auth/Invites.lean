import BotHive.Auth.Users
import BotHive.Library.Text

/-!
# Invites

An admin creates an invite for an email, and who has its token redeems it for a user of their
own. A request is a sequence of SQL statements, as in `BotHive.Auth.Users`; the writes of a
redemption are one transaction. The requests about users run beside, and users are created on
other ways too.

## Main definitions

- `InviteRequest.execute`: the next statement of a request and the decision after it
- `InviteApi.step`: requests that arrive and take turns, and what happens to users beside
- `InviteApi.SingleUse`: what should hold of the redemptions
- `InviteApi.RedeemsOnce`: the condition on a step
-/

namespace BotHive.Auth

/-- A row of the table `Invite`. -/
structure Invite where
  email : String
  token : String
  role : Role
  createdById : String
  usedAt : Option ℤ
  expiresAt : ℤ

inductive InviteReply where
  | error (status : ℕ) (code message : String)
  | created (id : String) (invite : Invite)
  | message (text : String)
  /-- A session of the new user. -/
  | session (userId : String) (user : User)

/-- A body, a field none when it is not a text. -/
inductive InviteCommand where
  /-- `POST /invites` -/
  | create (email role : Option String)
  /-- `DELETE /invites/:id` -/
  | revoke (id : String)
  /-- `POST /invite/redeem` -/
  | redeem (token password name : Option String)

structure InviteRequest where
  caller : Option String
  command : InviteCommand

/-- The statement that a request executes next. -/
inductive InviteStage where
  | requireAdmin
  | findActive (me email : String) (role : Role)
  | findRegistered (me email : String) (role : Role)
  | create (me email : String) (role : Role)
  | deleteUnused (id : String)
  | findInvite (token password : String) (name : Option String)
  /-- The transaction, with the invite as it was read, and when it was checked. -/
  | redeem (token id : String) (invite : Invite) (checkedAt : ℤ) (name : Option String)
  | answered (reply : InviteReply)

/-- What is drawn for a statement. -/
structure Drawn where
  id : String
  token : String
  passwordHash : String

/-- A redemption that succeeded. -/
structure Redemption where
  token : String
  checkedAt : ℤ
  user : User
  /-- The revocation of the invite had been answered before. -/
  revoked : Bool

/-- The tables and the requests that have arrived. The invites that there have been, the ids
    whose revocation has been answered with success, and the redemptions that have succeeded are
    kept for the statement only. -/
structure InviteApi where
  now : ℤ
  users : AdminApi
  invites : InsertionMap String Invite
  requests : List (InviteRequest × InviteStage)
  issued : List (String × Invite)
  revoked : List String
  redemptions : List Redemption

inductive InviteAction where
  | wait (ms : ℕ)
  /-- A request about a user. -/
  | user (a : AdminAction)
  | insertUser (id : String) (user : User)
  | arrive (request : InviteRequest)
  | advance (i : ℕ) (drawn : Drawn)

def inviteLifetime : ℤ :=
  7 * 24 * 60 * 60 * 1000

/-- Some user has the email. -/
def registered (users : Users) (email : String) : Bool :=
  users.values.any fun user => user.email = email

/-- `SELECT … WHERE email = … AND "usedAt" IS NULL` -/
def findActive (invites : InsertionMap String Invite) (email : String) : Bool :=
  invites.values.any fun invite => invite.email = email && invite.usedAt.isNone

/-- `SELECT … WHERE token = …` -/
def findInvite (invites : InsertionMap String Invite) (token : String) : Option (String × Invite) :=
  invites.entries.find? fun entry => entry.2.token = token

/-- The name of a user who gives none. -/
def localPart (email : String) : String :=
  String.ofList (email.toList.takeWhile fun c => c ≠ '@')

def internalError : InviteReply :=
  .error 500 "ERROR" "Internal server error"

section Execute

variable [CaseMapping]

/-- What the handler of an admin does before its first statement. -/
def InviteRequest.handle (me : String) : InviteCommand → InviteStage
  | .create (some email) role =>
    if '@' ∈ email.toList then
      .findActive me (toLowerCase email) (if role = some "admin" then .admin else .viewer)
    else .answered (.error 422 "VALIDATION_ERROR" "Valid email is required")
  | .create none _ => .answered (.error 422 "VALIDATION_ERROR" "Valid email is required")
  | .revoke id => .deleteUnused id
  | .redeem .. => .answered internalError

/-- Where a request starts; a redemption needs no admin. -/
def InviteRequest.start : InviteCommand → InviteStage
  | .redeem (some token) (some password) name =>
    if token = "" ∨ password = "" then
      .answered (.error 422 "VALIDATION_ERROR" "token and password are required")
    else .findInvite token password name
  | .redeem .. => .answered (.error 422 "VALIDATION_ERROR" "token and password are required")
  | _ => .requireAdmin

/-- The two writes of a redemption, or none of them: the email of a user is unique, and the
    update throws when the invite is gone. -/
def redeemInvite (s : InviteApi) (drawn : Drawn) (token id : String) (invite : Invite)
    (checkedAt : ℤ) (name : Option String) : InviteApi × InviteStage :=
  let user : User := {
    email := invite.email
    passwordHash := drawn.passwordHash
    name := some (name.getD (localPart invite.email))
    role := invite.role
    createdAt := s.now.toNat }
  match s.invites.get id with
  | none => (s, .answered internalError)
  | some row =>
    if registered s.users.users invite.email then (s, .answered internalError)
    else
      ({ s with
        users := { s.users with users := s.users.users.set drawn.id user }
        invites := s.invites.set id { row with usedAt := some s.now }
        redemptions := ⟨token, checkedAt, user, id ∈ s.revoked⟩ :: s.redemptions },
       .answered (.session drawn.id user))

/-- Execute the next statement of a request; ids and tokens are drawn afresh. -/
def InviteRequest.execute (request : InviteRequest) (s : InviteApi) (drawn : Drawn) :
    InviteStage → Option (InviteApi × InviteStage)
  | .requireAdmin =>
    match request.caller with
    | none => some (s, .answered (.error 401 "UNAUTHORIZED" "Unauthorized"))
    | some me =>
      match s.users.users.get me with
      | none => some (s, .answered (.error 401 "UNAUTHORIZED" "Unauthorized"))
      | some user =>
        if user.role = .admin then some (s, handle me request.command)
        else some (s, .answered (.error 403 "FORBIDDEN" "Admin role required"))
  | .findActive me email role =>
    if findActive s.invites email then some (s, .answered
      (.error 409 "CONFLICT" "An active invite already exists for this email"))
    else some (s, .findRegistered me email role)
  | .findRegistered me email role =>
    if registered s.users.users email then
      some (s, .answered (.error 409 "CONFLICT" "Email is already registered"))
    else some (s, .create me email role)
  | .create me email role =>
    if s.issued.any fun other => other.1 = drawn.id || other.2.token = drawn.token then none
    else
      let invite : Invite := {
        email := email
        token := drawn.token
        role := role
        createdById := me
        usedAt := none
        expiresAt := s.now + inviteLifetime }
      some ({ s with
        invites := s.invites.set drawn.id invite
        issued := (drawn.id, invite) :: s.issued }, .answered (.created drawn.id invite))
  | .deleteUnused id =>
    match s.invites.get id with
    | none => some (s, .answered (.error 404 "NOT_FOUND" "Invite not found or already used"))
    | some invite =>
      if invite.usedAt.isSome then
        some (s, .answered (.error 404 "NOT_FOUND" "Invite not found or already used"))
      else some ({ s with invites := s.invites.delete id, revoked := id :: s.revoked },
        .answered (.message "Invite revoked"))
  | .findInvite token _ name =>
    match findInvite s.invites token with
    | none => some (s, .answered (.error 404 "NOT_FOUND" "Invalid invite token"))
    | some (id, invite) =>
      if invite.usedAt.isSome then
        some (s, .answered (.error 410 "GONE" "Invite has already been used"))
      else if invite.expiresAt < s.now then
        some (s, .answered (.error 410 "GONE" "Invite has expired"))
      else some (s, .redeem token id invite s.now name)
  | .redeem token id invite checkedAt name =>
    if s.users.users.has drawn.id then none
    else some (redeemInvite s drawn token id invite checkedAt name)
  | .answered _ => none

end Execute

namespace InviteApi

/-- No invite has been created yet. -/
def start (users : Users) : InviteApi where
  now := 0
  users := .start users
  invites := .empty
  requests := []
  issued := []
  revoked := []
  redemptions := []

variable [CaseMapping]

/-- Time passes, users change, and requests arrive and execute their next statements. -/
def step (s : InviteApi) : InviteAction → Option InviteApi
  | .wait ms => some { s with now := s.now + ms }
  | .user a => (s.users.step a).map fun users => { s with users }
  | .insertUser id user =>
    if s.users.users.has id ∨ registered s.users.users user.email then none
    else some { s with users := { s.users with users := s.users.users.set id user } }
  | .arrive request =>
    some { s with requests := s.requests ++ [(request, InviteRequest.start request.command)] }
  | .advance i drawn => s.requests[i]?.bind fun (request, stage) =>
    (request.execute s drawn stage).map fun (s', stage') =>
      { s' with requests := s.requests.set i (request, stage') }

omit [CaseMapping]

/-- A redemption follows its invite. -/
structure Follows (r : Redemption) (invite : Invite) : Prop where
  token : invite.token = r.token
  email : r.user.email = invite.email
  role : r.user.role = invite.role
  unexpired : r.checkedAt ≤ invite.expiresAt

/-- Every token is redeemed at most once, as its invite says, in time, and not after a
    revocation. -/
structure SingleUse (s : InviteApi) : Prop where
  once : (s.redemptions.map Redemption.token).Nodup
  follows : ∀ r ∈ s.redemptions, ∃ issue ∈ s.issued, Follows r issue.2
  unrevoked : ∀ r ∈ s.redemptions, r.revoked = false

/-- A checked redemption whose invite has been used meanwhile finds a user with its email. -/
def RedeemsOnce (s : InviteApi) : InviteAction → Prop
  | .advance i _ => ∀ request token id invite checkedAt name,
      s.requests[i]? = some (request, .redeem token id invite checkedAt name) →
        ∀ row, s.invites.get id = some row → row.usedAt.isSome →
          registered s.users.users invite.email = true
  | _ => True

end InviteApi

end BotHive.Auth
