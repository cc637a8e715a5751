import BotHive.Library.InsertionMap

/-!
# The users and who administrates them

The routes by which an admin changes the role of a user or deletes a user. A request is a
sequence of SQL statements with a decision between any two of them; each statement is
atomic, and the statements of different requests may come in any order. A stage of a
request therefore names the statement that the request executes next.

## Main definitions

- `Users`, `countAdmins`, `countOtherAdmins`: the table and what its guards count
- `Request.execute`: the next statement of a request and the decision after it
- `AdminApi.step`: requests that arrive and take turns
-/

namespace BotHive.Auth

inductive Role where
  | admin
  | viewer
  deriving DecidableEq

/-- The role that a request body names. -/
def Role.parse : Option String → Option Role
  | some "admin" => some .admin
  | some "viewer" => some .viewer
  | _ => none

structure User where
  email : String
  passwordHash : String
  name : Option String
  role : Role
  createdAt : ℕ

/-- The table `User`, by id. -/
abbrev Users := InsertionMap String User

/-- `SELECT COUNT(*) FROM "User" WHERE role = 'admin'` -/
def countAdmins (users : Users) : ℕ :=
  users.count fun _ user => user.role = .admin

/-- `SELECT COUNT(*) FROM "User" WHERE role = 'admin' AND id != target` -/
def countOtherAdmins (users : Users) (target : String) : ℕ :=
  users.count fun id user => user.role = .admin && id ≠ target

inductive Reply where
  | error (status : ℕ) (code message : String)
  | user (id email : String) (name : Option String) (role : Role) (createdAt : ℕ)
  | message (text : String)
  deriving DecidableEq

def notFound : Reply :=
  .error 404 "NOT_FOUND" "User not found"

def unauthorized : Reply :=
  .error 401 "UNAUTHORIZED" "Unauthorized"

inductive Command where
  /-- `PATCH /users/:id/role` -/
  | setRole (role : Option String)
  /-- `DELETE /users/:id` -/
  | delete

/-- A request about a user; `caller` is the id in its token, when that verifies and has not
    been revoked. -/
structure Request where
  caller : Option String
  target : String
  command : Command

/-- The statement that a request executes next. -/
inductive Stage where
  /-- `requireAdmin` reads the row of the caller. -/
  | requireAdmin
  | findForRole (role : Role)
  | updateRole (role : Role)
  | readUpdated
  | findForDelete (me : String)
  /-- The target was no admin when it was read. -/
  | deleteUser
  | deleteAdmin
  | answered (reply : Reply)
  deriving DecidableEq

/-- What the handler does before its first statement. -/
def Request.handle (me : String) : Command → Stage
  | .setRole role =>
    match Role.parse role with
    | none => .answered (.error 422 "VALIDATION_ERROR" "role must be admin or viewer")
    | some role => .findForRole role
  | .delete => .findForDelete me

/-- `UPDATE "User" SET role = … WHERE id = … AND NOT (…)`, and the number of rows it found. -/
def updateRole (users : Users) (id : String) (role : Role) : Users × ℕ :=
  match users.get id with
  | none => (users, 0)
  | some user =>
    if user.role = .admin ∧ role = .viewer ∧ countAdmins users ≤ 1 then (users, 0)
    else (users.set id { user with role }, 1)

/-- `DELETE FROM "User" WHERE id = … AND (…) > 0`, and the number of rows it found. -/
def deleteAdmin (users : Users) (id : String) : Users × ℕ :=
  if users.has id ∧ 0 < countOtherAdmins users id then (users.delete id, 1) else (users, 0)

/-- Execute the next statement of a request. -/
def Request.execute (request : Request) (users : Users) : Stage → Option (Users × Stage)
  | .requireAdmin =>
    match request.caller with
    | none => some (users, .answered unauthorized)
    | some me =>
      match users.get me with
      | none => some (users, .answered unauthorized)
      | some user =>
        if user.role = .admin then some (users, handle me request.command)
        else some (users, .answered (.error 403 "FORBIDDEN" "Admin role required"))
  | .findForRole role =>
    if users.has request.target then some (users, .updateRole role)
    else some (users, .answered notFound)
  | .updateRole role =>
    match updateRole users request.target role with
    | (_, 0) => some (users, .answered (.error 409 "CONFLICT" "Cannot demote the last admin"))
    | (users', _) => some (users', .readUpdated)
  | .readUpdated =>
    match users.get request.target with
    | none => some (users, .answered notFound)
    | some fresh => some (users, .answered
        (.user request.target fresh.email fresh.name fresh.role fresh.createdAt))
  | .findForDelete me =>
    match users.get request.target with
    | none => some (users, .answered notFound)
    | some target =>
      if request.target = me then
        some (users, .answered (.error 400 "BAD_REQUEST" "You cannot delete your own account"))
      else if target.role ≠ .admin then some (users, .deleteUser)
      else some (users, .deleteAdmin)
  | .deleteUser =>
    -- the client of the database throws when there is no such row
    if users.has request.target then
      some (users.delete request.target, .answered (.message "User deleted"))
    else some (users, .answered (.error 500 "ERROR" "Internal server error"))
  | .deleteAdmin =>
    match deleteAdmin users request.target with
    | (_, 0) => some (users, .answered (.error 409 "CONFLICT" "Cannot delete the last admin"))
    | (users', _) => some (users', .answered (.message "User deleted"))
  | .answered _ => none

/-- The table and the requests that have arrived. -/
structure AdminApi where
  users : Users
  requests : List (Request × Stage)

inductive AdminAction where
  | arrive (request : Request)
  | advance (i : ℕ)

namespace AdminApi

/-- No request has arrived yet. -/
def start (users : Users) : AdminApi :=
  ⟨users, []⟩

/-- A request arrives, or one of those that have arrived executes its next statement. -/
def step (s : AdminApi) : AdminAction → Option AdminApi
  | .arrive request => some { s with requests := s.requests ++ [(request, .requireAdmin)] }
  | .advance i => s.requests[i]?.bind fun (request, stage) =>
    (request.execute s.users stage).map fun (users, stage') =>
      ⟨users, s.requests.set i (request, stage')⟩

/-- Some user is an admin. -/
def HasAdmin (s : AdminApi) : Prop :=
  0 < countAdmins s.users

/-- A delete that was decided on because its target was no admin does not come at a time at
    which the target is the only admin. -/
def DeletesSafely (s : AdminApi) : AdminAction → Prop
  | .arrive _ => True
  | .advance i => ∀ request, s.requests[i]? = some (request, .deleteUser) →
      ∀ user, s.users.get request.target = some user → user.role = .admin →
        0 < countOtherAdmins s.users request.target

end AdminApi

end BotHive.Auth
