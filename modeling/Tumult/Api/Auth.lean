import Mathlib.Data.List.AList
import Tumult.Core.Text
import Tumult.Lake.Auth
import Tumult.Lib.Interleave

/-!
# Authentication

The requests that create users and rotate passwords, each a check, reads of the store and one closure on the single writer; the
login limiter; and login, change and reset as tasks that interleave at every read, verification, lock and closure. Passwords are
hashed and verified outside, and what a request draws at random is numbered.
-/

namespace Tumult.Auth

open Db (Tx Env)

/-- What authentication takes from outside. -/
structure AuthCtx where
  ingestHandle : Bool
  verifyPassword : String → String → Bool
  dummyPasswordHash : String
  sha256Hex : String → String
  hashPassword : Nat → String → Except ApiError String
  newPassword : Nat → String
  newUuid : Nat → String
  newSessionId : Nat → String

/-- Run a mutation on the single writer; without the writer the request is refused. -/
def execAuthWrite (ctx : AuthCtx) (f : Tx ApiError AuthDb Unit) : Tx ApiError AuthDb Unit :=
  if ctx.ingestHandle then f else Db.throw (.unavailable "auth writes are not wired (no ingest handle)")

/-- Twelve hours. -/
def sessionTtlNs : Int := 12 * 3600 * 1000000000

/-! ## Requests -/

structure CreateUserRequest where
  username : String
  password : Option String
  role : String
  envScopes : Option (List String)
  deriving DecidableEq, Repr

namespace CreateUserRequest

/-- The password that was supplied, if it is not empty. -/
def supplied (req : CreateUserRequest) : Option String := req.password.filter (· ≠ "")

/-- The checks that need no store: the name that is looked up, and the role. -/
def validate (req : CreateUserRequest) : Except ApiError (String × Role) :=
  if Text.trim req.username = "" then .error (.badRequest "username must not be empty")
  else if req.supplied.any (·.length < 12) then .error (.badRequest "password must be at least 12 characters")
  else
    match Role.parse req.role with
    | some role => .ok (Text.trim req.username, role)
    | none => .error (.badRequest ("unknown role " ++ req.role.quote ++ "; expected viewer|operator|approver|admin"))

end CreateUserRequest

/-- The answer to a creation; a generated password is returned once. -/
structure CreatedUser where
  id : String
  username : String
  role : Role
  oneTimePassword : Option String
  deriving DecidableEq, Repr

structure Principal where
  userId : String
  username : String
  role : Role
  envScopes : List String
  mustChange : Bool
  synthetic : Bool
  deriving DecidableEq, Repr

structure ChangePasswordRequest where
  currentPassword : String
  newPassword : String
  deriving DecidableEq, Repr

section

variable (Γ : Env) (ctx : AuthCtx) (draw : Nat)

/-- The closure behind a creation. -/
def createUserWrite (row : UserRow) (scopes : Option (List String)) : Tx ApiError AuthDb Unit := do
  Writer.createUser Γ row
  scopes.elim (pure ()) (Writer.setUserEnvScopes Γ row.id)

/-- `POST /api/users`. -/
def createUser (req : CreateUserRequest) : Tx ApiError AuthDb CreatedUser := do
  let (username, role) ← Db.ofExcept req.validate
  let existing ← Db.query Γ .internal (·.userByUsername username)
  if existing.isSome then Db.throw (.conflict "username exists")
  else
    let hash ← Db.ofExcept (ctx.hashPassword draw (req.supplied.getD (ctx.newPassword draw)))
    let nowNs ← Db.now Γ
    execAuthWrite ctx (createUserWrite Γ ⟨ctx.newUuid draw, username, hash, role.asStr, true, false, nowNs⟩ req.envScopes)
    pure ⟨ctx.newUuid draw, username, role, if req.supplied.isSome then none else some (ctx.newPassword draw)⟩

/-- The closure behind a reset. -/
def resetPasswordWrite (id hash : String) : Tx ApiError AuthDb Unit := do
  Writer.resetUserPassword Γ id hash
  Writer.deleteSessionsForUser Γ id
  Writer.revokeTokensForUser Γ id

/-- `POST /api/users/{id}/password`. -/
def resetPassword (id password : String) : Tx ApiError AuthDb Unit := do
  if password.length < 12 then Db.throw (.badRequest "password must be at least 12 characters")
  else
    let user ← Db.query Γ .internal (·.userById id)
    if user.isNone then Db.throw (.notFound "unknown user")
    else
      let hash ← Db.ofExcept (ctx.hashPassword draw password)
      execAuthWrite ctx (resetPasswordWrite Γ id hash)

/-- The closure behind a change. -/
def changePasswordWrite (id hash : String) : Tx ApiError AuthDb Unit := do
  Writer.setUserPassword Γ id hash
  Writer.deleteSessionsForUser Γ id
  Writer.revokeTokensForUser Γ id

/-- The checks of a change that need no store. -/
def ChangePasswordRequest.validate (principal : Principal) (req : ChangePasswordRequest) : Except ApiError Unit :=
  if principal.synthetic then .error (.badRequest "authentication is not enabled")
  else if req.newPassword.length < 12 then .error (.badRequest "new_password must be at least 12 characters")
  else .ok ()

/-- `POST /api/auth/change-password`. -/
def changePassword (principal : Principal) (req : ChangePasswordRequest) : Tx ApiError AuthDb Unit := do
  Db.ofExcept (req.validate principal)
  let user ← Db.query Γ .internal (·.userById principal.userId)
  if user.any (ctx.verifyPassword ·.passwordHash req.currentPassword) then
    let hash ← Db.ofExcept (ctx.hashPassword draw req.newPassword)
    execAuthWrite ctx (changePasswordWrite Γ principal.userId hash)
  else Db.throw (.unauthorized "invalid credentials")

/-- The closure behind a login. -/
def loginWrite (idHash userId : String) : Tx ApiError AuthDb Unit := do
  let nowNs ← Db.now Γ
  Writer.createSession Γ ⟨idHash, userId, nowNs, nowNs + sessionTtlNs⟩

end

/-! ## Credentials -/

/-- What the middleware makes of the credentials of a request. -/
inductive Resolve where
  | openAccess
  | authenticated (principal : Principal)
  | rejected
  deriving DecidableEq, Repr

/-- The user whose credential a request carries: a bearer token with the prefix of tokens, or else a session cookie. -/
def credentialUser (ctx : AuthCtx) (db : AuthDb) (bearer cookie : Option String) (nowNs : Int) : Option UserRow :=
  match bearer.filter ("kro_".isPrefixOf ·) with
  | some token => (db.tokenWithUser (ctx.sha256Hex token) nowNs).map Prod.snd
  | none => cookie.bind fun sessionId => (db.sessionWithUser (ctx.sha256Hex sessionId) nowNs).map Prod.snd

/-- Resolve the credentials of a request; a disabled account and an unreadable role are refused. -/
def resolve (ctx : AuthCtx) (db : AuthDb) (bearer cookie : Option String) (nowNs : Int) : Resolve :=
  if !db.realUsersExist then .openAccess
  else
    match (credentialUser ctx db bearer cookie nowNs).filter (!·.disabled) with
    | none => .rejected
    | some user =>
      match Role.parse user.role with
      | none => .rejected
      | some role => .authenticated ⟨user.id, user.username, role, db.envScopes user.id, user.mustChange, false⟩

/-! ## The login limiter -/

structure LoginBucket where
  tokens : ℚ
  lastRefill : ℚ

/-- Beyond so many tracked buckets the map is cleared. -/
def maxLoginBuckets : Nat := 4096

/-- A token bucket a key; a token is taken by a failed attempt only. Instants are seconds. -/
structure LoginRateLimiter where
  rps : ℚ
  burst : ℚ
  buckets : AList fun _ : String => LoginBucket

namespace LoginRateLimiter

/-- Five attempts, and one more every ten seconds. -/
def new : LoginRateLimiter := ⟨1 / 10, 5, ∅⟩

variable (l : LoginRateLimiter)

/-- Refill up to the burst; an instant that is earlier than the last counts as the last. -/
def refill (bucket : LoginBucket) (now : ℚ) : LoginBucket :=
  ⟨min (bucket.tokens + max 0 (now - bucket.lastRefill) * l.rps) l.burst, now⟩

/-- The map that an access finds: cleared when it has grown to its bound. -/
def bounded : AList fun _ : String => LoginBucket := if maxLoginBuckets ≤ l.buckets.keys.length then ∅ else l.buckets

/-- The bucket of a key, a full one if it has none, refilled. -/
def bucket (key : String) (now : ℚ) : LoginBucket := l.refill ((l.bounded.lookup key).getD ⟨l.burst, now⟩) now

/-- The limiter with the bucket of a key replaced. -/
def withBucket (key : String) (b : LoginBucket) : LoginRateLimiter := { l with buckets := l.bounded.insert key b }

/-- Whether an attempt must be refused; no token is taken. -/
def throttled (key : String) (now : ℚ) : Bool × LoginRateLimiter :=
  (decide ((l.bucket key now).tokens < 1), l.withBucket key (l.bucket key now))

/-- Take one token after a failed attempt. -/
def penalize (key : String) (now : ℚ) : LoginRateLimiter :=
  l.withBucket key { l.bucket key now with tokens := max ((l.bucket key now).tokens - 1) 0 }

/-- A success clears the history of the key. -/
def reset (key : String) : LoginRateLimiter := { l with buckets := l.buckets.erase key }

end LoginRateLimiter

end Tumult.Auth
