import Tumult.Lib.Db

/-!
# The auth tables

Users, sessions, API tokens and the environment scopes of users. The tables have no keys: what is unique is kept unique by the
callers. Mutations are statements on the single writer; only the replacement of a user's scopes opens a transaction. Reads map the
first row that a query returns.
-/

namespace Tumult.Auth

open Db (Tx Env)

/-- A user record. -/
structure UserRow where
  id : String
  username : String
  passwordHash : String
  role : String
  mustChange : Bool
  disabled : Bool
  createdAtNs : Int
  deriving DecidableEq, Repr

/-- A session record: of the opaque cookie value only the hash is stored. -/
structure SessionRow where
  idHash : String
  userId : String
  createdAtNs : Int
  expiresAtNs : Int
  deriving DecidableEq, Repr

/-- An API token record; without an expiry it never expires. -/
structure TokenRow where
  id : String
  userId : String
  name : String
  tokenHash : String
  createdAtNs : Int
  lastUsedAtNs : Option Int
  revoked : Bool
  expiresAtNs : Option Int
  deriving DecidableEq, Repr

structure EnvScopeRow where
  userId : String
  environment : String
  deriving DecidableEq, Repr

/-- The four tables. -/
structure AuthDb where
  users : List UserRow := []
  sessions : List SessionRow := []
  tokens : List TokenRow := []
  userEnvScopes : List EnvScopeRow := []
  deriving DecidableEq, Repr

/-- Why a request to the API fails: the response that it gets. -/
inductive ApiError where
  | unavailable (message : String)
  | internal
  | badRequest (message : String)
  | conflict (message : String)
  | unauthorized (message : String)
  | notFound (message : String)
  deriving DecidableEq, Repr

/-! ## Mutations -/

/-- `UPDATE users SET password_hash = ?, must_change = ? WHERE id = ?`. -/
def AuthDb.withPassword (db : AuthDb) (userId passwordHash : String) (mustChange : Bool) : AuthDb :=
  { db with users := Db.updateWhere (·.id = userId) (fun u => { u with passwordHash, mustChange }) db.users }

/-- The store without the sessions that a user owns. -/
def AuthDb.withoutSessions (db : AuthDb) (userId : String) : AuthDb :=
  { db with sessions := db.sessions.filter (·.userId ≠ userId) }

/-- The store with every token revoked that a user owns. -/
def AuthDb.withoutTokens (db : AuthDb) (userId : String) : AuthDb :=
  { db with tokens := Db.updateWhere (·.userId = userId) (fun t => { t with revoked := true }) db.tokens }

namespace Writer

variable (Γ : Env)

/-- Insert a user; callers enforce that the name is new. -/
def createUser (user : UserRow) : Tx ApiError AuthDb Unit :=
  Db.execute Γ .internal .internal fun db => some { db with users := db.users ++ [user] }

/-- Replace a user's password hash, clearing the one-time flag. -/
def setUserPassword (userId passwordHash : String) : Tx ApiError AuthDb Unit :=
  Db.execute Γ .internal .internal fun db => some (db.withPassword userId passwordHash false)

/-- An admin's reset: set the hash, and force a change at the next login. -/
def resetUserPassword (userId passwordHash : String) : Tx ApiError AuthDb Unit :=
  Db.execute Γ .internal .internal fun db => some (db.withPassword userId passwordHash true)

/-- Insert a session. -/
def createSession (session : SessionRow) : Tx ApiError AuthDb Unit :=
  Db.execute Γ .internal .internal fun db => some { db with sessions := db.sessions ++ [session] }

/-- Delete every session that a user owns. -/
def deleteSessionsForUser (userId : String) : Tx ApiError AuthDb Unit :=
  Db.execute Γ .internal .internal fun db => some (db.withoutSessions userId)

/-- Revoke every token that a user owns. -/
def revokeTokensForUser (userId : String) : Tx ApiError AuthDb Unit :=
  Db.execute Γ .internal .internal fun db => some (db.withoutTokens userId)

/-- The delete and the inserts behind a replacement of scopes. -/
def scopeStatements (userId : String) (environments : List String) : List (AuthDb → Option AuthDb) :=
  (fun db => some { db with userEnvScopes := db.userEnvScopes.filter (·.userId ≠ userId) }) ::
    environments.map fun environment db => some { db with userEnvScopes := db.userEnvScopes ++ [⟨userId, environment⟩] }

/-- Replace a user's environment scopes in one transaction; an empty set clears them, which allows every environment. -/
def setUserEnvScopes (userId : String) (environments : List String) : Tx ApiError AuthDb Unit :=
  Db.withTx Γ .internal (Db.executeAll Γ .internal .internal (scopeStatements userId environments))

end Writer

/-! ## Reads -/

namespace AuthDb

variable (db : AuthDb)

/-- Whether there is a user other than the one that the migration seeds. -/
def realUsersExist : Bool := db.users.any (·.id ≠ "legacy")

def userByUsername (username : String) : Option UserRow := db.users.find? (·.username = username)

def userById (id : String) : Option UserRow := db.users.find? (·.id = id)

/-- The first row of an unexpired session joined with its user. -/
def sessionWithUser (idHash : String) (nowNs : Int) : Option (SessionRow × UserRow) :=
  (db.sessions.flatMap fun s => (db.users.filter (·.id = s.userId)).map fun u => (s, u)).find? fun r =>
    r.1.idHash = idHash && r.1.expiresAtNs > nowNs

/-- The first row of an unrevoked, unexpired token joined with its user. -/
def tokenWithUser (tokenHash : String) (nowNs : Int) : Option (TokenRow × UserRow) :=
  (db.tokens.flatMap fun t => (db.users.filter (·.id = t.userId)).map fun u => (t, u)).find? fun r =>
    r.1.tokenHash = tokenHash && !r.1.revoked && r.1.expiresAtNs.all (· > nowNs)

/-- A user's environments, ordered; none means every environment. -/
def envScopes (userId : String) : List String :=
  ((db.userEnvScopes.filter (·.userId = userId)).map (·.environment)).mergeSort

end AuthDb

end Tumult.Auth
