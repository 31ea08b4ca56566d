import Tumult.Api.Auth

/-!
# Login, change and reset as tasks

A login is a check of the limiter, a read of the user, a verification on another thread, then a penalty or a reset of the limiter
and a closure that writes the session. A change and a reset of a password are a read, then a closure. Any number of them interleave
at these points. Closures run one at a time on the writer, and their statements may be refused.
-/

namespace Tumult.Auth

open Db (Tx Env)

structure LoginRequest where
  client : String
  username : String
  password : String
  deriving DecidableEq, Repr

/-- The key of the throttle. -/
def LoginRequest.key (req : LoginRequest) : String := req.client ++ "|" ++ Text.trim req.username

/-- Points of a login; `seen` is the generation of the password that it read. -/
inductive LoginPoint where
  | start
  | passed
  | found (user : Option UserRow) (seen : Nat)
  | verified (user : Option UserRow) (seen : Nat) (ok : Bool)
  | admitted (user : UserRow) (seen : Nat)

/-- Points of a change. -/
inductive ChangePoint where
  | start
  | found (user : UserRow)
  | verified
  | hashed (hash : String)

/-- Points of a reset. -/
inductive ResetPoint where
  | start
  | found
  | hashed (hash : String)

inductive AuthTask where
  | login (req : LoginRequest) (p : LoginPoint)
  | changePassword (principal : Principal) (req : ChangePasswordRequest) (p : ChangePoint)
  | resetPassword (id password : String) (p : ResetPoint)

/-- A cookie that a login returned, for whom, and the generation of the password that was presented for it. -/
structure Issued where
  sessionId : String
  userId : String
  generation : Nat
  deriving DecidableEq, Repr

/-- What the tasks share. The last four are histories: how often the password of a user was set, the cookies returned, the users
whose password was rotated with the generation then reached, and the logins of a key that are past their check. -/
structure AuthState where
  db : Db.Session AuthDb
  limiter : LoginRateLimiter
  now : ℚ
  draws : Nat
  generation : String → Nat
  issued : List Issued
  rotated : List (String × Nat)
  inFlight : String → Nat

inductive AuthLabel where
  | checked (key : String) (now : ℚ) (refused : Bool)
  | verified (key : String) (now : ℚ) (ok : Bool)
  | penalized (key : String) (now : ℚ)
  | cleared (key : String) (now : ℚ)
  | left (key : String)
  | session (userId : String) (seen : Nat)
  | other
  deriving DecidableEq

namespace AuthState

variable (s : AuthState)

/-- The check of the limiter. -/
def check (key : String) (now : ℚ) : AuthState := { s with now, limiter := (s.limiter.throttled key now).2 }

def penalize (key : String) (now : ℚ) : AuthState := { s with now, limiter := s.limiter.penalize key now }

def clear (key : String) (now : ℚ) : AuthState := { s with now, limiter := s.limiter.reset key }

/-- One more login of the key is past its check. -/
def enter (key : String) : AuthState := { s with inFlight := Function.update s.inFlight key (s.inFlight key + 1) }

def leave (key : String) : AuthState := { s with inFlight := Function.update s.inFlight key (s.inFlight key - 1) }

/-- The closure of a login, and the cookie if it returned. -/
def writeSession (Γ : Env) (ctx : AuthCtx) (userId : String) (seen : Nat) : AuthState :=
  let result := loginWrite Γ (ctx.sha256Hex (ctx.newSessionId s.draws)) userId s.db
  { s with
    db := result.2
    draws := s.draws + 1
    issued := if result.1.isOk then s.issued ++ [⟨ctx.newSessionId s.draws, userId, seen⟩] else s.issued }

/-- The closure of a rotation. The password is set by its first statement. -/
def rotate (Γ : Env) (write : Tx ApiError AuthDb Unit) (userId : String) : AuthState :=
  let generation :=
    if Γ.fails s.db.tick then s.generation else Function.update s.generation userId (s.generation userId + 1)
  { s with
    db := (write s.db).2
    generation
    rotated := if (write s.db).1.isOk then s.rotated ++ [(userId, generation userId)] else s.rotated }

end AuthState

/-- A user whom a verified password admits. -/
def admissible (user : Option UserRow) (ok : Bool) : Option UserRow := user.filter fun u => ok && !u.disabled

section

variable (Γ : Env) (ctx : AuthCtx)

/-- One step of a login: the state it leaves, and its next point. -/
inductive LoginStep (s : AuthState) (req : LoginRequest) : LoginPoint → AuthLabel → AuthState → Option LoginPoint → Prop where
  | unavailable (h : ctx.ingestHandle = false) : LoginStep s req .start .other s none
  | throttled {now : ℚ} (hnow : s.now ≤ now) (h : (s.limiter.throttled req.key now).1 = true) :
      LoginStep s req .start (.checked req.key now true) (s.check req.key now) none
  | pass {now : ℚ} (hhandle : ctx.ingestHandle = true) (hnow : s.now ≤ now) (h : (s.limiter.throttled req.key now).1 = false) :
      LoginStep s req .start (.checked req.key now false) ((s.check req.key now).enter req.key) (some .passed)
  | readFailed : LoginStep s req .passed (.left req.key) (s.leave req.key) none
  | read : LoginStep s req .passed .other s (some (.found (s.db.store.userByUsername (Text.trim req.username))
      ((s.db.store.userByUsername (Text.trim req.username)).elim 0 fun u => s.generation u.id)))
  | verify {user : Option UserRow} {seen : Nat} {now : ℚ} {ok : Bool} (hnow : s.now ≤ now)
      (h : ok = ctx.verifyPassword (user.elim ctx.dummyPasswordHash (·.passwordHash)) req.password) :
      LoginStep s req (.found user seen) (.verified req.key now ok) { s with now } (some (.verified user seen ok))
  | verifyFailed {user : Option UserRow} {seen : Nat} :
      LoginStep s req (.found user seen) (.left req.key) (s.leave req.key) none
  | penalize {user : Option UserRow} {seen : Nat} {ok : Bool} {now : ℚ} (hnow : s.now ≤ now) (h : admissible user ok = none) :
      LoginStep s req (.verified user seen ok) (.penalized req.key now) ((s.penalize req.key now).leave req.key) none
  | badRole {user : Option UserRow} {u : UserRow} {seen : Nat} {ok : Bool} (h : admissible user ok = some u)
      (hrole : Role.parse u.role = none) : LoginStep s req (.verified user seen ok) (.left req.key) (s.leave req.key) none
  | accept {user : Option UserRow} {u : UserRow} {seen : Nat} {ok : Bool} {now : ℚ} (hnow : s.now ≤ now)
      (h : admissible user ok = some u) (hrole : (Role.parse u.role).isSome = true) :
      LoginStep s req (.verified user seen ok) (.cleared req.key now) ((s.clear req.key now).leave req.key) (some (.admitted u seen))
  | write {u : UserRow} {seen : Nat} :
      LoginStep s req (.admitted u seen) (.session u.id seen) (s.writeSession Γ ctx u.id seen) none

/-- One step of a change. A read may fail, and then the request ends. -/
inductive ChangeStep (s : AuthState) (principal : Principal) (req : ChangePasswordRequest) :
    ChangePoint → AuthState → Option ChangePoint → Prop where
  | refused {p : ChangePoint} : ChangeStep s principal req p s none
  | read {u : UserRow} (hvalid : req.validate principal = .ok ()) (h : s.db.store.userById principal.userId = some u) :
      ChangeStep s principal req .start s (some (.found u))
  | verify {u : UserRow} (h : ctx.verifyPassword u.passwordHash req.currentPassword = true) :
      ChangeStep s principal req (.found u) s (some .verified)
  | hash {hash : String} (h : ctx.hashPassword s.draws req.newPassword = .ok hash) :
      ChangeStep s principal req .verified { s with draws := s.draws + 1 } (some (.hashed hash))
  | write {hash : String} (h : ctx.ingestHandle = true) :
      ChangeStep s principal req (.hashed hash) (s.rotate Γ (changePasswordWrite Γ principal.userId hash) principal.userId) none

/-- One step of a reset. -/
inductive ResetStep (s : AuthState) (id password : String) : ResetPoint → AuthState → Option ResetPoint → Prop where
  | refused {p : ResetPoint} : ResetStep s id password p s none
  | read (hlength : ¬ password.length < 12) (h : (s.db.store.userById id).isSome = true) :
      ResetStep s id password .start s (some .found)
  | hash {hash : String} (h : ctx.hashPassword s.draws password = .ok hash) :
      ResetStep s id password .found { s with draws := s.draws + 1 } (some (.hashed hash))
  | write {hash : String} (h : ctx.ingestHandle = true) :
      ResetStep s id password (.hashed hash) (s.rotate Γ (resetPasswordWrite Γ id hash) id) none

/-- One step of any task. -/
inductive AuthStep (s : AuthState) : AuthTask → AuthLabel → AuthState → List AuthTask → Prop where
  | login {req : LoginRequest} {p : LoginPoint} {l : AuthLabel} {s' : AuthState} {p' : Option LoginPoint}
      (h : LoginStep Γ ctx s req p l s' p') : AuthStep s (.login req p) l s' (p'.map (AuthTask.login req)).toList
  | changePassword {principal : Principal} {req : ChangePasswordRequest} {p : ChangePoint} {s' : AuthState}
      {p' : Option ChangePoint} (h : ChangeStep Γ ctx s principal req p s' p') :
      AuthStep s (.changePassword principal req p) .other s' (p'.map (AuthTask.changePassword principal req)).toList
  | resetPassword {id password : String} {p : ResetPoint} {s' : AuthState} {p' : Option ResetPoint}
      (h : ResetStep Γ ctx s id password p s' p') :
      AuthStep s (.resetPassword id password p) .other s' (p'.map (AuthTask.resetPassword id password)).toList

/-- The requests that interleave. -/
def authSystem : Interleave.System AuthState AuthTask AuthLabel := ⟨AuthStep Γ ctx, fun _ _ _ => False⟩

end

/-- A request that has not begun. -/
inductive AuthTask.Fresh : AuthTask → Prop where
  | login (req : LoginRequest) : Fresh (.login req .start)
  | changePassword (principal : Principal) (req : ChangePasswordRequest) : Fresh (.changePassword principal req .start)
  | resetPassword (id password : String) : Fresh (.resetPassword id password .start)

/-- The daemon before the first request: some users, nobody logged in. -/
def AuthState.initial (users : List UserRow) (limiter : LoginRateLimiter) (now : ℚ) : AuthState where
  db := ⟨{ users }, 0⟩
  limiter := { limiter with buckets := ∅ }
  now := now
  draws := 0
  generation := fun _ => 0
  issued := []
  rotated := []
  inFlight := fun _ => 0

end Tumult.Auth
