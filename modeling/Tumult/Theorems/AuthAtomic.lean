import Tumult.Api.Auth

/-!
# Which auth mutations are atomic

A request that creates a user or rotates a password either fails its checks, and then nothing is written, or runs one closure on the
writer. The closure is not in a transaction: a statement that is refused behind one that was carried out leaves the store in
between.
-/

namespace Tumult.Auth

open Db (Tx Env runAll executeAll)

/-- The mutations. -/
inductive AuthRequest where
  | createUser (req : CreateUserRequest)
  | resetPassword (id password : String)
  | changePassword (principal : Principal) (req : ChangePasswordRequest)

/-- What a mutation writes once its checks have passed. -/
inductive AuthWrite where
  | create (row : UserRow) (scopes : Option (List String))
  | reset (id hash : String)
  | change (id hash : String)

/-- The store with the whole of a write. -/
def AuthWrite.apply (db : AuthDb) : AuthWrite → AuthDb
  | .create row none => { db with users := db.users ++ [row] }
  | .create row (some environments) =>
    { db with
      users := db.users ++ [row]
      userEnvScopes := db.userEnvScopes.filter (·.userId ≠ row.id) ++ environments.map (⟨row.id, ·⟩) }
  | .reset id hash => ((db.withPassword id hash true).withoutSessions id).withoutTokens id
  | .change id hash => ((db.withPassword id hash false).withoutSessions id).withoutTokens id

section

variable (Γ : Env) (ctx : AuthCtx) (draw : Nat)

def AuthRequest.run : AuthRequest → Tx ApiError AuthDb Unit
  | .createUser req => Auth.createUser Γ ctx draw req >>= fun _ => pure ()
  | .resetPassword id password => Auth.resetPassword Γ ctx draw id password
  | .changePassword principal req => Auth.changePassword Γ ctx draw principal req

def AuthWrite.run : AuthWrite → Tx ApiError AuthDb Unit
  | .create row scopes => createUserWrite Γ row scopes
  | .reset id hash => resetPasswordWrite Γ id hash
  | .change id hash => changePasswordWrite Γ id hash

/-- A request whose checks all pass gets to its write, and to the statement of that number. -/
inductive Reaches (s : Db.Session AuthDb) : AuthRequest → AuthWrite → Nat → Prop where
  | createUser {req : CreateUserRequest} {username hash : String} {role : Role} (hvalid : req.validate = .ok (username, role))
      (hread : Γ.fails s.tick = false) (hnew : s.store.userByUsername username = none)
      (hhash : ctx.hashPassword draw (req.supplied.getD (ctx.newPassword draw)) = .ok hash) (hhandle : ctx.ingestHandle = true) :
      Reaches s (.createUser req)
        (.create ⟨ctx.newUuid draw, username, hash, role.asStr, true, false, Γ.clock (s.tick + 1)⟩ req.envScopes) (s.tick + 2)
  | resetPassword {id password hash : String} (hlength : ¬ password.length < 12) (hread : Γ.fails s.tick = false)
      (huser : (s.store.userById id).isSome = true) (hhash : ctx.hashPassword draw password = .ok hash)
      (hhandle : ctx.ingestHandle = true) : Reaches s (.resetPassword id password) (.reset id hash) (s.tick + 1)
  | changePassword {principal : Principal} {req : ChangePasswordRequest} {hash : String} (hvalid : req.validate principal = .ok ())
      (hread : Γ.fails s.tick = false)
      (huser : (s.store.userById principal.userId).any (ctx.verifyPassword ·.passwordHash req.currentPassword) = true)
      (hhash : ctx.hashPassword draw req.newPassword = .ok hash) (hhandle : ctx.ingestHandle = true) :
      Reaches s (.changePassword principal req) (.change principal.userId hash) (s.tick + 1)

/-- A password write that is stopped behind its first statement, with something changed. -/
def TornRotation (s : Db.Session AuthDb) (id hash : String) (mustChange : Bool) : Prop :=
  Γ.fails s.tick = false ∧
    (Γ.fails (s.tick + 1) = true ∧ s.store.withPassword id hash mustChange ≠ s.store ∨
      Γ.fails (s.tick + 1) = false ∧ Γ.fails (s.tick + 2) = true ∧
        (s.store.withPassword id hash mustChange).withoutSessions id ≠ s.store)

/-- A write that is stopped behind its first statement, with something changed. -/
def AuthWrite.Torn (s : Db.Session AuthDb) : AuthWrite → Prop
  | .create _ scopes => Γ.fails s.tick = false ∧ ∃ environments, scopes = some environments ∧
      ∃ i < environments.length + 3, Γ.fails (s.tick + 1 + i) = true
  | .reset id hash => TornRotation Γ s id hash true
  | .change id hash => TornRotation Γ s id hash false

/-- What is asked of a mutation: after an error the store is as before, and without one the whole write is there. -/
structure AuthRequest.Atomic (s : Db.Session AuthDb) (r : AuthRequest) : Prop where
  failed : ∀ e s', r.run Γ ctx draw s = (.error e, s') → s'.store = s.store
  done : ∀ s', r.run Γ ctx draw s = (.ok (), s') → ∃ w t, Reaches Γ ctx draw s r w t ∧ s'.store = w.apply s.store

end

variable {Γ : Env} {ctx : AuthCtx} {draw : Nat} {s s' : Db.Session AuthDb}

/-! ## Writes -/

/-- The statements behind a rotated password. -/
def rotation (id hash : String) (mustChange : Bool) : List (AuthDb → Option AuthDb) :=
  [fun db => some (db.withPassword id hash mustChange), fun db => some (db.withoutSessions id), fun db => some (db.withoutTokens id)]

theorem resetPasswordWrite_eq (id hash : String) :
    resetPasswordWrite Γ id hash = executeAll Γ .internal .internal (rotation id hash true) := by
  have hend : Writer.revokeTokensForUser Γ id = (Writer.revokeTokensForUser Γ id >>= fun _ => pure ()) := (Db.bind_pure_unit _).symm
  rw [resetPasswordWrite, hend]
  rfl

theorem changePasswordWrite_eq (id hash : String) :
    changePasswordWrite Γ id hash = executeAll Γ .internal .internal (rotation id hash false) := by
  have hend : Writer.revokeTokensForUser Γ id = (Writer.revokeTokensForUser Γ id >>= fun _ => pure ()) := (Db.bind_pure_unit _).symm
  rw [changePasswordWrite, hend]
  rfl

/-- A rotation that returned did all of it. -/
theorem rotation_ok {id hash : String} {mustChange : Bool}
    (h : executeAll Γ ApiError.internal .internal (rotation id hash mustChange) s = (.ok (), s')) :
    s'.store = ((s.store.withPassword id hash mustChange).withoutSessions id).withoutTokens id :=
  (Option.some.inj (Db.executeAll_run h)).symm

/-- A rotation that failed is torn, unless the store is as before. -/
theorem rotation_error_iff {id hash : String} {mustChange : Bool} {e : ApiError}
    (h : executeAll Γ ApiError.internal .internal (rotation id hash mustChange) s = (.error e, s')) :
    s'.store = s.store ↔ ¬ TornRotation Γ s id hash mustChange := by
  obtain ⟨k, hk, hrun, hbefore, hwhy⟩ := Db.executeAll_stopped h
  have hrefused : Γ.fails (s.tick + k) = true := by
    rcases hwhy with hrefused | hrejected
    · exact hrefused
    · match k, hk with
      | 0, _ => cases hrejected
      | 1, _ => cases hrejected
      | 2, _ => cases hrejected
  match k, hk with
  | 0, _ =>
    have hsame : s.store = s'.store := Option.some.inj hrun
    refine iff_of_true hsame.symm fun htorn => ?_
    rw [Nat.add_zero, htorn.1] at hrefused
    cases hrefused
  | 1, _ =>
    have hfirst : Γ.fails s.tick = false := hbefore 0 (by omega)
    have hstore : s.store.withPassword id hash mustChange = s'.store := Option.some.inj hrun
    simp [TornRotation, hfirst, hrefused, hstore]
  | 2, _ =>
    have hfirst : Γ.fails s.tick = false := hbefore 0 (by omega)
    have hsecond : Γ.fails (s.tick + 1) = false := hbefore 1 (by omega)
    have hstore : (s.store.withPassword id hash mustChange).withoutSessions id = s'.store := Option.some.inj hrun
    simp [TornRotation, hfirst, hsecond, hrefused, hstore]

theorem rotation_not_torn {id hash : String} {mustChange : Bool}
    (h : executeAll Γ ApiError.internal .internal (rotation id hash mustChange) s = (.ok (), s')) :
    ¬ TornRotation Γ s id hash mustChange := by
  obtain ⟨-, hnone⟩ := Db.executeAll_not_refused h
  have hlength : (rotation id hash mustChange).length = 3 := rfl
  rintro ⟨-, ⟨hrefused, -⟩ | ⟨-, hrefused, -⟩⟩
  · simp [hnone 1 (by omega)] at hrefused
  · simp [hnone 2 (by omega)] at hrefused

/-- What the replacement of scopes does. -/
theorem runAll_scopeStatements (userId : String) (environments : List String) (db : AuthDb) :
    runAll (Writer.scopeStatements userId environments) db = some { db with
      userEnvScopes := db.userEnvScopes.filter (·.userId ≠ userId) ++ environments.map (⟨userId, ·⟩) } := by
  have hinserts (rows : List EnvScopeRow) (db : AuthDb) :
      runAll (rows.map fun row db => some { db with userEnvScopes := db.userEnvScopes ++ [row] }) db =
        some { db with userEnvScopes := db.userEnvScopes ++ rows } :=
    Db.runAll_insert AuthDb.userEnvScopes (fun db rows => { db with userEnvScopes := rows }) (fun _ _ => rfl) (fun _ _ _ => rfl)
      (fun _ => rfl) rows db
  have hmap : (environments.map fun environment (db : AuthDb) => some { db with
      userEnvScopes := db.userEnvScopes ++ [⟨userId, environment⟩] }) = (environments.map (EnvScopeRow.mk userId ·)).map
        fun row (db : AuthDb) => some { db with userEnvScopes := db.userEnvScopes ++ [row] } := by
    rw [List.map_map]
    rfl
  rw [Writer.scopeStatements, Db.runAll_cons, Option.bind_some, hmap, hinserts]

/-- The store of a creation that has inserted its user. -/
theorem createUserWrite_inserted {row : UserRow} {scopes : Option (List String)} (h : Γ.fails s.tick = false) :
    createUserWrite Γ row scopes s =
      scopes.elim (pure ()) (Writer.setUserEnvScopes Γ row.id) ⟨{ s.store with users := s.store.users ++ [row] }, s.tick + 1⟩ := by
  rw [createUserWrite, Writer.createUser, Db.execute_some_bind h]

theorem createUserWrite_spec (row : UserRow) (scopes : Option (List String)) (s : Db.Session AuthDb) :
    ((∃ s', createUserWrite Γ row scopes s = (.ok (), s') ∧ s'.store = (AuthWrite.create row scopes).apply s.store) ∧
        ¬ (AuthWrite.create row scopes).Torn Γ s) ∨
      ∃ e s', createUserWrite Γ row scopes s = (.error e, s') ∧
        (s'.store = s.store ↔ ¬ (AuthWrite.create row scopes).Torn Γ s) := by
  cases hfirst : Γ.fails s.tick with
  | true =>
    refine .inr ⟨.internal, s.next, ?_, iff_of_true rfl fun htorn => ?_⟩
    · rw [createUserWrite, Writer.createUser, Db.bind_of_error (Db.execute_refused hfirst)]
    · simp [AuthWrite.Torn, hfirst] at htorn
  | false =>
    rw [createUserWrite_inserted hfirst]
    cases scopes with
    | none => exact .inl ⟨⟨_, rfl, rfl⟩, fun ⟨_, _, hnone, _⟩ => by cases hnone⟩
    | some environments =>
      have hlength : (Writer.scopeStatements row.id environments).length + 2 = environments.length + 3 := by
        simp [Writer.scopeStatements]
      by_cases hall : ∀ i < environments.length + 3, Γ.fails (s.tick + 1 + i) = false
      · refine .inl ⟨⟨_, Db.withTx_executeAll (runAll_scopeStatements _ _ _) (by rwa [hlength]), rfl⟩, ?_⟩
        rintro ⟨-, _, hsome, i, hi, hrefused⟩
        obtain rfl := Option.some.inj hsome
        rw [hall i hi] at hrefused
        cases hrefused
      · refine .inr ?_
        rcases hresult : Writer.setUserEnvScopes Γ row.id environments
          ⟨{ s.store with users := s.store.users ++ [row] }, s.tick + 1⟩ with ⟨e | _, s'⟩
        · refine ⟨e, s', hresult, iff_of_false (fun hsame => ?_) (not_not.mpr ⟨hfirst, environments, rfl, by simpa using hall⟩)⟩
          have hstore := (Db.withTx_error hresult :)
          rw [hsame] at hstore
          simpa using congrArg AuthDb.users hstore
        · obtain ⟨-, -, hnone⟩ := Db.withTx_executeAll_ok hresult
          exact absurd (by rwa [hlength] at hnone) hall

/-- A write is done, or it fails, and then the store is as before unless the write is torn. -/
theorem AuthWrite.run_spec (w : AuthWrite) (s : Db.Session AuthDb) :
    ((∃ s', w.run Γ s = (.ok (), s') ∧ s'.store = w.apply s.store) ∧ ¬ w.Torn Γ s) ∨
      ∃ e s', w.run Γ s = (.error e, s') ∧ (s'.store = s.store ↔ ¬ w.Torn Γ s) := by
  cases w with
  | create row scopes => exact createUserWrite_spec row scopes s
  | reset id hash =>
    rw [AuthWrite.run, resetPasswordWrite_eq]
    rcases hresult : executeAll Γ ApiError.internal .internal (rotation id hash true) s with ⟨e | _, s'⟩
    · exact .inr ⟨e, s', rfl, rotation_error_iff hresult⟩
    · exact .inl ⟨⟨s', rfl, rotation_ok hresult⟩, rotation_not_torn hresult⟩
  | change id hash =>
    rw [AuthWrite.run, changePasswordWrite_eq]
    rcases hresult : executeAll Γ ApiError.internal .internal (rotation id hash false) s with ⟨e | _, s'⟩
    · exact .inr ⟨e, s', rfl, rotation_error_iff hresult⟩
    · exact .inl ⟨⟨s', rfl, rotation_ok hresult⟩, rotation_not_torn hresult⟩

/-! ## Requests -/

/-- A request fails before its write, with the store as it was, or is its write. -/
def WriteOrUnchanged (Γ : Env) (ctx : AuthCtx) (draw : Nat) (s : Db.Session AuthDb) (r : AuthRequest) : Prop :=
  (∃ w t, Reaches Γ ctx draw s r w t ∧ (∀ w' t', Reaches Γ ctx draw s r w' t' → w' = w ∧ t' = t) ∧
    r.run Γ ctx draw s = w.run Γ ⟨s.store, t⟩) ∨
  (∀ w t, ¬ Reaches Γ ctx draw s r w t) ∧ ∃ e s', r.run Γ ctx draw s = (.error e, s') ∧ s'.store = s.store

theorem query_refused {α : Type} {q : AuthDb → α} (h : Γ.fails s.tick = true) :
    Db.query Γ ApiError.internal q s = (.error .internal, s.next) := by simp [Db.query, Db.statement, h]

theorem query_done {α : Type} {q : AuthDb → α} (h : Γ.fails s.tick = false) :
    Db.query Γ ApiError.internal q s = (.ok (q s.store), s.next) := Db.query_ok.mpr ⟨h, rfl, rfl⟩

theorem execAuthWrite_handle {f : Tx ApiError AuthDb Unit} (h : ctx.ingestHandle = true) : execAuthWrite ctx f = f := by
  simp [execAuthWrite, h]

theorem ofExcept_ok {α : Type} {x : Except ApiError α} {a : α} (h : x = .ok a) :
    (Db.ofExcept x : Tx ApiError AuthDb α) s = (.ok a, s) := by
  subst h
  rfl

theorem ofExcept_error {α : Type} {x : Except ApiError α} {e : ApiError} (h : x = .error e) :
    (Db.ofExcept x : Tx ApiError AuthDb α) s = (.error e, s) := by
  subst h
  rfl

theorem execAuthWrite_unavailable {f : Tx ApiError AuthDb Unit} (h : ctx.ingestHandle = false) :
    ∃ e, execAuthWrite ctx f s = (.error e, s) :=
  ⟨.unavailable "auth writes are not wired (no ingest handle)", by simp [execAuthWrite, h, Db.throw]⟩

theorem resetPassword_cases (id password : String) (s : Db.Session AuthDb) :
    WriteOrUnchanged Γ ctx draw s (.resetPassword id password) := by
  have hrun : AuthRequest.run Γ ctx draw (.resetPassword id password) = Auth.resetPassword Γ ctx draw id password := rfl
  rw [WriteOrUnchanged, hrun, Auth.resetPassword]
  by_cases hlength : password.length < 12
  · rw [if_pos hlength]
    refine .inr ⟨fun w t h => ?_, _, _, rfl, rfl⟩
    cases h with | resetPassword hlong => exact hlong hlength
  rw [if_neg hlength]
  cases hread : Γ.fails s.tick with
  | true =>
    rw [Db.bind_of_error (query_refused hread)]
    refine .inr ⟨fun w t h => ?_, _, _, rfl, rfl⟩
    cases h with | resetPassword _ hread' => simp [hread] at hread'
  | false =>
    rw [Db.bind_of_ok (query_done hread)]
    by_cases huser : (s.store.userById id).isNone
    · rw [if_pos huser]
      refine .inr ⟨fun w t h => ?_, _, _, rfl, rfl⟩
      cases h with | resetPassword _ _ huser' => simp [Option.isNone_iff_eq_none.mp huser] at huser'
    rw [if_neg huser]
    cases hhash : ctx.hashPassword draw password with
    | error e =>
      rw [Db.bind_of_error (ofExcept_error rfl)]
      refine .inr ⟨fun w t h => ?_, _, _, rfl, rfl⟩
      cases h with | resetPassword _ _ _ hhash' => simp [hhash] at hhash'
    | ok hash =>
      rw [Db.bind_of_ok (ofExcept_ok rfl)]
      cases hhandle : ctx.ingestHandle with
      | false =>
        obtain ⟨e, herror⟩ := execAuthWrite_unavailable (s := s.next) (f := resetPasswordWrite Γ id hash) hhandle
        refine .inr ⟨fun w t h => ?_, e, _, herror, rfl⟩
        cases h with | resetPassword _ _ _ _ hhandle' => simp [hhandle] at hhandle'
      | true =>
        have huser' : (s.store.userById id).isSome = true := by simpa [Option.isNone_iff_eq_none, Option.isSome_iff_ne_none] using huser
        refine .inl ⟨_, _, .resetPassword hlength hread huser' hhash hhandle, fun w t h => ?_, ?_⟩
        · cases h with
          | resetPassword _ _ _ hhash' =>
            obtain rfl := Except.ok.inj (hhash.symm.trans hhash')
            exact ⟨rfl, rfl⟩
        · rw [execAuthWrite_handle hhandle]
          rfl

theorem changePassword_cases (principal : Principal) (req : ChangePasswordRequest) (s : Db.Session AuthDb) :
    WriteOrUnchanged Γ ctx draw s (.changePassword principal req) := by
  have hrun : AuthRequest.run Γ ctx draw (.changePassword principal req) = Auth.changePassword Γ ctx draw principal req := rfl
  rw [WriteOrUnchanged, hrun, Auth.changePassword]
  cases hvalid : req.validate principal with
  | error e =>
    rw [Db.bind_of_error (ofExcept_error rfl)]
    refine .inr ⟨fun w t h => ?_, _, _, rfl, rfl⟩
    cases h with | changePassword hvalid' => simp [hvalid] at hvalid'
  | ok _ =>
    rw [Db.bind_of_ok (ofExcept_ok rfl)]
    cases hread : Γ.fails s.tick with
    | true =>
      rw [Db.bind_of_error (query_refused hread)]
      refine .inr ⟨fun w t h => ?_, _, _, rfl, rfl⟩
      cases h with | changePassword _ hread' => simp [hread] at hread'
    | false =>
      rw [Db.bind_of_ok (query_done hread)]
      by_cases huser : (s.store.userById principal.userId).any (ctx.verifyPassword ·.passwordHash req.currentPassword) = true
      · rw [if_pos huser]
        cases hhash : ctx.hashPassword draw req.newPassword with
        | error e =>
          rw [Db.bind_of_error (ofExcept_error rfl)]
          refine .inr ⟨fun w t h => ?_, _, _, rfl, rfl⟩
          cases h with | changePassword _ _ _ hhash' => simp [hhash] at hhash'
        | ok hash =>
          rw [Db.bind_of_ok (ofExcept_ok rfl)]
          cases hhandle : ctx.ingestHandle with
          | false =>
            obtain ⟨e, herror⟩ := execAuthWrite_unavailable (s := s.next) (f := changePasswordWrite Γ principal.userId hash) hhandle
            refine .inr ⟨fun w t h => ?_, e, _, herror, rfl⟩
            cases h with | changePassword _ _ _ _ hhandle' => simp [hhandle] at hhandle'
          | true =>
            refine .inl ⟨_, _, .changePassword hvalid hread huser hhash hhandle, fun w t h => ?_, ?_⟩
            · cases h with
              | changePassword _ _ _ hhash' =>
                obtain rfl := Except.ok.inj (hhash.symm.trans hhash')
                exact ⟨rfl, rfl⟩
            · rw [execAuthWrite_handle hhandle]
              rfl
      · rw [if_neg huser]
        refine .inr ⟨fun w t h => ?_, _, _, rfl, rfl⟩
        cases h with | changePassword _ _ huser' => exact huser huser'

theorem createUser_cases (req : CreateUserRequest) (s : Db.Session AuthDb) :
    WriteOrUnchanged Γ ctx draw s (.createUser req) := by
  have hrun : AuthRequest.run Γ ctx draw (.createUser req) = (Auth.createUser Γ ctx draw req >>= fun _ => pure ()) := rfl
  rw [WriteOrUnchanged, hrun, Auth.createUser]
  cases hvalid : req.validate with
  | error e =>
    rw [Db.bind_of_error (Db.bind_of_error (ofExcept_error rfl))]
    refine .inr ⟨fun w t h => ?_, _, _, rfl, rfl⟩
    cases h with | createUser hvalid' => simp [hvalid] at hvalid'
  | ok named =>
    obtain ⟨username, role⟩ := named
    rw [Db.bind_assoc, Db.bind_of_ok (ofExcept_ok rfl)]
    cases hread : Γ.fails s.tick with
    | true =>
      rw [Db.bind_of_error (Db.bind_of_error (query_refused hread))]
      refine .inr ⟨fun w t h => ?_, _, _, rfl, rfl⟩
      cases h with | createUser _ hread' => simp [hread] at hread'
    | false =>
      rw [Db.bind_assoc, Db.bind_of_ok (query_done hread)]
      by_cases hexists : (s.store.userByUsername username).isSome = true
      · rw [if_pos hexists]
        refine .inr ⟨fun w t h => ?_, _, _, rfl, rfl⟩
        cases h with
        | createUser hvalid' _ hnew =>
          obtain ⟨rfl, rfl⟩ := Prod.mk.inj (Except.ok.inj (hvalid.symm.trans hvalid'))
          simp [hnew] at hexists
      rw [if_neg hexists]
      cases hhash : ctx.hashPassword draw (req.supplied.getD (ctx.newPassword draw)) with
      | error e =>
        rw [Db.bind_of_error (Db.bind_of_error (ofExcept_error rfl))]
        refine .inr ⟨fun w t h => ?_, _, _, rfl, rfl⟩
        cases h with | createUser _ _ _ hhash' => simp [hhash] at hhash'
      | ok hash =>
        rw [Db.bind_assoc, Db.bind_of_ok (ofExcept_ok rfl)]
        have hnow : (Db.now Γ : Tx ApiError AuthDb Int) s.next = (.ok (Γ.clock (s.tick + 1)), s.next.next) := rfl
        rw [Db.bind_assoc, Db.bind_of_ok hnow, Db.bind_assoc]
        cases hhandle : ctx.ingestHandle with
        | false =>
          obtain ⟨e, herror⟩ := execAuthWrite_unavailable (s := s.next.next) (f := createUserWrite Γ
            ⟨ctx.newUuid draw, username, hash, role.asStr, true, false, Γ.clock (s.tick + 1)⟩ req.envScopes) hhandle
          rw [Db.bind_of_error herror]
          refine .inr ⟨fun w t h => ?_, _, _, rfl, rfl⟩
          cases h with | createUser _ _ _ _ hhandle' => simp [hhandle] at hhandle'
        | true =>
          have hnew : s.store.userByUsername username = none := by simpa using hexists
          refine .inl ⟨_, _, .createUser hvalid hread hnew hhash hhandle, fun w t h => ?_, ?_⟩
          · cases h with
            | createUser hvalid' _ _ hhash' =>
              obtain ⟨rfl, rfl⟩ := Prod.mk.inj (Except.ok.inj (hvalid.symm.trans hvalid'))
              obtain rfl := Except.ok.inj (hhash.symm.trans hhash')
              exact ⟨rfl, rfl⟩
          · rw [execAuthWrite_handle hhandle]
            exact congrFun (Db.bind_pure_unit _) _

theorem writeOrUnchanged (Γ : Env) (ctx : AuthCtx) (draw : Nat) (r : AuthRequest) (s : Db.Session AuthDb) :
    WriteOrUnchanged Γ ctx draw s r := by
  cases r with
  | createUser req => exact createUser_cases req s
  | resetPassword id password => exact resetPassword_cases id password s
  | changePassword principal req => exact changePassword_cases principal req s

theorem auth_mutation_atomic_iff (Γ : Env) (ctx : AuthCtx) (draw : Nat) (s : Db.Session AuthDb) (r : AuthRequest) :
    r.Atomic Γ ctx draw s ↔ ∀ w t, Reaches Γ ctx draw s r w t → ¬ w.Torn Γ ⟨s.store, t⟩ := by
  rcases writeOrUnchanged Γ ctx draw r s with ⟨w, t, hreach, honly, hrun⟩ | ⟨hnone, e, s', hfail, hsame⟩
  · rcases w.run_spec (Γ := Γ) ⟨s.store, t⟩ with ⟨⟨s', hok, happly⟩, hwhole⟩ | ⟨e, s', herror, hiff⟩
    · rw [hok] at hrun
      refine iff_of_true ⟨fun e' s'' h => ?_, fun s'' h => ?_⟩ fun w' t' hreach' => ?_
      · cases (Prod.mk.inj (hrun.symm.trans h)).1
      · rw [← (Prod.mk.inj (hrun.symm.trans h)).2]
        exact ⟨w, t, hreach, happly⟩
      · obtain ⟨rfl, rfl⟩ := honly w' t' hreach'
        exact hwhole
    · rw [herror] at hrun
      constructor
      · intro hatomic w' t' hreach'
        obtain ⟨rfl, rfl⟩ := honly w' t' hreach'
        exact hiff.mp (hatomic.failed e s' hrun)
      · intro hclean
        refine ⟨fun e' s'' h => ?_, fun s'' h => ?_⟩
        · rw [← (Prod.mk.inj (hrun.symm.trans h)).2]
          exact hiff.mpr (hclean w t hreach)
        · cases (Prod.mk.inj (hrun.symm.trans h)).1
  · refine iff_of_true ⟨fun e' s'' h => ?_, fun s'' h => ?_⟩ fun w t hreach => absurd hreach (hnone w t)
    · rw [← (Prod.mk.inj (hfail.symm.trans h)).2]
      exact hsame
    · cases (Prod.mk.inj (hfail.symm.trans h)).1

/-- Hashes are the passwords themselves. -/
def plainAuthCtx : AuthCtx where
  ingestHandle := true
  verifyPassword := fun hash password => hash == password
  dummyPasswordHash := ""
  sha256Hex := id
  hashPassword := fun _ password => .ok password
  newPassword := fun _ => "one-time-password"
  newUuid := fun _ => "user-1"
  newSessionId := fun n => String.ofList (List.replicate n 's')

/-- A user for one environment. -/
def scopedUser : CreateUserRequest := ⟨"alice", some "correct horse battery", "operator", some ["staging"]⟩

/-- The insert of the scope is refused, and the user is left in every environment. -/
theorem auth_mutation_atomic_false : ¬ (AuthRequest.createUser scopedUser).Atomic (Db.crashAt 5) plainAuthCtx 0 ⟨{}, 0⟩ := by
  intro h
  have herror : ((AuthRequest.createUser scopedUser).run (Db.crashAt 5) plainAuthCtx 0 ⟨{}, 0⟩).1 = .error .internal := by
    decide
  have hstore : ((AuthRequest.createUser scopedUser).run (Db.crashAt 5) plainAuthCtx 0 ⟨{}, 0⟩).2.store =
      { users := [⟨"user-1", "alice", "correct horse battery", "operator", true, false, 0⟩] } := by decide
  have hsame := hstore.symm.trans (h.failed _ _ (Prod.ext herror rfl))
  revert hsame
  decide

end Tumult.Auth
