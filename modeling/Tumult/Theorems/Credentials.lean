import Tumult.Api.AuthTasks
import Tumult.Theorems.AuthAtomic

/-!
# Rotated passwords and live sessions

After a rotation has returned, no session that was obtained by presenting an earlier password authenticates, in every interleaving
in which a login writes its session while the password that it verified is still the one that is set.
-/

namespace Tumult.Auth

open Db (Tx Env)

/-- No cookie obtained with a password older than a rotation that has returned authenticates a request. -/
def OldCredentialsDead (ctx : AuthCtx) (s : AuthState) : Prop :=
  ∀ i ∈ s.issued, ∀ g, (i.userId, g) ∈ s.rotated → i.generation < g →
    ∀ nowNs principal, resolve ctx s.db.store none (some i.sessionId) nowNs ≠ .authenticated principal

/-- A login writes its session while the password that it read is the one that is set. -/
def WritesCurrent (s : AuthState) : AuthLabel → Prop
  | .session userId seen => s.generation userId = seen
  | _ => True

/-- The sessions of the store are cookies that were returned, none older than a rotation of its user. -/
structure Credentials (ctx : AuthCtx) (s : AuthState) : Prop where
  drawn : ∀ i ∈ s.issued, ∃ n < s.draws, i.sessionId = ctx.newSessionId n
  unique : ∀ i ∈ s.issued, ∀ i' ∈ s.issued, ctx.sha256Hex i.sessionId = ctx.sha256Hex i'.sessionId → i = i'
  sessions : ∀ row ∈ s.db.store.sessions, ∃ i ∈ s.issued, row.idHash = ctx.sha256Hex i.sessionId ∧ row.userId = i.userId ∧
    ∀ g, (i.userId, g) ∈ s.rotated → g ≤ i.generation
  rotated : ∀ userId g, (userId, g) ∈ s.rotated → g ≤ s.generation userId

variable {Γ : Env} {ctx : AuthCtx} {s s' : AuthState}

theorem Credentials.initial (users : List UserRow) (limiter : LoginRateLimiter) (now : ℚ) :
    Credentials ctx (.initial users limiter now) := ⟨nofun, nofun, nofun, nofun⟩

/-- What the invariant reads is kept by a step that changes none of it; draws may go on. -/
theorem Credentials.congr (h : Credentials ctx s) (hdb : s'.db = s.db) (hdraws : s.draws ≤ s'.draws) (hissued : s'.issued = s.issued)
    (hrotated : s'.rotated = s.rotated) (hgeneration : s'.generation = s.generation) : Credentials ctx s' := by
  refine ⟨?_, ?_, ?_, ?_⟩
  · rw [hissued]
    intro i hi
    obtain ⟨n, hn, hdrawn⟩ := h.drawn i hi
    exact ⟨n, hn.trans_le hdraws, hdrawn⟩
  · rw [hissued]
    exact h.unique
  · rw [hdb, hissued, hrotated]
    exact h.sessions
  · rw [hrotated, hgeneration]
    exact h.rotated

/-- Only a session of the table authenticates a cookie. -/
theorem session_of_authenticated {db : AuthDb} {sessionId : String} {nowNs : Int} {principal : Principal}
    (h : resolve ctx db none (some sessionId) nowNs = .authenticated principal) :
    ∃ row ∈ db.sessions, row.idHash = ctx.sha256Hex sessionId := by
  cases hjoin : db.sessionWithUser (ctx.sha256Hex sessionId) nowNs with
  | none =>
    have hnone : credentialUser ctx db none (some sessionId) nowNs = none := by simp [credentialUser, hjoin]
    unfold resolve at h
    rw [hnone] at h
    split at h
    · cases h
    · cases h
  | some joined =>
    have hfound := List.find?_some hjoin
    obtain ⟨row, hrow, hmem⟩ := List.mem_flatMap.mp (List.mem_of_find?_eq_some hjoin)
    obtain ⟨u, -, rfl⟩ := List.mem_map.mp hmem
    simp only [Bool.and_eq_true, decide_eq_true_eq] at hfound
    exact ⟨row, hrow, hfound.1⟩

theorem Credentials.dead (h : Credentials ctx s) : OldCredentialsDead ctx s := by
  intro i hi g hg hold nowNs principal hauth
  obtain ⟨row, hrow, hhash⟩ := session_of_authenticated hauth
  obtain ⟨i', hi', hhash', -, hfresh⟩ := h.sessions row hrow
  obtain rfl := h.unique i hi i' hi' (hhash.symm.trans hhash')
  exact absurd (hfresh g hg) (Nat.not_le_of_lt hold)

/-! ## Steps -/

/-- What the closure of a login does to the sessions. -/
theorem loginWrite_cases (Γ : Env) (idHash userId : String) (s : Db.Session AuthDb) :
    ((loginWrite Γ idHash userId s).1.isOk = true ∧ ∃ row : SessionRow, row.idHash = idHash ∧ row.userId = userId ∧
      (loginWrite Γ idHash userId s).2.store.sessions = s.store.sessions ++ [row]) ∨
    (loginWrite Γ idHash userId s).1.isOk = false ∧ (loginWrite Γ idHash userId s).2.store = s.store := by
  have hnow : (Db.now Γ : Tx ApiError AuthDb Int) s = (.ok (Γ.clock s.tick), s.next) := rfl
  rw [loginWrite, Db.bind_of_ok hnow, Writer.createSession]
  cases hrefused : Γ.fails s.next.tick with
  | true =>
    rw [Db.execute_refused hrefused]
    exact .inr ⟨rfl, rfl⟩
  | false =>
    rw [Db.execute_some hrefused]
    exact .inl ⟨rfl, _, rfl, rfl, rfl⟩

/-- A login that writes the session of the password that is set. -/
theorem Credentials.writeSession (hids : Function.Injective fun n => ctx.sha256Hex (ctx.newSessionId n)) {userId : String}
    (h : Credentials ctx s) : Credentials ctx (s.writeSession Γ ctx userId (s.generation userId)) := by
  rcases loginWrite_cases Γ (ctx.sha256Hex (ctx.newSessionId s.draws)) userId s.db with ⟨hok, row, hhash, huser, hsessions⟩ | ⟨herr, hsame⟩
  · have hissued : (s.writeSession Γ ctx userId (s.generation userId)).issued =
        s.issued ++ [⟨ctx.newSessionId s.draws, userId, s.generation userId⟩] := by simp [AuthState.writeSession, hok]
    have hnew : ∀ i ∈ s.issued, ctx.sha256Hex i.sessionId ≠ ctx.sha256Hex (ctx.newSessionId s.draws) := by
      intro i hi hsame
      obtain ⟨n, hn, hdrawn⟩ := h.drawn i hi
      rw [hdrawn] at hsame
      have hdraw : n = s.draws := hids hsame
      omega
    refine ⟨?_, ?_, ?_, h.rotated⟩
    · rw [hissued]
      intro i hi
      rcases List.mem_append.mp hi with hi | hi
      · obtain ⟨n, hn, hdrawn⟩ := h.drawn i hi
        exact ⟨n, Nat.lt_succ_of_lt hn, hdrawn⟩
      · rw [List.mem_singleton.mp hi]
        exact ⟨s.draws, Nat.lt_succ_self _, rfl⟩
    · rw [hissued]
      intro i hi i' hi' hsame
      rcases List.mem_append.mp hi with hi | hi <;> rcases List.mem_append.mp hi' with hi' | hi'
      · exact h.unique i hi i' hi' hsame
      · rw [List.mem_singleton.mp hi'] at hsame
        exact absurd hsame (hnew i hi)
      · rw [List.mem_singleton.mp hi] at hsame
        exact absurd hsame.symm (hnew i' hi')
      · rw [List.mem_singleton.mp hi, List.mem_singleton.mp hi']
    · intro r hr
      rw [hissued]
      rcases List.mem_append.mp (hsessions ▸ hr) with hr | hr
      · obtain ⟨i, hi, hrest⟩ := h.sessions r hr
        exact ⟨i, List.mem_append_left _ hi, hrest⟩
      · rw [List.mem_singleton.mp hr]
        exact ⟨_, List.mem_append_right _ (List.mem_singleton_self _), hhash, huser, h.rotated userId⟩
  · have hissued : (s.writeSession Γ ctx userId (s.generation userId)).issued = s.issued := by simp [AuthState.writeSession, herr]
    refine ⟨?_, hissued ▸ h.unique, ?_, h.rotated⟩
    · rw [hissued]
      intro i hi
      obtain ⟨n, hn, hdrawn⟩ := h.drawn i hi
      exact ⟨n, Nat.lt_succ_of_lt hn, hdrawn⟩
    · rw [hissued]
      exact fun row hrow => h.sessions row (hsame ▸ hrow)

/-- What the closure of a rotation does to the sessions: none is added, and if it returned, none of the user is left. -/
theorem rotation_sessions {id hash : String} {mustChange : Bool} {d : Db.Session AuthDb} {result : Except ApiError Unit × Db.Session AuthDb}
    (h : Db.executeAll Γ .internal .internal (rotation id hash mustChange) d = result) :
    (∀ row ∈ result.2.store.sessions, row ∈ d.store.sessions) ∧
      (result.1.isOk = true → Γ.fails d.tick = false ∧ ∀ row ∈ result.2.store.sessions, row.userId ≠ id) := by
  obtain ⟨outcome, d'⟩ := result
  cases outcome with
  | ok _ =>
    have hstore := rotation_ok h
    refine ⟨fun row hrow => ?_, fun _ => ⟨(Db.executeAll_not_refused h).2 0 (by simp [rotation]), fun row hrow => ?_⟩⟩
    · rw [hstore] at hrow
      exact (List.mem_filter.mp hrow).1
    · rw [hstore] at hrow
      simpa using (List.mem_filter.mp hrow).2
  | error e =>
    refine ⟨fun row hrow => ?_, nofun⟩
    obtain ⟨k, hk, hrun, -, -⟩ := Db.executeAll_stopped h
    match k, hk with
    | 0, _ => rwa [Option.some.inj hrun]
    | 1, _ =>
      rw [← Option.some.inj hrun] at hrow
      exact hrow
    | 2, _ =>
      rw [← Option.some.inj hrun] at hrow
      exact (List.mem_filter.mp hrow).1

theorem Credentials.rotate {write : Tx ApiError AuthDb Unit} {id hash : String} {mustChange : Bool}
    (hwrite : write = Db.executeAll Γ .internal .internal (rotation id hash mustChange)) (h : Credentials ctx s) :
    Credentials ctx (s.rotate Γ write id) := by
  obtain ⟨hkept, hok⟩ := rotation_sessions (congrFun hwrite.symm s.db)
  have hgrow : ∀ userId, s.generation userId ≤ (s.rotate Γ write id).generation userId := by
    intro userId
    by_cases hfirst : Γ.fails s.db.tick = true
    · simp [AuthState.rotate, hfirst]
    · by_cases hid : userId = id
      · subst hid
        simp [AuthState.rotate, hfirst]
      · simp [AuthState.rotate, hfirst, hid]
  cases hreturned : (write s.db).1.isOk with
  | false =>
    have hrotated : (s.rotate Γ write id).rotated = s.rotated := by simp [AuthState.rotate, hreturned]
    refine ⟨h.drawn, h.unique, fun row hrow => ?_, fun userId g hg => ?_⟩
    · rw [hrotated]
      exact h.sessions row (hkept row hrow)
    · rw [hrotated] at hg
      exact (h.rotated userId g hg).trans (hgrow userId)
  | true =>
    obtain ⟨hfirst, hgone⟩ := hok hreturned
    have hgeneration : (s.rotate Γ write id).generation id = s.generation id + 1 := by simp [AuthState.rotate, hfirst]
    have hrotated : (s.rotate Γ write id).rotated = s.rotated ++ [(id, s.generation id + 1)] := by
      simp [AuthState.rotate, hreturned, hfirst]
    refine ⟨h.drawn, h.unique, fun row hrow => ?_, fun userId g hg => ?_⟩
    · obtain ⟨i, hi, hhash, huser, hfresh⟩ := h.sessions row (hkept row hrow)
      refine ⟨i, hi, hhash, huser, fun g hg => ?_⟩
      rw [hrotated] at hg
      rcases List.mem_append.mp hg with hg | hg
      · exact hfresh g hg
      · -- the sessions that are left are of other users
        exact absurd (huser.trans (Prod.mk.inj (List.mem_singleton.mp hg)).1) (hgone row hrow)
    · rw [hrotated] at hg
      rcases List.mem_append.mp hg with hg | hg
      · exact (h.rotated userId g hg).trans (hgrow userId)
      · obtain ⟨rfl, rfl⟩ := Prod.mk.inj (List.mem_singleton.mp hg)
        exact hgeneration.ge

theorem Credentials.step (hids : Function.Injective fun n => ctx.sha256Hex (ctx.newSessionId n)) {t : AuthTask} {l : AuthLabel}
    {ts : List AuthTask} (h : Credentials ctx s) (hok : WritesCurrent s l) (hs : AuthStep Γ ctx s t l s' ts) : Credentials ctx s' := by
  cases hs with
  | login hs =>
    cases hs with
    | write =>
      obtain rfl := hok
      exact h.writeSession hids
    | _ => exact h.congr rfl (le_refl _) rfl rfl rfl
  | changePassword hs =>
    cases hs with
    | hash => exact h.congr rfl (Nat.le_succ _) rfl rfl rfl
    | write => exact h.rotate (changePasswordWrite_eq _ _)
    | _ => exact h
  | resetPassword hs =>
    cases hs with
    | hash => exact h.congr rfl (Nat.le_succ _) rfl rfl rfl
    | write => exact h.rotate (resetPasswordWrite_eq _ _)
    | _ => exact h

/-- A user with a password, and a login that presents it. -/
def alice : UserRow := ⟨"user-1", "alice", "the old password", "operator", false, false, 0⟩

def aliceLogin : LoginRequest := ⟨"10.0.0.1", "alice", "the old password"⟩

theorem plainAuthCtx_sessionId_injective : Function.Injective fun n => plainAuthCtx.sha256Hex (plainAuthCtx.newSessionId n) := by
  intro n m h
  simpa [plainAuthCtx] using congrArg String.length h

end Tumult.Auth
