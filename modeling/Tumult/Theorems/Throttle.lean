import Tumult.Api.AuthTasks
import Tumult.Lib.TokenBucket
import Tumult.Theorems.AuthAtomic

/-!
# What the login limiter bounds

The limiter takes a token when an attempt has failed, not when it is let through, and its map is cleared when it has grown to its
bound. So the failed verifications for a key are bounded by the tokens, times the logins of the key that are in flight at once, and
every clearing fills the bucket.
-/

namespace Tumult.Auth

open Db (Env)

/-! ## The tokens of a key -/

namespace LoginRateLimiter

variable {l : LoginRateLimiter} {key key' : String} {now now' : ℚ}

/-- The tokens that a key has at an instant. -/
def avail (l : LoginRateLimiter) (key : String) (now : ℚ) : ℚ := (l.refill ((l.buckets.lookup key).getD ⟨l.burst, now⟩) now).tokens

/-- Parameters that make sense, and no debts. -/
structure Sane (l : LoginRateLimiter) : Prop where
  burst : 0 ≤ l.burst
  rps : 0 ≤ l.rps
  tokens : ∀ key b, l.buckets.lookup key = some b → 0 ≤ b.tokens

/-- Whether the next access clears the map. -/
def full (l : LoginRateLimiter) : Bool := maxLoginBuckets ≤ l.buckets.keys.length

theorem refill_tokens (l : LoginRateLimiter) (b : LoginBucket) (now : ℚ) :
    (l.refill b now).tokens = min (b.tokens + max 0 (now - b.lastRefill) * l.rps) l.burst := rfl

theorem Sane.refill_nonneg (h : l.Sane) {b : LoginBucket} (hb : 0 ≤ b.tokens) : 0 ≤ (l.refill b now).tokens := by
  rw [refill_tokens]
  exact le_min (add_nonneg hb (mul_nonneg (le_max_left _ _) h.rps)) h.burst

theorem avail_le (l : LoginRateLimiter) (key : String) (now : ℚ) : l.avail key now ≤ l.burst := min_le_right _ _

theorem Sane.avail_nonneg (h : l.Sane) : 0 ≤ l.avail key now := by
  unfold avail
  cases hlookup : l.buckets.lookup key with
  | none => exact h.refill_nonneg h.burst
  | some b => exact h.refill_nonneg (h.tokens key b hlookup)

/-- A key without a bucket has all its tokens. -/
theorem Sane.avail_none (h : l.Sane) (hlookup : l.buckets.lookup key = none) : l.avail key now = l.burst := by
  rw [avail, hlookup, refill_tokens]
  simp

/-- Time only refills. -/
theorem Sane.avail_mono (h : l.Sane) (hnow : now ≤ now') : l.avail key now ≤ l.avail key now' := by
  cases hlookup : l.buckets.lookup key with
  | none => rw [h.avail_none hlookup, h.avail_none hlookup]
  | some b =>
    rw [avail, avail, hlookup, refill_tokens, refill_tokens]
    refine min_le_min_right _ (add_le_add_right (mul_le_mul_of_nonneg_right ?_ h.rps) _)
    exact max_le_max_left _ (sub_le_sub_right hnow _)

/-- Time refills at the rate. -/
theorem Sane.avail_rate (h : l.Sane) (hnow : now ≤ now') : l.avail key now' ≤ l.avail key now + l.rps * (now' - now) := by
  have helapsed : 0 ≤ l.rps * (now' - now) := mul_nonneg h.rps (sub_nonneg.mpr hnow)
  cases hlookup : l.buckets.lookup key with
  | none =>
    rw [h.avail_none hlookup, h.avail_none hlookup]
    linarith
  | some b =>
    have hmax : max 0 (now' - b.lastRefill) ≤ max 0 (now - b.lastRefill) + (now' - now) :=
      max_le (by linarith [le_max_left 0 (now - b.lastRefill)]) (by linarith [le_max_right 0 (now - b.lastRefill)])
    have hscaled := mul_le_mul_of_nonneg_right hmax h.rps
    rw [avail, avail, hlookup, refill_tokens, refill_tokens]
    simp only [Option.getD_some]
    rcases min_cases (b.tokens + max 0 (now - b.lastRefill) * l.rps) l.burst with ⟨hmin, -⟩ | ⟨hmin, -⟩
    · rw [hmin]
      refine (min_le_left _ _).trans ?_
      linarith
    · rw [hmin]
      exact (min_le_right _ _).trans (by linarith)

/-! ### Accesses -/

/-- What an access finds for a key: everything after a clearing. -/
def found (l : LoginRateLimiter) (key : String) (now : ℚ) : ℚ := if l.full then l.burst else l.avail key now

theorem Sane.bucket_tokens (h : l.Sane) : (l.bucket key now).tokens = l.found key now := by
  unfold bucket found bounded full
  by_cases hfull : maxLoginBuckets ≤ l.buckets.keys.length
  · simp [hfull, refill_tokens]
  · simp [hfull, avail]

theorem Sane.bounded_tokens (h : l.Sane) : ∀ key b, l.bounded.lookup key = some b → 0 ≤ b.tokens := by
  intro key b hb
  unfold bounded at hb
  split at hb
  · simp at hb
  · exact h.tokens key b hb

/-- What is left of a key after the access of a key. -/
theorem Sane.avail_withBucket (h : l.Sane) {b : LoginBucket} (hb : b.lastRefill = now) (hle : b.tokens ≤ l.burst) :
    (l.withBucket key' b).avail key now = if key' = key then b.tokens else l.found key now := by
  by_cases hkey : key' = key
  · subst hkey
    simp [avail, withBucket, refill_tokens, refill, AList.lookup_insert, hb, hle]
  · have hlookup : (l.withBucket key' b).buckets.lookup key = l.bounded.lookup key :=
      AList.lookup_insert_ne (fun heq => hkey heq.symm)
    rw [if_neg hkey]
    unfold avail found bounded full at *
    rw [hlookup]
    by_cases hfull : maxLoginBuckets ≤ l.buckets.keys.length
    · simp [hfull, withBucket, refill]
    · simp [hfull, withBucket, refill, avail]

theorem Sane.withBucket (h : l.Sane) {b : LoginBucket} (hb : 0 ≤ b.tokens) : (l.withBucket key' b).Sane := by
  refine ⟨h.burst, h.rps, fun key b' hb' => ?_⟩
  by_cases hkey : key = key'
  · subst hkey
    obtain rfl : b = b' := by simpa [LoginRateLimiter.withBucket, AList.lookup_insert] using hb'
    exact hb
  · rw [LoginRateLimiter.withBucket] at hb'
    rw [AList.lookup_insert_ne hkey] at hb'
    exact h.bounded_tokens key b' hb'

theorem Sane.found_nonneg (h : l.Sane) : 0 ≤ l.found key now := by
  unfold found
  split
  · exact h.burst
  · exact h.avail_nonneg

theorem Sane.found_le (_ : l.Sane) : l.found key now ≤ l.burst := by
  unfold found
  split
  · exact le_refl _
  · exact l.avail_le key now

/-- A check leaves every key what an access finds. -/
theorem Sane.avail_throttled (h : l.Sane) : (l.throttled key' now).2.avail key now = l.found key now := by
  have hle : (l.bucket key' now).tokens ≤ l.burst := h.bucket_tokens.le.trans h.found_le
  refine (h.avail_withBucket (rfl : (l.bucket key' now).lastRefill = now) hle).trans ?_
  split
  · next hkey => rw [h.bucket_tokens, hkey]
  · rfl

theorem Sane.throttled (h : l.Sane) : (l.throttled key' now).2.Sane := h.withBucket (h.bucket_tokens.symm ▸ h.found_nonneg)

/-- A check that lets a key through has found a token. -/
theorem Sane.one_le_of_pass (h : l.Sane) (hpass : (l.throttled key now).1 = false) : 1 ≤ l.found key now := by
  rw [← h.bucket_tokens]
  simpa [LoginRateLimiter.throttled] using hpass

/-- A penalty takes a token of its key, or what is left of one. -/
theorem Sane.avail_penalize (h : l.Sane) : (l.penalize key' now).avail key now =
    if key' = key then max (l.found key now - 1) 0 else l.found key now := by
  have hle : max ((l.bucket key' now).tokens - 1) 0 ≤ l.burst := by
    rw [h.bucket_tokens]
    have hfound : l.found key' now ≤ l.burst := h.found_le
    exact max_le (by linarith) h.burst
  have hlast : ({ l.bucket key' now with tokens := max ((l.bucket key' now).tokens - 1) 0 } : LoginBucket).lastRefill = now := rfl
  have havail : (l.penalize key' now).avail key now =
      if key' = key then max ((l.bucket key' now).tokens - 1) 0 else l.found key now := h.avail_withBucket hlast hle
  rw [havail]
  split
  · next hkey => rw [h.bucket_tokens, hkey]
  · rfl

theorem Sane.penalize (h : l.Sane) : (l.penalize key' now).Sane := h.withBucket (le_max_right _ _)

theorem Sane.reset (h : l.Sane) : (l.reset key').Sane := by
  refine ⟨h.burst, h.rps, fun key b hb => ?_⟩
  by_cases hkey : key = key'
  · subst hkey
    simp [LoginRateLimiter.reset, AList.lookup_erase] at hb
  · rw [LoginRateLimiter.reset, AList.lookup_erase_ne hkey] at hb
    exact h.tokens key b hb

/-- A success of another key leaves a key what it has. -/
theorem avail_reset (hkey : key ≠ key') : (l.reset key').avail key now = l.avail key now := by
  simp [avail, reset, AList.lookup_erase_ne hkey, refill]

end LoginRateLimiter

/-! ## Logins in flight -/

/-- A login between its check and its penalty or success. -/
def AuthTask.holds (key : String) : AuthTask → Bool
  | .login req .passed => req.key = key
  | .login req (.found _ _) => req.key = key
  | .login req (.verified _ _ _) => req.key = key
  | _ => false

/-- A login that has failed its verification and is not penalized yet. -/
def AuthTask.owes (key : String) : AuthTask → Bool
  | .login req (.verified _ _ false) => req.key = key
  | _ => false

namespace AuthLabel

/-- The instant of a step that has one. -/
def instant : AuthLabel → Option ℚ
  | checked _ now _ => some now
  | verified _ now _ => some now
  | penalized _ now => some now
  | cleared _ now => some now
  | _ => none

/-- Whether the step falls into a window. -/
def within (t₀ t₁ : ℚ) (l : AuthLabel) : Bool := l.instant.any fun now => t₀ ≤ now && now ≤ t₁

/-- A failed verification for a key. -/
def fails (key : String) : AuthLabel → Bool
  | verified k _ ok => k = key && !ok
  | _ => false

/-- A step that reads or takes tokens. -/
def accesses : AuthLabel → Bool
  | checked _ _ _ => true
  | penalized _ _ => true
  | _ => false

/-- A login for a key that succeeds. -/
def succeeds (key : String) : AuthLabel → Bool
  | cleared k _ => k = key
  | _ => false

end AuthLabel

/-- The failed verifications for a key in a window. -/
def failedVerifications (key : String) (t₀ t₁ : ℚ) (trace : List (AuthState × AuthLabel)) : ℕ :=
  trace.countP fun e => e.2.fails key && e.2.within t₀ t₁

/-- How often the map of the limiter is cleared in a window. -/
def clearings (t₀ t₁ : ℚ) (trace : List (AuthState × AuthLabel)) : ℕ :=
  trace.countP fun e => e.1.limiter.full && e.2.accesses && e.2.within t₀ t₁

section Advance

variable {key : String} {burst rps t₀ t₁ : ℚ} {K n m n' m' N M : ℕ} {s s' : AuthState} {l : AuthLabel}

/-- What a step does to the time, to the limiter and to the logins of a key in flight, and that sound books stay sound. -/
structure Advance (key : String) (K : ℕ) (s s' : AuthState) (l : AuthLabel) (n m n' m' : ℕ) : Prop where
  now_le : s.now ≤ s'.now
  instant : ∀ now, l.instant = some now → now = s'.now
  sane : s'.limiter.Sane
  burst : s'.limiter.burst = s.limiter.burst
  rps : s'.limiter.rps = s.limiter.rps
  flight : s.inFlight key = n → s'.inFlight key = n'
  books : ∀ t V C, TokenBucket.Sound s.limiter.burst s.limiter.rps t K ⟨n, m, V, C, s.limiter.avail key s'.now, s'.now⟩ → ∃ C',
    TokenBucket.Sound s.limiter.burst s.limiter.rps t K ⟨n', m', V + (l.fails key).toNat, C', s'.limiter.avail key s'.now, s'.now⟩ ∧
      (l.succeeds key = false → C' = C + (s.limiter.full && l.accesses).toNat)

/-- An access fills the bucket up if it clears the map. -/
theorem sound_access {lim : LoginRateLimiter} {V C : ℕ} {t now : ℚ} (hsane : lim.Sane)
    (h : TokenBucket.Sound lim.burst lim.rps t K ⟨n, m, V, C, lim.avail key now, now⟩) :
    TokenBucket.Sound lim.burst lim.rps t K ⟨n, m, V, C + lim.full.toNat, lim.found key now, now⟩ := by
  unfold LoginRateLimiter.found
  cases hfull : lim.full with
  | true => simpa using h.fill hsane.burst
  | false => simpa using h

/-- A step that leaves the key's logins and the limiter alone. -/
theorem Advance.same (hsane : s.limiter.Sane) (hnow : s.now ≤ s'.now) (hinstant : ∀ now, l.instant = some now → now = s'.now)
    (hlimiter : s'.limiter = s.limiter) (hflight : s'.inFlight key = s.inFlight key) (hfails : l.fails key = false)
    (haccesses : l.accesses = false) : Advance key K s s' l n m n m := by
  refine ⟨hnow, hinstant, hlimiter ▸ hsane, by rw [hlimiter], by rw [hlimiter], fun h => hflight.trans h, fun t V C h => ⟨C, ?_, ?_⟩⟩
  · rw [hfails, hlimiter]
    exact h
  · simp [haccesses]

/-- A check, with or without an admission. -/
theorem Advance.check {k : String} {now : ℚ} {refused : Bool} (hsane : s.limiter.Sane) (hnow : s.now ≤ now) :
    Advance key K s (s.check k now) (.checked k now refused) n m n m := by
  refine ⟨hnow, fun _ h => (Option.some.inj h).symm, hsane.throttled, rfl, rfl, id, fun t V C h => ⟨_, ?_, fun _ => rfl⟩⟩
  have havail : (s.check k now).limiter.avail key now = s.limiter.found key now := hsane.avail_throttled
  simpa [AuthState.check, havail, AuthLabel.fails, AuthLabel.accesses] using havail ▸ sound_access hsane h

theorem Advance.pass {k : String} {now : ℚ} (hsane : s.limiter.Sane) (hnow : s.now ≤ now)
    (hpass : (s.limiter.throttled k now).1 = false) :
    Advance key K s ((s.check k now).enter k) (.checked k now false) n m (n + (decide (k = key)).toNat) m := by
  have hcheck : Advance key K s (s.check k now) (.checked k now false) n m n m := .check hsane hnow
  refine ⟨hnow, hcheck.instant, hcheck.sane, rfl, rfl, fun h => ?_, fun t V C h => ?_⟩
  · by_cases hkey : k = key
    · subst hkey
      simp [AuthState.enter, AuthState.check, h]
    · simp [AuthState.enter, AuthState.check, h, hkey, Function.update_of_ne (fun heq : key = k => hkey heq.symm)]
  · obtain ⟨C', hsound, hC'⟩ := hcheck.books t V C h
    refine ⟨C', ?_, hC'⟩
    by_cases hkey : k = key
    · subst hkey
      have htoken : 1 ≤ (s.check k now).limiter.avail k now :=
        (hsane.one_le_of_pass hpass).trans_eq hsane.avail_throttled.symm
      simpa [AuthState.enter] using hsound.accept htoken
    · simpa [AuthState.enter, hkey] using hsound

theorem Advance.leave {k : String} (hsane : s.limiter.Sane) (hm : m ≤ n) :
    Advance key K s (s.leave k) (.left k) (n + (decide (k = key)).toNat) m n m := by
  refine ⟨le_refl _, nofun, hsane, rfl, rfl, fun h => ?_, fun t V C h => ⟨C, ?_, fun _ => by simp [AuthLabel.accesses]⟩⟩
  · by_cases hkey : k = key
    · subst hkey
      simp [AuthState.leave, h]
    · simpa [AuthState.leave, hkey, Function.update_of_ne (fun heq : key = k => hkey heq.symm)] using h
  · by_cases hkey : k = key
    · simp only [hkey, decide_true, Bool.toNat_true] at h
      exact h.leave rfl hm
    · have hsound : TokenBucket.Sound s.limiter.burst s.limiter.rps t K ⟨_, m, V, C, s.limiter.avail key s.now, s.now⟩ := h
      rwa [show n + (decide (k = key)).toNat = n by simp [hkey]] at hsound

theorem Advance.verify {k : String} {now : ℚ} {ok : Bool} (hsane : s.limiter.Sane) (hnow : s.now ≤ now) (hm : k = key → m < n) :
    Advance key K s { s with now } (.verified k now ok) n m n (m + (decide (k = key) && !ok).toNat) := by
  refine ⟨hnow, fun _ h => (Option.some.inj h).symm, hsane, rfl, rfl, id, fun t V C h => ⟨C, ?_, fun _ => by simp [AuthLabel.accesses]⟩⟩
  cases hfails : (decide (k = key) && !ok) with
  | false => simpa [AuthLabel.fails, hfails] using h
  | true =>
    have hkey : k = key := by simpa using (Bool.and_eq_true_iff.mp hfails).1
    simpa [AuthLabel.fails, hfails] using h.fail (hm hkey)

theorem Advance.penalize {k : String} {now : ℚ} {owing : Bool} (hsane : s.limiter.Sane) (hnow : s.now ≤ now) (hm : m ≤ n)
    (hK : n + (decide (k = key)).toNat ≤ K) : Advance key K s ((s.penalize k now).leave k) (.penalized k now)
      (n + (decide (k = key)).toNat) (m + (decide (k = key) && owing).toNat) n m := by
  have havail : ((s.penalize k now).leave k).limiter.avail key now =
      if k = key then max (s.limiter.found key now - 1) 0 else s.limiter.found key now := hsane.avail_penalize
  refine ⟨hnow, fun _ h => (Option.some.inj h).symm, hsane.penalize, rfl, rfl, fun h => ?_, fun t V C h => ⟨_, ?_, fun _ => rfl⟩⟩
  · by_cases hkey : k = key
    · subst hkey
      simp [AuthState.leave, AuthState.penalize, h]
    · simpa [AuthState.leave, AuthState.penalize, hkey, Function.update_of_ne (fun heq : key = k => hkey heq.symm)] using h
  · have hsound : TokenBucket.Sound s.limiter.burst s.limiter.rps t K ⟨_, _, V, C + s.limiter.full.toNat, s.limiter.found key now, now⟩ :=
      sound_access hsane h
    have hnow' : ((s.penalize k now).leave k).now = now := rfl
    rw [hnow', havail]
    by_cases hkey : k = key
    · simp only [hkey, decide_true, Bool.toNat_true, Bool.true_and] at hsound hK
      have howed : m + owing.toNat ≤ m + 1 := Nat.add_le_add_left (Bool.toNat_le owing) m
      simpa [hkey, AuthLabel.fails, AuthLabel.accesses] using hsound.charge rfl hK howed hm
    · simpa [hkey, AuthLabel.fails, AuthLabel.accesses] using hsound

theorem Advance.clear {k : String} {now : ℚ} (hsane : s.limiter.Sane) (hnow : s.now ≤ now) (hm : m ≤ n) :
    Advance key K s ((s.clear k now).leave k) (.cleared k now) (n + (decide (k = key)).toNat) m n m := by
  refine ⟨hnow, fun _ h => (Option.some.inj h).symm, hsane.reset, rfl, rfl, fun h => ?_, fun t V C h => ?_⟩
  · by_cases hkey : k = key
    · subst hkey
      simp [AuthState.leave, AuthState.clear, h]
    · simpa [AuthState.leave, AuthState.clear, hkey, Function.update_of_ne (fun heq : key = k => hkey heq.symm)] using h
  · by_cases hkey : k = key
    · subst hkey
      have havail : ((s.clear k now).leave k).limiter.avail k now = s.limiter.burst :=
        hsane.reset.avail_none (AList.lookup_erase _ _)
      refine ⟨C + 1, ?_, fun hno => by simp [AuthLabel.succeeds] at hno⟩
      simp only [decide_true, Bool.toNat_true] at h
      have hnow' : ((s.clear k now).leave k).now = now := rfl
      rw [hnow', havail]
      exact (h.leave rfl hm).fill hsane.burst
    · have havail : ((s.clear k now).leave k).limiter.avail key now = s.limiter.avail key now :=
        LoginRateLimiter.avail_reset fun heq => hkey heq.symm
      have hnow' : ((s.clear k now).leave k).now = now := rfl
      refine ⟨C, ?_, fun _ => by simp [AuthLabel.accesses]⟩
      rw [hnow', havail]
      have hsound : TokenBucket.Sound s.limiter.burst s.limiter.rps t K ⟨_, _, V, C, s.limiter.avail key now, now⟩ := h
      simpa [hkey, AuthLabel.fails] using hsound

theorem countP_toList {α : Type} (p : α → Bool) (x : Option α) : x.toList.countP p = x.elim 0 fun a => (p a).toNat := by
  cases x with
  | none => rfl
  | some a => cases h : p a <;> simp [h]

/-- What any step does. -/
theorem AuthStep.advance {Γ : Env} {ctx : AuthCtx} {t : AuthTask} {ts : List AuthTask} (hs : AuthStep Γ ctx s t l s' ts)
    (hsane : s.limiter.Sane) (hM : M ≤ N) (hK : N + (t.holds key).toNat ≤ K) :
    Advance key K s s' l (N + (t.holds key).toNat) (M + (t.owes key).toNat) (N + ts.countP (AuthTask.holds key))
      (M + ts.countP (AuthTask.owes key)) := by
  cases hs with
  | @login req p _ _ _ hs =>
    simp only [countP_toList]
    cases hs with
    | unavailable => exact .same hsane (le_refl _) nofun rfl rfl rfl rfl
    | throttled hnow => exact .check hsane hnow
    | pass _ hnow hpass => exact .pass hsane hnow hpass
    | readFailed => exact .leave hsane hM
    | read => exact .same hsane (le_refl _) nofun rfl rfl rfl rfl
    | @verify _ _ _ ok hnow =>
      have hverify : Advance key K s _ (.verified req.key _ ok) (N + (decide (req.key = key)).toNat) M _ _ :=
        .verify hsane hnow fun hkey => by simp [hkey]; omega
      cases ok with
      | true => simpa [AuthTask.holds, AuthTask.owes] using hverify
      | false => simpa [AuthTask.holds, AuthTask.owes] using hverify
    | verifyFailed => exact .leave hsane hM
    | @penalize user _ ok _ hnow =>
      have hpenalize : Advance key K s _ (.penalized req.key _) _ (M + (decide (req.key = key) && !ok).toNat) N M :=
        .penalize hsane hnow hM hK
      cases ok with
      | true => simpa [AuthTask.holds, AuthTask.owes] using hpenalize
      | false => simpa [AuthTask.holds, AuthTask.owes] using hpenalize
    | @badRole _ _ _ ok h =>
      cases ok with
      | true => exact .leave hsane hM
      | false => simp [admissible] at h
    | @accept _ _ _ ok _ hnow h =>
      cases ok with
      | true => exact .clear hsane hnow hM
      | false => simp [admissible] at h
    | write => exact .same hsane (le_refl _) nofun rfl rfl rfl rfl
  | changePassword hs =>
    simp only [countP_toList]
    cases hs <;> exact .same hsane (le_refl _) nofun rfl rfl rfl rfl
  | resetPassword hs =>
    simp only [countP_toList]
    cases hs <;> exact .same hsane (le_refl _) nofun rfl rfl rfl rfl

end Advance

/-! ## Runs -/

/-- What holds along a run: the limiter is sane, the history of logins in flight counts them, and the books since `t₀` are sound
until `t₁`, with what they come to. -/
structure Throttled (burst rps : ℚ) (key : String) (t₀ t₁ : ℚ) (K : ℕ) (trace : List (AuthState × AuthLabel))
    (c : Interleave.Config AuthState AuthTask) : Prop where
  sane : c.shared.limiter.Sane
  params : c.shared.limiter.burst = burst ∧ c.shared.limiter.rps = rps
  flight : c.shared.inFlight key = c.tasks.countP (AuthTask.holds key)
  early : c.shared.now < t₀ → failedVerifications key t₀ t₁ trace = 0 ∧ clearings t₀ t₁ trace = 0
  books : c.shared.now ≤ t₁ → ∃ t V C, TokenBucket.Sound burst rps t K ⟨c.tasks.countP (AuthTask.holds key), c.tasks.countP (AuthTask.owes key),
    V, C, c.shared.limiter.avail key c.shared.now, c.shared.now⟩ ∧
      (t₀ ≤ c.shared.now → t = t₀ ∧ V = failedVerifications key t₀ t₁ trace ∧ C = clearings t₀ t₁ trace)
  bounded : (failedVerifications key t₀ t₁ trace : ℚ) ≤ K * (burst * (1 + clearings t₀ t₁ trace) + rps * (t₁ - t₀) + 1) + (K - 1 : ℕ)

section Runs

variable {Γ : Env} {ctx : AuthCtx} {key : String} {burst rps t₀ t₁ : ℚ} {K : ℕ} {trace : List (AuthState × AuthLabel)}
  {c c' : Interleave.Config AuthState AuthTask} {s : AuthState} {l : AuthLabel}

theorem AuthTask.holds_of_owes {t : AuthTask} (h : t.owes key = true) : t.holds key = true := by
  cases t with
  | login req p =>
    cases p with
    | verified user seen ok =>
      cases ok with
      | true => cases h
      | false => exact h
    | _ => cases h
  | changePassword => cases h
  | resetPassword => cases h

theorem failedVerifications_snoc : failedVerifications key t₀ t₁ (trace ++ [(s, l)]) =
    failedVerifications key t₀ t₁ trace + (l.fails key && l.within t₀ t₁).toNat := by
  rw [failedVerifications, List.countP_append]
  cases h : (l.fails key && l.within t₀ t₁) <;> simp [failedVerifications, h]

theorem clearings_snoc : clearings t₀ t₁ (trace ++ [(s, l)]) =
    clearings t₀ t₁ trace + (s.limiter.full && l.accesses && l.within t₀ t₁).toNat := by
  rw [clearings, List.countP_append]
  cases h : (s.limiter.full && l.accesses && l.within t₀ t₁) <;> simp [clearings, h]

/-- What counts has an instant. -/
theorem AuthLabel.instant_isSome (h : l.fails key = true ∨ l.accesses = true ∨ l.succeeds key = true) : l.instant.isSome = true := by
  cases l <;> simp_all [fails, accesses, succeeds, instant]

theorem AuthLabel.within_iff {now : ℚ} (hinstant : ∀ t, l.instant = some t → t = now) (h : l.instant.isSome = true) :
    l.within t₀ t₁ = (decide (t₀ ≤ now) && decide (now ≤ t₁)) := by
  obtain ⟨t, ht⟩ := Option.isSome_iff_exists.mp h
  obtain rfl := hinstant t ht
  simp [within, ht]

/-- Outside the window nothing is counted. -/
theorem counts_outside (key : String) (t₀ t₁ : ℚ) (trace : List (AuthState × AuthLabel)) (s : AuthState) {now : ℚ} (hinstant : ∀ t, l.instant = some t → t = now) (hout : now < t₀ ∨ t₁ < now) :
    failedVerifications key t₀ t₁ (trace ++ [(s, l)]) = failedVerifications key t₀ t₁ trace ∧
      clearings t₀ t₁ (trace ++ [(s, l)]) = clearings t₀ t₁ trace := by
  have hnot : (decide (t₀ ≤ now) && decide (now ≤ t₁)) = false := by
    rcases hout with hout | hout <;> simp [hout]
  have hwithin : l.within t₀ t₁ = false := by
    cases hsome : l.instant with
    | none => simp [AuthLabel.within, hsome]
    | some t => rw [AuthLabel.within_iff hinstant (by simp [hsome]), hnot]
  simp [failedVerifications_snoc, clearings_snoc, hwithin]

/-- Inside the window everything is. -/
theorem counts_inside (key : String) (trace : List (AuthState × AuthLabel)) (s : AuthState) {now : ℚ} (hinstant : ∀ t, l.instant = some t → t = now) (h₀ : t₀ ≤ now) (h₁ : now ≤ t₁) :
    failedVerifications key t₀ t₁ (trace ++ [(s, l)]) = failedVerifications key t₀ t₁ trace + (l.fails key).toNat ∧
      clearings t₀ t₁ (trace ++ [(s, l)]) = clearings t₀ t₁ trace + (s.limiter.full && l.accesses).toNat := by
  have hwithin (hsome : l.instant.isSome = true) : l.within t₀ t₁ = true := by
    rw [AuthLabel.within_iff hinstant hsome]
    simp [h₀, h₁]
  rw [failedVerifications_snoc, clearings_snoc]
  constructor
  · cases hfails : l.fails key with
    | false => simp
    | true => simp [hwithin (AuthLabel.instant_isSome (.inl hfails))]
  · cases haccesses : l.accesses with
    | false => simp
    | true => simp [hwithin (AuthLabel.instant_isSome (.inr (.inl haccesses) : l.fails key = true ∨ _ ∨ _))]

/-- The books wait for the instant of the next step, and are opened when the window has come. -/
theorem Throttled.wait {now : ℚ} (h : Throttled burst rps key t₀ t₁ K trace c) (hnow : c.shared.now ≤ now) (h₁ : now ≤ t₁) :
    ∃ t V C, TokenBucket.Sound burst rps t K ⟨c.tasks.countP (AuthTask.holds key), c.tasks.countP (AuthTask.owes key), V, C,
      c.shared.limiter.avail key now, now⟩ ∧
        (t₀ ≤ now → t = t₀ ∧ V = failedVerifications key t₀ t₁ trace ∧ C = clearings t₀ t₁ trace) := by
  obtain ⟨hburst, hrps⟩ := h.params
  obtain ⟨t, V, C, hsound, hopen⟩ := h.books (hnow.trans h₁)
  have hwait : TokenBucket.Sound burst rps t K ⟨c.tasks.countP (AuthTask.holds key), c.tasks.countP (AuthTask.owes key), V, C,
      c.shared.limiter.avail key now, now⟩ :=
    hsound.wait hnow (h.sane.avail_mono hnow) (hburst ▸ LoginRateLimiter.avail_le _ _ _) (hrps ▸ h.sane.avail_rate hnow)
  rcases le_or_gt t₀ c.shared.now with hstarted | hearly
  · exact ⟨t, V, C, hwait, fun _ => hopen hstarted⟩
  · obtain ⟨hV, hC⟩ := h.early hearly
    rcases le_or_gt t₀ now with hcome | hnot
    · exact ⟨t₀, 0, 0, hwait.reopen (hburst ▸ h.sane.burst) (hrps ▸ h.sane.rps) hcome, fun _ => ⟨rfl, hV.symm, hC.symm⟩⟩
    · exact ⟨t, V, C, hwait, fun hcome => absurd hcome (not_le_of_gt hnot)⟩

/-- A step keeps all of it, if no login of the key succeeds in the window. -/
theorem Throttled.step (hK : 0 < K) (hwindow : t₀ ≤ t₁) (h : Throttled burst rps key t₀ t₁ K trace c)
    (hs : Interleave.Step (authSystem Γ ctx) c l c') (hflight : c.shared.inFlight key ≤ K) (hflight' : c'.shared.inFlight key ≤ K)
    (hsuccess : ¬ (l.succeeds key = true ∧ l.within t₀ t₁ = true)) :
    Throttled burst rps key t₀ t₁ K (trace ++ [(c.shared, l)]) c' := by
  obtain ⟨hburst, hrps⟩ := h.params
  cases hs with
  | reset hreset => exact hreset.elim
  | @task s s' t l ts before after hstep =>
    have hM : before.countP (AuthTask.owes key) + after.countP (AuthTask.owes key) ≤
        before.countP (AuthTask.holds key) + after.countP (AuthTask.holds key) :=
      Nat.add_le_add (List.countP_mono_left fun _ _ => AuthTask.holds_of_owes) (List.countP_mono_left fun _ _ => AuthTask.holds_of_owes)
    have hcount (p : AuthTask → Bool) : (before ++ t :: after).countP p = before.countP p + after.countP p + (p t).toNat := by
      rw [List.countP_append, List.countP_cons]
      cases p t <;> simp <;> omega
    have hcount' (p : AuthTask → Bool) : (before ++ (ts ++ after)).countP p = before.countP p + after.countP p + ts.countP p := by
      rw [List.countP_append, List.countP_append]
      omega
    have hheld : s.inFlight key = before.countP (AuthTask.holds key) + after.countP (AuthTask.holds key) + (t.holds key).toNat :=
      h.flight.trans (hcount _)
    have hadvance := hstep.advance (K := K) h.sane hM (hheld ▸ hflight)
    have hinstant := hadvance.instant
    have hflight_eq := hadvance.flight hheld
    rcases le_or_gt s'.now t₁ with h₁ | hlate
    · obtain ⟨u, V, C, hsound, hopen⟩ := h.wait hadvance.now_le h₁
      rw [hcount, hcount] at hsound
      obtain ⟨C', hsound', hfills⟩ := hadvance.books u V C (by rw [hburst, hrps]; exact hsound)
      rw [hburst, hrps, ← hcount', ← hcount'] at hsound'
      rcases le_or_gt t₀ s'.now with h₀ | hearly
      · obtain ⟨hV, hC⟩ := counts_inside key trace s hinstant h₀ h₁
        obtain ⟨rfl, rfl, rfl⟩ := hopen h₀
        have hnone : l.succeeds key = false := by
          by_contra hsucceeds
          have hs : l.succeeds key = true := by simpa using hsucceeds
          refine hsuccess ⟨hs, ?_⟩
          rw [AuthLabel.within_iff hinstant (AuthLabel.instant_isSome (.inr (.inr hs)))]
          simp [h₀, h₁]
        have hC' : C' = clearings u t₁ (trace ++ [(s, l)]) := (hfills hnone).trans hC.symm
        rw [← hV, hC'] at hsound'
        refine ⟨hadvance.sane, ⟨hadvance.burst.trans hburst, hadvance.rps.trans hrps⟩, hflight_eq.trans (hcount' _).symm,
          fun hearly => absurd h₀ (not_le_of_gt hearly), fun _ => ⟨u, _, _, hsound', fun _ => ⟨rfl, rfl, rfl⟩⟩, ?_⟩
        have hheld' : (before ++ (ts ++ after)).countP (AuthTask.holds key) ≤ K := by
          rw [hcount', ← hflight_eq]
          exact hflight'
        have hbound := hsound'.bound hK hheld'
        have hrps' : 0 ≤ rps := hrps ▸ h.sane.rps
        have helapsed : rps * (s'.now - u) ≤ rps * (t₁ - u) := mul_le_mul_of_nonneg_left (by linarith) hrps'
        refine hbound.trans (add_le_add_left (mul_le_mul_of_nonneg_left ?_ (Nat.cast_nonneg K)) _)
        dsimp only
        linarith
      · obtain ⟨hV, hC⟩ := counts_outside key t₀ t₁ trace s hinstant (.inl hearly)
        refine ⟨hadvance.sane, ⟨hadvance.burst.trans hburst, hadvance.rps.trans hrps⟩, hflight_eq.trans (hcount' _).symm, fun _ => ?_,
          fun _ => ⟨u, _, C', hsound', fun h₀ => absurd h₀ (not_le_of_gt hearly)⟩, ?_⟩
        · rw [hV, hC]
          exact h.early (hadvance.now_le.trans_lt hearly)
        · rw [hV, hC]
          exact h.bounded
    · obtain ⟨hV, hC⟩ := counts_outside key t₀ t₁ trace s hinstant (.inr hlate)
      refine ⟨hadvance.sane, ⟨hadvance.burst.trans hburst, hadvance.rps.trans hrps⟩, hflight_eq.trans (hcount' _).symm,
        fun hearly => absurd (hwindow.trans_lt hlate) (not_lt_of_gt hearly), fun h₁ => absurd h₁ (not_le_of_gt hlate), ?_⟩
      rw [hV, hC]
      exact h.bounded

theorem Throttled.initial {users : List UserRow} {limiter : LoginRateLimiter} {now : ℚ} {ts : List AuthTask} (hburst : 0 ≤ limiter.burst)
    (hrps : 0 ≤ limiter.rps) (hwindow : t₀ ≤ t₁) (hfresh : ∀ t ∈ ts, t.Fresh) :
    Throttled limiter.burst limiter.rps key t₀ t₁ K [] ⟨.initial users limiter now, ts⟩ := by
  have hsane : ({ limiter with buckets := ∅ } : LoginRateLimiter).Sane := ⟨hburst, hrps, fun _ _ h => by simp at h⟩
  have havail : ({ limiter with buckets := ∅ } : LoginRateLimiter).avail key now = limiter.burst := hsane.avail_none (AList.lookup_empty _)
  have hnone (p : AuthTask → Bool) (hp : ∀ t, t.Fresh → p t = false) : ts.countP p = 0 :=
    List.countP_eq_zero.mpr fun t ht => by simp [hp t (hfresh t ht)]
  have hholds : ts.countP (AuthTask.holds key) = 0 := hnone _ fun t ht => by cases ht <;> rfl
  have howes : ts.countP (AuthTask.owes key) = 0 := hnone _ fun t ht => by cases ht <;> rfl
  refine ⟨hsane, ⟨rfl, rfl⟩, hholds.symm, fun _ => ⟨rfl, rfl⟩, fun _ => ?_, ?_⟩
  · have hopened : TokenBucket.Sound limiter.burst limiter.rps now K ⟨0, 0, 0, 0, limiter.burst, now⟩ :=
      ⟨hburst, le_refl _, le_refl _, le_refl _, 0, 0, 0, le_refl _, Nat.zero_le _, fun h => absurd h (lt_irrefl _), le_refl _,
        by simp, by simp⟩
    rw [hholds, howes]
    rcases le_or_gt t₀ now with hcome | hearly
    · exact ⟨t₀, 0, 0, havail.symm ▸ hopened.reopen hburst hrps hcome, fun _ => ⟨rfl, rfl, rfl⟩⟩
    · exact ⟨now, 0, 0, havail.symm ▸ hopened, fun hcome => absurd hcome (not_le_of_gt hearly)⟩
  · have helapsed : 0 ≤ limiter.rps * (t₁ - t₀) := mul_nonneg hrps (by linarith)
    have hnonneg : (0 : ℚ) ≤ K * (limiter.burst * (1 + (0 : ℕ)) + limiter.rps * (t₁ - t₀) + 1) + (K - 1 : ℕ) :=
      add_nonneg (mul_nonneg (Nat.cast_nonneg K) (by push_cast; linarith)) (Nat.cast_nonneg _)
    simpa [failedVerifications, clearings] using hnonneg

/-- Throttling along a run (induction on the run). -/
theorem throttled_run {c₀ : Interleave.Config AuthState AuthTask} (hK : 0 < K) (hwindow : t₀ ≤ t₁)
    (h₀ : Throttled burst rps key t₀ t₁ K [] c₀) (h : Interleave.Run (authSystem Γ ctx) c₀ trace c)
    (hflight : ∀ e ∈ trace, e.1.inFlight key ≤ K) (hflight' : c.shared.inFlight key ≤ K)
    (hsuccess : ∀ e ∈ trace, ¬ (e.2.succeeds key = true ∧ e.2.within t₀ t₁ = true)) : Throttled burst rps key t₀ t₁ K trace c := by
  induction h with
  | nil => exact h₀
  | @snoc c₁ c₂ l trace _ hs ih =>
    have hlast : (c₁.shared, l) ∈ trace ++ [(c₁.shared, l)] := List.mem_append_right _ (List.mem_singleton_self _)
    have hbefore := ih (fun e he => hflight e (List.mem_append_left _ he)) (hflight _ hlast)
      fun e he => hsuccess e (List.mem_append_left _ he)
    exact hbefore.step hK hwindow hs (hflight _ hlast) hflight' (hsuccess _ hlast)

end Runs

/-- A login with a wrong password. -/
def guess : LoginRequest := ⟨"10.0.0.1", "alice", "guess"⟩

end Tumult.Auth
