import Mobility.Auth.RateLimit
import Mathlib.Data.List.Basic

/-!
# FailedLogins — how many attempts an address gets while its counter lives

The counter of an address counts the attempts reserved in its lifetime less the releases.
That bounds the attempts that stay unreleased, as long as a release takes back what was
counted in the lifetime it meets.  `releaseLoginSuccess` only looks whether the counter is
positive: after an expiry it takes one off the counter of a later lifetime.
-/

namespace Mobility
namespace Auth

open Lib Lib.Expiring Lib.Expiring.Store

variable {Ip Email : Type} [DecidableEq Ip] [DecidableEq Email]
variable {settings : Settings} {normalizeEmail : Email → Email}

/-- The attempt reserved in this lifetime of the address's counter, was allowed, and was not
released as a success. -/
def Attempt.Takes (made : Attempt Ip Email) (ip : Ip) (lifetime : Nat) : Prop :=
  made.ip = ip ∧ made.lifetime = lifetime ∧ made.decision.allowed = true
    ∧ made.outcome ≠ .released

instance (made : Attempt Ip Email) (ip : Ip) (lifetime : Nat) :
    Decidable (made.Takes ip lifetime) :=
  inferInstanceAs (Decidable (_ ∧ _ ∧ _ ∧ _))

omit [DecidableEq Ip] [DecidableEq Email] in
theorem Attempt.not_takes_of_refused {made : Attempt Ip Email} {ip : Ip} {lifetime : Nat}
    (h : made.decision.allowed = false) : ¬ made.Takes ip lifetime := fun htakes =>
  Bool.false_ne_true (h.symm.trans htakes.2.2.1)

def LoginLimiter.unreleased (s : LoginLimiter Ip Email) (ip : Ip) (lifetime : Nat) : Nat :=
  s.attempts.countP (·.Takes ip lifetime)

/-- A release that meets a positive counter meets the one it was counted by. -/
def ReleasesOwn (s : LoginLimiter Ip Email) (a : Action Ip Email) : Prop :=
  ∀ attempt made, a = .releaseSuccess attempt → s.attempts[attempt]? = some made →
    0 < s.redis.get (.ip made.ip) → made.lifetime = s.lifetimes made.ip

/-! ## What the scripts keep -/

/-- The key reads the same and is there or not as before. -/
def SameCounter (r r' : Redis Ip Email) (key : Key Ip Email) : Prop :=
  r'.get key = r.get key ∧ (r'.entries key).isSome = (r.entries key).isSome

omit [DecidableEq Ip] [DecidableEq Email] in
theorem SameCounter.of_entries {r r' : Redis Ip Email} {key : Key Ip Email}
    (h : r'.entries key = r.entries key) : SameCounter r r' key :=
  ⟨get_congr h, by rw [h]⟩

omit [DecidableEq Ip] [DecidableEq Email] in
theorem SameCounter.trans {r r' r'' : Redis Ip Email} {key : Key Ip Email}
    (h : SameCounter r r' key) (h' : SameCounter r' r'' key) : SameCounter r r'' key :=
  ⟨h'.1.trans h.1, h'.2.trans h.2⟩

theorem kept_ttlOrWindow {r : Redis Ip Email} (h : r.Kept) (bucket : Bucket (Key Ip Email)) :
    (ttlOrWindow r bucket).1.Kept := by
  unfold ttlOrWindow
  by_cases httl : r.ttl bucket.key < 0
  · rw [if_pos httl]
    exact h.expire _ _
  · rw [if_neg httl]
    exact h

theorem sameCounter_ttlOrWindow (r : Redis Ip Email) {bucket : Bucket (Key Ip Email)}
    (hwindow : 0 < bucket.window) (key : Key Ip Email) :
    SameCounter r (ttlOrWindow r bucket).1 key := by
  unfold ttlOrWindow
  have hpos : (0 : Int) < bucket.window := by exact_mod_cast hwindow
  by_cases httl : r.ttl bucket.key < 0
  · rw [if_pos httl]
    exact ⟨get_expire r _ hpos key, isSome_expire r _ hpos key⟩
  · rw [if_neg httl]
    exact .of_entries rfl

theorem kept_blockedReply {r : Redis Ip Email} (h : r.Kept) (i : Nat)
    (bucket : Bucket (Key Ip Email)) : (blockedReply r i bucket).1.Kept :=
  (kept_ttlOrWindow h bucket).setNxEx _ _

/-- A refusal leaves every counter of an address alone. -/
theorem sameCounter_blockedReply (r : Redis Ip Email) (i : Nat) {bucket : Bucket (Key Ip Email)}
    (hwindow : 0 < bucket.window) (ip : Ip) :
    SameCounter r (blockedReply r i bucket).1 (.ip ip) :=
  (sameCounter_ttlOrWindow r hwindow _).trans
    (.of_entries (setNxEx_entries_of_ne _ _ (by simp)))

/-- A reply that does not grant is no allowance, however it is read. -/
theorem decisionOf_refuses (i ttl notified : Int) :
    (decisionOf [0, i, ttl, notified]).allowed = false := by
  rw [decisionOf, if_neg (by simp)]
  split
  · rfl
  · cases bucketName i <;> rfl

theorem blockedReply_refuses (r : Redis Ip Email) (i : Nat) (bucket : Bucket (Key Ip Email)) :
    (decisionOf (blockedReply r i bucket).2).allowed = false :=
  decisionOf_refuses ..

theorem countAttempt_eq (r : Redis Ip Email) (bucket : Bucket (Key Ip Email)) :
    countAttempt r bucket =
      if r.get bucket.key + 1 = 1 then (r.incrBy 1 bucket.key).expire bucket.key bucket.window
      else r.incrBy 1 bucket.key :=
  rfl

theorem kept_countAttempt {r : Redis Ip Email} (h : r.Kept) {bucket : Bucket (Key Ip Email)}
    (hwindow : 0 < bucket.window) : (countAttempt r bucket).Kept := by
  have hpos : (0 : Int) < bucket.window := by exact_mod_cast hwindow
  have hnonneg := h.get_nonneg bucket.key
  rw [countAttempt_eq]
  by_cases hone : r.get bucket.key + 1 = 1
  · rw [if_pos hone]
    exact h.incr_expire _ hpos
  · rw [if_neg hone]
    -- a counter above zero is there, and was given its deadline
    cases hentry : r.entries bucket.key with
    | none =>
        have hzero := get_of_none hentry
        omega
    | some entry => exact h.incrBy (by omega) (by simp [hentry])

theorem countAttempt_self (r : Redis Ip Email) (bucket : Bucket (Key Ip Email))
    (hwindow : 0 < bucket.window) :
    (countAttempt r bucket).get bucket.key = r.get bucket.key + 1
      ∧ ((countAttempt r bucket).entries bucket.key).isSome = true := by
  have hpos : (0 : Int) < bucket.window := by exact_mod_cast hwindow
  rw [countAttempt_eq]
  split_ifs
  · exact ⟨by rw [get_expire _ _ hpos, get_incrBy_self],
      by rw [isSome_expire _ _ hpos, Store.incrBy, put_entries_self]; rfl⟩
  · exact ⟨get_incrBy_self .., by rw [Store.incrBy, put_entries_self]; rfl⟩

theorem sameCounter_countAttempt (r : Redis Ip Email) {bucket : Bucket (Key Ip Email)}
    (hwindow : 0 < bucket.window) {key : Key Ip Email} (hkey : key ≠ bucket.key) :
    SameCounter r (countAttempt r bucket) key := by
  have hpos : (0 : Int) < bucket.window := by exact_mod_cast hwindow
  have hincr : SameCounter r (r.incrBy 1 bucket.key) key :=
    .of_entries (put_entries_of_ne _ _ hkey)
  rw [countAttempt_eq]
  split_ifs
  · exact hincr.trans ⟨get_expire _ _ hpos key, isSome_expire _ _ hpos key⟩
  · exact hincr

/-! ## The three scripts -/

section Reserve

variable (settings normalizeEmail) (r : Redis Ip Email) (ip : Ip) (email : Email)

abbrev reserved : Redis Ip Email × List Int :=
  reserveLoginAttempt r (ipBucket settings ip) (accountBucket settings normalizeEmail email)

variable {r} in
theorem kept_reserved (h : r.Kept) : (reserved settings normalizeEmail r ip email).1.Kept := by
  unfold reserved reserveLoginAttempt
  split_ifs
  · exact kept_blockedReply h _ _
  · exact kept_blockedReply h _ _
  · exact kept_countAttempt (kept_countAttempt h settings.ipWindow_pos)
      settings.accountWindow_pos

/-- The script refuses and leaves the addresses' counters alone, or it counts the attempt
on an address that is below its limit. -/
theorem reserved_cases :
    ((decisionOf (reserved settings normalizeEmail r ip email).2).allowed = false
      ∧ ∀ other, SameCounter r (reserved settings normalizeEmail r ip email).1 (.ip other))
    ∨ (r.get (.ip ip) < settings.loginRateLimitIpMaxFailures
      ∧ (reserved settings normalizeEmail r ip email).1.get (.ip ip) = r.get (.ip ip) + 1
      ∧ ((reserved settings normalizeEmail r ip email).1.entries (.ip ip)).isSome = true
      ∧ ∀ other, other ≠ ip →
        SameCounter r (reserved settings normalizeEmail r ip email).1 (.ip other)) := by
  unfold reserved reserveLoginAttempt
  by_cases hip : ((ipBucket settings ip : Bucket (Key Ip Email)).limit : Int)
      ≤ r.get (ipBucket settings ip).key
  · rw [if_pos hip]
    exact Or.inl ⟨blockedReply_refuses .., fun other =>
      sameCounter_blockedReply r 1 settings.ipWindow_pos other⟩
  rw [if_neg hip]
  by_cases haccount : ((accountBucket settings normalizeEmail email : Bucket (Key Ip Email)).limit : Int)
      ≤ r.get (accountBucket settings normalizeEmail email).key
  · rw [if_pos haccount]
    exact Or.inl ⟨blockedReply_refuses .., fun other =>
      sameCounter_blockedReply r 2 settings.accountWindow_pos other⟩
  rw [if_neg haccount]
  have hself := countAttempt_self r (ipBucket settings ip) settings.ipWindow_pos
  have haside : ∀ other, SameCounter (countAttempt r (ipBucket settings ip))
      (countAttempt (countAttempt r (ipBucket settings ip))
        (accountBucket settings normalizeEmail email)) (.ip other) := fun other =>
    sameCounter_countAttempt _ settings.accountWindow_pos (by simp [accountBucket])
  refine Or.inr ⟨not_le.mp hip, (haside ip).1.trans hself.1, (haside ip).2.trans hself.2, ?_⟩
  intro other hother
  refine SameCounter.trans (sameCounter_countAttempt r settings.ipWindow_pos ?_) (haside other)
  simpa [ipBucket] using hother

end Reserve

/-- The failure counts, keeps or gets its deadline, and may leave a report's marker. -/
theorem recordLoginFailure_cases (r : Redis Ip Email) (bucket : Bucket (Key Ip Email)) :
    (recordLoginFailure r bucket).1 = (ttlOrWindow (r.incrBy 1 bucket.key) bucket).1
      ∨ ∃ window, (recordLoginFailure r bucket).1
        = ((ttlOrWindow (r.incrBy 1 bucket.key) bucket).1.setNxEx (.notify bucket.key) window).1 := by
  simp only [recordLoginFailure]
  split
  · exact Or.inl rfl
  · exact Or.inr ⟨_, rfl⟩

theorem kept_recordLoginFailure {r : Redis Ip Email} (h : r.Kept)
    {bucket : Bucket (Key Ip Email)} (hwindow : 0 < bucket.window) :
    (recordLoginFailure r bucket).1.Kept := by
  have hpos : (0 : Int) < bucket.window := by exact_mod_cast hwindow
  have hnonneg := h.get_nonneg bucket.key
  have hcounted : (ttlOrWindow (r.incrBy 1 bucket.key) bucket).1.Kept := by
    cases hentry : r.entries bucket.key with
    | none =>
        -- the counter was made without a deadline, which its time to live tells
        have httl : (r.incrBy 1 bucket.key).ttl bucket.key < 0 := by
          simp [Store.ttl, Store.incrBy, hentry]
        unfold ttlOrWindow
        rw [if_pos httl]
        exact h.incr_expire _ hpos
    | some entry => exact kept_ttlOrWindow (h.incrBy (by omega) (by simp [hentry])) _
  rcases recordLoginFailure_cases r bucket with hcases | ⟨window, hcases⟩
  · rw [hcases]
    exact hcounted
  · rw [hcases]
    exact hcounted.setNxEx _ _

theorem sameCounter_recordLoginFailure (r : Redis Ip Email) (ip : Ip) :
    SameCounter r (recordLoginFailure r (globalBucket settings)).1 (.ip ip) := by
  have hcounted : SameCounter r
      (ttlOrWindow (r.incrBy 1 .global) (globalBucket settings)).1 (.ip ip) :=
    SameCounter.trans (.of_entries (put_entries_of_ne _ _ (by simp)))
      (sameCounter_ttlOrWindow _ settings.globalWindow_pos _)
  rcases recordLoginFailure_cases r (globalBucket settings) with hcases | ⟨window, hcases⟩
  · rw [hcases]
    exact hcounted
  · rw [hcases]
    exact hcounted.trans (.of_entries (setNxEx_entries_of_ne _ _ (by simp)))

theorem kept_releaseLoginSuccess {r : Redis Ip Email} (h : r.Kept) (ip account : Key Ip Email) :
    (releaseLoginSuccess r ip account).Kept := by
  have hdel := h.del account
  simp only [releaseLoginSuccess]
  split_ifs with hpositive
  · cases hentry : (r.del account).entries ip with
    | none =>
        have hzero := get_of_none hentry
        omega
    | some entry => exact hdel.incrBy (by omega) (by simp [hentry])
  · exact hdel

/-- A release takes one off a positive counter of its address, and nothing off another. -/
theorem releaseLoginSuccess_get (r : Redis Ip Email) (ip : Ip) (email : Email) (other : Ip) :
    ((releaseLoginSuccess r (.ip ip) (.acct email)).get (.ip other)
        = if other = ip ∧ 0 < r.get (.ip ip) then r.get (.ip other) - 1 else r.get (.ip other))
      ∧ ((releaseLoginSuccess r (.ip ip) (.acct email)).entries (.ip other)).isSome
        = (r.entries (.ip other)).isSome := by
  have hdel : ∀ ip', SameCounter r (r.del (.acct email)) (.ip ip') := fun ip' =>
    .of_entries (put_entries_of_ne _ _ (by simp))
  simp only [releaseLoginSuccess, (hdel ip).1]
  by_cases hpositive : 0 < r.get (.ip ip)
  · rw [if_pos hpositive]
    by_cases hother : other = ip
    · subst hother
      rw [if_pos ⟨rfl, hpositive⟩]
      refine ⟨?_, ?_⟩
      · rw [Store.decr, get_incrBy_self, (hdel other).1]
        rfl
      · have hthere : (r.entries (.ip other)).isSome = true := by
          cases hentry : r.entries (.ip other) with
          | none =>
              rw [get_of_none hentry] at hpositive
              exact absurd hpositive (lt_irrefl 0)
          | some entry => rfl
        rw [Store.decr, Store.incrBy, put_entries_self, hthere]
        rfl
    · rw [if_neg fun h => hother h.1]
      exact SameCounter.trans (hdel other)
        (.of_entries (put_entries_of_ne _ _ (by simpa using hother)))
  · rw [if_neg hpositive, if_neg fun h => hpositive h.2]
    exact hdel other

/-! ## Counting attempts -/

omit [DecidableEq Email] in
theorem unreleased_append {s s' : LoginLimiter Ip Email} {made : Attempt Ip Email}
    (hattempts : s'.attempts = s.attempts ++ [made]) (ip : Ip) (lifetime : Nat) :
    s'.unreleased ip lifetime
      = s.unreleased ip lifetime + if made.Takes ip lifetime then 1 else 0 := by
  simp [LoginLimiter.unreleased, hattempts, List.countP_append, List.countP_cons]

theorem countP_set_add {α : Type} (p : α → Bool) {l : List α} {i : Nat} {a : α}
    (ha : l[i]? = some a) (b : α) :
    (l.set i b).countP p + (if p a then 1 else 0) = l.countP p + if p b then 1 else 0 := by
  induction l generalizing i with
  | nil => simp at ha
  | cons x l ih =>
      cases i with
      | zero =>
          have hx : x = a := by simpa using ha
          simp only [List.set_cons_zero, List.countP_cons, hx]
          omega
      | succ i =>
          have hrest := ih (i := i) (by simpa using ha)
          simp only [List.set_cons_succ, List.countP_cons]
          omega

omit [DecidableEq Email] in
theorem unreleased_set {s s' : LoginLimiter Ip Email} {attempt : Nat}
    {made done : Attempt Ip Email} (hmade : s.attempts[attempt]? = some made)
    (hattempts : s'.attempts = s.attempts.set attempt done) (ip : Ip) (lifetime : Nat) :
    s'.unreleased ip lifetime + (if made.Takes ip lifetime then 1 else 0)
      = s.unreleased ip lifetime + if done.Takes ip lifetime then 1 else 0 := by
  have hcount := countP_set_add (fun made : Attempt Ip Email => decide (made.Takes ip lifetime))
    hmade done
  simpa [LoginLimiter.unreleased, hattempts] using hcount

/-! ## The run -/

/-- What the counters say of the attempts: a living counter covers the unreleased attempts
of its lifetime, which started no later than the last. -/
structure Counted (settings : Settings) (s : LoginLimiter Ip Email) : Prop where
  limited : ∀ ip lifetime, s.unreleased ip lifetime ≤ settings.loginRateLimitIpMaxFailures
  covered : ∀ ip, (s.redis.entries (.ip ip)).isSome = true →
    (s.unreleased ip (s.lifetimes ip) : Int) ≤ s.redis.get (.ip ip)
  started : ∀ made ∈ s.attempts, made.lifetime ≤ s.lifetimes made.ip

omit [DecidableEq Email] in
theorem Counted.unreleased_later {s : LoginLimiter Ip Email} (h : Counted settings s) {ip : Ip}
    {lifetime : Nat} (hlater : s.lifetimes ip < lifetime) : s.unreleased ip lifetime = 0 := by
  refine List.countP_eq_zero.mpr fun made hmade htakes => ?_
  have hstarted := h.started made hmade
  have htaken := of_decide_eq_true htakes
  rw [htaken.1] at hstarted
  have hlifetime := htaken.2.1
  omega

omit [DecidableEq Email] in
/-- A change of redis that no address's counter sees. -/
theorem Counted.same {s s' : LoginLimiter Ip Email} (h : Counted settings s)
    (hattempts : ∀ ip lifetime, s'.unreleased ip lifetime = s.unreleased ip lifetime)
    (hstarted : ∀ made ∈ s'.attempts, made.lifetime ≤ s.lifetimes made.ip)
    (hlifetimes : s'.lifetimes = s.lifetimes)
    (hsame : ∀ ip, SameCounter s.redis s'.redis (.ip ip)) : Counted settings s' := by
  refine ⟨?_, ?_, ?_⟩
  · intro ip lifetime
    rw [hattempts]
    exact h.limited ip lifetime
  · intro ip hsome
    rw [hattempts, hlifetimes, (hsame ip).1]
    exact h.covered ip ((hsame ip).2 ▸ hsome)
  · rw [hlifetimes]
    exact hstarted

omit [DecidableEq Email] in
/-- One more attempt on a counter that has room for it. -/
theorem Counted.add {s s' : LoginLimiter Ip Email} {made : Attempt Ip Email}
    (h : Counted settings s) (hattempts : s'.attempts = s.attempts ++ [made])
    (hlifetime : made.lifetime = s'.lifetimes made.ip)
    (hroom : s.redis.get (.ip made.ip) < settings.loginRateLimitIpMaxFailures)
    (hcount : s'.redis.get (.ip made.ip) = s.redis.get (.ip made.ip) + 1)
    (hnew : s'.lifetimes made.ip = if (s.redis.entries (.ip made.ip)).isNone then
      s.lifetimes made.ip + 1 else s.lifetimes made.ip)
    (hothers : ∀ other, other ≠ made.ip → SameCounter s.redis s'.redis (.ip other)
      ∧ s'.lifetimes other = s.lifetimes other) : Counted settings s' := by
  -- in the lifetime the attempt joins, the counter covers the attempts before it
  have hbefore : (s.unreleased made.ip (s'.lifetimes made.ip) : Int)
      ≤ s.redis.get (.ip made.ip) := by
    cases hentry : s.redis.entries (.ip made.ip) with
    | none =>
        have hlater : s.lifetimes made.ip < s'.lifetimes made.ip := by simp [hnew, hentry]
        rw [h.unreleased_later hlater, get_of_none hentry]
        exact le_refl _
    | some entry =>
        have hsame : s'.lifetimes made.ip = s.lifetimes made.ip := by simp [hnew, hentry]
        rw [hsame]
        exact h.covered _ (by simp [hentry])
  have hmono : ∀ ip, s.lifetimes ip ≤ s'.lifetimes ip := by
    intro ip
    by_cases hip : ip = made.ip
    · subst hip
      rw [hnew]
      split_ifs <;> omega
    · exact Nat.le_of_eq (hothers ip hip).2.symm
  refine ⟨?_, ?_, ?_⟩
  · intro ip lifetime
    rw [unreleased_append hattempts]
    by_cases htakes : made.Takes ip lifetime
    · have hjoined : (ip, lifetime) = (made.ip, s'.lifetimes made.ip) :=
        Prod.ext htakes.1.symm (htakes.2.1.symm.trans hlifetime)
      cases hjoined
      rw [if_pos htakes]
      omega
    · rw [if_neg htakes]
      exact h.limited ip lifetime
  · intro ip hsome
    rw [unreleased_append hattempts]
    by_cases hip : ip = made.ip
    · subst hip
      rw [hcount]
      split_ifs <;> push_cast <;> omega
    · have hnot : ¬ made.Takes ip (s'.lifetimes ip) := fun htakes => hip htakes.1.symm
      rw [if_neg hnot, (hothers ip hip).2, (hothers ip hip).1.1]
      exact h.covered ip ((hothers ip hip).1.2 ▸ hsome)
  · intro other hother
    rw [hattempts] at hother
    rcases List.mem_append.mp hother with hold | hnew'
    · exact Nat.le_trans (h.started other hold) (hmono _)
    · exact Nat.le_of_eq (by rw [List.mem_singleton.mp hnew', hlifetime])

theorem Counted.reserve {s s' : LoginLimiter Ip Email} (h : Counted settings s) {ip : Ip}
    {email : Email} {delivered : Bool}
    (hstep : step settings normalizeEmail s (.reserve ip email delivered) = .ok s') :
    Counted settings s' := by
  set r' := (reserved settings normalizeEmail s.redis ip email).1 with hr'
  set lifetimes' := if (s.redis.entries (.ip ip)).isNone ∧ (r'.entries (.ip ip)).isSome then
      Function.update s.lifetimes ip (s.lifetimes ip + 1) else s.lifetimes with hlifetimes'
  set decision := if delivered then
      decisionOf (reserved settings normalizeEmail s.redis ip email).2
    else storageUnavailable with hdecision
  have hs' : s' = { redis := r', lifetimes := lifetimes', attempts := s.attempts ++
      [{ ip := ip, email := email, lifetime := lifetimes' ip, decision := decision }] } :=
    (Except.ok.inj hstep).symm
  have helsewhere : ∀ other, other ≠ ip → lifetimes' other = s.lifetimes other := by
    intro other hother
    rw [hlifetimes']
    split_ifs
    · exact Function.update_of_ne hother _ _
    · rfl
  rcases reserved_cases settings normalizeEmail s.redis ip email with
    ⟨hrefused, hsame⟩ | ⟨hroom, hcount, hsome, hothers⟩
  · -- a refused attempt makes no counter
    have hold : lifetimes' = s.lifetimes := by
      rw [hlifetimes', if_neg]
      rintro ⟨hnone, hmade⟩
      rw [hr', (hsame ip).2] at hmade
      simp [Option.isNone_iff_eq_none.mp hnone] at hmade
    -- an undelivered reply is refused as well
    have hnot : decision.allowed = false := by
      rw [hdecision]
      cases delivered
      · rfl
      · exact hrefused
    rw [hs']
    refine h.same ?_ ?_ hold hsame
    · intro other lifetime
      rw [unreleased_append rfl, if_neg (Attempt.not_takes_of_refused hnot)]
      rfl
    · intro made hmade
      rcases List.mem_append.mp hmade with hmade | hmade
      · exact h.started made hmade
      · exact Nat.le_of_eq (by rw [List.mem_singleton.mp hmade, hold])
  · rw [hs']
    refine h.add rfl rfl hroom hcount ?_ fun other hother => ⟨hothers other hother,
      helsewhere other hother⟩
    show lifetimes' ip = _
    rw [hlifetimes']
    by_cases hnone : (s.redis.entries (.ip ip)).isNone = true
    · rw [if_pos ⟨hnone, hsome⟩, if_pos hnone, Function.update_self]
    · rw [if_neg fun hboth => hnone hboth.1, if_neg hnone]

omit [DecidableEq Ip] [DecidableEq Email] in
@[simp]
theorem demandPending_eq_ok {s : LoginLimiter Ip Email} {attempt : Nat}
    {made : Attempt Ip Email} : demandPending s attempt = .ok made ↔
      s.attempts[attempt]? = some made ∧ made.decision.allowed = true
        ∧ made.outcome = .pending := by
  simp only [demandPending, bind_eq_ok, demand_eq_ok, require_eq_ok]
  constructor
  · rintro ⟨found, hfound, _, hpending, hmade⟩
    cases Except.ok.inj hmade
    exact ⟨hfound, hpending⟩
  · rintro ⟨hfound, hpending⟩
    exact ⟨made, hfound, ⟨⟩, hpending, rfl⟩

omit [DecidableEq Email] in
/-- What an attempt comes to changes neither when it started nor what it was told. -/
theorem Counted.started_set {s : LoginLimiter Ip Email} (h : Counted settings s) {attempt : Nat}
    {made done : Attempt Ip Email} (hmade : s.attempts[attempt]? = some made)
    (hip : done.ip = made.ip) (hlifetime : done.lifetime = made.lifetime) :
    ∀ other ∈ s.attempts.set attempt done, other.lifetime ≤ s.lifetimes other.ip := by
  intro other hother
  rcases List.mem_or_eq_of_mem_set hother with hold | rfl
  · exact h.started other hold
  · rw [hip, hlifetime]
    exact h.started made (List.mem_of_getElem? hmade)

theorem Counted.recordFailure {s s' : LoginLimiter Ip Email} (h : Counted settings s)
    {attempt : Nat}
    (hstep : step settings normalizeEmail s (.recordFailure attempt) = .ok s') :
    Counted settings s' := by
  simp only [step, bind_eq_ok, demandPending_eq_ok] at hstep
  rcases hstep with ⟨made, ⟨hmade, hallowed, hpending⟩, hs'⟩
  have hattempts : s'.attempts = s.attempts.set attempt { made with outcome := .failed } := by
    cases Except.ok.inj hs'; rfl
  have hcount : ∀ ip lifetime, s'.unreleased ip lifetime = s.unreleased ip lifetime := by
    intro ip lifetime
    have hsame : Attempt.Takes { made with outcome := .failed } ip lifetime
        ↔ made.Takes ip lifetime := by simp [Attempt.Takes, hpending]
    have hset := unreleased_set hmade hattempts ip lifetime
    simp only [hsame] at hset
    exact Nat.add_right_cancel hset
  cases Except.ok.inj hs'
  exact h.same hcount (h.started_set hmade rfl rfl) rfl (sameCounter_recordLoginFailure s.redis)

theorem Counted.releaseSuccess {s s' : LoginLimiter Ip Email} (h : Counted settings s)
    {attempt : Nat} (hown : ReleasesOwn s (.releaseSuccess attempt))
    (hstep : step settings normalizeEmail s (.releaseSuccess attempt) = .ok s') :
    Counted settings s' := by
  simp only [step, bind_eq_ok, demandPending_eq_ok] at hstep
  rcases hstep with ⟨made, ⟨hmade, hallowed, hpending⟩, hs'⟩
  have hredis : s'.redis = releaseLoginSuccess s.redis (.ip made.ip)
      (.acct (normalizeEmail made.email)) := by cases Except.ok.inj hs'; rfl
  have hlifetimes : s'.lifetimes = s.lifetimes := by cases Except.ok.inj hs'; rfl
  have hattempts : s'.attempts = s.attempts.set attempt { made with outcome := .released } := by
    cases Except.ok.inj hs'; rfl
  have hcount : ∀ ip lifetime, s'.unreleased ip lifetime
      + (if made.Takes ip lifetime then 1 else 0) = s.unreleased ip lifetime := by
    intro ip lifetime
    have hdone : ¬ Attempt.Takes { made with outcome := .released } ip lifetime := fun htakes =>
      htakes.2.2.2 rfl
    have hset := unreleased_set hmade hattempts ip lifetime
    rwa [if_neg hdone] at hset
  have hget := releaseLoginSuccess_get s.redis made.ip (normalizeEmail made.email)
  refine ⟨?_, ?_, ?_⟩
  · intro ip lifetime
    have hle := h.limited ip lifetime
    have hless := hcount ip lifetime
    omega
  · intro ip hsome
    rw [hredis, (hget ip).2] at hsome
    have hcovered := h.covered ip hsome
    have hless := hcount ip (s.lifetimes ip)
    rw [hlifetimes, hredis, (hget ip).1]
    by_cases htaken : ip = made.ip ∧ 0 < s.redis.get (.ip made.ip)
    · -- the counter loses what the attempt had taken from this very lifetime
      have htakes : made.Takes ip (s.lifetimes ip) := by
        refine ⟨htaken.1.symm, ?_, hallowed, by simp [hpending]⟩
        rw [htaken.1]
        exact hown attempt made rfl hmade htaken.2
      rw [if_pos htaken]
      rw [if_pos htakes] at hless
      omega
    · rw [if_neg htaken]
      omega
  · rw [hattempts, hlifetimes]
    exact h.started_set hmade rfl rfl

theorem Counted.expire {s s' : LoginLimiter Ip Email} (h : Counted settings s)
    {key : Key Ip Email} (hstep : step settings normalizeEmail s (.expire key) = .ok s') :
    Counted settings s' := by
  simp only [step, bind_eq_ok, require_eq_ok] at hstep
  rcases hstep with ⟨_, -, hs'⟩
  cases Except.ok.inj hs'
  refine ⟨h.limited, ?_, h.started⟩
  intro ip hsome
  by_cases hkey : Key.ip ip = key
  · simp [Store.del, hkey] at hsome
  · have hsame : (s.redis.del key).entries (.ip ip) = s.redis.entries (.ip ip) :=
      put_entries_of_ne _ _ hkey
    show _ ≤ (s.redis.del key).get (.ip ip)
    rw [get_congr hsame]
    exact h.covered ip (hsame ▸ hsome)

/-- Every step keeps the counters covering, where a release meets its own counter. -/
theorem Counted.step {s s' : LoginLimiter Ip Email} {a : Action Ip Email}
    (h : Counted settings s) (hown : ReleasesOwn s a)
    (hstep : step settings normalizeEmail s a = .ok s') : Counted settings s' := by
  cases a with
  | reserve ip email delivered => exact h.reserve hstep
  | recordFailure attempt => exact h.recordFailure hstep
  | releaseSuccess attempt => exact h.releaseSuccess hown hstep
  | wait elapsed =>
      cases Except.ok.inj hstep
      exact h.same (fun _ _ => rfl) h.started rfl fun _ => .of_entries rfl
  | expire key => exact h.expire hstep

omit [DecidableEq Email] in
theorem counted_init : Counted settings ({} : LoginLimiter Ip Email) := by
  refine ⟨fun _ _ => Nat.zero_le _, ?_, ?_⟩
  · intro ip hsome
    cases hsome
  · intro made hmade
    cases hmade

/-- No step leaves a counter below zero or a key without a deadline. -/
theorem kept_step {s s' : LoginLimiter Ip Email} {a : Action Ip Email} (h : s.redis.Kept)
    (hstep : step settings normalizeEmail s a = .ok s') : s'.redis.Kept := by
  cases a with
  | reserve ip email delivered =>
      cases Except.ok.inj hstep
      exact kept_reserved settings normalizeEmail ip email h
  | recordFailure attempt =>
      simp only [Auth.step, bind_eq_ok] at hstep
      rcases hstep with ⟨made, -, hs'⟩
      cases Except.ok.inj hs'
      exact kept_recordLoginFailure h settings.globalWindow_pos
  | releaseSuccess attempt =>
      simp only [Auth.step, bind_eq_ok] at hstep
      rcases hstep with ⟨made, -, hs'⟩
      cases Except.ok.inj hs'
      exact kept_releaseLoginSuccess h _ _
  | wait elapsed =>
      cases Except.ok.inj hstep
      exact h
  | expire key =>
      simp only [Auth.step, bind_eq_ok] at hstep
      rcases hstep with ⟨_, -, hs'⟩
      cases Except.ok.inj hs'
      exact h.del key

theorem kept_reachable {s : LoginLimiter Ip Email}
    (hs : Reachable (logins settings normalizeEmail) s) : s.redis.Kept :=
  hs.invariant (fun s => s.redis.Kept) (fun _ _ he => nomatch he)
    fun _ _ _ h _ hstep => kept_step h hstep

/-- At most the limit of an address's attempts stays unreleased in one lifetime of its
counter, on runs whose releases meet their own counters; on every run no counter is below
zero and every key has a deadline. -/
theorem failed_logins_bounded (settings : Settings) (normalizeEmail : Email → Email) :
    (∀ s : LoginLimiter Ip Email, ReachableBy (logins settings normalizeEmail) ReleasesOwn s →
      ∀ ip lifetime, s.unreleased ip lifetime ≤ settings.loginRateLimitIpMaxFailures)
    ∧ ∀ s : LoginLimiter Ip Email, Reachable (logins settings normalizeEmail) s →
      s.redis.Kept := by
  refine ⟨fun s hs => ?_, fun s hs => kept_reachable hs⟩
  have hcounted : Counted settings s :=
    hs.invariant (Counted settings) counted_init fun _ _ _ h hown hstep => h.step hown hstep
  exact hcounted.limited

/-! ## One address under the production limits -/

/-- So many sign-ins from address 0, each for an account of its own. -/
def burst (attempts : Nat) : List (Action Nat Nat) :=
  (List.range attempts).map fun account => .reserve 0 (account + 1) true

/-- `ReleasesOwn`, checked without looking at the counter. -/
def releasesOwn? (s : LoginLimiter Nat Nat) : Action Nat Nat → Bool
  | .releaseSuccess attempt =>
      s.attempts[attempt]?.all fun made => made.lifetime = s.lifetimes made.ip
  | _ => true

theorem releasesOwn_of_check (s : LoginLimiter Nat Nat) (a : Action Nat Nat)
    (h : releasesOwn? s a = true) : ReleasesOwn s a := by
  rintro attempt made rfl hmade -
  simpa [releasesOwn?, hmade] using h

/-- A success is released at once, and the address still gets no more than its limit. -/
theorem failed_logins_bounded_production :
    ∃ s : LoginLimiter Nat Nat, s.unreleased 0 1 = 150 ∧ s.attempts.length = 153
      ∧ ∀ ip lifetime, s.unreleased ip lifetime ≤ 150 := by
  rcases (logins {} id : Machine (LoginLimiter Nat Nat) _ _).exists_reachableBy ReleasesOwn
    ([.reserve 0 0 true, .releaseSuccess 0] ++ burst 152)
    (fun a _ s h => releasesOwn_of_check s a h)
    (fun s => s.unreleased 0 1 = 150 ∧ s.attempts.length = 153)
    (by decide +kernel) with ⟨s, hs, htest⟩
  have htest := of_decide_eq_true htest
  exact ⟨s, htest.1, htest.2, (failed_logins_bounded {} id).1 s hs⟩

/-- The success of a lifetime that expired is released after the limit was used up in the
next, and lets one attempt too many through. -/
theorem stale_release_lets_one_more :
    ¬ ∀ s : LoginLimiter Nat Nat, Reachable (logins {} id) s →
      ∀ ip lifetime, s.unreleased ip lifetime ≤ 150 := by
  intro hall
  rcases (logins {} id : Machine (LoginLimiter Nat Nat) _ _).exists_reachable
    ([.reserve 0 0 true, .wait 300000, .expire (.ip 0)] ++ burst 150
      ++ [.releaseSuccess 0, .reserve 0 151 true])
    (fun s => s.unreleased 0 2 = 151) (by decide +kernel) with ⟨s, hs, htest⟩
  have hcount : s.unreleased 0 2 = 151 := of_decide_eq_true htest
  have hle := hall s hs 0 2
  omega

end Auth
end Mobility
