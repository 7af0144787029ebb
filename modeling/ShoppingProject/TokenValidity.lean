import Mathlib.Logic.Function.Basic
import ShoppingProject.Privileges
import ShoppingProject.TokenRotation

/-!
# How long refresh tokens are good for

A login or a refresh stores the hash of a new refresh token and a time of expiry
beside it. A refresh compares the hash only. The time is written and never read,
and a password reset leaves the hash where it is.
-/
namespace TokenValidity

open DomainEvents (DateTime ticksPerMinute)
open Requests Identity
open Runs

/-- The hash and the expiry that the row of a user holds. -/
def held (s : Store) (id : String) : Option (String × Option DateTime) :=
  (s.findByIdAsync id).bind fun user =>
    user.refreshToken.map fun hash => (hash, user.refreshTokenExpiryTime)

theorem held_of_find {s : Store} {id hash : String} {user : ApplicationUser}
    (hfind : s.findByIdAsync id = some user) (hhash : user.refreshToken = some hash) :
    held s id = some (hash, user.refreshTokenExpiryTime) := by
  simp [held, hfind, hhash]

theorem held_setUser {s : Store} {user old : ApplicationUser}
    (h : s.findByIdAsync user.id = some old) :
    held (s.setUser user) = Function.update (held s) user.id
      (user.refreshToken.map fun hash => (hash, user.refreshTokenExpiryTime)) := by
  funext id
  by_cases hid : id = user.id
  · subst id
    simp [held, Store.findByIdAsync_setUser, h]
  · rw [Function.update_of_ne hid]
    simp [held, Store.findByIdAsync_setUser, Ne.symm hid]

/-- A new row without a refresh token. -/
theorem held_addUser {s : Store} {user : ApplicationUser} (fresh : user.id ∉ s.ids)
    (hnone : user.refreshToken = none) : held (s.addUser user fresh) = held s := by
  funext id
  simp only [held, Store.findByIdAsync, Store.addUser, List.find?_append]
  cases hfind : s.users.find? fun u => u.id == id with
  | some found => rfl
  | none =>
    by_cases hid : user.id = id <;> simp [hid, hnone]

/-- An update that does not touch the token. -/
theorem updateUser_held {fw : Framework} {env : Env} {s t : Store} {user old : ApplicationUser}
    {r : IdentityResult} (h : updateUser fw env s user = (r, t))
    (hfind : s.findByIdAsync user.id = some old) (htoken : user.refreshToken = old.refreshToken)
    (hexpiry : user.refreshTokenExpiryTime = old.refreshTokenExpiryTime) : held t = held s := by
  have hsame : held (s.setUser user) = held s := by
    have hold : held s user.id =
        user.refreshToken.map fun hash => (hash, user.refreshTokenExpiryTime) := by
      simp [held, hfind, htoken, hexpiry]
    rw [held_setUser hfind, ← hold, Function.update_eq_self]
  unfold updateUser at h
  split at h
  · split at h <;> obtain ⟨-, rfl⟩ := Prod.mk.inj h
    · exact hsame
    · rfl
    · rfl
  · obtain ⟨-, rfl⟩ := Prod.mk.inj h
    rfl

theorem createAsync_held {fw : Framework} {env : Env} {s : Store} {user : ApplicationUser}
    (password : String) (hnone : user.refreshToken = none) :
    held (createAsync fw env s user password).2 = held s := by
  unfold createAsync
  split
  · split
    · split
      · cases env.create with
        | saved => exact @held_addUser s (withPassword fw env user password) ‹_› hnone
        | conflict => rfl
        | failed => rfl
      · rfl
    · rfl
  · rfl

theorem addToRoleAsync_held (fw : Framework) (env : Env) (s : Store) (user : ApplicationUser)
    (role : String) : held (addToRoleAsync fw env s user role).2 = held s := by
  unfold addToRoleAsync
  split
  · rfl
  · split
    · rfl
    · split
      · split
        · split <;> rfl
        · rfl
        · rfl
      · rfl

theorem registerAsync_held (fw : Framework) (env : Env) (c : RegisterCommand) (s : Store) :
    held (registerAsync fw env c s).2 = held s := by
  have hcreate : held (createAsync fw env s (newUser env c) c.password).2 = held s :=
    createAsync_held _ rfl
  unfold registerAsync
  simp only
  split
  · rename_i heq
    rwa [heq] at hcreate
  · rename_i heq
    rwa [heq] at hcreate
  · rename_i t heq
    rw [heq] at hcreate
    have hadd :=
      addToRoleAsync_held fw env t (withPassword fw env (newUser env c) c.password) c.role
    split
    · rename_i heq'
      rw [heq'] at hadd
      exact hadd.trans hcreate
    · rename_i heq'
      rw [heq'] at hadd
      exact hadd.trans hcreate

theorem assignUserToRoleAsync_held (fw : Framework) (env : Env) (c : AssignAdminRoleCommand)
    (s : Store) : held (assignUserToRoleAsync fw env c s).2 = held s := by
  unfold assignUserToRoleAsync
  split
  · rfl
  · rename_i user hfind
    have hadd := addToRoleAsync_held fw env s user c.roleName
    split <;> rename_i heq <;> rwa [heq] at hadd

theorem createRoleAsync_held (fw : Framework) (env : Env) (c : CreateRoleCommand) (s : Store) :
    held (createRoleAsync fw env c s).2 = held s := by
  unfold createRoleAsync
  split
  · rfl
  · cases env.create <;> rfl

theorem getCurrentUserInfo_held (caller : Caller) (s : Store) :
    held (getCurrentUserInfo caller s).2 = held s := by
  unfold getCurrentUserInfo
  simp only
  split
  · rfl
  · unfold getUserInfoAsync
    split <;> rfl

theorem updateMe_held (fw : Framework) (env : Env) (caller : Caller) (c : UpdateMeCommand)
    (s : Store) : held (updateMe fw env caller c s).2 = held s := by
  unfold updateMe
  simp only
  split
  · rfl
  · unfold updateUserAsync
    split
    · rfl
    · split
      · rfl
      · rename_i user hfind
        have hknown : s.findByIdAsync user.id = some user :=
          Store.findByIdAsync_of_mem (List.mem_of_find?_eq_some hfind)
        simp only
        split <;> rename_i heq <;> exact updateUser_held heq hknown rfl rfl

theorem sendPasswordResetLinkAsync_held (fw : Framework) (env : Env) (c : ForgotPasswordCommand)
    (s : Store) : held (sendPasswordResetLinkAsync fw env c s).2 = held s := by
  unfold sendPasswordResetLinkAsync
  split
  · rfl
  · rfl
  · split <;> rfl

theorem resetPasswordAsync_held (fw : Framework) (env : Env) (c : ResetPasswordCommand)
    (s : Store) : held (resetPasswordAsync fw env c s).2 = held s := by
  unfold resetPasswordAsync
  split
  · rfl
  · rfl
  · rename_i user hfind
    have hknown : s.findByIdAsync user.id = some user :=
      Store.findByIdAsync_of_mem (Store.mem_of_findByEmailAsync hfind)
    split
    · split
      · rfl
      · split <;> rename_i heq <;> exact updateUser_held heq hknown rfl rfl
    · rfl

variable (fw : Framework) (jwt : JwtOptions)

/-- The expiry that `withRefreshToken` writes. -/
def expiresAt (env : Env) : DateTime :=
  env.now + jwt.refreshTokenExpiryDays * (24 * 60 * ticksPerMinute)

def newHeld (env : Env) : String × Option DateTime :=
  (fw.hashRefreshToken env.newRefreshToken, some (expiresAt jwt env))

def succeeds (s : Store) (l : Label) : Bool :=
  match (serve fw jwt l.env l.caller l.request s).1 with
  | .ok (.success _) => true
  | _ => false

/-- The user to whom a request hands out a refresh token. -/
def issuedTo (s : Store) (l : Label) : Option String :=
  if succeeds fw jwt s l then match l.request with
    | .login c => (s.findByEmailAsync fw c.email).join.map ApplicationUser.id
    | .refreshToken c => (fw.readToken c.accessToken).join
    | _ => none
  else none

/-- The user whose password a request resets. -/
def resetOf (s : Store) (l : Label) : Option String :=
  if succeeds fw jwt s l then match l.request with
    | .resetPassword c => (s.findByEmailAsync fw c.email).join.map ApplicationUser.id
    | _ => none
  else none

variable {fw jwt}

/-- The stored token changes only together with a successful answer. -/
theorem issueTokens_held {env : Env} {s : Store} {user updated : ApplicationUser}
    (hfind : s.findByIdAsync user.id = some user) (hsame : updated.id = user.id)
    (hhash : updated.refreshToken = some (fw.hashRefreshToken env.newRefreshToken))
    (hexpiry : updated.refreshTokenExpiryTime = some (expiresAt jwt env)) :
    held (issueTokens fw jwt env s user updated).2 = held s ∨
      (∃ a, (issueTokens fw jwt env s user updated).1 = .ok (.success a)) ∧
        held (issueTokens fw jwt env s user updated).2 = Function.update (held s) user.id
          (some (newHeld fw jwt env)) := by
  have hset : held (s.setUser updated) = Function.update (held s) user.id
      (some (newHeld fw jwt env)) := by
    rw [← hsame] at hfind ⊢
    rw [held_setUser hfind, hhash, hexpiry]
    rfl
  unfold issueTokens updateUser
  cases fw.userErrors s.users updated with
  | cons error errors => exact .inl rfl
  | nil =>
    cases env.update with
    | saved => exact .inr ⟨⟨_, rfl⟩, hset⟩
    | conflict => exact .inl rfl
    | failed => exact .inl rfl

theorem loginAsync_held (env : Env) (c : LoginCommand) (s : Store) :
    held (loginAsync fw jwt env c s).2 = held s ∨
      ∃ user, s.findByEmailAsync fw c.email = some (some user) ∧
        (∃ a, (loginAsync fw jwt env c s).1 = .ok (.success a)) ∧
        held (loginAsync fw jwt env c s).2 = Function.update (held s) user.id
          (some (newHeld fw jwt env)) := by
  unfold loginAsync
  cases hfind : s.findByEmailAsync fw c.email with
  | none => exact .inl rfl
  | some found => cases found with
    | none => exact .inl rfl
    | some user =>
      simp only
      split
      · have hknown := Store.findByIdAsync_of_mem (Store.mem_of_findByEmailAsync hfind)
        rcases @issueTokens_held fw jwt env s user
          { withRefreshToken fw jwt env user with updateAt := env.now } hknown rfl rfl rfl with
          h | ⟨ha, h⟩
        · exact .inl h
        · exact .inr ⟨user, rfl, ha, h⟩
      · exact .inl rfl

theorem refreshTokenAsync_held (env : Env) (c : RefreshTokenCommand) (s : Store) :
    held (refreshTokenAsync fw jwt env c s).2 = held s ∨
      ∃ id, fw.readToken c.accessToken = some (some id) ∧
        (∃ a, (refreshTokenAsync fw jwt env c s).1 = .ok (.success a)) ∧
        held (refreshTokenAsync fw jwt env c s).2 = Function.update (held s) id
          (some (newHeld fw jwt env)) := by
  unfold refreshTokenAsync
  cases hread : fw.readToken c.accessToken with
  | none => exact .inl rfl
  | some claim => cases claim with
    | none => exact .inl rfl
    | some id =>
      simp only
      cases hfind : s.findByIdAsync id with
      | none => exact .inl rfl
      | some user =>
        simp only
        split
        · have hid : user.id = id := by simpa using List.find?_some hfind
          have hknown : s.findByIdAsync user.id = some user := by rwa [hid]
          rcases @issueTokens_held fw jwt env s user (withRefreshToken fw jwt env user) hknown
            rfl rfl rfl with h | ⟨ha, h⟩
          · exact .inl h
          · rw [hid] at h
            exact .inr ⟨id, rfl, ha, h⟩
        · exact .inl rfl

theorem send_held {γ : Type} {pipeline : Pipeline γ} {caller : Caller} (request : γ)
    {handle : Store → Response} {s : Store} (h : held (handle s).2 = held s) :
    held (send pipeline s.authorizeAsync caller request handle s).2 = held s :=
  send_keeps (fun t : Store => held t = held s) rfl fun _ => h

/-- All that a request can do to the stored tokens. -/
theorem serve_held (s : Store) (l : Label) :
    held (serve fw jwt l.env l.caller l.request s).2 = held s ∨
      ∃ id, issuedTo fw jwt s l = some id ∧
        held (serve fw jwt l.env l.caller l.request s).2 = Function.update (held s) id
          (some (newHeld fw jwt l.env)) := by
  obtain ⟨caller, request, env⟩ := l
  cases request with
  | login c =>
    by_cases hadmits : Admits loginPipeline s.authorizeAsync caller c
    · have hserve : serve fw jwt env caller (.login c) s = loginAsync fw jwt env c s :=
        send_admitted hadmits _ s
      simp only [issuedTo, succeeds, hserve]
      rcases @loginAsync_held fw jwt env c s with h | ⟨user, hfind, ⟨a, ha⟩, h⟩
      · exact .inl h
      · exact .inr ⟨user.id, by simp [ha, hfind], h⟩
    · exact .inl (congrArg held (send_refused hadmits _ s).1)
  | refreshToken c =>
    by_cases hadmits : Admits refreshTokenPipeline s.authorizeAsync caller c
    · have hserve : serve fw jwt env caller (.refreshToken c) s =
          refreshTokenAsync fw jwt env c s :=
        send_admitted hadmits _ s
      simp only [issuedTo, succeeds, hserve]
      rcases @refreshTokenAsync_held fw jwt env c s with h | ⟨id, hread, ⟨a, ha⟩, h⟩
      · exact .inl h
      · exact .inr ⟨id, by simp [ha, hread], h⟩
    · exact .inl (congrArg held (send_refused hadmits _ s).1)
  | register c => exact .inl (send_held _ (registerAsync_held ..))
  | assignAdminRole userId => exact .inl (send_held _ (assignUserToRoleAsync_held ..))
  | createRole roleName => exact .inl (send_held _ (createRoleAsync_held ..))
  | getCurrentUserInfo => exact .inl (send_held () (getCurrentUserInfo_held ..))
  | updateMe c => exact .inl (send_held _ (updateMe_held ..))
  | forgotPassword c => exact .inl (send_held _ (sendPasswordResetLinkAsync_held ..))
  | resetPassword c => exact .inl (send_held _ (resetPasswordAsync_held ..))

/-- A refresh token that was handed out, by its hash. -/
structure Issued where
  userId : String
  hash : String
  expires : Option DateTime

/-- The user store with what has happened to it: the tokens issued, those that a
password reset of their user was to revoke, and the users whose token was stored
before their last reset. -/
structure History where
  store : Store
  issued : List Issued
  revoked : List Issued
  stale : List String

def start (store : Store) : History where
  store := store
  issued := store.users.filterMap fun user =>
    user.refreshToken.map fun hash => ⟨user.id, hash, user.refreshTokenExpiryTime⟩
  revoked := []
  stale := []

variable (fw jwt)

def step (s : History) (l : Label) : Option History :=
  let store := (serve fw jwt l.env l.caller l.request s.store).2
  match issuedTo fw jwt s.store l, resetOf fw jwt s.store l with
  | some id, _ => some
    { store := store
      issued := ⟨id, fw.hashRefreshToken l.env.newRefreshToken, some (expiresAt jwt l.env)⟩ ::
        s.issued
      revoked := s.revoked
      stale := if held store id = some (newHeld fw jwt l.env) then s.stale.filter (· ≠ id)
        else s.stale }
  | none, some id => some
    { store := store
      issued := s.issued
      revoked := s.issued.filter (·.userId = id) ++ s.revoked
      stale := id :: s.stale }
  | none, none => some { s with store := store }

def Unexpired (now : DateTime) : Option DateTime → Prop
  | none => False
  | some expires => now < expires

instance (now : DateTime) : DecidablePred (Unexpired now)
  | none => .isFalse id
  | some _ => inferInstanceAs (Decidable (_ < _))

/-- The token is the stored one of the named user, it is not expired, and it was not
issued before a reset of the password. -/
structure ValidFor (s : History) (now : DateTime) (c : RefreshTokenCommand)
    (user : ApplicationUser) : Prop where
  named : fw.readToken c.accessToken = some (some user.id)
  found : s.store.findByIdAsync user.id = some user
  stored : user.refreshToken = some (fw.hashRefreshToken c.refreshToken)
  unexpired : Unexpired now user.refreshTokenExpiryTime
  noneExpired : ∀ k ∈ s.issued, k.userId = user.id → k.hash = fw.hashRefreshToken c.refreshToken →
    Unexpired now k.expires
  noneRevoked : ∀ k ∈ s.revoked, k.userId = user.id → k.hash ≠ fw.hashRefreshToken c.refreshToken

def RefreshValid (v : History × Label × History) : Prop :=
  ∀ c, v.2.1.request = .refreshToken c → succeeds fw jwt v.1.store v.2.1 = true →
    ∃ user, ValidFor fw v.1 v.2.1.env.now c user

/-- The user whose stored hash a refresh request presents. -/
def matched (s : Store) (l : Label) : Option ApplicationUser :=
  match l.request with
  | .refreshToken c =>
    if Validation.validate refreshTokenPipeline.validators c = [] then
      ((fw.readToken c.accessToken).join.bind s.findByIdAsync).filter fun user =>
        user.refreshToken = some (fw.hashRefreshToken c.refreshToken)
    else none
  | _ => none

def Throws (s : Store) (env : Env) (user : ApplicationUser) : Prop :=
  fw.userErrors s.users (withRefreshToken fw jwt env user) = [] ∧ env.update = .failed

/-- Whoever presents a stored token does so before its expiry, and after no reset of
the password since it was stored. -/
def StillGood (s : History) (l : Label) : Prop :=
  ∀ user ∈ matched fw s.store l, ¬ Throws fw jwt s.store l.env user →
    Unexpired l.env.now user.refreshTokenExpiryTime ∧ user.id ∉ s.stale

/-- A generated refresh token hashes to something new. -/
def Fresh (s : History) (l : Label) : Prop :=
  ∀ k ∈ s.issued, k.hash ≠ fw.hashRefreshToken l.env.newRefreshToken

instance (s : History) : DecidablePred (Fresh fw s) :=
  fun _ => inferInstanceAs (Decidable (∀ _ ∈ _, _))

instance (s : Store) (env : Env) : DecidablePred (Throws fw jwt s env) :=
  fun _ => inferInstanceAs (Decidable (_ ∧ _))

instance (s : History) : DecidablePred (StillGood fw jwt s) :=
  fun l => inferInstanceAs (Decidable (∀ user ∈ matched fw s.store l, _ → _ ∧ _))

structure Recorded (s : History) : Prop where
  known : ∀ id hash expires, held s.store id = some (hash, expires) → ⟨id, hash, expires⟩ ∈ s.issued
  unique : ∀ k ∈ s.issued, ∀ k' ∈ s.issued, k.userId = k'.userId → k.hash = k'.hash → k = k'
  revoked : ∀ k ∈ s.revoked, k ∈ s.issued
  stale : ∀ id hash expires, held s.store id = some (hash, expires) →
    ((∃ k ∈ s.revoked, k.userId = id ∧ k.hash = hash) ↔ id ∈ s.stale)

variable {fw jwt}

theorem start_recorded (store : Store) : Recorded (start store) := by
  refine ⟨?_, ?_, by simp [start], by simp [start]⟩
  · intro id hash expires h
    obtain ⟨user, hfind, hheld⟩ := Option.bind_eq_some_iff.mp h
    obtain ⟨hash', hhash, heq⟩ := Option.map_eq_some_iff.mp hheld
    cases heq
    have hid : user.id = id := by simpa using List.find?_some hfind
    refine List.mem_filterMap.mpr ⟨user, List.mem_of_find?_eq_some hfind, ?_⟩
    simp [hhash, hid]
  · intro k hk k' hk' hid _
    obtain ⟨user, huser, hu⟩ := List.mem_filterMap.mp hk
    obtain ⟨user', huser', hu'⟩ := List.mem_filterMap.mp hk'
    obtain ⟨hash, hhash, rfl⟩ := Option.map_eq_some_iff.mp hu
    obtain ⟨hash', hhash', rfl⟩ := Option.map_eq_some_iff.mp hu'
    obtain rfl : user = user' := List.inj_on_of_nodup_map store.keyed huser huser' hid
    rw [hhash] at hhash'
    cases hhash'
    rfl

/-- A request that leaves the stored tokens alone and issues none. -/
theorem Recorded.same {s : History} (h : Recorded s) {store : Store}
    (hheld : held store = held s.store) : Recorded { s with store := store } := by
  refine ⟨?_, h.unique, h.revoked, ?_⟩ <;> rw [hheld]
  · exact h.known
  · exact h.stale

theorem Recorded.reset {s : History} (h : Recorded s) {store : Store}
    (hheld : held store = held s.store) (id : String) :
    Recorded ⟨store, s.issued, s.issued.filter (·.userId = id) ++ s.revoked, id :: s.stale⟩ := by
  refine ⟨?_, h.unique, ?_, ?_⟩
  · rw [hheld]
    exact h.known
  · intro k hk
    rcases List.mem_append.mp hk with hk | hk
    · exact (List.mem_filter.mp hk).1
    · exact h.revoked k hk
  · intro id' hash expires hid'
    rw [hheld] at hid'
    by_cases heq : id' = id
    · subst id'
      have hin : (⟨id, hash, expires⟩ : Issued) ∈ s.issued.filter (·.userId = id) := by
        simp [h.known _ _ _ hid']
      simp only [List.mem_cons, true_or, iff_true]
      exact ⟨_, List.mem_append_left _ hin, rfl, rfl⟩
    · have hstale := h.stale id' hash expires hid'
      simp only [List.mem_cons, heq, false_or]
      rw [← hstale]
      constructor
      · rintro ⟨k, hk, hkid, hkhash⟩
        rcases List.mem_append.mp hk with hk | hk
        · have : k.userId = id := by simpa using (List.mem_filter.mp hk).2
          exact absurd (hkid ▸ this) heq
        · exact ⟨k, hk, hkid, hkhash⟩
      · rintro ⟨k, hk, hkid, hkhash⟩
        exact ⟨k, List.mem_append_right _ hk, hkid, hkhash⟩

/-- A request that hands out a token, stored or not. -/
theorem Recorded.issue {s : History} {l : Label} (h : Recorded s) (hfresh : Fresh fw s l)
    {store : Store} {id : String} (hheld : held store = held s.store ∨
      held store = Function.update (held s.store) id (some (newHeld fw jwt l.env))) :
    Recorded ⟨store,
      ⟨id, fw.hashRefreshToken l.env.newRefreshToken, some (expiresAt jwt l.env)⟩ :: s.issued,
      s.revoked, if held store id = some (newHeld fw jwt l.env) then s.stale.filter (· ≠ id)
        else s.stale⟩ := by
  have hunknown : ∀ id expires,
      held s.store id ≠ some (fw.hashRefreshToken l.env.newRefreshToken, expires) :=
    fun id expires heq => hfresh _ (h.known id _ expires heq) rfl
  refine ⟨?_, ?_, fun k hk => List.mem_cons_of_mem _ (h.revoked k hk), ?_⟩
  · intro id' hash expires hid'
    rcases hheld with hsame | hnew
    · rw [hsame] at hid'
      exact List.mem_cons_of_mem _ (h.known _ _ _ hid')
    · rw [hnew] at hid'
      by_cases heq : id' = id
      · subst id'
        rw [Function.update_self] at hid'
        cases hid'
        exact List.mem_cons_self
      · rw [Function.update_of_ne heq] at hid'
        exact List.mem_cons_of_mem _ (h.known _ _ _ hid')
  · intro k hk k' hk' hid hhash
    rcases List.mem_cons.mp hk with rfl | hk
    · rcases List.mem_cons.mp hk' with rfl | hk'
      · rfl
      · exact absurd hhash.symm (hfresh k' hk')
    · rcases List.mem_cons.mp hk' with rfl | hk'
      · exact absurd hhash (hfresh k hk)
      · exact h.unique k hk k' hk' hid hhash
  · intro id' hash expires hid'
    rcases hheld with hsame | hnew
    · rw [if_neg]
      · rw [hsame] at hid'
        exact h.stale id' hash expires hid'
      · rw [hsame]
        exact hunknown id _
    · rw [if_pos (by rw [hnew, Function.update_self])]
      rw [hnew] at hid'
      by_cases heq : id' = id
      · subst id'
        rw [Function.update_self] at hid'
        cases hid'
        constructor
        · rintro ⟨k, hk, -, hhash⟩
          exact absurd hhash (hfresh k (h.revoked k hk))
        · intro hin
          simp at hin
      · rw [Function.update_of_ne heq] at hid'
        simp only [List.mem_filter, heq, ne_eq, not_false_eq_true, decide_true, and_true]
        exact h.stale id' hash expires hid'

theorem step_recorded {s t : History} {l : Label} (h : Recorded s) (hfresh : Fresh fw s l)
    (hstep : step fw jwt s l = some t) : Recorded t := by
  have hheld := @serve_held fw jwt s.store l
  simp only [step] at hstep
  split at hstep
  · rename_i id hissued
    cases hstep
    apply h.issue hfresh
    rcases hheld with hsame | ⟨id', hid', hnew⟩
    · exact .inl hsame
    · rw [hissued] at hid'
      cases hid'
      exact .inr hnew
  · rename_i id hnone hreset
    cases hstep
    apply h.reset
    rcases hheld with hsame | ⟨id', hid', -⟩
    · exact hsame
    · rw [hnone] at hid'
      cases hid'
  · rename_i hnone hreset
    cases hstep
    apply h.same
    rcases hheld with hsame | ⟨id', hid', -⟩
    · exact hsame
    · rw [hnone] at hid'
      cases hid'

theorem mem_matched {s : Store} {l : Label} {c : RefreshTokenCommand}
    (hl : l.request = .refreshToken c) {user : ApplicationUser} :
    user ∈ matched fw s l ↔ Validation.validate refreshTokenPipeline.validators c = [] ∧
      fw.readToken c.accessToken = some (some user.id) ∧ s.findByIdAsync user.id = some user ∧
      user.refreshToken = some (fw.hashRefreshToken c.refreshToken) := by
  simp only [matched, hl]
  split
  · rename_i hvalid
    simp only [hvalid, true_and, Option.mem_def, Option.filter_eq_some_iff, Option.bind_eq_some_iff,
      Option.join_eq_some_iff, decide_eq_true_eq, ← and_assoc]
    apply and_congr_left
    intro _
    constructor
    · rintro ⟨id, hread, hfind⟩
      have hid : user.id = id := by simpa using List.find?_some hfind
      exact ⟨hid ▸ hread, hid ▸ hfind⟩
    · rintro ⟨hread, hfind⟩
      exact ⟨user.id, hread, hfind⟩
  · rename_i hinvalid
    simp [hinvalid]

theorem issueTokens_success {env : Env} {s : Store} {user : ApplicationUser} :
    (∃ a, (issueTokens fw jwt env s user (withRefreshToken fw jwt env user)).1 =
      .ok (.success a)) ↔ ¬ Throws fw jwt s env user := by
  unfold issueTokens updateUser Throws
  cases fw.userErrors s.users (withRefreshToken fw jwt env user) with
  | cons error errors => simp
  | nil => cases env.update <;> simp

/-- When a refresh succeeds: it presents the hash that is stored, and the database does
not throw. Nothing else is asked. -/
theorem succeeds_refresh_iff {s : Store} {l : Label} {c : RefreshTokenCommand}
    (hl : l.request = .refreshToken c) :
    succeeds fw jwt s l = true ↔ ∃ user ∈ matched fw s l, ¬ Throws fw jwt s l.env user := by
  have hsucceeds : succeeds fw jwt s l = true ↔
      ∃ a, (serve fw jwt l.env l.caller l.request s).1 = .ok (.success a) := by
    unfold succeeds
    split
    · rename_i a heq
      simp [heq]
    · rename_i hnot
      simp only [Bool.false_eq_true, false_iff, not_exists]
      exact hnot
  rw [hsucceeds, hl]
  by_cases hadmits : Admits refreshTokenPipeline s.authorizeAsync l.caller c
  · rw [show serve fw jwt l.env l.caller (.refreshToken c) s = refreshTokenAsync fw jwt l.env c s
      from send_admitted hadmits _ s]
    constructor
    · rintro ⟨a, ha⟩
      unfold refreshTokenAsync at ha
      split at ha
      · cases ha
      · cases ha
      · rename_i id hread
        split at ha
        · cases ha
        · rename_i user hfind
          split at ha
          · rename_i hhash
            have hid : user.id = id := by simpa using List.find?_some hfind
            subst id
            exact ⟨user, (mem_matched hl).mpr ⟨hadmits.valid, hread, hfind, hhash⟩,
              issueTokens_success.mp ⟨a, ha⟩⟩
          · cases ha
    · rintro ⟨user, hmatched, hthrows⟩
      obtain ⟨-, hread, hfind, hhash⟩ := (mem_matched hl).mp hmatched
      simp only [refreshTokenAsync, hread, hfind, hhash, if_true]
      exact issueTokens_success.mpr hthrows
  · constructor
    · rintro ⟨a, ha⟩
      exact absurd ha ((send_refused hadmits _ s).2 _)
    · rintro ⟨user, hmatched, -⟩
      exact absurd ⟨rfl, ((mem_matched hl).mp hmatched).1, rfl⟩ hadmits

/-- A valid refresh is one for the user whose hash it presents. -/
theorem RefreshValid.matched {v : History × Label × History} (h : RefreshValid fw jwt v)
    {user : ApplicationUser} (hmatched : user ∈ matched fw v.1.store v.2.1)
    (hthrows : ¬ Throws fw jwt v.1.store v.2.1.env user) :
    ∃ c, ValidFor fw v.1 v.2.1.env.now c user := by
  cases hl : v.2.1.request with
  | refreshToken c =>
    obtain ⟨-, hread, hfind, -⟩ := (mem_matched hl).mp hmatched
    obtain ⟨user', huser'⟩ := h c hl ((succeeds_refresh_iff hl).mpr ⟨user, hmatched, hthrows⟩)
    have hnamed := huser'.named
    rw [hread] at hnamed
    have hid : user.id = user'.id := Option.some.inj (Option.some.inj hnamed)
    have hfound := huser'.found
    rw [← hid, hfind] at hfound
    obtain rfl := Option.some.inj hfound
    exact ⟨c, huser'⟩
  | _ => simp [TokenValidity.matched, hl] at hmatched

/-- A refresh is valid exactly if the stored token it presents is still good. -/
theorem refreshValid_iff {s t : History} {l : Label} (h : Recorded s) :
    RefreshValid fw jwt (s, l, t) ↔ StillGood fw jwt s l := by
  constructor
  · intro hvalid user hmatched hthrows
    obtain ⟨c, huser⟩ := hvalid.matched hmatched hthrows
    refine ⟨huser.unexpired, fun hstale => ?_⟩
    obtain ⟨k, hk, hkid, hkhash⟩ :=
      (h.stale _ _ _ (held_of_find huser.found huser.stored)).mpr hstale
    exact huser.noneRevoked k hk hkid hkhash
  · intro hgood c hl hsucceeds
    obtain ⟨user, hmatched, hthrows⟩ := (succeeds_refresh_iff hl).mp hsucceeds
    obtain ⟨-, hread, hfind, hhash⟩ := (mem_matched hl).mp hmatched
    obtain ⟨hunexpired, hstale⟩ := hgood user hmatched hthrows
    have hheld := held_of_find hfind hhash
    refine ⟨user, hread, hfind, hhash, hunexpired, ?_, ?_⟩
    · intro k hk hkid hkhash
      rw [h.unique k hk _ (h.known _ _ _ hheld) hkid hkhash]
      exact hunexpired
    · intro k hk hkid hkhash
      exact hstale ((h.stale _ _ _ hheld).mp ⟨k, hk, hkid, hkhash⟩)

/-- In a run, every refresh that succeeds is valid exactly if none of them presents a
stored token that has expired or that a password reset has left behind. -/
theorem refresh_valid_iff (fw : Framework) (jwt : JwtOptions) (store : Store) (tr : List Label)
    (hfresh : ∀ v ∈ visits (step fw jwt) (start store) tr, Fresh fw v.1 v.2.1) :
    (∀ v ∈ visits (step fw jwt) (start store) tr, RefreshValid fw jwt v) ↔
      ∀ v ∈ visits (step fw jwt) (start store) tr, StillGood fw jwt v.1 v.2.1 := by
  have hrun := visits_invariant Recorded (Fresh fw)
    (fun _ _ _ h hl hstep => step_recorded h hl hstep) (start_recorded store) hfresh
  constructor
  · intro hvalid v hv
    exact (refreshValid_iff (hrun v hv).1).mp (hvalid v hv)
  · intro hgood v hv
    exact (refreshValid_iff (hrun v hv).1).mpr (hgood v hv)

/-- Ada registers and logs in. -/
def session : List Label :=
  let env : Env := ⟨0, "ada", "", "r0", .saved, .saved, true⟩
  [⟨none, .register ⟨"ada@example.org", "Secret1!", "Ada", "Byron", none, Roles.client⟩, env⟩,
    ⟨none, .login ⟨"ada@example.org", "Secret1!"⟩, env⟩]

def refreshOn (days : Int) (refreshToken newRefreshToken : String) : Label where
  caller := none
  request := .refreshToken ⟨"ada", refreshToken⟩
  env := ⟨days * (24 * 60 * ticksPerMinute), "", "", newRefreshToken, .saved, .saved, true⟩

open TokenRotation (echoFramework)

theorem refresh_valid_weekly :
    (visits (step echoFramework ⟨60, 7⟩) (start Privileges.emptyStore)
      (session ++ [refreshOn 6 "r0" "r1", refreshOn 12 "r1" "r2"])).length = 4 ∧
    ∀ v ∈ visits (step echoFramework ⟨60, 7⟩) (start Privileges.emptyStore)
      (session ++ [refreshOn 6 "r0" "r1", refreshOn 12 "r1" "r2"]),
      RefreshValid echoFramework ⟨60, 7⟩ v :=
  ⟨by decide, (refresh_valid_iff echoFramework ⟨60, 7⟩ Privileges.emptyStore
    (session ++ [refreshOn 6 "r0" "r1", refreshOn 12 "r1" "r2"]) (by decide)).mpr (by decide)⟩

/-- A token good for seven days is accepted on the eighth. -/
theorem expired_token_refreshes : ¬ ∀ (fw : Framework) (jwt : JwtOptions) (store : Store)
    (tr : List Label), (∀ v ∈ visits (step fw jwt) (start store) tr, Fresh fw v.1 v.2.1) →
      ∀ v ∈ visits (step fw jwt) (start store) tr, RefreshValid fw jwt v := by
  intro hall
  have hlate : ∃ v ∈ visits (step echoFramework ⟨60, 7⟩) (start Privileges.emptyStore)
      (session ++ [refreshOn 8 "r0" "r1"]), ∃ user ∈ matched echoFramework v.1.store v.2.1,
        ¬ Throws echoFramework ⟨60, 7⟩ v.1.store v.2.1.env user ∧
        ¬ Unexpired v.2.1.env.now user.refreshTokenExpiryTime := by decide
  obtain ⟨v, hv, user, hmatched, hthrows, hexpired⟩ := hlate
  obtain ⟨c, huser⟩ := (hall echoFramework ⟨60, 7⟩ Privileges.emptyStore
    (session ++ [refreshOn 8 "r0" "r1"]) (by decide) v hv).matched hmatched hthrows
  exact hexpired huser.unexpired

end TokenValidity
