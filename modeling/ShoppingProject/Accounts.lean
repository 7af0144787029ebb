import ShoppingProject.Privileges

/-!
# What becomes of an account

Every request writes at most the columns that are its own, into the row of the user whose
credentials it has shown. No request deletes a row or renames an account.
-/
namespace Accounts

open Requests Identity Runs

variable (fw : Framework) (jwt : JwtOptions)

/-- What a request writes into the row of a user, and what entitles it to. -/
inductive Writes (s : Store) (l : Label) (user : ApplicationUser) : ApplicationUser → Prop where
  | login (c : LoginCommand) (request : l.request = .login c)
      (found : s.findByEmailAsync fw c.email = some (some user))
      (password : fw.checkPassword user c.password = true) :
      Writes s l user { withRefreshToken fw jwt l.env user with updateAt := l.env.now }
  | refresh (c : RefreshTokenCommand) (request : l.request = .refreshToken c)
      (accessToken : fw.readToken c.accessToken = some (some user.id))
      (refreshToken : user.refreshToken = some (fw.hashRefreshToken c.refreshToken)) :
      Writes s l user (withRefreshToken fw jwt l.env user)
  | profile (c : UpdateMeCommand) (request : l.request = .updateMe c)
      (caller : l.caller.bind Principal.id = some user.id) :
      Writes s l user
        { user with
          firstName := changed user.firstName c.firstName
          lastName := changed user.lastName c.lastName
          gender := changed user.gender c.gender
          updateAt := l.env.now }
  | password (c : ResetPasswordCommand) (request : l.request = .resetPassword c)
      (found : s.findByEmailAsync fw c.email = some (some user))
      (token : fw.checkResetToken user c.token = true) :
      Writes s l user (withPassword fw l.env user c.newPassword)

/-- Every row of `s` is there in `t`, as it was or as `R` allows. -/
def Follows (R : ApplicationUser → ApplicationUser → Prop) (s t : Store) : Prop :=
  ∀ id user, s.findByIdAsync id = some user →
    ∃ user', t.findByIdAsync id = some user' ∧ (user' = user ∨ R user user')

section

variable {fw jwt} {R : ApplicationUser → ApplicationUser → Prop} {s t : Store}

theorem follows_refl (R : ApplicationUser → ApplicationUser → Prop) (s : Store) : Follows R s s :=
  fun _ user h => ⟨user, h, .inl rfl⟩

theorem follows_same (h : t.users = s.users) : Follows R s t := by
  intro id user hfind
  refine ⟨user, ?_, .inl rfl⟩
  rwa [Store.findByIdAsync, h]

theorem follows_addUser {user : ApplicationUser} (fresh : user.id ∉ s.ids) :
    Follows R s (s.addUser user fresh) := by
  intro id old hfind
  refine ⟨old, ?_, .inl rfl⟩
  rw [Store.findByIdAsync] at hfind
  simp [Store.findByIdAsync, Store.addUser, List.find?_append, hfind]

theorem follows_setUser {user updated : ApplicationUser}
    (hfind : s.findByIdAsync user.id = some user) (hid : updated.id = user.id)
    (hR : R user updated) : Follows R s (s.setUser updated) := by
  intro id old hold
  rw [Store.findByIdAsync_setUser, hid]
  split
  · rename_i heq
    subst id
    rw [hfind] at hold
    obtain rfl := Option.some.inj hold
    exact ⟨updated, by rw [hfind]; rfl, .inr hR⟩
  · exact ⟨old, hold, .inl rfl⟩

theorem follows_updateUser {env : Env} {user updated : ApplicationUser}
    (hfind : s.findByIdAsync user.id = some user) (hR : R user updated)
    (hid : updated.id = user.id) : Follows R s (updateUser fw env s updated).2 := by
  unfold updateUser
  split
  · split
    · exact follows_setUser hfind hid hR
    · exact follows_refl R s
    · exact follows_refl R s
  · exact follows_refl R s

theorem follows_issueTokens {env : Env} {user updated : ApplicationUser}
    (hfind : s.findByIdAsync user.id = some user) (hid : updated.id = user.id)
    (hR : R user updated) : Follows R s (issueTokens fw jwt env s user updated).2 := by
  have hupdate := @follows_updateUser fw R s env user updated hfind hR hid
  unfold issueTokens
  simp only
  split <;> rename_i heq <;> rwa [heq] at hupdate

theorem follows_createAsync (env : Env) (user : ApplicationUser) (password : String) :
    Follows R s (createAsync fw env s user password).2 := by
  unfold createAsync
  split
  · split
    · split
      · split
        · exact @follows_addUser R s (withPassword fw env user password) ‹_›
        · exact follows_refl R s
      · exact follows_refl R s
    · exact follows_refl R s
  · exact follows_refl R s

theorem users_addToRoleAsync (env : Env) (user : ApplicationUser) (role : String) :
    (addToRoleAsync fw env s user role).2.users = s.users := by
  unfold addToRoleAsync
  split
  · rfl
  · split
    · rfl
    · split
      · split
        · split <;> rfl
        · rfl
        · rfl
      · rfl

theorem follows_addToRoleAsync (env : Env) (user : ApplicationUser) (role : String) :
    Follows R s (addToRoleAsync fw env s user role).2 :=
  follows_same (users_addToRoleAsync env user role)

theorem Follows.trans_same {u : Store} (h : Follows R s t) (hu : u.users = t.users) :
    Follows R s u := by
  intro id user hfind
  obtain ⟨user', hfind', h⟩ := h id user hfind
  refine ⟨user', ?_, h⟩
  rwa [Store.findByIdAsync, hu]

end

/-! ## The requests -/

section

variable {fw jwt} {s : Store}

theorem login_follows (caller : Caller) (env : Env) (c : LoginCommand) :
    Follows (Writes fw jwt s ⟨caller, .login c, env⟩) s (loginAsync fw jwt env c s).2 := by
  unfold loginAsync
  split
  · exact follows_refl _ s
  · exact follows_refl _ s
  · rename_i user hfind
    split
    · rename_i hpassword
      refine follows_issueTokens ?_ rfl (.login c rfl hfind hpassword)
      exact Store.findByIdAsync_of_mem (Store.mem_of_findByEmailAsync hfind)
    · exact follows_refl _ s

theorem refresh_follows (caller : Caller) (env : Env) (c : RefreshTokenCommand) :
    Follows (Writes fw jwt s ⟨caller, .refreshToken c, env⟩) s
      (refreshTokenAsync fw jwt env c s).2 := by
  unfold refreshTokenAsync
  split
  · exact follows_refl _ s
  · exact follows_refl _ s
  · rename_i userId hread
    split
    · exact follows_refl _ s
    · rename_i user hfind
      split
      · rename_i htoken
        have hid : user.id = userId := by simpa using List.find?_some hfind
        subst hid
        exact follows_issueTokens hfind rfl (.refresh c rfl hread htoken)
      · exact follows_refl _ s

theorem register_follows {R : ApplicationUser → ApplicationUser → Prop} (env : Env)
    (c : RegisterCommand) : Follows R s (registerAsync fw env c s).2 := by
  have hcreate : Follows R s (createAsync fw env s (newUser env c) c.password).2 :=
    follows_createAsync env _ _
  unfold registerAsync
  simp only
  split
  · rename_i heq
    rwa [heq] at hcreate
  · rename_i heq
    rwa [heq] at hcreate
  · rename_i t heq
    rw [heq] at hcreate
    have hadd := @users_addToRoleAsync fw t env (withPassword fw env (newUser env c) c.password)
      c.role
    split <;> rename_i heq' <;> rw [heq'] at hadd <;> exact hcreate.trans_same hadd

theorem assignRole_follows {R : ApplicationUser → ApplicationUser → Prop} (env : Env)
    (c : AssignAdminRoleCommand) : Follows R s (assignUserToRoleAsync fw env c s).2 := by
  unfold assignUserToRoleAsync
  split
  · exact follows_refl R s
  · rename_i user hfind
    have hadd := @follows_addToRoleAsync fw R s env user c.roleName
    split <;> rename_i heq <;> rwa [heq] at hadd

theorem createRole_follows {R : ApplicationUser → ApplicationUser → Prop} (env : Env)
    (c : CreateRoleCommand) : Follows R s (createRoleAsync fw env c s).2 := by
  refine follows_same ?_
  unfold createRoleAsync
  split
  · rfl
  · split <;> rfl

theorem updateMe_follows (caller : Caller) (env : Env) (c : UpdateMeCommand) :
    Follows (Writes fw jwt s ⟨caller, .updateMe c, env⟩) s (updateMe fw env caller c s).2 := by
  unfold updateMe
  simp only
  split
  · exact follows_refl _ s
  · rename_i hcaller
    unfold updateUserAsync
    split
    · exact follows_refl _ s
    · split
      · exact follows_refl _ s
      · rename_i user hfind
        have hid : user.id = (caller.bind Principal.id).getD "" := by
          simpa using List.find?_some hfind
        have hknown : s.findByIdAsync user.id = some user :=
          Store.findByIdAsync_of_mem (List.mem_of_find?_eq_some hfind)
        have hprincipal : caller.bind Principal.id = some user.id := by
          cases h : caller.bind Principal.id with
          | none => simp [h, Validation.isNullOrWhiteSpace] at hcaller
          | some id => simp [hid, h]
        have hwrites : Writes fw jwt s ⟨caller, .updateMe c, env⟩ user { user with
            firstName := changed user.firstName c.firstName
            lastName := changed user.lastName c.lastName
            gender := changed user.gender c.gender
            updateAt := env.now } := .profile c rfl hprincipal
        have hupdate := @follows_updateUser fw _ s env _ _ hknown hwrites rfl
        simp only
        split <;> rename_i heq <;> rwa [heq] at hupdate

theorem forgotPassword_follows {R : ApplicationUser → ApplicationUser → Prop} (env : Env)
    (c : ForgotPasswordCommand) : Follows R s (sendPasswordResetLinkAsync fw env c s).2 := by
  refine follows_same ?_
  unfold sendPasswordResetLinkAsync
  split
  · rfl
  · rfl
  · split <;> rfl

theorem resetPassword_follows (caller : Caller) (env : Env) (c : ResetPasswordCommand) :
    Follows (Writes fw jwt s ⟨caller, .resetPassword c, env⟩) s
      (resetPasswordAsync fw env c s).2 := by
  unfold resetPasswordAsync
  split
  · exact follows_refl _ s
  · exact follows_refl _ s
  · rename_i user hfind
    have hknown : s.findByIdAsync user.id = some user :=
      Store.findByIdAsync_of_mem (Store.mem_of_findByEmailAsync hfind)
    split
    · rename_i htoken
      split
      · exact follows_refl _ s
      · have hwrites : Writes fw jwt s ⟨caller, .resetPassword c, env⟩ user
            (withPassword fw env user c.newPassword) := .password c rfl hfind htoken
        have hupdate := @follows_updateUser fw _ s env _ _ hknown hwrites rfl
        split <;> rename_i heq <;> rwa [heq] at hupdate
    · exact follows_refl _ s

theorem getCurrentUserInfo_follows {R : ApplicationUser → ApplicationUser → Prop}
    (caller : Caller) : Follows R s (getCurrentUserInfo caller s).2 := by
  refine follows_same ?_
  unfold getCurrentUserInfo
  simp only
  split
  · rfl
  · unfold getUserInfoAsync
    split <;> rfl

end

variable {fw jwt}

theorem send_follows {γ : Type} {pipeline : Pipeline γ} {caller : Caller} (request : γ)
    {handle : Store → Response} {R : ApplicationUser → ApplicationUser → Prop} {s : Store}
    (h : Follows R s (handle s).2) :
    Follows R s (send pipeline s.authorizeAsync caller request handle s).2 :=
  send_keeps (Follows R s) (follows_refl R s) fun _ => h

/-- All that a request can do to the rows of the users. -/
theorem serve_follows (s : Store) (l : Label) :
    Follows (Writes fw jwt s l) s (serve fw jwt l.env l.caller l.request s).2 := by
  obtain ⟨caller, request, env⟩ := l
  cases request with
  | login c => exact send_follows c (login_follows caller env c)
  | refreshToken c => exact send_follows c (refresh_follows caller env c)
  | register c => exact send_follows c (register_follows env c)
  | assignAdminRole userId => exact send_follows _ (assignRole_follows env _)
  | createRole roleName => exact send_follows _ (createRole_follows env _)
  | getCurrentUserInfo => exact send_follows () (getCurrentUserInfo_follows caller)
  | updateMe c => exact send_follows c (updateMe_follows caller env c)
  | forgotPassword c => exact send_follows c (forgotPassword_follows env c)
  | resetPassword c => exact send_follows c (resetPassword_follows caller env c)

/-! ## Runs -/

variable (fw jwt)

/-- A step that a request of the user with the key is written in. -/
def WritesTo (id : String) (v : Store × Label × Store) : Prop :=
  ∃ user user', user.id = id ∧ Writes fw jwt v.1 v.2.1 user user'

def isLogin : Request → Bool
  | .login _ | .refreshToken _ => true
  | _ => false

def isReset : Request → Bool
  | .resetPassword _ => true
  | _ => false

def isProfile : Request → Bool
  | .updateMe _ => true
  | _ => false

/-- What has become of a row over some steps. -/
structure History (id : String) (steps : List (Store × Label × Store))
    (user user' : ApplicationUser) : Prop where
  name : user'.userName = user.userName
  email : user'.email = user.email
  phoneNumber : user'.phoneNumber = user.phoneNumber
  session : user'.refreshToken ≠ user.refreshToken →
    ∃ v ∈ steps, isLogin v.2.1.request = true ∧ WritesTo fw jwt id v
  password : user'.passwordHash ≠ user.passwordHash →
    ∃ v ∈ steps, isReset v.2.1.request = true ∧ WritesTo fw jwt id v
  profile : (user'.firstName, user'.lastName, user'.gender) ≠
      (user.firstName, user.lastName, user.gender) →
    ∃ v ∈ steps, isProfile v.2.1.request = true ∧ WritesTo fw jwt id v

variable {fw jwt}

theorem history_refl (id : String) (user : ApplicationUser) : History fw jwt id [] user user :=
  ⟨rfl, rfl, rfl, fun h => absurd rfl h, fun h => absurd rfl h, fun h => absurd rfl h⟩

theorem history_write {id : String} {s t : Store} {l : Label} {user user' : ApplicationUser}
    (hid : user.id = id) (h : user' = user ∨ Writes fw jwt s l user user') :
    History fw jwt id [(s, l, t)] user user' := by
  rcases h with rfl | h
  · exact ⟨rfl, rfl, rfl, fun h => absurd rfl h, fun h => absurd rfl h, fun h => absurd rfl h⟩
  · have hto : WritesTo fw jwt id (s, l, t) := ⟨user, user', hid, h⟩
    cases h with
    | login c request found password =>
      refine ⟨rfl, rfl, rfl, fun _ => ⟨_, List.mem_singleton_self _, ?_, hto⟩,
        fun h => absurd rfl h, fun h => absurd rfl h⟩
      rw [request]
      rfl
    | refresh c request accessToken refreshToken =>
      refine ⟨rfl, rfl, rfl, fun _ => ⟨_, List.mem_singleton_self _, ?_, hto⟩,
        fun h => absurd rfl h, fun h => absurd rfl h⟩
      rw [request]
      rfl
    | profile c request caller =>
      refine ⟨rfl, rfl, rfl, fun h => absurd rfl h, fun h => absurd rfl h,
        fun _ => ⟨_, List.mem_singleton_self _, ?_, hto⟩⟩
      rw [request]
      rfl
    | password c request found token =>
      refine ⟨rfl, rfl, rfl, fun h => absurd rfl h,
        fun _ => ⟨_, List.mem_singleton_self _, ?_, hto⟩, fun h => absurd rfl h⟩
      rw [request]
      rfl

theorem History.append {id : String} {steps more : List (Store × Label × Store)}
    {user user' user'' : ApplicationUser} (h : History fw jwt id steps user user')
    (h' : History fw jwt id more user' user'') :
    History fw jwt id (steps ++ more) user user'' := by
  have hlift : ∀ {P : Store × Label × Store → Prop},
      (∃ v ∈ steps, P v) ∨ (∃ v ∈ more, P v) → ∃ v ∈ steps ++ more, P v := by
    rintro P (⟨v, hv, hP⟩ | ⟨v, hv, hP⟩)
    · exact ⟨v, List.mem_append_left _ hv, hP⟩
    · exact ⟨v, List.mem_append_right _ hv, hP⟩
  refine ⟨h'.name.trans h.name, h'.email.trans h.email, h'.phoneNumber.trans h.phoneNumber,
    fun hne => hlift ?_, fun hne => hlift ?_, fun hne => hlift ?_⟩
  · by_cases hmid : user'.refreshToken = user.refreshToken
    · exact .inr (h'.session (hmid ▸ hne))
    · exact .inl (h.session hmid)
  · by_cases hmid : user'.passwordHash = user.passwordHash
    · exact .inr (h'.password (hmid ▸ hne))
    · exact .inl (h.password hmid)
  · by_cases hmid : (user'.firstName, user'.lastName, user'.gender) =
        (user.firstName, user.lastName, user.gender)
    · exact .inr (h'.profile (hmid ▸ hne))
    · exact .inl (h.profile hmid)

/-- Eve, and nobody else. -/
def eve : ApplicationUser :=
  ⟨"u1", "eve", "eve@example.org", none, none, none, none, "hash", none, none, 0⟩

end Accounts
