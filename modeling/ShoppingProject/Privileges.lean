import ShoppingProject.Identity
import ShoppingProject.Runs

/-!
# Who becomes an administrator

The memberships of the user store change in two requests: an administrator may
assign the role, and registration puts the new user into the role that its body
names. The second needs no privilege, and whether a run escalates is decided by
whether somebody uses it for the administrator role.
-/
namespace Privileges

open Requests Identity
open Validation (validate)
open Runs

/-- A registration that the user rules and the database accept, with a body that
names the stored role `role`. -/
structure Registers (fw : Framework) (env : Env) (s : Store) (c : RegisterCommand)
    (role : String) : Prop where
  password : fw.passwordErrors c.password = []
  user : fw.userErrors s.users (withPassword fw env (newUser env c) c.password) = []
  fresh : env.newId ∉ s.ids
  created : env.create = .saved
  named : s.findRole fw c.role = some role
  member : fw.userErrors (s.users ++ [withPassword fw env (newUser env c) c.password])
    (withPassword fw env (newUser env c) c.password) = []
  updated : env.update = .saved

/-- The request is such a registration, and passes the validator. -/
def RegistersAs (fw : Framework) (env : Env) (s : Store) (role : String) : Request → Prop
  | .register c => validate registerPipeline.validators c = [] ∧ Registers fw env s c role
  | _ => False

theorem updateUser_userRoles {fw : Framework} {env : Env} {s t : Store} {user : ApplicationUser}
    {r : IdentityResult} (h : updateUser fw env s user = (r, t)) : t.userRoles = s.userRoles := by
  unfold updateUser at h
  split at h
  · split at h
    · obtain ⟨-, rfl⟩ := Prod.mk.inj h
      rfl
    · exact (Prod.mk.inj h).2 ▸ rfl
    · exact (Prod.mk.inj h).2 ▸ rfl
  · exact (Prod.mk.inj h).2 ▸ rfl

theorem createAsync_userRoles (fw : Framework) (env : Env) (s : Store) (user : ApplicationUser)
    (password : String) : (createAsync fw env s user password).2.userRoles = s.userRoles := by
  unfold createAsync
  split
  · split
    · split
      · cases env.create <;> rfl
      · rfl
    · rfl
  · rfl

theorem issueTokens_userRoles (fw : Framework) (jwt : JwtOptions) (env : Env) (s : Store)
    (user updated : ApplicationUser) :
    (issueTokens fw jwt env s user updated).2.userRoles = s.userRoles := by
  unfold issueTokens
  simp only
  split <;> exact updateUser_userRoles ‹_›

theorem loginAsync_userRoles (fw : Framework) (jwt : JwtOptions) (env : Env) (c : LoginCommand)
    (s : Store) : (loginAsync fw jwt env c s).2.userRoles = s.userRoles := by
  unfold loginAsync
  split
  · rfl
  · rfl
  · split
    · exact issueTokens_userRoles ..
    · rfl

theorem refreshTokenAsync_userRoles (fw : Framework) (jwt : JwtOptions) (env : Env)
    (c : RefreshTokenCommand) (s : Store) :
    (refreshTokenAsync fw jwt env c s).2.userRoles = s.userRoles := by
  unfold refreshTokenAsync
  split
  · rfl
  · rfl
  · split
    · rfl
    · split
      · exact issueTokens_userRoles ..
      · rfl

theorem createRoleAsync_userRoles (fw : Framework) (env : Env) (c : CreateRoleCommand)
    (s : Store) : (createRoleAsync fw env c s).2.userRoles = s.userRoles := by
  unfold createRoleAsync
  split
  · rfl
  · cases env.create <;> rfl

theorem getCurrentUserInfo_userRoles (caller : Caller) (s : Store) :
    (getCurrentUserInfo caller s).2.userRoles = s.userRoles := by
  unfold getCurrentUserInfo
  simp only
  split
  · rfl
  · unfold getUserInfoAsync
    split <;> rfl

theorem updateUserAsync_userRoles (fw : Framework) (env : Env) (userId : String)
    (c : UpdateMeCommand) (s : Store) :
    (updateUserAsync fw env userId c s).2.userRoles = s.userRoles := by
  unfold updateUserAsync
  split
  · rfl
  · split
    · rfl
    · simp only
      split <;> exact updateUser_userRoles ‹_›

theorem updateMe_userRoles (fw : Framework) (env : Env) (caller : Caller) (c : UpdateMeCommand)
    (s : Store) : (updateMe fw env caller c s).2.userRoles = s.userRoles := by
  unfold updateMe
  simp only
  split
  · rfl
  · exact updateUserAsync_userRoles ..

theorem sendPasswordResetLinkAsync_userRoles (fw : Framework) (env : Env)
    (c : ForgotPasswordCommand) (s : Store) :
    (sendPasswordResetLinkAsync fw env c s).2.userRoles = s.userRoles := by
  unfold sendPasswordResetLinkAsync
  split
  · rfl
  · rfl
  · split <;> rfl

theorem resetPasswordAsync_userRoles (fw : Framework) (env : Env) (c : ResetPasswordCommand)
    (s : Store) : (resetPasswordAsync fw env c s).2.userRoles = s.userRoles := by
  unfold resetPasswordAsync
  split
  · rfl
  · rfl
  · split
    · split
      · rfl
      · split <;> exact updateUser_userRoles ‹_›
    · rfl

/-- Joining a role adds the one membership or nothing. -/
theorem addToRoleAsync_userRoles (fw : Framework) (env : Env) (s : Store)
    (user : ApplicationUser) (role : String) :
    (addToRoleAsync fw env s user role).2.userRoles = s.userRoles ∨
    ∃ name, s.findRole fw role = some name ∧ fw.userErrors s.users user = [] ∧
      env.update = .saved ∧
      (addToRoleAsync fw env s user role).2.userRoles = s.userRoles ++ [(user.id, name)] := by
  unfold addToRoleAsync
  split
  · exact .inl rfl
  · rename_i name hname
    split
    · exact .inl rfl
    · split
      · rename_i hrules
        split
        · rename_i hsaved
          split
          · exact .inr ⟨name, hname, hrules, hsaved, rfl⟩
          · exact .inl rfl
        · exact .inl rfl
        · exact .inl rfl
      · exact .inl rfl

/-- A known user joins a role it is not in when its rules and the database agree. -/
theorem addToRoleAsync_joins {fw : Framework} {env : Env} {s : Store} {user : ApplicationUser}
    {role name : String} (hname : s.findRole fw role = some name)
    (hnew : (user.id, name) ∉ s.userRoles) (hrules : fw.userErrors s.users user = [])
    (hsaved : env.update = .saved) (hknown : user.id ∈ s.ids) :
    (addToRoleAsync fw env s user role).2.userRoles = s.userRoles ++ [(user.id, name)] := by
  have hrole : name ∈ s.roles := List.mem_of_find?_eq_some hname
  simp [addToRoleAsync, hname, hnew, hrules, hsaved, hknown, hrole, Store.addUserRole]

/-- Creating succeeds exactly by adding the user. -/
theorem createAsync_succeeded {fw : Framework} {env : Env} {s t : Store} {user : ApplicationUser}
    {password : String} (h : createAsync fw env s user password = (.succeeded, t)) :
    fw.passwordErrors password = [] ∧
    fw.userErrors s.users (withPassword fw env user password) = [] ∧ env.create = .saved ∧
    ∃ fresh : user.id ∉ s.ids, t = s.addUser (withPassword fw env user password) fresh := by
  unfold createAsync at h
  split at h
  · rename_i hpassword
    split at h
    · rename_i hrules
      split at h
      · rename_i fresh
        split at h
        · rename_i hsaved
          obtain ⟨-, rfl⟩ := Prod.mk.inj h
          exact ⟨hpassword, hrules, hsaved, fresh, rfl⟩
        · simp at h
      · simp at h
    · simp at h
  · simp at h

/-- A registration adds one membership of the new user, or none. -/
theorem registerAsync_userRoles (fw : Framework) (env : Env) (c : RegisterCommand) (s : Store) :
    (registerAsync fw env c s).2.userRoles = s.userRoles ∨
    ∃ role, Registers fw env s c role ∧
      (registerAsync fw env c s).2.userRoles = s.userRoles ++ [(env.newId, role)] := by
  have hcreate := createAsync_userRoles fw env s (newUser env c) c.password
  unfold registerAsync
  simp only
  split
  · rename_i heq
    rw [heq] at hcreate
    exact .inl hcreate
  · rename_i heq
    rw [heq] at hcreate
    exact .inl hcreate
  · rename_i t heq
    rw [heq] at hcreate
    obtain ⟨hpassword, hrules, hsaved, fresh, rfl⟩ := createAsync_succeeded heq
    have hstate : ∀ (r : IdentityResult) (u : Store), addToRoleAsync fw env
        (s.addUser (withPassword fw env (newUser env c) c.password) fresh)
        (withPassword fw env (newUser env c) c.password) c.role = (r, u) →
        u.userRoles = s.userRoles ∨ ∃ role, Registers fw env s c role ∧
          u.userRoles = s.userRoles ++ [(env.newId, role)] := by
      intro r u hadd
      rcases addToRoleAsync_userRoles fw env
        (s.addUser (withPassword fw env (newUser env c) c.password) fresh)
        (withPassword fw env (newUser env c) c.password) c.role with h | ⟨role, hn, hr, hu, h⟩
      · rw [hadd] at h
        exact .inl h
      · rw [hadd] at h
        exact .inr ⟨role, ⟨hpassword, hrules, fresh, hsaved, hn, hr, hu⟩, h⟩
    split
    · rename_i hadd
      exact hstate _ _ hadd
    · rename_i hadd
      exact hstate _ _ hadd

/-- An accepted registration does put its user into the role. -/
theorem registerAsync_registers {fw : Framework} {env : Env} {c : RegisterCommand} {s : Store}
    {role : String} (h : Registers fw env s c role) :
    (env.newId, role) ∈ (registerAsync fw env c s).2.userRoles := by
  let user := withPassword fw env (newUser env c) c.password
  have hcreate : createAsync fw env s (newUser env c) c.password =
      (.succeeded, s.addUser user h.fresh) := by
    have fresh : (newUser env c).id ∉ s.ids := h.fresh
    simp [createAsync, h.password, h.user, fresh, h.created, user]
  have hnew : (user.id, role) ∉ s.userRoles := fun hmem => h.fresh (s.memberKnown _ hmem)
  have hjoin := @addToRoleAsync_joins fw env (s.addUser user h.fresh) user c.role role h.named
    hnew h.member h.updated (by simp [Store.ids, Store.addUser])
  have hmem : (env.newId, role) ∈
      (addToRoleAsync fw env (s.addUser user h.fresh) user c.role).2.userRoles := by
    rw [hjoin]
    exact List.mem_append_right _ (by simp [user, withPassword, newUser])
  unfold registerAsync
  simp only [hcreate]
  split
  · rename_i hadd
    rwa [show addToRoleAsync fw env (s.addUser user h.fresh) user c.role = _ from hadd] at hmem
  · rename_i hadd
    rwa [show addToRoleAsync fw env (s.addUser user h.fresh) user c.role = _ from hadd] at hmem

theorem send_userRoles {γ : Type} {pipeline : Pipeline γ} {caller : Caller} (request : γ)
    {handle : Store → Response} {s : Store} (h : (handle s).2.userRoles = s.userRoles) :
    (send pipeline s.authorizeAsync caller request handle s).2.userRoles = s.userRoles :=
  send_keeps (fun t : Store => t.userRoles = s.userRoles) rfl fun _ => h

/-- All that a request can do to the memberships. -/
theorem serve_userRoles (fw : Framework) (jwt : JwtOptions) (env : Env) (caller : Caller)
    (request : Request) (s : Store) :
    (serve fw jwt env caller request s).2.userRoles = s.userRoles ∨
    (∃ role, RegistersAs fw env s role request ∧
      (serve fw jwt env caller request s).2.userRoles = s.userRoles ++ [(env.newId, role)]) ∨
    CallerIsAdministrator s caller := by
  cases request with
  | login c => exact .inl (send_userRoles _ (loginAsync_userRoles ..))
  | refreshToken c => exact .inl (send_userRoles _ (refreshTokenAsync_userRoles ..))
  | register c =>
    refine send_keeps (fun t : Store => t.userRoles = s.userRoles ∨ (∃ role,
      RegistersAs fw env s role (.register c) ∧
        t.userRoles = s.userRoles ++ [(env.newId, role)]) ∨ _) (.inl rfl) fun admitted => ?_
    rcases registerAsync_userRoles fw env c s with h | ⟨role, hreg, h⟩
    · exact .inl h
    · exact .inr (.inl ⟨role, ⟨admitted.valid, hreg⟩, h⟩)
  | assignAdminRole userId =>
    refine send_keeps
      (fun t : Store => t.userRoles = s.userRoles ∨ _ ∨ CallerIsAdministrator s caller)
      (.inl rfl) fun admitted => .inr (.inr ?_)
    obtain ⟨principal, id, hcaller, hid, hpolicy⟩ :=
      authorizationBehaviour_policy List.mem_cons_self rfl admitted.command
    exact ⟨principal, id, hcaller, hid, authorizeAsync_administrator rfl hpolicy⟩
  | createRole roleName => exact .inl (send_userRoles _ (createRoleAsync_userRoles ..))
  | getCurrentUserInfo => exact .inl (send_userRoles () (getCurrentUserInfo_userRoles ..))
  | updateMe c => exact .inl (send_userRoles _ (updateMe_userRoles ..))
  | forgotPassword c => exact .inl (send_userRoles _ (sendPasswordResetLinkAsync_userRoles ..))
  | resetPassword c => exact .inl (send_userRoles _ (resetPasswordAsync_userRoles ..))

/-- A request of somebody who is not an administrator leaves the administrators as
they are, unless it registers one. -/
theorem serve_administrators_iff (fw : Framework) (jwt : JwtOptions) (env : Env)
    (request : Request) {caller : Caller} {s : Store}
    (hcaller : ¬ CallerIsAdministrator s caller) :
    (∀ u, IsAdministrator (serve fw jwt env caller request s).2 u ↔ IsAdministrator s u) ↔
      ¬ RegistersAs fw env s Roles.administrator request := by
  constructor
  · intro hsame hreg
    cases request with
    | register c =>
      obtain ⟨hvalid, hreg⟩ := hreg
      have hadmitted : Admits registerPipeline s.authorizeAsync caller c := ⟨rfl, hvalid, rfl⟩
      have hserve : serve fw jwt env caller (.register c) s = registerAsync fw env c s :=
        send_admitted hadmitted _ s
      have hnew : IsAdministrator (serve fw jwt env caller (.register c) s).2 env.newId := by
        rw [hserve]
        exact registerAsync_registers hreg
      exact hreg.fresh (s.memberKnown _ ((hsame env.newId).mp hnew))
    | _ => exact hreg
  · intro hreg u
    rcases serve_userRoles fw jwt env caller request s with h | ⟨role, hrole, h⟩ | h
    · rw [IsAdministrator, h, IsAdministrator]
    · have hne : Roles.administrator ≠ role := by
        rintro rfl
        exact hreg hrole
      simp [IsAdministrator, h, hne]
    · exact absurd h hcaller

/-- Only administrators make administrators: no other caller's request changes the
set, and whoever is in it at the end was in it at the start or entered it in a
request of an administrator. -/
structure NoEscalation (fw : Framework) (jwt : JwtOptions) (s : Store) (tr : List Label) :
    Prop where
  unchanged : ∀ v ∈ visits (step fw jwt) s tr, ¬ CallerIsAdministrator v.1 v.2.1.caller →
    ∀ u, IsAdministrator v.2.2 u ↔ IsAdministrator v.1 u
  granted : ∀ t, run (step fw jwt) s tr = some t → ∀ u, IsAdministrator t u →
    IsAdministrator s u ∨ ∃ v ∈ visits (step fw jwt) s tr,
      CallerIsAdministrator v.1 v.2.1.caller ∧ ¬ IsAdministrator v.1 u ∧ IsAdministrator v.2.2 u

/-- A run escalates exactly if somebody who is not an administrator registers one. -/
theorem noEscalation_iff (fw : Framework) (jwt : JwtOptions) (s : Store) (tr : List Label) :
    NoEscalation fw jwt s tr ↔
      ∀ v ∈ visits (step fw jwt) s tr, ¬ CallerIsAdministrator v.1 v.2.1.caller →
        ¬ RegistersAs fw v.2.1.env v.1 Roles.administrator v.2.1.request := by
  have hstep : ∀ v ∈ visits (step fw jwt) s tr,
      v.2.2 = (serve fw jwt v.2.1.env v.2.1.caller v.2.1.request v.1).2 :=
    fun v hv => (Option.some.inj (step_of_mem_visits hv)).symm
  constructor
  · intro h v hv hcaller
    refine (serve_administrators_iff fw jwt _ _ hcaller).mp ?_
    rw [← hstep v hv]
    exact h.unchanged v hv hcaller
  · intro h
    have hunchanged : ∀ v ∈ visits (step fw jwt) s tr, ¬ CallerIsAdministrator v.1 v.2.1.caller →
        ∀ u, IsAdministrator v.2.2 u ↔ IsAdministrator v.1 u := by
      intro v hv hcaller
      rw [hstep v hv]
      exact (serve_administrators_iff fw jwt _ _ hcaller).mpr (h v hv hcaller)
    refine ⟨hunchanged, fun t ht u hu => ?_⟩
    rcases arises (fun t => IsAdministrator t u) ht hu with hs | ⟨v, hv, hold, hnew⟩
    · exact .inl hs
    · refine .inr ⟨v, hv, ?_, hold, hnew⟩
      by_contra hcaller
      exact hold ((hunchanged v hv hcaller u).mp hnew)

/-- Identity with its default normalizer and no further rules. -/
def plainFramework : Framework where
  normalizeName := fun s => String.ofList (s.toList.map Char.toUpper)
  userErrors := fun _ _ => []
  passwordErrors := fun _ => []
  roleErrors := fun _ _ => []
  hashPassword := fun salt password => salt ++ password
  checkPassword := fun _ _ => false
  checkResetToken := fun _ _ => false
  readToken := fun _ => none
  writeToken := fun user _ _ => user.id
  hashRefreshToken := id

/-- The roles are seeded, and nobody is registered. -/
def emptyStore : Store where
  users := []
  roles := [Roles.administrator, Roles.client]
  userRoles := []
  keyed := List.nodup_nil
  memberKnown := by simp
  roleKnown := by simp

/-- An anonymous caller registers an administrator. -/
theorem anonymous_registers_administrator : ¬ ∀ (fw : Framework) (jwt : JwtOptions) (s : Store)
    (tr : List Label), NoEscalation fw jwt s tr := by
  intro hall
  let command : RegisterCommand :=
    ⟨"eve@example.org", "Secret1!", "Eve", "Adams", none, "administrator"⟩
  let l : Label := ⟨none, .register command, ⟨0, "u1", "", "", .saved, .saved, true⟩⟩
  let t := (serve plainFramework ⟨60, 7⟩ l.env l.caller l.request emptyStore).2
  have hnew : IsAdministrator t "u1" := by decide
  rcases (hall plainFramework ⟨60, 7⟩ emptyStore [l]).granted t rfl "u1" hnew with
    hold | ⟨v, hv, hcaller, -⟩
  · exact absurd hold (by decide)
  · obtain rfl : v = (emptyStore, l, t) := by simpa [visits, step] using hv
    obtain ⟨principal, id, hsome, -⟩ := hcaller
    simp [l] at hsome

end Privileges
