import Mathlib.Data.List.Nodup
import ShoppingProject.DomainEvents
import ShoppingProject.Requests

/-!
# The identity service

Users, roles and memberships, and the requests of `IdentityController` on them.
What ASP.NET Core Identity and the token handler decide (name normalization,
user, role and password rules, hashes, tokens) is a parameter. A database write
may be saved, lose an optimistic check, or fail.
-/
namespace Identity

open DomainEvents (DateTime ticksPerMinute)
open Validation Requests

structure ApplicationUser where
  id : String
  userName : String
  email : String
  phoneNumber : Option String
  firstName : Option String
  lastName : Option String
  gender : Option String
  passwordHash : String
  refreshToken : Option String
  refreshTokenExpiryTime : Option DateTime
  updateAt : DateTime
  deriving DecidableEq

structure Framework where
  normalizeName : String → String
  userErrors : List ApplicationUser → ApplicationUser → List String
  passwordErrors : String → List String
  roleErrors : List String → String → List String
  hashPassword : String → String → String
  checkPassword : ApplicationUser → String → Bool
  checkResetToken : ApplicationUser → String → Bool
  readToken : String → Option (Option String)
  writeToken : ApplicationUser → List String → DateTime → String
  hashRefreshToken : String → String

structure JwtOptions where
  expiryMinutes : Int
  refreshTokenExpiryDays : Int

inductive Write where
  | saved | conflict | failed
  deriving DecidableEq

/-- What one request meets: the clock, fresh random values, and its writes. -/
structure Env where
  now : DateTime
  newId : String
  salt : String
  newRefreshToken : String
  create : Write
  update : Write
  emailSent : Bool

/-- The tables, with the keys and references that the database enforces. -/
structure Store where
  users : List ApplicationUser
  roles : List String
  userRoles : List (String × String)
  keyed : (users.map ApplicationUser.id).Nodup
  memberKnown : ∀ p ∈ userRoles, p.1 ∈ users.map ApplicationUser.id
  roleKnown : ∀ p ∈ userRoles, p.2 ∈ roles

namespace Store

def ids (s : Store) : List String := s.users.map ApplicationUser.id

def findByIdAsync (s : Store) (id : String) : Option ApplicationUser :=
  s.users.find? fun u => u.id == id

/-- `FindByEmailAsync`; it throws when two users have the address. -/
def findByEmailAsync (fw : Framework) (s : Store) (email : String) :
    Option (Option ApplicationUser) :=
  match s.users.filter fun u => fw.normalizeName u.email == fw.normalizeName email with
  | [] => some none
  | [user] => some (some user)
  | _ => none

/-- The stored role that a name means. -/
def findRole (fw : Framework) (s : Store) (role : String) : Option String :=
  s.roles.find? fun r => fw.normalizeName r == fw.normalizeName role

def getRolesAsync (s : Store) (userId : String) : List String :=
  (s.userRoles.filter fun p => p.1 == userId).map Prod.snd

/-- The policy is judged on the roles that the user holds now. -/
def authorizeAsync (s : Store) (userId : String) (policy : Policy) : Option Bool :=
  match s.findByIdAsync userId with
  | none => some false
  | some user => satisfies (s.getRolesAsync user.id) policy

def replaceUser (users : List ApplicationUser) (user : ApplicationUser) : List ApplicationUser :=
  users.map fun u => if u.id == user.id then user else u

theorem replaceUser_ids (users : List ApplicationUser) (user : ApplicationUser) :
    (replaceUser users user).map ApplicationUser.id = users.map ApplicationUser.id := by
  simp only [replaceUser, List.map_map]
  refine List.map_congr_left fun u _ => ?_
  by_cases h : u.id = user.id <;> simp [h]

def setUser (s : Store) (user : ApplicationUser) : Store where
  users := replaceUser s.users user
  roles := s.roles
  userRoles := s.userRoles
  keyed := by rw [replaceUser_ids]; exact s.keyed
  memberKnown := by rw [replaceUser_ids]; exact s.memberKnown
  roleKnown := s.roleKnown

def addUser (s : Store) (user : ApplicationUser) (fresh : user.id ∉ s.ids) : Store where
  users := s.users ++ [user]
  roles := s.roles
  userRoles := s.userRoles
  keyed := by
    rw [List.map_append, List.nodup_append]
    refine ⟨s.keyed, by simp, ?_⟩
    intro a ha b hb hab
    obtain rfl : b = user.id := by simpa using hb
    exact fresh (hab ▸ ha)
  memberKnown := fun p hp => by
    rw [List.map_append]
    exact List.mem_append_left _ (s.memberKnown p hp)
  roleKnown := s.roleKnown

def addRole (s : Store) (name : String) : Store where
  users := s.users
  roles := s.roles ++ [name]
  userRoles := s.userRoles
  keyed := s.keyed
  memberKnown := s.memberKnown
  roleKnown := fun p hp => List.mem_append_left _ (s.roleKnown p hp)

def addUserRole (s : Store) (userId role : String) (hu : userId ∈ s.ids) (hr : role ∈ s.roles) :
    Store where
  users := s.users
  roles := s.roles
  userRoles := s.userRoles ++ [(userId, role)]
  keyed := s.keyed
  memberKnown := by
    intro p hp
    rcases List.mem_append.mp hp with hp | hp
    · exact s.memberKnown p hp
    · obtain rfl : p = (userId, role) := by simpa using hp
      exact hu
  roleKnown := by
    intro p hp
    rcases List.mem_append.mp hp with hp | hp
    · exact s.roleKnown p hp
    · obtain rfl : p = (userId, role) := by simpa using hp
      exact hr

end Store

/-- What a call of the user or role manager answers. -/
inductive IdentityResult where
  | succeeded : IdentityResult
  | failed : List String → IdentityResult
  | threw : IdentityResult

def concurrencyFailure : String :=
  "Optimistic concurrency failure, object has been modified."

def alreadyInRole (role : String) : String := "User already in role '" ++ role ++ "'."

/-- `UpdateUserAsync`: the user rules are checked before each write. -/
def updateUser (fw : Framework) (env : Env) (s : Store) (user : ApplicationUser) :
    IdentityResult × Store :=
  match fw.userErrors s.users user with
  | [] => match env.update with
    | .saved => (.succeeded, s.setUser user)
    | .conflict => (.failed [concurrencyFailure], s)
    | .failed => (.threw, s)
  | error :: errors => (.failed (error :: errors), s)

def withPassword (fw : Framework) (env : Env) (user : ApplicationUser) (password : String) :
    ApplicationUser :=
  { user with passwordHash := fw.hashPassword env.salt password }

def createAsync (fw : Framework) (env : Env) (s : Store) (user : ApplicationUser)
    (password : String) : IdentityResult × Store :=
  match fw.passwordErrors password with
  | [] => match fw.userErrors s.users (withPassword fw env user password) with
    | [] =>
      if fresh : user.id ∉ s.ids then match env.create with
        | .saved => (.succeeded, s.addUser (withPassword fw env user password) fresh)
        | _ => (.threw, s)
      else (.threw, s)
    | error :: errors => (.failed (error :: errors), s)
  | error :: errors => (.failed (error :: errors), s)

/-- `AddToRoleAsync`; the row of the user only changes its concurrency stamp. -/
def addToRoleAsync (fw : Framework) (env : Env) (s : Store) (user : ApplicationUser)
    (role : String) : IdentityResult × Store :=
  match s.findRole fw role with
  | none => (.threw, s)
  | some name =>
    if (user.id, name) ∈ s.userRoles then (.failed [alreadyInRole role], s)
    else match fw.userErrors s.users user with
      | [] => match env.update with
        | .saved =>
          if known : user.id ∈ s.ids ∧ name ∈ s.roles then
            (.succeeded, s.addUserRole user.id name known.1 known.2)
          else (.threw, s)
        | .conflict => (.failed [concurrencyFailure], s)
        | .failed => (.threw, s)
      | error :: errors => (.failed (error :: errors), s)

structure UserInfoResponse where
  id : String
  email : String
  firstName : Option String
  lastName : Option String
  userName : String
  gender : Option String
  roles : List String
  phoneNumber : Option String
  deriving DecidableEq

inductive Answer where
  | text : String → Answer
  | auth (accessToken refreshToken : String) (expires : DateTime) : Answer
  | user : UserInfoResponse → Answer
  deriving DecidableEq

abbrev Response := Reply (ServiceResult Answer) × Store

structure LoginCommand where
  email : String
  password : String

structure RefreshTokenCommand where
  accessToken : String
  refreshToken : String

structure RegisterCommand where
  email : String
  password : String
  firstName : String
  lastName : String
  gender : Option String := some "Unknown"
  role : String := Roles.client

structure AssignAdminRoleCommand where
  userId : String
  roleName : String := "Administrator"

structure CreateRoleCommand where
  roleName : String

structure UpdateMeCommand where
  userId : String
  firstName : String
  lastName : String
  gender : String

structure ForgotPasswordCommand where
  email : String

structure ResetPasswordCommand where
  email : String
  token : String
  newPassword : String

def loginPipeline : Pipeline LoginCommand where
  endpoint := []
  validators :=
    [notEmpty "Email" "Email boş olamaz." LoginCommand.email,
      emailAddress "Email" "Geçerli bir email adresi girin." LoginCommand.email,
      notEmpty "Password" "Şifre boş olamaz." LoginCommand.password,
      minimumLength 6 "Password" "Şifre en az 6 karakter olmalıdır." LoginCommand.password]
  command := []

def refreshTokenPipeline : Pipeline RefreshTokenCommand where
  endpoint := []
  validators :=
    [notEmpty "AccessToken" "AccessToken boş olamaz." RefreshTokenCommand.accessToken,
      notEmpty "RefreshToken" "RefreshToken boş olamaz." RefreshTokenCommand.refreshToken]
  command := []

def registerPipeline : Pipeline RegisterCommand where
  endpoint := []
  validators :=
    [notEmpty "Email" "Email boş olamaz." RegisterCommand.email,
      emailAddress "Email" "Geçerli bir email adresi girin." RegisterCommand.email,
      notEmpty "Password" "Şifre boş olamaz." RegisterCommand.password,
      minimumLength 6 "Password" "Şifre en az 6 karakter olmalıdır." RegisterCommand.password,
      notEmpty "FirstName" "Ad alanı boş olamaz." RegisterCommand.firstName,
      notEmpty "LastName" "Soyad alanı boş olamaz." RegisterCommand.lastName]
  command := []

def assignAdminRolePipeline : Pipeline AssignAdminRoleCommand where
  endpoint := [authorizePolicy .requireAdministratorRole]
  validators := [notEmpty "UserId" "Kullanıcı ID'si boş olamaz." AssignAdminRoleCommand.userId]
  command := [authorizePolicy .requireAdministratorRole]

def createRolePipeline : Pipeline CreateRoleCommand where
  endpoint := [authorizePolicy .requireAdministratorRole]
  validators :=
    [notEmpty "RoleName" "Rol adı boş olamaz." CreateRoleCommand.roleName,
      minimumLength 3 "RoleName" "Rol adı en az 3 karakter olmalıdır." CreateRoleCommand.roleName]
  command := [authorizePolicy .requireAdministratorRole]

def getCurrentUserInfoPipeline : Pipeline Unit where
  endpoint := [authorize]
  validators := []
  command := []

def updateMePipeline : Pipeline UpdateMeCommand where
  endpoint := [authorize]
  validators :=
    [notEmpty "UserId" "UserId is required." UpdateMeCommand.userId,
      maximumLength 50 "FirstName" "First name cannot exceed 50 characters."
        UpdateMeCommand.firstName,
      maximumLength 50 "LastName" "Last name cannot exceed 50 characters."
        UpdateMeCommand.lastName,
      rule "Gender" "Gender must be one of: Male, Female, Other." fun c =>
        ["Male", "Female", "Other", "Unknown"].contains c.gender]
  command := []

def forgotPasswordPipeline : Pipeline ForgotPasswordCommand where
  endpoint := []
  validators :=
    [notEmpty "Email" "Email boş olamaz." ForgotPasswordCommand.email,
      emailAddress "Email" "Geçerli bir email adresi girin." ForgotPasswordCommand.email]
  command := []

def resetPasswordPipeline : Pipeline ResetPasswordCommand where
  endpoint := []
  validators :=
    [notEmpty "Email" "Email boş olamaz." ResetPasswordCommand.email,
      emailAddress "Email" "Geçerli bir email adresi girin." ResetPasswordCommand.email,
      notEmpty "Token" "Token boş olamaz." ResetPasswordCommand.token,
      notEmpty "NewPassword" "Yeni şifre boş olamaz." ResetPasswordCommand.newPassword,
      minimumLength 6 "NewPassword" "Yeni şifre en az 6 karakter olmalıdır."
        ResetPasswordCommand.newPassword]
  command := []

/-- The end of `LoginInternalAsync` and of `RefreshTokenInternalAsync`: only an
exception of the write shows in the answer. -/
def issueTokens (fw : Framework) (jwt : JwtOptions) (env : Env) (s : Store)
    (user updated : ApplicationUser) : Response :=
  let expires := env.now + jwt.expiryMinutes * ticksPerMinute
  let token := fw.writeToken user (s.getRolesAsync user.id) expires
  match updateUser fw env s updated with
  | (.threw, t) => (.error, t)
  | (_, t) => (.ok (.success (.auth token env.newRefreshToken expires)), t)

def withRefreshToken (fw : Framework) (jwt : JwtOptions) (env : Env) (user : ApplicationUser) :
    ApplicationUser :=
  { user with
    refreshToken := some (fw.hashRefreshToken env.newRefreshToken)
    refreshTokenExpiryTime :=
      some (env.now + jwt.refreshTokenExpiryDays * (24 * 60 * ticksPerMinute)) }

def loginAsync (fw : Framework) (jwt : JwtOptions) (env : Env) (c : LoginCommand) (s : Store) :
    Response :=
  match s.findByEmailAsync fw c.email with
  | none => (.error, s)
  | some none => (.ok (.fail "Invalid email or password."), s)
  | some (some user) =>
    if fw.checkPassword user c.password then
      issueTokens fw jwt env s user { withRefreshToken fw jwt env user with updateAt := env.now }
    else (.ok (.fail "Invalid email or password."), s)

/-- An access token that does not validate throws; its expiry is not looked at. -/
def refreshTokenAsync (fw : Framework) (jwt : JwtOptions) (env : Env) (c : RefreshTokenCommand)
    (s : Store) : Response :=
  match fw.readToken c.accessToken with
  | none => (.error, s)
  | some none => (.error, s)
  | some (some userId) => match s.findByIdAsync userId with
    | none => (.ok (.fail "User not found."), s)
    | some user =>
      if user.refreshToken = some (fw.hashRefreshToken c.refreshToken) then
        issueTokens fw jwt env s user (withRefreshToken fw jwt env user)
      else (.ok (.fail "Invalid refresh token."), s)

def newUser (env : Env) (c : RegisterCommand) : ApplicationUser where
  id := env.newId
  userName := c.email
  email := c.email
  phoneNumber := none
  firstName := some c.firstName
  lastName := some c.lastName
  gender := some (c.gender.getD "Unknown")
  passwordHash := ""
  refreshToken := none
  refreshTokenExpiryTime := none
  updateAt := 0

/-- The answer of `AddToRoleAsync` is not looked at, but its exceptions pass. -/
def registerAsync (fw : Framework) (env : Env) (c : RegisterCommand) (s : Store) : Response :=
  let user := newUser env c
  match createAsync fw env s user c.password with
  | (.failed errors, t) => (.ok (.failAll errors), t)
  | (.threw, t) => (.error, t)
  | (.succeeded, t) =>
    match addToRoleAsync fw env t (withPassword fw env user c.password) c.role with
    | (.threw, t') => (.error, t')
    | (_, t') => (.ok (.success (.text "User registered successfully.")), t')

def assignUserToRoleAsync (fw : Framework) (env : Env) (c : AssignAdminRoleCommand) (s : Store) :
    Response :=
  match s.findByIdAsync c.userId with
  | none => (.ok (.failAll ["User not found."]), s)
  | some user => match addToRoleAsync fw env s user c.roleName with
    | (.threw, t) => (.error, t)
    | (.failed errors, t) => (.ok (.failAll errors), t)
    | (.succeeded, t) => (.ok (.success (.text "Role assigned successfully.")), t)

def createRoleAsync (fw : Framework) (env : Env) (c : CreateRoleCommand) (s : Store) : Response :=
  match fw.roleErrors s.roles c.roleName with
  | error :: errors => (.ok (.failAll (error :: errors)), s)
  | [] => match env.create with
    | .saved => (.ok (.success (.text "Role created successfully.")), s.addRole c.roleName)
    | .conflict => (.ok (.failAll [concurrencyFailure]), s)
    | .failed => (.error, s)

/-- The roles are left out of this answer. -/
def getUserInfoAsync (userId : String) (s : Store) : Response :=
  match s.findByIdAsync userId with
  | none => (.ok (.failAll ["User not found."]), s)
  | some user => (.ok (.success (.user
      ⟨user.id, user.email, user.firstName, user.lastName, user.userName, user.gender, [],
        user.phoneNumber⟩)), s)

def getCurrentUserInfo (caller : Caller) (s : Store) : Response :=
  let id := caller.bind Principal.id
  if isNullOrWhiteSpace id then (.ok (.fail "Unauthorized"), s)
  else getUserInfoAsync (id.getD "") s

def changed (old : Option String) (new : String) : Option String :=
  if isNullOrWhiteSpace (some new) then old else some new

def updateUserAsync (fw : Framework) (env : Env) (userId : String) (c : UpdateMeCommand)
    (s : Store) : Response :=
  if isNullOrWhiteSpace (some userId) then (.ok (.fail "User not authenticated."), s)
  else match s.findByIdAsync userId with
  | none => (.ok (.fail "User not found."), s)
  | some user =>
    let updated : ApplicationUser :=
      { user with
        firstName := changed user.firstName c.firstName
        lastName := changed user.lastName c.lastName
        gender := changed user.gender c.gender
        updateAt := env.now }
    match updateUser fw env s updated with
    | (.threw, t) => (.error, t)
    | (.failed errors, t) => (.ok (.failAll errors), t)
    | (.succeeded, t) => (.ok (.success (.user
        ⟨updated.id, updated.email, some (updated.firstName.getD ""),
          some (updated.lastName.getD ""), updated.userName, some (updated.gender.getD ""),
          t.getRolesAsync updated.id, some (updated.phoneNumber.getD "")⟩)), t)

/-- The handler updates the caller, whatever user the body names. -/
def updateMe (fw : Framework) (env : Env) (caller : Caller) (c : UpdateMeCommand) (s : Store) :
    Response :=
  let id := caller.bind Principal.id
  if isNullOrWhiteSpace id then (.ok (.fail "Unauthorized"), s)
  else updateUserAsync fw env (id.getD "") c s

def sendPasswordResetLinkAsync (fw : Framework) (env : Env) (c : ForgotPasswordCommand)
    (s : Store) : Response :=
  match s.findByEmailAsync fw c.email with
  | none => (.error, s)
  | some none => (.ok (.failAll ["User not found."]), s)
  | some (some _) =>
    if env.emailSent then (.ok (.success (.text "Password reset link sent.")), s) else (.error, s)

def resetPasswordAsync (fw : Framework) (env : Env) (c : ResetPasswordCommand) (s : Store) :
    Response :=
  match s.findByEmailAsync fw c.email with
  | none => (.error, s)
  | some none => (.ok (.failAll ["User not found."]), s)
  | some (some user) =>
    if fw.checkResetToken user c.token then match fw.passwordErrors c.newPassword with
      | error :: errors => (.ok (.failAll (error :: errors)), s)
      | [] => match updateUser fw env s (withPassword fw env user c.newPassword) with
        | (.threw, t) => (.error, t)
        | (.failed errors, t) => (.ok (.failAll errors), t)
        | (.succeeded, t) => (.ok (.success (.text "Password reset successful.")), t)
    else (.ok (.failAll ["Invalid token."]), s)

inductive Request where
  | login : LoginCommand → Request
  | refreshToken : RefreshTokenCommand → Request
  | register : RegisterCommand → Request
  | assignAdminRole (userId : String) : Request
  | createRole (roleName : String) : Request
  | getCurrentUserInfo : Request
  | updateMe : UpdateMeCommand → Request
  | forgotPassword : ForgotPasswordCommand → Request
  | resetPassword : ResetPasswordCommand → Request

/-- `IdentityController`. -/
def serve (fw : Framework) (jwt : JwtOptions) (env : Env) (caller : Caller) (request : Request)
    (s : Store) : Response :=
  match request with
  | .login c => send loginPipeline s.authorizeAsync caller c (loginAsync fw jwt env c) s
  | .refreshToken c =>
    send refreshTokenPipeline s.authorizeAsync caller c (refreshTokenAsync fw jwt env c) s
  | .register c => send registerPipeline s.authorizeAsync caller c (registerAsync fw env c) s
  | .assignAdminRole userId =>
    let c : AssignAdminRoleCommand := ⟨userId, Roles.administrator⟩
    send assignAdminRolePipeline s.authorizeAsync caller c (assignUserToRoleAsync fw env c) s
  | .createRole roleName =>
    let c : CreateRoleCommand := ⟨roleName⟩
    send createRolePipeline s.authorizeAsync caller c (createRoleAsync fw env c) s
  | .getCurrentUserInfo =>
    send getCurrentUserInfoPipeline s.authorizeAsync caller () (getCurrentUserInfo caller) s
  | .updateMe c => send updateMePipeline s.authorizeAsync caller c (updateMe fw env caller c) s
  | .forgotPassword c =>
    send forgotPasswordPipeline s.authorizeAsync caller c (sendPasswordResetLinkAsync fw env c) s
  | .resetPassword c =>
    send resetPasswordPipeline s.authorizeAsync caller c (resetPasswordAsync fw env c) s

/-- One request with its caller and what it meets. -/
structure Label where
  caller : Caller
  request : Request
  env : Env

def step (fw : Framework) (jwt : JwtOptions) (s : Store) (l : Label) : Option Store :=
  some (serve fw jwt l.env l.caller l.request s).2

def IsAdministrator (s : Store) (userId : String) : Prop :=
  (userId, Roles.administrator) ∈ s.userRoles

instance (s : Store) (userId : String) : Decidable (IsAdministrator s userId) :=
  inferInstanceAs (Decidable (_ ∈ _))

/-- The bearer of the token holds the role at the time of the request. -/
def CallerIsAdministrator (s : Store) (caller : Caller) : Prop :=
  ∃ principal id, caller = some principal ∧ principal.id = some id ∧ IsAdministrator s id

/-- The user is known, and its new row replaces the old one. -/
theorem Store.findByIdAsync_setUser (s : Store) (user : ApplicationUser) (id : String) :
    (s.setUser user).findByIdAsync id =
      if user.id = id then (s.findByIdAsync id).map fun _ => user else s.findByIdAsync id := by
  have hids : (fun u : ApplicationUser => u.id == id) ∘
      (fun u => if u.id == user.id then user else u) = fun u => u.id == id := by
    funext u
    by_cases h : u.id = user.id <;> simp [h]
  simp only [Store.findByIdAsync, Store.setUser, Store.replaceUser]
  rw [List.find?_map, hids]
  cases hfind : s.users.find? fun u => u.id == id with
  | none => simp
  | some u =>
    have hu : u.id = id := by simpa using List.find?_some hfind
    by_cases h : user.id = id
    · simp [h, hu]
    · simp [h, hu, Ne.symm h]

theorem Store.findByIdAsync_of_mem {s : Store} {user : ApplicationUser} (h : user ∈ s.users) :
    s.findByIdAsync user.id = some user := by
  cases hfind : s.findByIdAsync user.id with
  | none =>
    have hnot := List.find?_eq_none.mp hfind user h
    simp at hnot
  | some found =>
    have hid : found.id = user.id := by simpa using List.find?_some hfind
    rw [List.inj_on_of_nodup_map s.keyed (List.mem_of_find?_eq_some hfind) h hid]

theorem Store.mem_of_findByEmailAsync {fw : Framework} {s : Store} {email : String}
    {user : ApplicationUser} (h : s.findByEmailAsync fw email = some (some user)) :
    user ∈ s.users := by
  unfold Store.findByEmailAsync at h
  split at h
  · cases h
  · rename_i found hfilter
    cases h
    have hin := List.mem_singleton_self user
    rw [← hfilter] at hin
    exact (List.mem_filter.mp hin).1
  · cases h

/-- A policy that asks for the administrator role is met by administrators only. -/
theorem authorizeAsync_administrator {s : Store} {userId : String} {policy : Policy}
    (hpolicy : policy.requiredRole = some Roles.administrator)
    (h : s.authorizeAsync userId policy = some true) : IsAdministrator s userId := by
  unfold Store.authorizeAsync at h
  split at h
  · simp at h
  · rename_i user hfind
    have hid : user.id = userId := by simpa using List.find?_some hfind
    simp only [satisfies, hpolicy, Option.map_some, Option.some.injEq,
      List.contains_iff_mem, Store.getRolesAsync, List.mem_map, List.mem_filter, beq_iff_eq] at h
    obtain ⟨p, ⟨hp, hpid⟩, hprole⟩ := h
    rwa [← hid, IsAdministrator, ← hpid, ← hprole]

end Identity
