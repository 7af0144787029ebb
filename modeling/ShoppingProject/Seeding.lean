import ShoppingProject.Accounts

/-!
# Seeding the accounts

A start in development creates the two roles, two accounts that are always the same and fifty
made-up ones, each unless it is there. An account is created in one write and joins its role in
another. An exception ends the start; a start that is killed leaves what one leaves whose next
write fails.
-/
namespace Seeding

open Requests Identity Privileges Accounts Runs

/-- What the seeder writes into an account. -/
structure Seed where
  email : String
  firstName : String
  lastName : String
  gender : String
  phoneNumber : String
  password : String
  role : String

/-- What the faker makes up for an account. -/
structure Faked where
  email : String
  firstName : String
  lastName : String
  gender : String
  phoneNumber : String

def adminEmail : String := "admin@test.com"

def clientEmail : String := "user@test.com"

def adminSeed (phoneNumber : String) : Seed :=
  ⟨adminEmail, "System", "Admin", "Male", phoneNumber, "Admin123!", Roles.administrator⟩

def clientSeed (phoneNumber : String) : Seed :=
  ⟨clientEmail, "Furkan", "Türkyılmaz", "Male", phoneNumber, "User123!", Roles.client⟩

def randomSeed (faked : Faked) : Seed :=
  ⟨faked.email, faked.firstName, faked.lastName, faked.gender, faked.phoneNumber, "User123!",
    Roles.client⟩

/-- `email.Split('@')[0]` -/
def beforeAt (email : String) : String := String.ofList (email.toList.takeWhile (· ≠ '@'))

def seededUser (env : Env) (seed : Seed) : ApplicationUser where
  id := env.newId
  userName := beforeAt seed.email
  email := seed.email
  phoneNumber := some seed.phoneNumber
  firstName := some seed.firstName
  lastName := some seed.lastName
  gender := some seed.gender
  passwordHash := ""
  refreshToken := none
  refreshTokenExpiryTime := none
  updateAt := 0

/-- One role or one account of the seeder. -/
inductive Task where
  | role (name : String)
  | user (seed : Seed)

section

variable (fw : Framework) (env : Env) (s : Store)

/-- Whether it went through without an exception, and what it left. -/
def seedRole (name : String) : Bool × Store :=
  if (s.findRole fw name).isSome then (true, s)
  else match fw.roleErrors s.roles name with
  | _ :: _ => (true, s)
  | [] => match env.create with
    | .saved => (true, s.addRole name)
    | .conflict => (true, s)
    | .failed => (false, s)

def seedUser (seed : Seed) : Bool × Store :=
  match s.findByEmailAsync fw seed.email with
  | none => (false, s)
  | some (some _) => (true, s)
  | some none =>
    match createAsync fw env s (seededUser env seed) seed.password with
    | (.threw, t) => (false, t)
    | (.failed _, t) => (true, t)
    | (.succeeded, t) =>
      match addToRoleAsync fw env t (withPassword fw env (seededUser env seed) seed.password)
          seed.role with
      | (.threw, u) => (false, u)
      | (_, u) => (true, u)

def perform (task : Task) : Bool × Store :=
  match task with
  | .role name => seedRole fw env s name
  | .user seed => seedUser fw env s seed

end

def performAll (fw : Framework) : List (Task × Env) → Store → Bool × Store
  | [], s => (true, s)
  | (task, env) :: work, s => match perform fw env s task with
    | (true, t) => performAll fw work t
    | (false, t) => (false, t)

/-- What one start draws and meets. -/
structure Start where
  isDevelopment : Bool
  adminPhone : String
  clientPhone : String
  faked : Fin 50 → Faked
  envs : Nat → Env

def Start.tasks (c : Start) : List Task :=
  [.role Roles.administrator, .role Roles.client, .user (adminSeed c.adminPhone),
    .user (clientSeed c.clientPhone)] ++ List.ofFn fun i => .user (randomSeed (c.faked i))

def Start.work (c : Start) : List (Task × Env) :=
  c.tasks.zipIdx.map fun (task, i) => (task, c.envs i)

def seedAsync (fw : Framework) (c : Start) (s : Store) : Bool × Store :=
  if c.isDevelopment then performAll fw c.work s else (true, s)

/-- The instances that start, each one task after another, and the requests of the API. -/
inductive Label where
  | seed (task : Task) (env : Env)
  | request (l : Identity.Label)

def step (fw : Framework) (jwt : JwtOptions) (s : Store) : Label → Option Store
  | .seed task env => some (perform fw env s task).2
  | .request l => Identity.step fw jwt s l

/-- The tasks of a run are those of the seeder. -/
def Label.Started : Label → Prop
  | .seed task _ => ∃ c : Start, task ∈ c.tasks
  | .request _ => True

variable {fw : Framework} {jwt : JwtOptions}

theorem performAll_run (work : List (Task × Env)) (s : Store) : ∃ tr,
    tr <+: work.map (fun w => Label.seed w.1 w.2) ∧
      run (step fw jwt) s tr = some (performAll fw work s).2 := by
  induction work generalizing s with
  | nil => exact ⟨[], List.prefix_rfl, rfl⟩
  | cons w work ih =>
    obtain ⟨task, env⟩ := w
    cases hperform : perform fw env s task with
    | mk completed t =>
      have hstep : step fw jwt s (.seed task env) = some t := by simp [step, hperform]
      cases completed with
      | false =>
        refine ⟨[.seed task env], ⟨work.map fun w => .seed w.1 w.2, rfl⟩, ?_⟩
        simp [performAll, hperform, hstep]
      | true =>
        obtain ⟨tr, hfirst, hrun⟩ := ih t
        refine ⟨.seed task env :: tr, List.cons_prefix_cons.mpr ⟨rfl, hfirst⟩, ?_⟩
        rw [run_cons, hstep]
        simpa [performAll, hperform] using hrun

/-- A start is a run of its first tasks. -/
theorem seedAsync_run (c : Start) (s : Store) : ∃ tr, (∀ l ∈ tr, l.Started) ∧
    run (step fw jwt) s tr = some (seedAsync fw c s).2 := by
  unfold seedAsync
  split
  · obtain ⟨tr, hfirst, hrun⟩ := @performAll_run fw jwt c.work s
    refine ⟨tr, fun l hl => ?_, hrun⟩
    obtain ⟨w, hw, rfl⟩ := List.mem_map.mp (hfirst.subset hl)
    obtain ⟨⟨task, i⟩, hzip, rfl⟩ := List.mem_map.mp hw
    exact ⟨c, (List.mem_zipIdx hzip).2.2 ▸ List.getElem_mem _⟩
  · exact ⟨[], by simp, rfl⟩

/-! ## What a task writes -/

/-- The account as it is created. -/
def stored (fw : Framework) (env : Env) (seed : Seed) : ApplicationUser :=
  withPassword fw env (seededUser env seed) seed.password

/-- The account is not there, and the rules and the database let it be created and join `role`. -/
structure Seeds (fw : Framework) (env : Env) (s : Store) (seed : Seed) (role : String) : Prop where
  unknown : s.findByEmailAsync fw seed.email = some none
  password : fw.passwordErrors seed.password = []
  user : fw.userErrors s.users (stored fw env seed) = []
  fresh : env.newId ∉ s.ids
  created : env.create = .saved
  named : s.findRole fw seed.role = some role
  member : fw.userErrors (s.users ++ [stored fw env seed]) (stored fw env seed) = []
  updated : env.update = .saved

section

variable (env : Env) (s : Store)

/-- A task adds one membership of the account it has created, or none. -/
theorem seedUser_userRoles (seed : Seed) :
    (seedUser fw env s seed).2.userRoles = s.userRoles ∨
    ∃ role, Seeds fw env s seed role ∧
      (seedUser fw env s seed).2.userRoles = s.userRoles ++ [(env.newId, role)] := by
  have hcreate := createAsync_userRoles fw env s (seededUser env seed) seed.password
  unfold seedUser
  split
  · exact .inl rfl
  · exact .inl rfl
  · rename_i hunknown
    split
    · rename_i heq
      rw [heq] at hcreate
      exact .inl hcreate
    · rename_i heq
      rw [heq] at hcreate
      exact .inl hcreate
    · rename_i t heq
      obtain ⟨hpassword, hrules, hsaved, fresh, rfl⟩ := createAsync_succeeded heq
      have hadd := addToRoleAsync_userRoles fw env (s.addUser (stored fw env seed) fresh)
        (stored fw env seed) seed.role
      have hend : (addToRoleAsync fw env (s.addUser (stored fw env seed) fresh)
            (stored fw env seed) seed.role).2.userRoles = s.userRoles ∨
          ∃ role, Seeds fw env s seed role ∧
            (addToRoleAsync fw env (s.addUser (stored fw env seed) fresh)
              (stored fw env seed) seed.role).2.userRoles = s.userRoles ++ [(env.newId, role)] := by
        rcases hadd with h | ⟨role, hnamed, hmember, hupdated, h⟩
        · exact .inl h
        · exact .inr ⟨role, ⟨hunknown, hpassword, hrules, fresh, hsaved, hnamed, hmember,
            hupdated⟩, h⟩
      split
      · rename_i heq'
        rwa [show addToRoleAsync fw env (s.addUser (stored fw env seed) fresh)
          (stored fw env seed) seed.role = _ from heq'] at hend
      · rename_i heq'
        rwa [show addToRoleAsync fw env (s.addUser (stored fw env seed) fresh)
          (stored fw env seed) seed.role = _ from heq'] at hend

/-- An account that is accepted does join its role. -/
theorem seedUser_seeds {seed : Seed} {role : String} (h : Seeds fw env s seed role) :
    (env.newId, role) ∈ (seedUser fw env s seed).2.userRoles := by
  have hcreate : createAsync fw env s (seededUser env seed) seed.password =
      (.succeeded, s.addUser (stored fw env seed) h.fresh) := by
    have hrules := h.user
    have fresh : (seededUser env seed).id ∉ s.ids := h.fresh
    rw [stored] at hrules
    simp [createAsync, h.password, hrules, fresh, h.created, stored]
  have hnew : ((stored fw env seed).id, role) ∉ s.userRoles :=
    fun hmem => h.fresh (s.memberKnown _ hmem)
  have hjoin := @addToRoleAsync_joins fw env (s.addUser (stored fw env seed) h.fresh)
    (stored fw env seed) seed.role role h.named hnew h.member h.updated
    (by simp [Store.ids, Store.addUser])
  have hmem : (env.newId, role) ∈ (addToRoleAsync fw env
      (s.addUser (stored fw env seed) h.fresh) (stored fw env seed) seed.role).2.userRoles := by
    rw [hjoin]
    exact List.mem_append_right _ (List.mem_singleton_self _)
  unfold seedUser
  simp only [h.unknown, hcreate]
  split <;> rename_i hadd <;> rwa [show addToRoleAsync fw env
    (s.addUser (stored fw env seed) h.fresh) (stored fw env seed) seed.role = _ from hadd] at hmem

theorem seedRole_userRoles (name : String) :
    (seedRole fw env s name).2.userRoles = s.userRoles := by
  unfold seedRole
  split
  · rfl
  · split
    · rfl
    · split <;> rfl

/-- All that a task can do to the memberships. -/
theorem perform_userRoles (task : Task) : (perform fw env s task).2.userRoles = s.userRoles ∨
    ∃ seed role, task = .user seed ∧ Seeds fw env s seed role ∧
      (perform fw env s task).2.userRoles = s.userRoles ++ [(env.newId, role)] := by
  cases task with
  | role name => exact .inl (seedRole_userRoles env s name)
  | user seed =>
    rcases seedUser_userRoles env s seed with h | ⟨role, hseeds, h⟩
    · exact .inl h
    · exact .inr ⟨seed, role, rfl, hseeds, h⟩

theorem seedUser_follows {R : ApplicationUser → ApplicationUser → Prop} (seed : Seed) :
    Follows R s (seedUser fw env s seed).2 := by
  have hcreate : Follows R s (createAsync fw env s (seededUser env seed) seed.password).2 :=
    follows_createAsync env _ _
  unfold seedUser
  split
  · exact follows_refl R s
  · exact follows_refl R s
  · split
    · rename_i heq
      rwa [heq] at hcreate
    · rename_i heq
      rwa [heq] at hcreate
    · rename_i t heq
      rw [heq] at hcreate
      have hadd := @users_addToRoleAsync fw t env
        (withPassword fw env (seededUser env seed) seed.password) seed.role
      split <;> rename_i heq' <;> rw [heq'] at hadd <;> exact hcreate.trans_same hadd

theorem seedRole_follows {R : ApplicationUser → ApplicationUser → Prop} (name : String) :
    Follows R s (seedRole fw env s name).2 := by
  refine follows_same ?_
  unfold seedRole
  split
  · rfl
  · split
    · rfl
    · split <;> rfl

theorem perform_follows {R : ApplicationUser → ApplicationUser → Prop} (task : Task) :
    Follows R s (perform fw env s task).2 := by
  cases task with
  | role name => exact seedRole_follows env s name
  | user seed => exact seedUser_follows env s seed

end

/-! ## The first administrator -/

/-- The step that makes an administrator without one. -/
def Founds (fw : Framework) (s : Store) : Label → Prop
  | .seed (.user seed) env => Seeds fw env s seed Roles.administrator
  | .seed (.role _) _ => False
  | .request l => RegistersAs fw l.env s Roles.administrator l.request

theorem subset_of_same {s t : Store} (h : t.userRoles = s.userRoles) : s.userRoles ⊆ t.userRoles :=
  h ▸ List.Subset.refl _

theorem subset_of_joins {s t : Store} {p : String × String}
    (h : t.userRoles = s.userRoles ++ [p]) : s.userRoles ⊆ t.userRoles :=
  h ▸ List.subset_append_left _ _

theorem serve_userRoles_subset (l : Identity.Label) (s : Store) :
    s.userRoles ⊆ (serve fw jwt l.env l.caller l.request s).2.userRoles := by
  obtain ⟨caller, request, env⟩ := l
  cases request with
  | login c => exact subset_of_same (send_userRoles _ (loginAsync_userRoles ..))
  | refreshToken c => exact subset_of_same (send_userRoles _ (refreshTokenAsync_userRoles ..))
  | register c =>
    refine send_keeps (fun t : Store => s.userRoles ⊆ t.userRoles) (List.Subset.refl _) fun _ => ?_
    rcases registerAsync_userRoles fw env c s with h | ⟨role, -, h⟩
    · exact subset_of_same h
    · exact subset_of_joins h
  | assignAdminRole userId =>
    refine send_keeps (fun t : Store => s.userRoles ⊆ t.userRoles) (List.Subset.refl _) fun _ => ?_
    unfold assignUserToRoleAsync
    split
    · exact List.Subset.refl _
    · rename_i user hfind
      have hadd : s.userRoles ⊆
          (addToRoleAsync fw env s user Roles.administrator).2.userRoles := by
        rcases addToRoleAsync_userRoles fw env s user Roles.administrator with h | ⟨_, -, -, -, h⟩
        · exact subset_of_same h
        · exact subset_of_joins h
      split <;> rename_i heq <;> rwa [heq] at hadd
  | createRole roleName => exact subset_of_same (send_userRoles _ (createRoleAsync_userRoles ..))
  | getCurrentUserInfo => exact subset_of_same (send_userRoles () (getCurrentUserInfo_userRoles ..))
  | updateMe c => exact subset_of_same (send_userRoles _ (updateMe_userRoles ..))
  | forgotPassword c =>
    exact subset_of_same (send_userRoles _ (sendPasswordResetLinkAsync_userRoles ..))
  | resetPassword c => exact subset_of_same (send_userRoles _ (resetPasswordAsync_userRoles ..))

theorem step_userRoles_subset {s t : Store} {l : Label} (h : step fw jwt s l = some t) :
    s.userRoles ⊆ t.userRoles := by
  cases l with
  | seed task env =>
    obtain rfl : (perform fw env s task).2 = t := Option.some.inj h
    rcases @perform_userRoles fw env s task with h | ⟨_, _, -, -, h⟩
    · exact subset_of_same h
    · exact subset_of_joins h
  | request l =>
    obtain rfl : (serve fw jwt l.env l.caller l.request s).2 = t := Option.some.inj h
    exact serve_userRoles_subset l s

/-- Without an administrator only these steps make one. -/
theorem step_founds {s t : Store} {l : Label} (h : step fw jwt s l = some t)
    (hnone : ∀ u, ¬ IsAdministrator s u) {u : String} (hu : IsAdministrator t u) :
    Founds fw s l := by
  have hjoins : ∀ {id role : String}, t.userRoles = s.userRoles ++ [(id, role)] →
      role = Roles.administrator := by
    intro id role happend
    rw [IsAdministrator, happend, List.mem_append, List.mem_singleton] at hu
    rcases hu with hu | hu
    · exact absurd hu (hnone u)
    · exact (Prod.mk.inj hu).2.symm
  have hsame : t.userRoles ≠ s.userRoles := by
    intro heq
    rw [IsAdministrator, heq] at hu
    exact hnone u hu
  cases l with
  | seed task env =>
    obtain rfl : (perform fw env s task).2 = t := Option.some.inj h
    rcases @perform_userRoles fw env s task with h | ⟨seed, role, rfl, hseeds, h⟩
    · exact absurd h hsame
    · obtain rfl := hjoins h
      exact hseeds
  | request l =>
    obtain rfl : (serve fw jwt l.env l.caller l.request s).2 = t := Option.some.inj h
    rcases serve_userRoles fw jwt l.env l.caller l.request s with
      h | ⟨role, hregisters, h⟩ | ⟨_, id, -, -, hcaller⟩
    · exact absurd h hsame
    · obtain rfl := hjoins h
      exact hregisters
    · exact absurd hcaller (hnone id)

theorem founds_administrator {s t : Store} {l : Label} (h : step fw jwt s l = some t)
    (hfounds : Founds fw s l) : ∃ u, IsAdministrator t u := by
  cases l with
  | seed task env =>
    obtain rfl : (perform fw env s task).2 = t := Option.some.inj h
    cases task with
    | role name => exact hfounds.elim
    | user seed => exact ⟨env.newId, seedUser_seeds env s hfounds⟩
  | request l =>
    obtain rfl : (serve fw jwt l.env l.caller l.request s).2 = t := Option.some.inj h
    obtain ⟨caller, request, env⟩ := l
    cases request with
    | register c =>
      obtain ⟨hvalid, hregisters⟩ := hfounds
      have hadmitted : Admits registerPipeline s.authorizeAsync caller c := ⟨rfl, hvalid, rfl⟩
      refine ⟨env.newId, ?_⟩
      rw [IsAdministrator, show (serve fw jwt env caller (.register c) s) = registerAsync fw env c s
        from send_admitted hadmitted _ s]
      exact registerAsync_registers hregisters
    | _ => exact hfounds.elim

/-- There is no administrator but for one that there was and those of the run. -/
theorem administrator_founded {s t : Store} {tr : List Label}
    (hrun : run (step fw jwt) s tr = some t) (h : ∃ u, IsAdministrator t u) :
    (∃ u, IsAdministrator s u) ∨ ∃ v ∈ visits (step fw jwt) s tr, Founds fw v.1 v.2.1 := by
  rcases arises (fun t => ∃ u, IsAdministrator t u) hrun h with hs | ⟨v, hv, hold, u, hu⟩
  · exact .inl hs
  · exact .inr ⟨v, hv, step_founds (step_of_mem_visits hv) (not_exists.mp hold) hu⟩

/-- Whatever starts and requests there have been, there is an administrator if there was one, or
if the seeder has created one or a registration has named the role. -/
theorem administered_iff {s t : Store} {tr : List Label} (hrun : run (step fw jwt) s tr = some t) :
    (∃ u, IsAdministrator t u) ↔ (∃ u, IsAdministrator s u) ∨
      ∃ v ∈ visits (step fw jwt) s tr, Founds fw v.1 v.2.1 := by
  have hkeep : ∀ s l t, (∃ u, IsAdministrator s u) → step fw jwt s l = some t →
      ∃ u, IsAdministrator t u :=
    fun s l t ⟨u, hu⟩ hstep => ⟨u, step_userRoles_subset hstep hu⟩
  refine ⟨administrator_founded hrun, ?_⟩
  rintro (hs | ⟨v, hv, hfounds⟩)
  · exact run_keeps (fun t => ∃ u, IsAdministrator t u) (fun _ => True)
      (fun s l t hs _ => hkeep s l t hs) hs (fun _ _ => trivial) hrun
  · exact visits_lasts _ hkeep hrun hv (founds_administrator (step_of_mem_visits hv) hfounds)

/-- What a task meets when nothing fails. -/
def smooth (newId : String) : Env := ⟨0, newId, "", "", .saved, .saved, true⟩

/-- The administrator of an empty database. -/
theorem first_administrator : ∃ t, run (step plainFramework ⟨60, 7⟩) emptyStore
    [.seed (.user (adminSeed "")) (smooth "a1")] = some t ∧ ∃ u, IsAdministrator t u :=
  ⟨_, rfl, (administered_iff (show run (step plainFramework ⟨60, 7⟩) emptyStore
    [.seed (.user (adminSeed "")) (smooth "a1")] = some _ from rfl)).mpr
      (.inr ⟨_, List.mem_singleton_self _,
        show Seeds plainFramework (smooth "a1") emptyStore (adminSeed "") Roles.administrator from
          ⟨rfl, rfl, rfl, by decide, rfl, rfl, rfl, rfl⟩⟩)⟩

/-! ## Accounts that are there -/

/-- No account is removed or gets another address. -/
theorem step_keeps_account {s t : Store} {l : Label} (h : step fw jwt s l = some t)
    {user : ApplicationUser} (huser : user ∈ s.users) :
    ∃ user' ∈ t.users, user'.id = user.id ∧ user'.email = user.email := by
  have hkeeps : ∀ {R : ApplicationUser → ApplicationUser → Prop}, Follows R s t →
      (∀ user', R user user' → user'.id = user.id ∧ user'.email = user.email) →
      ∃ user' ∈ t.users, user'.id = user.id ∧ user'.email = user.email := by
    intro R hfollows hR
    obtain ⟨user', hfind, hrow⟩ := hfollows user.id user (Store.findByIdAsync_of_mem huser)
    refine ⟨user', List.mem_of_find?_eq_some hfind, ?_⟩
    rcases hrow with rfl | hrow
    · exact ⟨rfl, rfl⟩
    · exact hR user' hrow
  cases l with
  | seed task env =>
    obtain rfl : (perform fw env s task).2 = t := Option.some.inj h
    exact hkeeps (@perform_follows fw env s (fun _ _ => False) task) (fun _ hR => hR.elim)
  | request l =>
    obtain rfl : (serve fw jwt l.env l.caller l.request s).2 = t := Option.some.inj h
    refine hkeeps (serve_follows s l) fun user' hwrites => ?_
    cases hwrites <;> exact ⟨rfl, rfl⟩

/-- Some account has the address. -/
def Known (fw : Framework) (s : Store) (email : String) : Prop :=
  ∃ user ∈ s.users, fw.normalizeName user.email = fw.normalizeName email

theorem step_known {s t : Store} {l : Label} {email : String} (h : Known fw s email)
    (hstep : step fw jwt s l = some t) : Known fw t email := by
  obtain ⟨user, huser, hemail⟩ := h
  obtain ⟨user', huser', -, heq⟩ := step_keeps_account hstep huser
  exact ⟨user', huser', heq ▸ hemail⟩

theorem found_of_known {s : Store} {email : String} (h : Known fw s email) :
    s.findByEmailAsync fw email ≠ some none := by
  obtain ⟨user, huser, hemail⟩ := h
  have hmem : user ∈ s.users.filter fun u => fw.normalizeName u.email == fw.normalizeName email :=
    List.mem_filter.mpr ⟨huser, by simpa using hemail⟩
  unfold Store.findByEmailAsync
  split
  · rename_i hnil
    rw [hnil] at hmem
    cases hmem
  · simp
  · simp

theorem seed_of_mem_tasks {c : Start} {seed : Seed} (h : Task.user seed ∈ c.tasks) :
    seed.email = adminEmail ∨ seed.role = Roles.client := by
  simp only [Start.tasks, List.mem_append, List.mem_cons, List.not_mem_nil, or_false, reduceCtorEq,
    false_or, Task.user.injEq, List.mem_ofFn] at h
  rcases h with (rfl | rfl) | ⟨i, rfl⟩
  · exact .inl rfl
  · exact .inr rfl
  · exact .inr rfl

/-- If the seeder is stopped between its two writes for the administrator, no later start makes
up for it, and as long as no registration names the role there never is an administrator. -/
theorem never_administered {s t : Store} {tr : List Label}
    (hroles : fw.normalizeName Roles.client ≠ fw.normalizeName Roles.administrator)
    (hknown : Known fw s adminEmail) (hnone : ∀ u, ¬ IsAdministrator s u)
    (htr : ∀ l ∈ tr, l.Started)
    (hregisters : ∀ v ∈ visits (step fw jwt) s tr, ∀ l, v.2.1 = .request l →
      ¬ RegistersAs fw l.env v.1 Roles.administrator l.request)
    (hrun : run (step fw jwt) s tr = some t) : ∀ u, ¬ IsAdministrator t u := by
  intro u hu
  rcases administrator_founded hrun ⟨u, hu⟩ with ⟨u, hs⟩ | ⟨v, hv, hfounds⟩
  · exact hnone u hs
  · have hknown' : Known fw v.1 adminEmail :=
      (visits_invariant (fun s => Known fw s adminEmail) (fun _ _ => True)
        (fun _ _ _ h _ hstep => step_known h hstep) hknown (fun _ _ => trivial) v hv).1
    have hlabels : (visits (step fw jwt) s tr).map (fun v => v.2.1) = tr :=
      visits_labels (fun s l => by cases l <;> rfl) s tr
    have hl : v.2.1 ∈ tr := hlabels ▸ List.mem_map_of_mem hv
    cases hlabel : v.2.1 with
    | request l =>
      rw [hlabel] at hfounds
      exact hregisters v hv l hlabel hfounds
    | seed task env =>
      rw [hlabel] at hfounds hl
      cases task with
      | role name => exact hfounds
      | user seed =>
        obtain ⟨c, hc⟩ := htr _ hl
        rcases seed_of_mem_tasks hc with hemail | hrole
        · exact found_of_known hknown' (hemail ▸ hfounds.unknown)
        · have hfound := List.find?_some hfounds.named
          rw [hrole] at hfound
          exact hroles (by simpa using (beq_iff_eq.mp hfound).symm)

/-- The administrator's account is created, and then the database fails. -/
def stopped : Store :=
  (perform plainFramework { smooth "a1" with update := .failed } emptyStore
    (.user (adminSeed ""))).2

def quietStart : Start := ⟨true, "", "", fun _ => ⟨"", "", "", "", ""⟩, fun _ => smooth "a2"⟩

/-- A later start comes to the account again. -/
def again : List Label := [.seed (.user (adminSeed "")) (smooth "a2")]

theorem stopped_never_administered : ∃ t,
    run (step plainFramework ⟨60, 7⟩) stopped again = some t ∧ ∀ u, ¬ IsAdministrator t u := by
  have hrun : run (step plainFramework ⟨60, 7⟩) stopped again = some _ := rfl
  refine ⟨_, hrun, never_administered (by decide) ?_ ?_ ?_ ?_ hrun⟩
  · exact ⟨stored plainFramework (smooth "a1") (adminSeed ""), by decide, rfl⟩
  · intro u hu
    cases hu
  · intro l hl
    obtain rfl := List.mem_singleton.mp hl
    exact ⟨quietStart, by simp [Start.tasks, quietStart]⟩
  · intro v hv l hl
    obtain rfl := List.mem_singleton.mp hv
    cases hl

/-- A start leaves every account that is there as it is, and in the roles that it has. -/
theorem starts_keep_accounts {s t : Store} {tr : List Label}
    (htr : ∀ l ∈ tr, ∃ task env, l = .seed task env) (hrun : run (step fw jwt) s tr = some t)
    {user : ApplicationUser} (huser : user ∈ s.users) :
    user ∈ t.users ∧ ∀ role, (user.id, role) ∈ t.userRoles ↔ (user.id, role) ∈ s.userRoles := by
  refine run_keeps (fun t : Store => user ∈ t.users ∧
    ∀ role, (user.id, role) ∈ t.userRoles ↔ (user.id, role) ∈ s.userRoles)
    (fun l => ∃ task env, l = .seed task env) ?_ ⟨huser, fun _ => Iff.rfl⟩ htr hrun
  rintro s l t ⟨huser, hroles⟩ ⟨task, env, rfl⟩ hstep
  obtain rfl : (perform fw env s task).2 = t := Option.some.inj hstep
  constructor
  · obtain ⟨user', hfind, hrow⟩ := @perform_follows fw env s (fun _ _ => False) task user.id user
      (Store.findByIdAsync_of_mem huser)
    obtain rfl : user' = user := by simpa using hrow
    exact List.mem_of_find?_eq_some hfind
  · intro role
    rw [← hroles role]
    rcases @perform_userRoles fw env s task with h | ⟨seed, other, -, hseeds, h⟩
    · rw [h]
    · have hne : user.id ≠ env.newId := by
        intro heq
        exact hseeds.fresh (heq ▸ List.mem_map_of_mem huser)
      simp [h, hne]

theorem administrator_kept : ∃ t, run (step plainFramework ⟨60, 7⟩) stopped again = some t ∧
    stored plainFramework (smooth "a1") (adminSeed "") ∈ t.users := by
  have hrun : run (step plainFramework ⟨60, 7⟩) stopped again = some _ := rfl
  exact ⟨_, hrun, (starts_keep_accounts (by simp [again]) hrun (by decide)).1⟩

/-! ## Two accounts of one address -/

/-- Two accounts have the address. -/
def Shared (fw : Framework) (s : Store) (email : String) : Prop :=
  ∃ u ∈ s.users, ∃ v ∈ s.users, u.id ≠ v.id ∧ fw.normalizeName u.email = fw.normalizeName email ∧
    fw.normalizeName v.email = fw.normalizeName email

theorem step_shared {s t : Store} {l : Label} {email : String} (h : Shared fw s email)
    (hstep : step fw jwt s l = some t) : Shared fw t email := by
  obtain ⟨u, hu, v, hv, hne, huemail, hvemail⟩ := h
  obtain ⟨u', hu', huid, hueq⟩ := step_keeps_account hstep hu
  obtain ⟨v', hv', hvid, hveq⟩ := step_keeps_account hstep hv
  exact ⟨u', hu', v', hv', by rwa [huid, hvid], hueq ▸ huemail, hveq ▸ hvemail⟩

/-- `SingleOrDefaultAsync` finds more than one. -/
theorem findByEmailAsync_shared {s : Store} {email other : String} (h : Shared fw s email)
    (hother : fw.normalizeName other = fw.normalizeName email) :
    s.findByEmailAsync fw other = none := by
  obtain ⟨u, hu, v, hv, hne, huemail, hvemail⟩ := h
  have hmem : ∀ w ∈ s.users, fw.normalizeName w.email = fw.normalizeName email →
      w ∈ s.users.filter fun x => fw.normalizeName x.email == fw.normalizeName other := by
    intro w hw hwemail
    exact List.mem_filter.mpr ⟨hw, by simpa [hother] using hwemail⟩
  have hmemu := hmem u hu huemail
  have hmemv := hmem v hv hvemail
  unfold Store.findByEmailAsync
  split
  · rename_i hnil
    rw [hnil] at hmemu
    cases hmemu
  · rename_i hone
    rw [hone, List.mem_singleton] at hmemu hmemv
    exact absurd (by rw [hmemu, hmemv]) hne
  · rfl

/-- The address that a request of an account that is not signed in goes by. -/
def addressed : Request → Option String
  | .login c => some c.email
  | .forgotPassword c => some c.email
  | .resetPassword c => some c.email
  | _ => none

theorem serve_shared {s : Store} {l : Identity.Label} {email other : String}
    (h : Shared fw s email) (haddressed : addressed l.request = some other)
    (hother : fw.normalizeName other = fw.normalizeName email) (r : ServiceResult Answer) :
    (serve fw jwt l.env l.caller l.request s).1 ≠ .ok r := by
  have hnone := findByEmailAsync_shared h hother
  have hsend : ∀ {γ : Type} (pipeline : Pipeline γ) (request : γ) (handle : Store → Response),
      handle s = (.error, s) →
        (send pipeline s.authorizeAsync l.caller request handle s).1 ≠ .ok r := by
    intro γ pipeline request handle hhandle
    by_cases hadmits : Admits pipeline s.authorizeAsync l.caller request
    · rw [send_admitted hadmits, hhandle]
      simp
    · exact (send_refused hadmits handle s).2 r
  obtain ⟨caller, request, env⟩ := l
  cases request with
  | login c =>
    obtain rfl := Option.some.inj haddressed
    exact hsend _ _ _ (by simp [loginAsync, hnone])
  | forgotPassword c =>
    obtain rfl := Option.some.inj haddressed
    exact hsend _ _ _ (by simp [sendPasswordResetLinkAsync, hnone])
  | resetPassword c =>
    obtain rfl := Option.some.inj haddressed
    exact hsend _ _ _ (by simp [resetPasswordAsync, hnone])
  | refreshToken _ | register _ | assignAdminRole _ | createRole _ | getCurrentUserInfo
  | updateMe _ => cases haddressed

/-- The seeder throws at the account, if it gets there. -/
theorem performAll_shared {work : List (Task × Env)} {s : Store} {email : String}
    (h : Shared fw s email) (hwork : ∃ w ∈ work, ∃ seed, w.1 = .user seed ∧
      fw.normalizeName seed.email = fw.normalizeName email) :
    (performAll fw work s).1 = false := by
  induction work generalizing s with
  | nil => simp at hwork
  | cons w work ih =>
    obtain ⟨task, env⟩ := w
    cases hperform : perform fw env s task with
    | mk completed t =>
      cases completed with
      | false => simp [performAll, hperform]
      | true =>
        have hstep : step fw ⟨0, 0⟩ s (.seed task env) = some t := by simp [step, hperform]
        simp only [performAll, hperform]
        refine ih (step_shared h hstep) ?_
        obtain ⟨w, hw, seed, hseed, hemail⟩ := hwork
        rcases List.mem_cons.mp hw with rfl | hw
        · obtain rfl : task = .user seed := hseed
          simp [perform, seedUser, findByEmailAsync_shared h hemail] at hperform
        · exact ⟨w, hw, seed, hseed, hemail⟩

theorem registerAsync_users {env : Env} {s : Store} {c : RegisterCommand} {role : String}
    (h : Registers fw env s c role) : (registerAsync fw env c s).2.users =
      s.users ++ [withPassword fw env (newUser env c) c.password] := by
  have hcreate : createAsync fw env s (newUser env c) c.password =
      (.succeeded, s.addUser (withPassword fw env (newUser env c) c.password) h.fresh) := by
    have fresh : (newUser env c).id ∉ s.ids := h.fresh
    simp [createAsync, h.password, h.user, fresh, h.created]
  have hadd := @users_addToRoleAsync fw
    (s.addUser (withPassword fw env (newUser env c) c.password) h.fresh) env
    (withPassword fw env (newUser env c) c.password) c.role
  unfold registerAsync
  simp only [hcreate]
  split <;> rename_i heq <;> rw [heq] at hadd <;> exact hadd

/-- Anybody can register the address of another account. Neither of the two can log in or reset
its password from then on, and if it is an address of the seeder no start comes to its end. -/
theorem registration_locks_out {s t : Store} {tr : List Label} {caller : Caller} {env : Env}
    {c : RegisterCommand} {role : String} {user : ApplicationUser}
    (hregisters : RegistersAs fw env s role (.register c)) (huser : user ∈ s.users)
    (hemail : fw.normalizeName user.email = fw.normalizeName c.email)
    (hrun : run (step fw jwt) s (.request ⟨caller, .register c, env⟩ :: tr) = some t) :
    (∀ l : Identity.Label, ∀ email, addressed l.request = some email →
      fw.normalizeName email = fw.normalizeName c.email →
        ∀ r, (serve fw jwt l.env l.caller l.request t).1 ≠ .ok r) ∧
    ∀ start : Start, start.isDevelopment = true →
      (∃ seed, .user seed ∈ start.tasks ∧ fw.normalizeName seed.email = fw.normalizeName c.email) →
        (seedAsync fw start t).1 = false := by
  obtain ⟨hvalid, hregisters⟩ := hregisters
  have hadmitted : Admits registerPipeline s.authorizeAsync caller c := ⟨rfl, hvalid, rfl⟩
  have hshared : Shared fw (registerAsync fw env c s).2 c.email := by
    refine ⟨user, ?_, withPassword fw env (newUser env c) c.password, ?_, ?_, hemail, rfl⟩
    · simp [registerAsync_users hregisters, huser]
    · simp [registerAsync_users hregisters]
    · intro heq
      have hid : user.id = env.newId := heq
      exact hregisters.fresh (hid ▸ List.mem_map_of_mem huser)
  have hserve : serve fw jwt env caller (.register c) s = registerAsync fw env c s :=
    send_admitted hadmitted _ s
  have hstep : step fw jwt s (.request ⟨caller, .register c, env⟩) =
      some (registerAsync fw env c s).2 := by
    rw [← hserve]
    rfl
  rw [run_cons, hstep] at hrun
  have hend : Shared fw t c.email := run_keeps (fun s => Shared fw s c.email) (fun _ => True)
    (fun _ _ _ h _ hstep => step_shared h hstep) hshared (fun _ _ => trivial) hrun
  refine ⟨fun l email haddressed hother r => serve_shared hend haddressed hother r, ?_⟩
  rintro start hdevelopment ⟨seed, hseed, hother⟩
  rw [seedAsync, if_pos hdevelopment]
  refine performAll_shared hend ?_
  obtain ⟨i, hi, htask⟩ := List.getElem_of_mem hseed
  refine ⟨(.user seed, start.envs i), List.mem_map.mpr ⟨(.user seed, i), ?_, rfl⟩, seed, rfl,
    hother⟩
  exact List.mem_zipIdx_iff_getElem?.mpr (List.getElem?_eq_some_iff.mpr ⟨hi, htask⟩)

/-- Somebody who takes the address of the administrator. -/
def impostor : RegisterCommand := ⟨adminEmail, "Secret1!", "Eve", "Adams", none, Roles.client⟩

theorem administrator_locked_out : ∃ t, run (step plainFramework ⟨60, 7⟩) stopped
      [.request ⟨none, .register impostor, smooth "e1"⟩] = some t ∧
    (seedAsync plainFramework quietStart t).1 = false := by
  have hregisters : RegistersAs plainFramework (smooth "e1") stopped Roles.client
      (.register impostor) := ⟨by decide, rfl, rfl, by decide, rfl, rfl, rfl, rfl⟩
  have huser : stored plainFramework (smooth "a1") (adminSeed "") ∈ stopped.users := by decide
  have hrun : run (step plainFramework ⟨60, 7⟩) stopped
    [.request ⟨none, .register impostor, smooth "e1"⟩] = some _ := rfl
  exact ⟨_, hrun, (registration_locks_out hregisters huser rfl hrun).2 quietStart rfl
    ⟨adminSeed "", by simp [Start.tasks, quietStart], rfl⟩⟩

end Seeding
