import ShoppingProject.Privileges

/-!
# Registering a user

`RegisterInternalAsync` saves the new user, and then gives it the role in a second save.
What that second step answers is not looked at, and what it throws comes too late to
take the user back.
-/
namespace Registration

open Requests Identity

variable (fw : Framework) (env : Env) (c : RegisterCommand) (s : Store)

/-- The row that the first step inserts. -/
def createdUser : ApplicationUser := withPassword fw env (newUser env c) c.password

/-- The first step finds nothing to refuse, and its row is saved. -/
structure Creates : Prop where
  password : fw.passwordErrors c.password = []
  user : fw.userErrors s.users (createdUser fw env c) = []
  fresh : env.newId ∉ s.ids
  saved : env.create = .saved

/-- The second step finds the role, nothing to refuse in the user who is stored now, and
its row is saved. -/
structure Joins : Prop where
  role : ∃ name, s.findRole fw c.role = some name
  user : fw.userErrors (s.users ++ [createdUser fw env c]) (createdUser fw env c) = []
  saved : env.update = .saved

/-- The new user is stored and holds the requested role. -/
def Registered (t : Store) : Prop :=
  (∃ user ∈ t.users, user.id = env.newId ∧ user.email = c.email) ∧
    ∃ name, s.findRole fw c.role = some name ∧ name ∈ t.getRolesAsync env.newId

/-- Registering succeeds as a whole, or changes nothing. -/
structure Atomic (response : Response) : Prop where
  unchanged : (∀ answer, response.1 ≠ .ok (.success answer)) → response.2 = s
  registered : ∀ answer, response.1 = .ok (.success answer) →
    Registered fw env c s response.2

variable {fw env c s}

theorem createdUser_id : (createdUser fw env c).id = env.newId := rfl

/-- The first step when nothing stops it. -/
theorem createAsync_of_creates (h : Creates fw env c s) :
    createAsync fw env s (newUser env c) c.password =
      (.succeeded, s.addUser (createdUser fw env c) h.fresh) := by
  have hfresh : (newUser env c).id ∉ s.ids := h.fresh
  have huser : fw.userErrors s.users (withPassword fw env (newUser env c) c.password) = [] := h.user
  unfold createAsync
  simp only [h.password, huser, hfresh, h.saved, not_false_eq_true, dite_true]
  rfl

/-- Otherwise it says so, and inserts nothing. -/
theorem createAsync_of_not_creates (h : ¬ Creates fw env c s) :
    (createAsync fw env s (newUser env c) c.password).1 ≠ .succeeded ∧
      (createAsync fw env s (newUser env c) c.password).2 = s := by
  unfold createAsync
  cases hpassword : fw.passwordErrors c.password with
  | cons error errors => simp
  | nil =>
    cases huser : fw.userErrors s.users (withPassword fw env (newUser env c) c.password) with
    | cons error errors => simp
    | nil =>
      by_cases hfresh : (newUser env c).id ∉ s.ids
      · cases hsaved : env.create with
        | saved => exact absurd ⟨hpassword, huser, hfresh, hsaved⟩ h
        | conflict => simp [hfresh]
        | failed => simp [hfresh]
      · simp [hfresh]

theorem mem_roles_of_findRole {role name : String} (h : s.findRole fw role = some name) :
    name ∈ s.roles := List.mem_of_find?_eq_some h

/-- A user who is not stored yet is a member of no role. -/
theorem not_member_of_fresh (hfresh : env.newId ∉ s.ids) (name : String) :
    (env.newId, name) ∉ s.userRoles := fun hmem => hfresh (s.memberKnown _ hmem)

theorem mem_getRolesAsync {t : Store} {id name : String} :
    name ∈ t.getRolesAsync id ↔ (id, name) ∈ t.userRoles := by
  simp [Store.getRolesAsync]

section Role

variable (hfresh : env.newId ∉ s.ids)

theorem addUser_ne : s.addUser (createdUser fw env c) hfresh ≠ s := by
  intro heq
  have hlength := congrArg (fun t : Store => t.users.length) heq
  simp [Store.addUser] at hlength

/-- The second step when nothing stops it. -/
theorem addToRoleAsync_of_joins (h : Joins fw env c s) : ∃ name hknown hrole,
    s.findRole fw c.role = some name ∧
      addToRoleAsync fw env (s.addUser (createdUser fw env c) hfresh) (createdUser fw env c)
          c.role =
        (.succeeded, (s.addUser (createdUser fw env c) hfresh).addUserRole env.newId name hknown
          hrole) := by
  obtain ⟨name, hname⟩ := h.role
  have hknown : env.newId ∈ (s.addUser (createdUser fw env c) hfresh).ids := by
    simp [Store.ids, Store.addUser, createdUser_id]
  have hrole : name ∈ (s.addUser (createdUser fw env c) hfresh).roles := mem_roles_of_findRole hname
  have hfind : (s.addUser (createdUser fw env c) hfresh).findRole fw c.role = some name := hname
  have hnot : ((createdUser fw env c).id, name) ∉
      (s.addUser (createdUser fw env c) hfresh).userRoles := not_member_of_fresh hfresh name
  have huser : fw.userErrors (s.addUser (createdUser fw env c) hfresh).users
      (createdUser fw env c) = [] := h.user
  refine ⟨name, hknown, hrole, hname, ?_⟩
  unfold addToRoleAsync
  simp only [hfind, hnot, huser, h.saved, if_false]
  exact dif_pos ⟨hknown, hrole⟩

/-- Otherwise it leaves the user who is stored already. -/
theorem addToRoleAsync_of_not_joins (h : ¬ Joins fw env c s) :
    (addToRoleAsync fw env (s.addUser (createdUser fw env c) hfresh) (createdUser fw env c)
        c.role).1 ≠ .succeeded ∧
      (addToRoleAsync fw env (s.addUser (createdUser fw env c) hfresh) (createdUser fw env c)
        c.role).2 = s.addUser (createdUser fw env c) hfresh := by
  have hfind : (s.addUser (createdUser fw env c) hfresh).findRole fw c.role =
      s.findRole fw c.role := rfl
  unfold addToRoleAsync
  rw [hfind]
  cases hname : s.findRole fw c.role with
  | none => simp
  | some name =>
    have hnot : ((createdUser fw env c).id, name) ∉
        (s.addUser (createdUser fw env c) hfresh).userRoles := not_member_of_fresh hfresh name
    simp only [hnot, if_false]
    cases huser : fw.userErrors (s.addUser (createdUser fw env c) hfresh).users
      (createdUser fw env c) with
    | cons error errors => simp
    | nil =>
      cases hsaved : env.update with
      | saved => exact absurd ⟨⟨name, hname⟩, huser, hsaved⟩ h
      | conflict => simp
      | failed => simp

end Role

/-- Where the first step succeeds, the second decides. -/
theorem registerAsync_of_creates (h : Creates fw env c s) :
    Atomic fw env c s (registerAsync fw env c s) ↔ Joins fw env c s := by
  have hcreate := createAsync_of_creates h
  unfold registerAsync
  have huser : withPassword fw env (newUser env c) c.password = createdUser fw env c := rfl
  simp only [hcreate, huser]
  constructor
  · intro hatomic
    by_contra hjoins
    obtain ⟨hanswer, hstore⟩ := addToRoleAsync_of_not_joins h.fresh hjoins
    split at hatomic
    · rename_i t' heq
      have hsame := hatomic.unchanged (by simp)
      rw [heq] at hstore
      exact addUser_ne h.fresh (hstore.symm.trans hsame)
    · rename_i r t' hthrew heq
      obtain ⟨-, name, -, hname⟩ := hatomic.registered _ rfl
      rw [heq] at hstore
      rw [hstore, mem_getRolesAsync] at hname
      exact not_member_of_fresh h.fresh name hname
  · intro hjoins
    obtain ⟨name, hknown, hrole, hname, hadd⟩ := addToRoleAsync_of_joins h.fresh hjoins
    rw [hadd]
    refine ⟨fun hnone => absurd rfl (hnone _), fun answer _ => ?_⟩
    refine ⟨⟨createdUser fw env c, ?_, rfl, rfl⟩, name, hname, ?_⟩
    · simp [Store.addUserRole, Store.addUser]
    · simp [mem_getRolesAsync, Store.addUserRole]

/-- Where the first step does not succeed, nothing happens. -/
theorem registerAsync_of_not_creates (h : ¬ Creates fw env c s) :
    Atomic fw env c s (registerAsync fw env c s) := by
  obtain ⟨hanswer, hstore⟩ := createAsync_of_not_creates h
  unfold registerAsync
  simp only
  split
  · rename_i errors t heq
    rw [heq] at hstore
    refine ⟨fun _ => hstore, fun answer hok => ?_⟩
    cases hok
  · rename_i t heq
    rw [heq] at hstore
    refine ⟨fun _ => hstore, fun answer hok => ?_⟩
    cases hok
  · rename_i t heq
    rw [heq] at hanswer
    exact absurd rfl hanswer

/-- A request that reaches the handler is atomic exactly if the user is not created or
can be given the role; one that does not is atomic in any case. -/
theorem register_atomic_iff (fw : Framework) (jwt : JwtOptions) (env : Env) (caller : Caller)
    (c : RegisterCommand) (s : Store) :
    Atomic fw env c s (serve fw jwt env caller (.register c) s) ↔
      ¬ Admits registerPipeline s.authorizeAsync caller c ∨ ¬ Creates fw env c s ∨
        Joins fw env c s := by
  simp only [serve]
  by_cases hadmits : Admits registerPipeline s.authorizeAsync caller c
  · rw [send_admitted hadmits]
    by_cases hcreates : Creates fw env c s
    · simpa [hadmits, hcreates] using registerAsync_of_creates hcreates
    · simpa [hcreates] using registerAsync_of_not_creates hcreates
  · obtain ⟨hstore, hanswer⟩ := send_refused hadmits (registerAsync fw env c) s
    refine iff_of_true ⟨fun _ => hstore, fun answer hok => ?_⟩ (.inl hadmits)
    exact absurd hok (hanswer _)

/-- The role of the request was never created: the request fails, and Ada is registered. -/
theorem unknown_role_registers : ¬ ∀ (fw : Framework) (jwt : JwtOptions) (env : Env)
    (caller : Caller) (c : RegisterCommand) (s : Store),
    Atomic fw env c s (serve fw jwt env caller (.register c) s) := by
  intro hall
  let env : Env := ⟨0, "ada", "", "r0", .saved, .saved, true⟩
  let c : RegisterCommand :=
    ⟨"ada@example.org", "Secret1!", "Ada", "Lovelace", none, "Manager"⟩
  have hatomic := hall Privileges.plainFramework ⟨60, 7⟩ env none c Privileges.emptyStore
  have hfails : (serve Privileges.plainFramework ⟨60, 7⟩ env none (.register c)
      Privileges.emptyStore).1 = .error := by decide +kernel
  have hstore := hatomic.unchanged (by simp [hfails])
  have hlength := congrArg (fun t : Store => t.users.length) hstore
  exact absurd hlength (by decide +kernel)

end Registration
