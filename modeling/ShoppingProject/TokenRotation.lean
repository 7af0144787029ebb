import ShoppingProject.Identity
import ShoppingProject.Runs
import ShoppingProject.Slots

/-!
# Logins and refreshes side by side

A login or a refresh reads the user, checks it, writes a new refresh token under
the concurrency stamp it has read, and answers. Requests interleave between these
three moments. The answer of the update is not looked at: a request whose update is
refused hands out a token that nobody stored.
-/
namespace TokenRotation

open DomainEvents (ticksPerMinute)
open Identity
open Runs

/-- A request that has read its user and generated its tokens. -/
structure Exchange where
  presented : Option String
  user : ApplicationUser
  stamp : Nat
  env : Env
  accessToken : String
  updated : ApplicationUser

/-- Between the read and the update, or between the update and the answer; `stored` is
the hash that the user's row held when the update had taken effect. -/
inductive Phase where
  | updating (x : Exchange) : Phase
  | answering (x : Exchange) (result : IdentityResult) (stored : Option String) : Phase

def Phase.updating? : Phase → Option Exchange
  | .updating x => some x
  | .answering _ _ _ => none

/-- A successful answer, with the hash that its update stored. -/
structure Answered where
  userId : String
  presented : Option String
  response : Answer
  refreshToken : String
  stored : Option String

structure State where
  store : Store
  /-- A new stamp is one that was never used, so a number will do. -/
  stamps : String → Nat
  requests : Slots Phase
  answers : List Answered
  /-- The hashes of all refresh tokens so far. -/
  hashes : List String

def start (store : Store) : State where
  store := store
  stamps := fun _ => 0
  requests := Slots.idle
  answers := []
  hashes := store.users.filterMap ApplicationUser.refreshToken

inductive Label where
  | login (i : Nat) (c : LoginCommand) (env : Env) : Label
  | refresh (i : Nat) (c : RefreshTokenCommand) (env : Env) : Label
  | update (i : Nat) (available : Bool) : Label
  | answer (i : Nat) : Label

variable (fw : Framework) (jwt : JwtOptions)

/-- The tokens are generated before the update. -/
def begin (s : State) (i : Nat) (presented : Option String) (user updated : ApplicationUser)
    (env : Env) : State :=
  let accessToken := fw.writeToken user (s.store.getRolesAsync user.id)
    (env.now + jwt.expiryMinutes * ticksPerMinute)
  { s with
    requests := s.requests.put i (some (.updating
      ⟨presented, user, s.stamps user.id, env, accessToken, updated⟩))
    hashes := fw.hashRefreshToken env.newRefreshToken :: s.hashes }

/-- What the database answers to the update of the row with the stamp that was read. -/
def writeOf (s : State) (available : Bool) (x : Exchange) : Write :=
  if available then if s.stamps x.user.id = x.stamp then .saved else .conflict else .failed

def storedHash (store : Store) (userId : String) : Option String :=
  (store.findByIdAsync userId).bind ApplicationUser.refreshToken

def update (s : State) (i : Nat) (available : Bool) (x : Exchange) : State :=
  match updateUser fw { x.env with update := writeOf s available x } s.store x.updated with
  | (.succeeded, store) =>
    { s with
      store := store
      stamps := fun id => if id = x.user.id then s.stamps id + 1 else s.stamps id
      requests := s.requests.put i
        (some (.answering x .succeeded (storedHash store x.user.id))) }
  | (result, store) =>
    { s with store := store, requests := s.requests.put i (some (.answering x result none)) }

/-- Only an exception keeps the request from answering with success. -/
def answer (s : State) (i : Nat) (x : Exchange) (result : IdentityResult)
    (stored : Option String) : State :=
  match result with
  | .threw => { s with requests := s.requests.put i none }
  | _ =>
    { s with
      requests := s.requests.put i none
      answers := s.answers ++
        [⟨x.user.id, x.presented, .auth x.accessToken x.env.newRefreshToken
            (x.env.now + jwt.expiryMinutes * ticksPerMinute), x.env.newRefreshToken, stored⟩] }

def step (s : State) : Label → Option State
  | .login i c env => match s.requests i with
    | some _ => none
    | none => match s.store.findByEmailAsync fw c.email with
      | some (some user) =>
        if fw.checkPassword user c.password then
          some (begin fw jwt s i none user
            { withRefreshToken fw jwt env user with updateAt := env.now } env)
        else some s
      | _ => some s
  | .refresh i c env => match s.requests i with
    | some _ => none
    | none => match fw.readToken c.accessToken with
      | some (some userId) => match s.store.findByIdAsync userId with
        | none => some s
        | some user =>
          if user.refreshToken = some (fw.hashRefreshToken c.refreshToken) then
            some (begin fw jwt s i (some c.refreshToken) user
              (withRefreshToken fw jwt env user) env)
          else some s
      | _ => some s
  | .update i available => match s.requests i with
    | some (.updating x) => some (update fw s i available x)
    | _ => none
  | .answer i => match s.requests i with
    | some (.answering x result stored) => some (answer jwt s i x result stored)
    | _ => none

/-- Undisturbed by others, the update and the answer are the end of the service's method. -/
theorem issueTokens_alone (s : State) (i : Nat) (presented : Option String)
    (user updated : ApplicationUser) {env : Env} (henv : env.update = .saved) :
    ∃ t a, run (step fw jwt) (begin fw jwt s i presented user updated env)
        [.update i true, .answer i] = some t ∧ t.answers = s.answers ++ [a] ∧
      issueTokens fw jwt env s.store user updated = (.ok (.success a.response), t.store) := by
  have hwrite : { env with update := Write.saved } = env := by rw [← henv]
  simp only [run_cons, run_nil, step, begin, Slots.put_same, Option.bind_some, update, writeOf,
    if_true, hwrite, issueTokens]
  cases hresult : updateUser fw env s.store updated with
  | mk result store =>
    cases result with
    | succeeded =>
      simp only [Slots.put_same, Option.bind_some]
      exact ⟨_, _, rfl, rfl, rfl⟩
    | failed errors =>
      simp only [Slots.put_same, Option.bind_some]
      exact ⟨_, _, rfl, rfl, rfl⟩
    | threw =>
      simp only [updateUser, henv] at hresult
      split at hresult <;> cases hresult

theorem refresh_alone {s : State} {i : Nat} (hi : s.requests i = none) {c : RefreshTokenCommand}
    {env : Env} (henv : env.update = .saved) {t : State}
    (h : run (step fw jwt) s [.refresh i c env, .update i true, .answer i] = some t) :
    ∃ a, t.answers = s.answers ++ [a] ∧
      refreshTokenAsync fw jwt env c s.store = (.ok (.success a.response), t.store) := by
  obtain ⟨u, hbegin, hrest⟩ := Option.bind_eq_some_iff.mp h
  have hidle : run (step fw jwt) s [.update i true, .answer i] = none := by
    simp [step, hi]
  unfold refreshTokenAsync
  simp only [step, hi] at hbegin
  split at hbegin
  · rename_i userId hread
    rw [hread]
    split at hbegin
    · cases hbegin
      rw [hidle] at hrest
      cases hrest
    · rename_i user hfind
      simp only [hfind]
      split at hbegin
      · rename_i hhash
        cases hbegin
        obtain ⟨t', a, hrun, hanswers, hissue⟩ := issueTokens_alone fw jwt s i
          (some c.refreshToken) user (withRefreshToken fw jwt env user) henv
        rw [hrun] at hrest
        cases hrest
        exact ⟨a, hanswers, by rw [if_pos hhash, hissue]⟩
      · cases hbegin
        rw [hidle] at hrest
        cases hrest
  · cases hbegin
    rw [hidle] at hrest
    cases hrest

/-- The refresh token that an answer was given for, with its user. -/
def exchanged (a : Answered) : Option (String × String) := a.presented.map fun t => (a.userId, t)

/-- No refresh token of a user has been exchanged twice, and every token handed out was
stored by the update of its own request. -/
structure SingleUse (s : State) : Prop where
  once : (s.answers.filterMap exchanged).Nodup
  stored : ∀ a ∈ s.answers, a.stored = some (fw.hashRefreshToken a.refreshToken)

/-- A generated refresh token hashes to something new. -/
def Fresh (s : State) : Label → Prop
  | .login _ _ env => fw.hashRefreshToken env.newRefreshToken ∉ s.hashes
  | .refresh _ _ env => fw.hashRefreshToken env.newRefreshToken ∉ s.hashes
  | _ => True

/-- The update of a request is not refused: the rules for users accept it, and its
stamp is still the stored one unless the database throws. -/
def NotRefused (s : State) : Label → Prop
  | .update i available => ∀ x ∈ (s.requests i).bind Phase.updating?,
    fw.userErrors s.store.users x.updated = [] ∧
      (available = true → s.stamps x.user.id = x.stamp)
  | _ => True

instance (s : State) : DecidablePred (Fresh fw s)
  | .login _ _ _ | .refresh _ _ _ => inferInstanceAs (Decidable (_ ∉ _))
  | .update _ _ | .answer _ => .isTrue trivial

instance (s : State) : DecidablePred (NotRefused fw s)
  | .update i _ => inferInstanceAs (Decidable (∀ x ∈ (s.requests i).bind Phase.updating?, _ ∧ _))
  | .login _ _ _ | .refresh _ _ _ | .answer _ => .isTrue trivial

variable {fw jwt}

theorem storedHash_other {s : Store} {user : ApplicationUser} {id : String} (h : user.id ≠ id) :
    storedHash (s.setUser user) id = storedHash s id := by
  rw [storedHash, Store.findByIdAsync_setUser, if_neg h, storedHash]

theorem storedHash_same {s : Store} {user old : ApplicationUser}
    (h : s.findByIdAsync user.id = some old) :
    storedHash (s.setUser user) user.id = user.refreshToken := by
  rw [storedHash, Store.findByIdAsync_setUser, if_pos rfl, h]
  rfl

/-- A hash that the user held and that no request will store again. -/
structure Spent (fw : Framework) (s : State) (userId hash : String) : Prop where
  known : hash ∈ s.hashes
  gone : storedHash s.store userId ≠ some hash
  notComing : ∀ i x, s.requests i = some (.updating x) → x.user.id = userId →
    fw.hashRefreshToken x.env.newRefreshToken ≠ hash

structure Updating (fw : Framework) (s : State) (x : Exchange) : Prop where
  stamp : x.stamp ≤ s.stamps x.user.id
  current : s.stamps x.user.id = x.stamp → s.store.findByIdAsync x.user.id = some x.user
  presented : ∀ t, x.presented = some t → x.user.refreshToken = some (fw.hashRefreshToken t)
  sameUser : x.updated.id = x.user.id
  updated : x.updated.refreshToken = some (fw.hashRefreshToken x.env.newRefreshToken)
  generated : fw.hashRefreshToken x.env.newRefreshToken ∈ s.hashes
  unstored : storedHash s.store x.user.id ≠ some (fw.hashRefreshToken x.env.newRefreshToken)

/-- An update that took effect stored the token to be handed out and spent the one that
was presented. -/
structure Effective (fw : Framework) (s : State) (x : Exchange) (stored : Option String) :
    Prop where
  stored : stored = some (fw.hashRefreshToken x.env.newRefreshToken)
  spent : ∀ t, x.presented = some t → Spent fw s x.user.id (fw.hashRefreshToken t)
  unanswered : ∀ t, x.presented = some t → (x.user.id, t) ∉ s.answers.filterMap exchanged

def PhaseGood (fw : Framework) (s : State) : Phase → Prop
  | .updating x => Updating fw s x
  | .answering _ .threw _ => True
  | .answering x .succeeded stored => Effective fw s x stored
  | .answering _ (.failed _) _ => False

/-- Two requests in flight store different hashes and have exchanged different tokens. -/
def Distinct (fw : Framework) : Phase → Phase → Prop
  | .updating x, .updating y => fw.hashRefreshToken x.env.newRefreshToken ≠
    fw.hashRefreshToken y.env.newRefreshToken
  | .answering x .succeeded _, .answering y .succeeded _ =>
    ∀ t, x.presented = some t → y.presented = some t → x.user.id ≠ y.user.id
  | _, _ => True

structure Good (fw : Framework) (s : State) : Prop where
  single : SingleUse fw s
  spent : ∀ a ∈ s.answers, ∀ t, a.presented = some t →
    Spent fw s a.userId (fw.hashRefreshToken t)
  known : ∀ id hash, storedHash s.store id = some hash → hash ∈ s.hashes
  phases : s.requests.All (PhaseGood fw s)
  apart : s.requests.Apart (Distinct fw)

theorem start_good (store : Store) : Good fw (start store) := by
  refine ⟨⟨.nil, by simp [start]⟩, by simp [start], ?_, Slots.all_idle _, Slots.apart_idle _⟩
  intro id hash h
  obtain ⟨user, hfind, hhash⟩ := Option.bind_eq_some_iff.mp h
  exact List.mem_filterMap.mpr ⟨user, List.mem_of_find?_eq_some hfind, hhash⟩

theorem Spent.finish {s : State} {userId hash : String} (h : Spent fw s userId hash) (i : Nat)
    (answers : List Answered) :
    Spent fw { s with requests := s.requests.put i none, answers := answers } userId hash :=
  ⟨h.known, h.gone, fun j x hj => h.notComing j x (Slots.of_put_none hj).2⟩

/-- A pending update relies on the users, the stamps and the hashes only. -/
theorem Updating.frame {s : State} {x : Exchange} (h : Updating fw s x) (requests : Slots Phase)
    (answers : List Answered) :
    Updating fw { s with requests := requests, answers := answers } x :=
  ⟨h.stamp, h.current, h.presented, h.sameUser, h.updated, h.generated, h.unstored⟩

theorem PhaseGood.unanswered {s : State} {p : Phase} (h : PhaseGood fw s p) {x : Exchange}
    {stored : Option String} {t : String} (hp : p = .answering x .succeeded stored)
    (ht : x.presented = some t) : (x.user.id, t) ∉ s.answers.filterMap exchanged := by
  subst hp
  exact Effective.unanswered h t ht

/-- What a step has to leave alone for a request in flight. -/
theorem PhaseGood.transfer {s s' : State} {p : Phase} (h : PhaseGood fw s p)
    (hupdating : ∀ x, p = .updating x → Updating fw s' x)
    (hspent : ∀ {userId hash : String}, Spent fw s userId hash → Spent fw s' userId hash)
    (hanswers : ∀ x stored t, p = .answering x .succeeded stored → x.presented = some t →
      (x.user.id, t) ∉ s'.answers.filterMap exchanged) : PhaseGood fw s' p := by
  cases p with
  | updating x => exact hupdating x rfl
  | answering x result stored =>
    cases result with
    | threw => trivial
    | failed errors => exact h.elim
    | succeeded =>
      have hx : Effective fw s x stored := h
      exact ⟨hx.stored, fun t ht => hspent (hx.spent t ht), fun t => hanswers x stored t rfl⟩

theorem PhaseGood.finish {s : State} {p : Phase} (h : PhaseGood fw s p) (i : Nat)
    {answers : List Answered} (hanswers : ∀ x stored t, p = .answering x .succeeded stored →
      x.presented = some t → (x.user.id, t) ∉ answers.filterMap exchanged) :
    PhaseGood fw { s with requests := s.requests.put i none, answers := answers } p := by
  apply h.transfer
  · rintro x rfl
    exact Updating.frame h _ _
  · intro userId hash hs
    exact hs.finish i _
  · exact hanswers

theorem answer_threw_good {s : State} {i : Nat} (h : Good fw s) :
    Good fw { s with requests := s.requests.put i none } := by
  refine ⟨⟨h.single.once, h.single.stored⟩, fun a ha t ht => (h.spent a ha t ht).finish i _,
    h.known, ?_, h.apart.finish i⟩
  apply Slots.all_put
  · intro p hp
    cases hp
  · intro j p _ hj
    have hp := h.phases j p hj
    exact hp.finish i fun x stored t hx ht => hp.unanswered hx ht

theorem exchanged_snoc (answers : List Answered) (a : Answered) :
    (answers ++ [a]).filterMap exchanged =
      answers.filterMap exchanged ++ (exchanged a).toList := by
  rw [List.filterMap_append, List.filterMap_cons, List.filterMap_nil]
  cases exchanged a <;> rfl

theorem answer_succeeded_good {s : State} {i : Nat} {x : Exchange} {stored : Option String}
    (h : Good fw s) (hi : s.requests i = some (.answering x .succeeded stored)) (a : Answered)
    (huser : a.userId = x.user.id) (hpresented : a.presented = x.presented)
    (htoken : a.refreshToken = x.env.newRefreshToken) (hstored : a.stored = stored) :
    Good fw { s with requests := s.requests.put i none, answers := s.answers ++ [a] } := by
  have hx : Effective fw s x stored := h.phases i _ hi
  have hnew : ∀ k ∈ (exchanged a).toList, ∃ t, x.presented = some t ∧ (x.user.id, t) = k := by
    intro k hk
    rw [exchanged, huser, hpresented, Option.mem_toList] at hk
    exact Option.map_eq_some_iff.mp hk
  refine ⟨⟨?_, ?_⟩, ?_, h.known, ?_, h.apart.finish i⟩
  · rw [exchanged_snoc, List.nodup_append]
    refine ⟨h.single.once, ?_, ?_⟩
    · cases exchanged a <;> simp
    · rintro k hk k' hk' rfl
      obtain ⟨t, ht, rfl⟩ := hnew _ hk'
      exact hx.unanswered t ht hk
  · intro b hb
    rcases List.mem_append.mp hb with hb | hb
    · exact h.single.stored b hb
    · obtain rfl := List.mem_singleton.mp hb
      rw [hstored, hx.stored, htoken]
  · intro b hb t ht
    rcases List.mem_append.mp hb with hb | hb
    · exact (h.spent b hb t ht).finish i _
    · obtain rfl := List.mem_singleton.mp hb
      rw [huser]
      exact (hx.spent t (hpresented ▸ ht)).finish i _
  · apply Slots.all_put
    · intro p hp
      cases hp
    · intro j p hji hj
      have hp := h.phases j p hj
      apply hp.finish
      intro y stored' t hy ht hin
      rw [exchanged_snoc] at hin
      rcases List.mem_append.mp hin with hold | hin
      · exact hp.unanswered hy ht hold
      · obtain ⟨t', ht', heq⟩ := hnew _ hin
        obtain ⟨hid, rfl⟩ := Prod.mk.inj heq
        subst hy
        have hdistinct : Distinct fw (.answering x .succeeded stored)
          (.answering y .succeeded stored') := h.apart i j _ _ (Ne.symm hji) hi hj
        exact hdistinct t' ht' ht hid

/-- Answering ends the request; its token and what it exchanged were in order already. -/
theorem answer_good {s : State} {i : Nat} {x : Exchange} {result : IdentityResult}
    {stored : Option String} (h : Good fw s)
    (hi : s.requests i = some (.answering x result stored)) :
    Good fw (answer jwt s i x result stored) := by
  have hphase := h.phases i _ hi
  cases result with
  | failed errors => exact hphase.elim
  | threw => exact answer_threw_good h
  | succeeded => exact answer_succeeded_good h hi _ rfl rfl rfl rfl

/-- A request that begins touches nothing that others rely on. -/
theorem begin_good {s : State} {i : Nat} {presented : Option String}
    {user updated : ApplicationUser}
    {env : Env} (h : Good fw s)
    (hfresh : fw.hashRefreshToken env.newRefreshToken ∉ s.hashes)
    (hfind : s.store.findByIdAsync user.id = some user)
    (hpresented : ∀ t, presented = some t → user.refreshToken = some (fw.hashRefreshToken t))
    (hsame : updated.id = user.id)
    (hupdated : updated.refreshToken = some (fw.hashRefreshToken env.newRefreshToken)) :
    Good fw (begin fw jwt s i presented user updated env) := by
  have hspent : ∀ {userId hash : String}, Spent fw s userId hash →
      Spent fw (begin fw jwt s i presented user updated env) userId hash := by
    intro userId hash hs
    refine ⟨List.mem_cons_of_mem _ hs.known, hs.gone, ?_⟩
    intro j x hj hid
    by_cases hji : j = i
    · subst j
      simp only [begin, Slots.put_same, Option.some.injEq, Phase.updating.injEq] at hj
      subst hj
      intro heq
      apply hfresh
      rw [heq]
      exact hs.known
    · simp only [begin] at hj
      rw [Slots.put_other _ _ hji] at hj
      exact hs.notComing j x hj hid
  refine ⟨⟨h.single.once, h.single.stored⟩, fun a ha t ht => hspent (h.spent a ha t ht),
    fun id hash hid => List.mem_cons_of_mem _ (h.known id hash hid), ?_, ?_⟩
  · apply Slots.all_put
    · rintro p hp
      cases hp
      refine ⟨le_refl _, fun _ => hfind, hpresented, hsame, hupdated, List.mem_cons_self, ?_⟩
      intro hstored
      exact hfresh (h.known _ _ hstored)
    · intro j p _ hj
      have hp := h.phases j p hj
      refine hp.transfer ?_ hspent fun x stored t hx ht => hp.unanswered hx ht
      rintro x rfl
      have hx : Updating fw s x := hp
      exact ⟨hx.stamp, hx.current, hx.presented, hx.sameUser, hx.updated,
        List.mem_cons_of_mem _ hx.generated, hx.unstored⟩
  · apply h.apart.start
    intro j p _ hj
    cases p with
    | updating x =>
      have hx : Updating fw s x := h.phases j _ hj
      constructor
      · intro heq
        exact hfresh (heq ▸ hx.generated)
      · intro heq
        exact hfresh (heq ▸ hx.generated)
    | answering x result stored => exact ⟨trivial, by cases result <;> trivial⟩

/-- A request that comes to its answer leaves the other updates pending. -/
theorem updating_of_put {requests : Slots Phase} {i j : Nat} {p : Phase} {x : Exchange}
    (hp : p.updating? = none) (hj : requests.put i (some p) j = some (.updating x)) :
    j ≠ i ∧ requests j = some (.updating x) := by
  by_cases hji : j = i
  · subst j
    rw [Slots.put_same] at hj
    cases hj
    cases hp
  · rw [Slots.put_other _ _ hji] at hj
    exact ⟨hji, hj⟩

/-- A request whose update throws has changed nothing. -/
theorem update_threw_good {s : State} {i : Nat} {x : Exchange} (h : Good fw s) :
    Good fw { s with requests := s.requests.put i (some (.answering x .threw none)) } := by
  have hspent : ∀ {userId hash : String}, Spent fw s userId hash →
      Spent fw { s with requests := s.requests.put i (some (.answering x .threw none)) }
        userId hash :=
    fun hs => ⟨hs.known, hs.gone, fun j y hj => hs.notComing j y (updating_of_put rfl hj).2⟩
  refine ⟨⟨h.single.once, h.single.stored⟩, fun a ha t ht => hspent (h.spent a ha t ht),
    h.known, ?_, ?_⟩
  · apply Slots.all_put
    · rintro p hp
      cases hp
      trivial
    · intro j p _ hj
      have hp := h.phases j p hj
      refine hp.transfer ?_ hspent fun y stored t hy ht => hp.unanswered hy ht
      rintro y rfl
      exact Updating.frame hp _ _
  · apply h.apart.start
    intro j p _ _
    cases p with
    | updating y => exact ⟨trivial, trivial⟩
    | answering y result stored => cases result <;> exact ⟨trivial, trivial⟩

/-- A state after an update that took effect. -/
def saved (s : State) (i : Nat) (x : Exchange) : State :=
  { s with
    store := s.store.setUser x.updated
    stamps := fun id => if id = x.user.id then s.stamps id + 1 else s.stamps id
    requests := s.requests.put i (some (.answering x .succeeded
      (storedHash (s.store.setUser x.updated) x.user.id))) }

theorem saved_updating {s : State} {i j : Nat} {x y : Exchange}
    (hj : (saved s i x).requests j = some (.updating y)) :
    j ≠ i ∧ s.requests j = some (.updating y) := updating_of_put rfl hj

/-- The row of the user now holds the hash of the token to be handed out. -/
theorem saved_storedHash {s : State} {x : Exchange} (i : Nat) (hx : Updating fw s x)
    (hcurrent : s.stamps x.user.id = x.stamp) :
    storedHash (saved s i x).store x.user.id =
      some (fw.hashRefreshToken x.env.newRefreshToken) := by
  have hfind := hx.current hcurrent
  rw [← hx.sameUser] at hfind ⊢
  rw [saved, storedHash_same hfind, hx.updated]

theorem saved_storedHash_other {s : State} {x : Exchange} {id : String} (i : Nat)
    (hx : Updating fw s x) (hid : id ≠ x.user.id) :
    storedHash (saved s i x).store id = storedHash s.store id := by
  apply storedHash_other
  rw [hx.sameUser]
  exact hid.symm

/-- The token that the request presented is the one it found stored. -/
theorem Updating.storedHash_presented {s : State} {x : Exchange} {t : String}
    (hx : Updating fw s x) (hcurrent : s.stamps x.user.id = x.stamp)
    (ht : x.presented = some t) :
    storedHash s.store x.user.id = some (fw.hashRefreshToken t) := by
  rw [storedHash, hx.current hcurrent]
  exact hx.presented t ht

theorem Spent.saved {s : State} {i : Nat} {x : Exchange} {userId hash : String}
    (h : Spent fw s userId hash) (hi : s.requests i = some (.updating x)) (hx : Updating fw s x)
    (hcurrent : s.stamps x.user.id = x.stamp) : Spent fw (saved s i x) userId hash := by
  refine ⟨h.known, ?_, fun j y hj => h.notComing j y (saved_updating hj).2⟩
  by_cases hid : userId = x.user.id
  · subst userId
    rw [saved_storedHash i hx hcurrent]
    intro heq
    exact h.notComing i x hi rfl (Option.some.inj heq)
  · rw [saved_storedHash_other i hx hid]
    exact h.gone

/-- An update under the current stamp replaces the hash that the request has checked. -/
theorem saved_effective {s : State} {i : Nat} {x : Exchange} (h : Good fw s)
    (hi : s.requests i = some (.updating x)) (hcurrent : s.stamps x.user.id = x.stamp) :
    Effective fw (saved s i x) x (storedHash (saved s i x).store x.user.id) := by
  have hx : Updating fw s x := h.phases i _ hi
  refine ⟨saved_storedHash i hx hcurrent, ?_, ?_⟩
  · intro t ht
    have hold := hx.storedHash_presented hcurrent ht
    refine ⟨h.known _ _ hold, ?_, ?_⟩
    · rw [saved_storedHash i hx hcurrent]
      intro heq
      apply hx.unstored
      rw [hold, heq]
    · intro j y hj hid heq
      have hy : Updating fw s y := h.phases j _ (saved_updating hj).2
      apply hy.unstored
      rw [hid, hold, heq]
  · intro t ht hin
    obtain ⟨a, ha, hat⟩ := List.mem_filterMap.mp hin
    obtain ⟨t', ht', heq⟩ := Option.map_eq_some_iff.mp hat
    obtain ⟨hid, rfl⟩ := Prod.mk.inj heq
    apply (h.spent a ha t' ht').gone
    rw [hid]
    exact hx.storedHash_presented hcurrent ht

theorem Updating.saved {s : State} {i j : Nat} {x y : Exchange} (h : Good fw s)
    (hi : s.requests i = some (.updating x)) (hcurrent : s.stamps x.user.id = x.stamp)
    (hj : s.requests j = some (.updating y)) (hji : j ≠ i) :
    Updating fw (saved s i x) y := by
  have hx : Updating fw s x := h.phases i _ hi
  have hy : Updating fw s y := h.phases j _ hj
  by_cases hid : y.user.id = x.user.id
  · have hstamp : (TokenRotation.saved s i x).stamps y.user.id = s.stamps y.user.id + 1 := by
      simp [TokenRotation.saved, hid]
    refine ⟨?_, ?_, hy.presented, hy.sameUser, hy.updated, hy.generated, ?_⟩
    · have := hy.stamp
      omega
    · have := hy.stamp
      omega
    · rw [hid, saved_storedHash i hx hcurrent]
      intro heq
      have hdistinct : Distinct fw (.updating x) (.updating y) :=
        h.apart i j _ _ (Ne.symm hji) hi hj
      exact hdistinct (Option.some.inj heq)
  · have hstamp : (TokenRotation.saved s i x).stamps y.user.id = s.stamps y.user.id := by
      simp [TokenRotation.saved, hid]
    refine ⟨?_, ?_, hy.presented, hy.sameUser, hy.updated, hy.generated, ?_⟩
    · rw [hstamp]
      exact hy.stamp
    · intro hy'
      rw [hstamp] at hy'
      simp only [TokenRotation.saved]
      rw [Store.findByIdAsync_setUser, if_neg]
      · exact hy.current hy'
      · rw [hx.sameUser]
        exact Ne.symm hid
    · rw [saved_storedHash_other i hx hid]
      exact hy.unstored

theorem saved_good {s : State} {i : Nat} {x : Exchange} (h : Good fw s)
    (hi : s.requests i = some (.updating x)) (hcurrent : s.stamps x.user.id = x.stamp) :
    Good fw (saved s i x) := by
  have hx : Updating fw s x := h.phases i _ hi
  refine ⟨⟨h.single.once, h.single.stored⟩,
    fun a ha t ht => (h.spent a ha t ht).saved hi hx hcurrent, ?_, ?_, ?_⟩
  · intro id hash hstored
    by_cases hid : id = x.user.id
    · subst id
      rw [saved_storedHash i hx hcurrent] at hstored
      cases hstored
      exact hx.generated
    · rw [saved_storedHash_other i hx hid] at hstored
      exact h.known id hash hstored
  · apply Slots.all_put
    · intro p hp
      cases hp
      exact saved_effective h hi hcurrent
    · intro j p hji hj
      have hp := h.phases j p hj
      apply hp.transfer
      · rintro y rfl
        exact Updating.saved h hi hcurrent hj hji
      · intro userId hash hs
        exact hs.saved hi hx hcurrent
      · intro y stored t hy ht
        exact hp.unanswered hy ht
  · apply h.apart.start
    intro j p _ hj
    cases p with
    | updating y => exact ⟨trivial, trivial⟩
    | answering y result stored =>
      cases result with
      | threw => exact ⟨trivial, trivial⟩
      | failed errors => exact ⟨trivial, trivial⟩
      | succeeded =>
        have hy : Effective fw s y stored := h.phases j _ hj
        have hne : ∀ t, x.presented = some t → y.presented = some t → x.user.id ≠ y.user.id := by
          intro t htx hty heq
          apply (hy.spent t hty).gone
          rw [← heq]
          exact hx.storedHash_presented hcurrent htx
        exact ⟨hne, fun t hty htx => (hne t htx hty).symm⟩

/-- The update of a request that is not refused either throws or takes effect. -/
theorem update_good {s : State} {i : Nat} {available : Bool} {x : Exchange} (h : Good fw s)
    (hi : s.requests i = some (.updating x))
    (haccepted : fw.userErrors s.store.users x.updated = [])
    (hcurrent : available = true → s.stamps x.user.id = x.stamp) :
    Good fw (update fw s i available x) := by
  cases available with
  | false =>
    have hthrew : update fw s i false x =
        { s with requests := s.requests.put i (some (.answering x .threw none)) } := by
      simp [update, updateUser, writeOf, haccepted]
    rw [hthrew]
    exact update_threw_good h
  | true =>
    have hsaved : update fw s i true x = saved s i x := by
      simp [update, updateUser, writeOf, haccepted, hcurrent rfl, saved]
    rw [hsaved]
    exact saved_good h hi (hcurrent rfl)

/-- A step in which no update is refused and the new refresh token is really new. -/
theorem step_good {s t : State} {l : Label} (h : Good fw s) (hfresh : Fresh fw s l)
    (hcurrent : NotRefused fw s l) (hstep : step fw jwt s l = some t) : Good fw t := by
  cases l with
  | login i c env =>
    simp only [step] at hstep
    split at hstep
    · cases hstep
    · split at hstep
      · rename_i user hfind
        split at hstep
        · cases hstep
          apply begin_good h hfresh
            (Store.findByIdAsync_of_mem (Store.mem_of_findByEmailAsync hfind))
          · intro t ht
            cases ht
          · rfl
          · rfl
        · cases hstep
          exact h
      · cases hstep
        exact h
  | refresh i c env =>
    simp only [step] at hstep
    split at hstep
    · cases hstep
    · split at hstep
      · split at hstep
        · cases hstep
          exact h
        · rename_i user hfind
          split at hstep
          · rename_i hhash
            cases hstep
            apply begin_good h hfresh (Store.findByIdAsync_of_mem (List.mem_of_find?_eq_some hfind))
            · intro t ht
              cases ht
              exact hhash
            · rfl
            · rfl
          · cases hstep
            exact h
      · cases hstep
        exact h
  | update i available =>
    cases hi : s.requests i with
    | none => simp [step, hi] at hstep
    | some p => cases p with
      | answering x result stored => simp [step, hi] at hstep
      | updating x =>
        obtain rfl : update fw s i available x = t := by simpa [step, hi] using hstep
        have hfind : x ∈ (s.requests i).bind Phase.updating? := by
          rw [hi]
          rfl
        obtain ⟨haccepted, hstamp⟩ := hcurrent x hfind
        exact update_good h hi haccepted hstamp
  | answer i =>
    cases hi : s.requests i with
    | none => simp [step, hi] at hstep
    | some p => cases p with
      | updating x => simp [step, hi] at hstep
      | answering x result stored =>
        obtain rfl : answer jwt s i x result stored = t := by simpa [step, hi] using hstep
        exact answer_good h hi

/-- In a run in which no update is refused, no refresh token is exchanged twice and
every token handed out has been stored. -/
theorem single_use (fw : Framework) (jwt : JwtOptions) (store : Store) (tr : List Label)
    (hfresh : ∀ v ∈ visits (step fw jwt) (start store) tr, Fresh fw v.1 v.2.1)
    (hcurrent : ∀ v ∈ visits (step fw jwt) (start store) tr, NotRefused fw v.1 v.2.1) :
    ∀ v ∈ visits (step fw jwt) (start store) tr, SingleUse fw v.2.2 := by
  have hrun := visits_invariant (Good fw) (fun s l => Fresh fw s l ∧ NotRefused fw s l)
    (fun _ _ _ h hl hstep => step_good h hl.1 hl.2 hstep) (start_good store)
    (fun v hv => ⟨hfresh v hv, hcurrent v hv⟩)
  intro v hv
  exact (hrun v hv).2.2.single

/-- Conversely, a request whose update was refused breaks the promise by answering. -/
theorem refused_then_answered {s t : State} {i : Nat} {available : Bool}
    (hrefused : ¬ NotRefused fw s (.update i available))
    (h : run (step fw jwt) s [.update i available, .answer i] = some t) : ¬ SingleUse fw t := by
  obtain ⟨x, hx, hnot⟩ : ∃ x ∈ (s.requests i).bind Phase.updating?,
      ¬ (fw.userErrors s.store.users x.updated = [] ∧
        (available = true → s.stamps x.user.id = x.stamp)) := by
    by_contra hall
    push Not at hall
    exact hrefused fun x hx => hall x hx
  have hi : s.requests i = some (.updating x) := by
    obtain ⟨p, hp, hpx⟩ := Option.bind_eq_some_iff.mp hx
    cases p with
    | updating y =>
      cases hpx
      exact hp
    | answering y result stored => cases hpx
  have hfailed : ∃ errors, update fw s i available x =
      { s with requests := s.requests.put i (some (.answering x (.failed errors) none)) } := by
    cases herrors : fw.userErrors s.store.users x.updated with
    | cons error errors => exact ⟨error :: errors, by simp [update, updateUser, herrors]⟩
    | nil =>
      have hstale : available = true ∧ s.stamps x.user.id ≠ x.stamp := by simpa [herrors] using hnot
      refine ⟨[concurrencyFailure], ?_⟩
      simp [update, updateUser, herrors, writeOf, hstale.1, hstale.2]
  obtain ⟨errors, hfailed⟩ := hfailed
  intro hsingle
  simp only [run_cons, run_nil, step, hi, hfailed, Option.bind_some, Slots.put_same] at h
  obtain rfl := Option.some.inj h
  have hstored := hsingle.stored _ (List.mem_append_right _ (List.mem_singleton_self _))
  cases hstored

/-- Every token is an access token that names its own text, and hashes to itself. -/
def echoFramework : Framework where
  normalizeName := id
  userErrors := fun _ _ => []
  passwordErrors := fun _ => []
  roleErrors := fun _ _ => []
  hashPassword := fun _ password => password
  checkPassword := fun user password => user.passwordHash == password
  checkResetToken := fun _ _ => false
  readToken := fun token => some (some token)
  writeToken := fun user _ _ => user.id
  hashRefreshToken := id

def adaStore : Store where
  users := [⟨"ada", "ada", "ada@example.org", none, none, none, none, "Secret1!", some "r0", some 9,
    0⟩]
  roles := []
  userRoles := []
  keyed := by simp
  memberKnown := by simp
  roleKnown := by simp

def refreshEnv (newRefreshToken : String) : Env :=
  ⟨0, "", "", newRefreshToken, .saved, .saved, true⟩

/-- A login and a refresh in turn, while a third request still holds the old row. -/
def inTurn : List Label :=
  [.login 0 ⟨"ada@example.org", "Secret1!"⟩ (refreshEnv "r1"), .update 0 true,
    .refresh 2 ⟨"ada", "r1"⟩ (refreshEnv "r2"), .answer 0,
    .refresh 1 ⟨"ada", "r1"⟩ (refreshEnv "r3"), .update 1 true, .answer 1, .update 2 false]

theorem single_use_in_turn :
    (visits (step echoFramework ⟨60, 7⟩) (start adaStore) inTurn).length = 8 ∧
      ∀ v ∈ visits (step echoFramework ⟨60, 7⟩) (start adaStore) inTurn,
        SingleUse echoFramework v.2.2 :=
  ⟨by decide, single_use echoFramework ⟨60, 7⟩ adaStore inTurn (by decide) (by decide)⟩

/-- Two clients present the same token before either of them has written. -/
def racing : List Label :=
  [.refresh 0 ⟨"ada", "r0"⟩ (refreshEnv "r1"), .refresh 1 ⟨"ada", "r0"⟩ (refreshEnv "r2"),
    .update 0 true, .update 1 true, .answer 0, .answer 1]

theorem racing_refreshes : ¬ ∀ (fw : Framework) (jwt : JwtOptions) (store : Store)
    (tr : List Label), (∀ v ∈ visits (step fw jwt) (start store) tr, Fresh fw v.1 v.2.1) →
      ∀ v ∈ visits (step fw jwt) (start store) tr, SingleUse fw v.2.2 := by
  intro hall
  have hfresh : ∀ v ∈ visits (step echoFramework ⟨60, 7⟩) (start adaStore) racing,
      Fresh echoFramework v.1 v.2.1 := by decide
  have htwice : ∃ v ∈ visits (step echoFramework ⟨60, 7⟩) (start adaStore) racing,
      ¬ (v.2.2.answers.filterMap exchanged).Nodup := by decide
  obtain ⟨v, hv, hv'⟩ := htwice
  exact hv' (hall echoFramework ⟨60, 7⟩ adaStore racing hfresh v hv).once

end TokenRotation
