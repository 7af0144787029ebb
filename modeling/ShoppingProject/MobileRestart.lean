import ShoppingProject.MobileSession
import ShoppingProject.Restarts

/-!
# The mobile application over its restarts

redux-persist keeps the auth slice, with whether a request is pending, beside the tokens in
`AsyncStorage`. A new process takes the slice up, then `RootNavigator` looks for a token,
and only then is there a screen: the login screen unless the slice counts as authenticated.
What its button does waits until the form has been validated.
-/
namespace MobileRestart

open Runs Restarts
open MobileSession hiding Label step start

structure Process where
  session : MobileSession.State
  /-- `isLoading` of `RootNavigator`. -/
  isLoading : Bool
  /-- How often the button has been pressed without that its form is validated yet. -/
  submitting : Nat

inductive Label where
  | checkToken (readable : Bool) : Label
  | press : Label
  /-- The form is validated; without credentials it has been refused. -/
  | submit (i : Nat) (credentials : Option LoginRequest) : Label
  | session (l : MobileSession.Label) : Label

/-- What happens beside the button and `checkToken`; the profile is fetched by the profile
screen, and a biometric login or a logout is started by an alert that may be older. -/
def offered (auth : AuthState) : MobileSession.Label → Bool
  | .login _ _ | .setToken _ => false
  | .fetchUserProfile _ => auth.isAuthenticated
  | .answered _ _ | .stored _ _ | .biometricLogin _ | .readEmail _ _ | .readPassword _ _ _
  | .resume _ | .logout _ | .removed _ _ | .profile _ _ => true

def step (s : Process) : Label → Option Process
  | .checkToken readable =>
    if s.isLoading then
      match truthy (if readable then s.session.storage "token" else none) with
      | some token => (MobileSession.step s.session (.setToken token)).map fun t =>
        { s with session := t, isLoading := false }
      | none => some { s with isLoading := false }
    else none
  | .press =>
    if ¬ s.isLoading ∧ ¬ s.session.auth.isAuthenticated ∧ ¬ s.session.auth.loading then
      some { s with submitting := s.submitting + 1 }
    else none
  | .submit i credentials => match s.submitting with
    | 0 => none
    | n + 1 => match credentials with
      | none => some { s with submitting := n }
      | some credentials =>
        (MobileSession.step s.session (.login i credentials)).map fun t =>
          { s with session := t, submitting := n }
  | .session l =>
    if ¬ s.isLoading ∧ offered s.session.auth l then
      (MobileSession.step s.session l).map fun t => { s with session := t }
    else none

def app : Program Process Label AuthState where
  step := step
  slice := fun s => s.session.auth
  initial := fun _ => initialState
  resume := fun s auth => ⟨{ MobileSession.start s.session.storage with auth }, true, 0⟩
  slice_resume := fun _ _ => rfl

/-- The first start, on a device with this storage. -/
def start (storage : Storage) : Restarts.State Process AuthState :=
  ⟨⟨MobileSession.start storage, true, 0⟩, [], none⟩

/-- A step of the process is a step of its session, or leaves it as it is. -/
theorem step_session {s t : Process} {l : Label} (h : step s l = some t) :
    t.session = s.session ∨ ∃ l', MobileSession.step s.session l' = some t.session := by
  cases l with
  | checkToken readable =>
    simp only [step] at h
    split at h
    · split at h
      · obtain ⟨u, hu, rfl⟩ := Option.map_eq_some_iff.mp h
        exact .inr ⟨_, hu⟩
      · cases h
        exact .inl rfl
    · cases h
  | press =>
    obtain ⟨-, rfl⟩ := guarded h
    exact .inl rfl
  | submit i credentials =>
    simp only [step] at h
    split at h
    · cases h
    · split at h
      · cases h
        exact .inl rfl
      · obtain ⟨u, hu, rfl⟩ := Option.map_eq_some_iff.mp h
        exact .inr ⟨_, hu⟩
  | session l =>
    simp only [step] at h
    split at h
    · obtain ⟨u, hu, rfl⟩ := Option.map_eq_some_iff.mp h
      exact .inr ⟨_, hu⟩
    · cases h

/-- At its end the thunk takes `loading` back. -/
def Loads : Thunk → Prop
  | .removing _ => False
  | .login _ _ | .storing _ _ _ | .readingEmail | .readingPassword _ | .awaiting _ | .resumed _
  | .fetching => True

/-- Whenever something is said to be loading, a thunk is in flight that takes it back. -/
def Live (s : MobileSession.State) : Prop :=
  s.auth.loading = true → ∃ i thunk, s.thunks i = some thunk ∧ Loads thunk

theorem live_of_thunk {s : MobileSession.State} {i : Nat} {thunk : Thunk}
    (hi : s.thunks i = some thunk) (h : Loads thunk) : Live s := fun _ => ⟨i, thunk, hi, h⟩

theorem live_of_loading {s : MobileSession.State} (h : s.auth.loading = false) : Live s := by
  intro hloading
  rw [h] at hloading
  cases hloading

/-- A turn of a logout leaves whoever loads in flight. -/
theorem live_turn {s t : MobileSession.State} {i : Nat} {thunk : Option Thunk} (h : Live s)
    (hi : ∀ a, s.thunks i = some a → ¬ Loads a) (hauth : t.auth.loading = s.auth.loading)
    (hthunks : t.thunks = s.thunks.put i thunk) : Live t := by
  intro hloading
  rw [hauth] at hloading
  obtain ⟨j, a, hj, ha⟩ := h hloading
  have hji : j ≠ i := by
    rintro rfl
    exact hi a hj ha
  refine ⟨j, a, ?_, ha⟩
  rw [hthunks, Slots.put_other _ _ hji]
  exact hj

theorem begin_spec {s t : MobileSession.State} {i : Nat} {thunk : Thunk} {a : Action}
    (h : begin i thunk a s = some t) : s.thunks i = none ∧
      t = dispatch a { s with thunks := s.thunks.put i (some thunk) } := by
  simp only [begin] at h
  split at h
  · cases h
  · cases h
    exact ⟨‹_›, rfl⟩

theorem begin_live {s t : MobileSession.State} {i : Nat} {thunk : Thunk} {a : Action}
    (h : begin i thunk a s = some t) (hthunk : Loads thunk) : Live t := by
  obtain ⟨-, rfl⟩ := begin_spec h
  exact live_of_thunk (Slots.put_same _ _ _) hthunk

theorem session_live {s t : MobileSession.State} {l : MobileSession.Label} (h : Live s)
    (hstep : MobileSession.step s l = some t) : Live t := by
  cases l with
  | login i credentials => exact begin_live hstep trivial
  | biometricLogin i => exact begin_live hstep trivial
  | fetchUserProfile i => exact begin_live hstep trivial
  | logout i =>
    obtain ⟨hi, rfl⟩ := begin_spec hstep
    refine live_turn h (fun a ha => ?_) rfl rfl
    rw [hi] at ha
    cases ha
  | setToken payload =>
    cases hstep
    exact h
  | answered i reply =>
    simp only [MobileSession.step] at hstep
    split at hstep
    · split at hstep
      · cases hstep
        exact live_of_loading rfl
      · cases hstep
        exact live_of_loading rfl
      · cases hstep
        exact live_of_loading rfl
      · cases hstep
        exact live_of_thunk (Slots.put_same _ _ _) trivial
    · cases hstep
  | stored i failure =>
    simp only [MobileSession.step] at hstep
    split at hstep
    · split at hstep
      · cases hstep
        exact live_of_loading rfl
      · split at hstep
        · cases hstep
          exact live_of_loading rfl
        · cases hstep
          exact live_of_thunk (Slots.put_same _ _ _) trivial
    · cases hstep
  | readEmail i readable =>
    simp only [MobileSession.step] at hstep
    split at hstep
    · cases hstep
      exact live_of_thunk (Slots.put_same _ _ _) trivial
    · cases hstep
  | readPassword i readable nested =>
    simp only [MobileSession.step] at hstep
    split at hstep
    · split at hstep
      · exact begin_live hstep trivial
      · cases hstep
        exact live_of_loading rfl
    · cases hstep
  | resume i =>
    simp only [MobileSession.step] at hstep
    split at hstep
    · cases hstep
      exact live_of_loading rfl
    · cases hstep
  | removed i succeeded =>
    simp only [MobileSession.step] at hstep
    split at hstep
    · rename_i key keys hi
      have hremoving : ∀ a, s.thunks i = some a → ¬ Loads a := by
        intro a ha
        rw [hi] at ha
        cases ha
        exact id
      split at hstep
      · split at hstep
        · cases hstep
          exact live_turn h hremoving rfl rfl
        · cases hstep
          exact live_turn h hremoving rfl rfl
      · cases hstep
        exact live_turn h hremoving rfl rfl
    · cases hstep
  | profile i reply =>
    simp only [MobileSession.step] at hstep
    split at hstep
    · split at hstep
      · cases hstep
        exact live_of_loading rfl
      · cases hstep
        exact live_of_loading rfl
    · cases hstep

theorem step_live {s t : Process} {l : Label} (h : Live s.session) (hstep : step s l = some t) :
    Live t.session := by
  rcases step_session hstep with heq | ⟨l', hl'⟩
  · rw [heq]
    exact h
  · exact session_live h hl'

/-- Nothing is left loading in any process exactly if none starts from a slice that was
loading when it was copied. -/
theorem live_throughout_iff (storage : Storage) (tr : List (Restarts.Label Label)) :
    (∀ v ∈ visits (Restarts.step app) (start storage) tr, Live v.2.2.process.session) ↔
      ∀ v ∈ visits (Restarts.step app) (start storage) tr, ∀ readable,
        v.2.1 = .restart readable → (taken app readable v.1).loading = false := by
  rw [throughout_iff app (J := fun s => Live s.session) (fun _ _ _ h hstep => step_live h hstep)
    (live_of_loading rfl)]
  refine forall₂_congr fun v _ => forall₂_congr fun readable _ => ⟨fun h => ?_, fun h => ?_⟩
  · by_contra hloading
    obtain ⟨i, thunk, hi, -⟩ := h (Bool.of_not_eq_false hloading)
    cases hi
  · exact live_of_loading h

/-- The thunks of somebody who does not log in. -/
def Passive : Thunk → Prop
  | .removing _ | .fetching => True
  | .login _ _ | .storing _ _ _ | .readingEmail | .readingPassword _ | .awaiting _ | .resumed _ =>
    False

/-- What a session does while nobody logs in: a logout or a profile request begins, takes
a turn or ends. -/
inductive Turn (s t : MobileSession.State) (l : MobileSession.Label) : Prop where
  | logout (i : Nat) (thunk : Option Thunk)
      (hthunk : ∀ a, thunk = some a → ∃ keys, a = .removing keys)
      (hauth : t.auth = s.auth ∨ t.auth = reducer s.auth .logoutFulfilled)
      (htoken : t.storage "token" = s.storage "token" ∨ t.storage "token" = none)
      (hthunks : t.thunks = s.thunks.put i thunk) : Turn s t l
  | profile (i : Nat) (thunk : Option Thunk) (hthunk : ∀ a, thunk = some a → a = .fetching)
      (hl : l = .fetchUserProfile i ∨ s.thunks i = some .fetching)
      (hauth : t.auth.isAuthenticated = s.auth.isAuthenticated) (hstorage : t.storage = s.storage)
      (hthunks : t.thunks = s.thunks.put i thunk) : Turn s t l

theorem setItem_none_token (key : String) (storage : Storage) :
    setItem key none storage "token" = storage "token" ∨
      setItem key none storage "token" = none := by
  rw [setItem]
  split
  · exact .inr rfl
  · exact .inl rfl

theorem passive_turn {s t : MobileSession.State} {l : MobileSession.Label}
    (h : s.thunks.All Passive) (hoffered : offered s.auth l = true)
    (hl : ∀ i, l ≠ .biometricLogin i) (hstep : MobileSession.step s l = some t) : Turn s t l := by
  cases l with
  | login i credentials => cases hoffered
  | setToken payload => cases hoffered
  | biometricLogin i => exact absurd rfl (hl i)
  | logout i =>
    obtain ⟨-, rfl⟩ := begin_spec hstep
    exact .logout i _ (fun a ha => ⟨_, (Option.some.inj ha).symm⟩) (.inl rfl) (.inl rfl) rfl
  | fetchUserProfile i =>
    obtain ⟨-, rfl⟩ := begin_spec hstep
    exact .profile i _ (fun a ha => (Option.some.inj ha).symm) (.inl rfl) rfl rfl rfl
  | answered i reply =>
    simp only [MobileSession.step] at hstep
    split at hstep
    · exact absurd (h _ _ ‹_›) id
    · cases hstep
  | stored i failure =>
    simp only [MobileSession.step] at hstep
    split at hstep
    · exact absurd (h _ _ ‹_›) id
    · cases hstep
  | readEmail i readable =>
    simp only [MobileSession.step] at hstep
    split at hstep
    · exact absurd (h _ _ ‹_›) id
    · cases hstep
  | readPassword i readable nested =>
    simp only [MobileSession.step] at hstep
    split at hstep
    · exact absurd (h _ _ ‹_›) id
    · cases hstep
  | resume i =>
    simp only [MobileSession.step] at hstep
    split at hstep
    · exact absurd (h _ _ ‹_›) id
    · cases hstep
  | removed i succeeded =>
    simp only [MobileSession.step] at hstep
    split at hstep
    · split at hstep
      · split at hstep
        · cases hstep
          exact .logout i none (by simp) (.inr rfl) (setItem_none_token _ _) rfl
        · cases hstep
          exact .logout i _ (fun a ha => ⟨_, (Option.some.inj ha).symm⟩) (.inl rfl)
            (setItem_none_token _ _) rfl
      · cases hstep
        exact .logout i none (by simp) (.inl rfl) (.inl rfl) rfl
    · cases hstep
  | profile i reply =>
    simp only [MobileSession.step] at hstep
    split at hstep
    · split at hstep
      · cases hstep
        exact .profile i none (by simp) (.inr ‹_›) rfl rfl rfl
      · cases hstep
        exact .profile i none (by simp) (.inr ‹_›) rfl rfl rfl
    · cases hstep

/-- Nobody is signed in, and no login is under way. -/
structure SignedOut (s : MobileSession.State) : Prop where
  out : s.auth.isAuthenticated = false
  token : truthy (s.storage "token") = none
  thunks : s.thunks.All Passive

theorem SignedOut.turn {s t : MobileSession.State} {l : MobileSession.Label} (h : SignedOut s)
    (hturn : Turn s t l) : SignedOut t := by
  cases hturn with
  | logout i thunk hthunk hauth htoken hthunks =>
    refine ⟨?_, ?_, ?_⟩
    · rcases hauth with hauth | hauth
      · rw [hauth]
        exact h.out
      · rw [hauth]
        rfl
    · rcases htoken with htoken | htoken
      · rw [htoken]
        exact h.token
      · rw [htoken]
        rfl
    · rw [hthunks]
      refine Slots.all_put (fun a ha => ?_) fun j a _ hj => h.thunks j a hj
      obtain ⟨keys, rfl⟩ := hthunk a ha
      trivial
  | profile i thunk hthunk hl hauth hstorage hthunks =>
    refine ⟨hauth.trans h.out, ?_, ?_⟩
    · rw [hstorage]
      exact h.token
    · rw [hthunks]
      refine Slots.all_put (fun a ha => ?_) fun j a _ hj => h.thunks j a hj
      obtain rfl := hthunk a ha
      trivial

theorem truthy_readable {text : Option String} (h : truthy text = none) (readable : Bool) :
    truthy (if readable then text else none) = none := by
  cases readable with
  | true => exact h
  | false => rfl

/-- Without a token `checkToken` opens the screens and does nothing else. -/
theorem checkToken_spec {s t : Process} {readable : Bool}
    (h : truthy (s.session.storage "token") = none)
    (hstep : step s (.checkToken readable) = some t) : t = { s with isLoading := false } := by
  simp only [step, truthy_readable h] at hstep
  split at hstep
  · cases hstep
    rfl
  · cases hstep

/-- A login is dispatched. -/
def LogsIn : Label → Prop
  | .submit _ (some _) | .session (.biometricLogin _) => True
  | _ => False

theorem signedOut_lasting : Lasting app (fun s => SignedOut s.session)
    (fun a => a.isAuthenticated = false) (fun l => ¬ LogsIn l) True where
  next := by
    intro s l t h hl hstep
    cases l with
    | checkToken readable =>
      obtain rfl := checkToken_spec h.token hstep
      exact h
    | press =>
      obtain ⟨-, rfl⟩ := guarded hstep
      exact h
    | submit i credentials =>
      cases credentials with
      | some credentials => exact absurd trivial hl
      | none =>
        simp only [app, step] at hstep
        split at hstep
        · cases hstep
        · cases hstep
          exact h
    | session l =>
      simp only [app, step] at hstep
      split at hstep
      · rename_i hguard
        obtain ⟨u, hu, rfl⟩ := Option.map_eq_some_iff.mp hstep
        refine h.turn (passive_turn h.thunks hguard.2 (fun i heq => ?_) hu)
        subst heq
        exact hl trivial
      · cases hstep
  slice := fun _ h => h.out
  resume := fun _ _ h ha => ⟨ha, h.token, Slots.all_idle _⟩
  first := fun _ _ _ => rfl

/-- Whoever is signed out stays so over all restarts, until the next login, exactly if every
copy of the slice says so: the one that is stored, and those that are under way. -/
theorem signedOut_lasts_iff {s : Restarts.State Process AuthState}
    (h : SignedOut s.process.session) :
    (∀ tr t, (∀ l ∈ tr, ∀ a, l = .app a → ¬ LogsIn a) → run (Restarts.step app) s tr = some t →
        t.process.session.auth.isAuthenticated = false) ↔
      (∀ a ∈ s.staged, a.isAuthenticated = false) ∧
        ∀ a, s.stored = some a → a.isAuthenticated = false := by
  have hwithin : ∀ l : Restarts.Label Label,
      l.Within (fun a => ¬ LogsIn a) True ↔ ∀ a, l = .app a → ¬ LogsIn a := by
    intro l
    cases l with
    | app a => simp [Restarts.Label.Within]
    | stage | write | restart readable => simp [Restarts.Label.Within]
  have hlasts := lasts_iff signedOut_lasting h (.inr trivial)
  simp only [hwithin] at hlasts
  exact hlasts.trans ⟨fun hcopied => ⟨hcopied.staged, hcopied.stored⟩,
    fun hcopied => ⟨hcopied.1, hcopied.2⟩⟩

/-- A logout has ended, and its slice has not been copied yet. -/
def uncopied : Restarts.State Process AuthState :=
  ⟨⟨MobileSession.start fun _ => none, false, 0⟩, [], some ⟨none, some "a", true, false, none⟩⟩

theorem logout_undone : ¬ ∀ tr t, (∀ l ∈ tr, ∀ a, l = .app a → ¬ LogsIn a) →
    run (Restarts.step app) uncopied tr = some t →
      t.process.session.auth.isAuthenticated = false := by
  intro hall
  have hcopied := (signedOut_lasts_iff ⟨rfl, rfl, Slots.all_idle _⟩).mp hall
  cases hcopied.2 _ rfl

/-- The login screen whose button nothing gives back. -/
structure LockedOut (s : Process) : Prop where
  signedOut : SignedOut s.session
  loading : s.session.auth.loading = true
  idle : s.session.thunks.All fun a => ¬ Loads a
  submitting : s.submitting = 0

theorem LockedOut.turn {s : Process} {t : MobileSession.State} {l : MobileSession.Label}
    (h : LockedOut s) (hoffered : offered s.session.auth l = true) (hturn : Turn s.session t l) :
    LockedOut { s with session := t } := by
  have hout := h.signedOut.turn hturn
  cases hturn with
  | logout i thunk hthunk hauth htoken hthunks =>
    refine ⟨hout, ?_, ?_, h.submitting⟩
    · rcases hauth with hauth | hauth
      · exact (congrArg AuthState.loading hauth).trans h.loading
      · exact (congrArg AuthState.loading hauth).trans h.loading
    · show t.thunks.All fun a => ¬ Loads a
      rw [hthunks]
      refine Slots.all_put (fun a ha => ?_) fun j a _ hj => h.idle j a hj
      obtain ⟨keys, rfl⟩ := hthunk a ha
      exact id
  | profile i thunk hthunk hl hauth hstorage hthunks =>
    rcases hl with rfl | hi
    · rw [offered, h.signedOut.out] at hoffered
      cases hoffered
    · exact absurd trivial (h.idle i _ hi)

theorem lockedOut_lasting :
    Lasting app LockedOut (fun a => a.isAuthenticated = false ∧ a.loading = true)
      (fun l => ∀ i, l ≠ .session (.biometricLogin i)) False where
  next := by
    intro s l t h hl hstep
    cases l with
    | checkToken readable =>
      obtain rfl := checkToken_spec h.signedOut.token hstep
      exact ⟨h.signedOut, h.loading, h.idle, h.submitting⟩
    | press =>
      obtain ⟨hguard, -⟩ := guarded hstep
      exact absurd h.loading hguard.2.2
    | submit i credentials =>
      simp only [app, step, h.submitting] at hstep
      cases hstep
    | session l =>
      simp only [app, step] at hstep
      split at hstep
      · rename_i hguard
        obtain ⟨u, hu, rfl⟩ := Option.map_eq_some_iff.mp hstep
        refine h.turn hguard.2 (passive_turn h.signedOut.thunks hguard.2 (fun i heq => ?_) hu)
        exact hl i (congrArg Label.session heq)
      · cases hstep
  slice := fun _ h => ⟨h.signedOut.out, h.loading⟩
  resume := fun _ _ h ha =>
    ⟨⟨ha.1, h.signedOut.token, Slots.all_idle _⟩, ha.2, Slots.all_idle _, rfl⟩
  first := fun h => h.elim

def credentials : LoginRequest := ⟨"ada@example.org", "Secret1!"⟩

/-- The server does not answer, and the slice is copied meanwhile. -/
def waiting : Restarts.State Process AuthState :=
  (run (Restarts.step app) (start fun _ => none)
    [.app (.checkToken true), .app .press, .app (.submit 0 (some credentials)), .stage,
      .write]).getD (start fun _ => none)

end MobileRestart
