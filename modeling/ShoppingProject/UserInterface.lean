import Mathlib.Data.Rat.Defs
import ShoppingProject.KeyedLists
import ShoppingProject.Mirrors
import ShoppingProject.Numerals

/-!
# The state of the user interface

Theme and language, which the local storage mirrors, modals, and notifications. A modal is
looked up before one is added, so its id is its own; a notification is added under the time
at which this happens, and its id is its own only if no other one of that millisecond is left.
-/
namespace UserInterface

open Runs KeyedLists

inductive Theme where
  | light | dark
  deriving DecidableEq

def Theme.text : Theme → String
  | .light => "light"
  | .dark => "dark"

inductive Language where
  | en | tr
  deriving DecidableEq

def Language.text : Language → String
  | .en => "en"
  | .tr => "tr"

variable {δ : Type}

/-- A modal with data of the type `δ`. -/
structure Modal (δ : Type) where
  id : String
  isOpen : Bool
  data : Option δ

def Modal.opened (data : Option δ) (m : Modal δ) : Modal δ :=
  { m with isOpen := true, data := data }

def Modal.closed (m : Modal δ) : Modal δ := { m with isOpen := false }

inductive NotificationType where
  | success | error | warning | info
  deriving DecidableEq

/-- `Omit<Notification, 'id'>`. -/
structure NotificationPayload where
  type : NotificationType
  message : String
  duration : Option ℚ

structure Notification extends NotificationPayload where
  id : String

/-- The slice. Theme and language may be any texts: they are taken from the storage as they
are. -/
structure UIState (δ : Type) where
  theme : String
  language : String
  sidebarOpen : Bool
  modals : List (Modal δ)
  notifications : List Notification
  isLoading : Bool
  loadingMessage : Option String

/-- `localStorage.getItem(name) || other`. -/
def getItem (name other : String) (storage : Entries String) : String :=
  ((storage name).filter (· ≠ "")).getD other

def initialState (storage : Entries String) : UIState δ where
  theme := getItem "theme" Theme.light.text storage
  language := getItem "language" Language.en.text storage
  sidebarOpen := false
  modals := []
  notifications := []
  isLoading := false
  loadingMessage := none

inductive Action (δ : Type) where
  | setTheme (theme : Theme)
  | toggleTheme
  | setLanguage (language : Language)
  | toggleSidebar
  | setSidebarOpen (sidebarOpen : Bool)
  | openModal (id : String) (data : Option δ)
  | closeModal (id : String)
  | addNotification (payload : NotificationPayload) (now : Int)
  | removeNotification (id : String)
  | setLoading (isLoading : Bool) (message : Option String)

section Reducers

variable (state : UIState δ)

def setTheme (theme : Theme) : UIState δ := { state with theme := theme.text }

def toggleTheme : UIState δ :=
  let theme : Theme := if state.theme = Theme.light.text then .dark else .light
  { state with theme := theme.text }

def setLanguage (language : Language) : UIState δ := { state with language := language.text }

def toggleSidebar : UIState δ := { state with sidebarOpen := !state.sidebarOpen }

def setSidebarOpen (sidebarOpen : Bool) : UIState δ := { state with sidebarOpen := sidebarOpen }

def openModal (id : String) (data : Option δ) : UIState δ :=
  { state with
    modals := match lookup Modal.id id state.modals with
      | some _ => modifyFirst Modal.id id (Modal.opened data) state.modals
      | none => state.modals ++ [⟨id, true, data⟩] }

/-- Where no modal has the id, nothing is changed. -/
def closeModal (id : String) : UIState δ :=
  { state with modals := modifyFirst Modal.id id Modal.closed state.modals }

/-- `now` is `Date.now()`, in milliseconds. -/
def addNotification (payload : NotificationPayload) (now : Int) : UIState δ :=
  let id := toString now
  { state with notifications := state.notifications ++ [{ payload with id := id }] }

def removeNotification (id : String) : UIState δ :=
  { state with notifications := without Notification.id id state.notifications }

def setLoading (isLoading : Bool) (message : Option String) : UIState δ :=
  { state with isLoading := isLoading, loadingMessage := message }

def reducer : Action δ → UIState δ
  | .setTheme theme => setTheme state theme
  | .toggleTheme => toggleTheme state
  | .setLanguage language => setLanguage state language
  | .toggleSidebar => toggleSidebar state
  | .setSidebarOpen sidebarOpen => setSidebarOpen state sidebarOpen
  | .openModal id data => openModal state id data
  | .closeModal id => closeModal state id
  | .addNotification payload now => addNotification state payload now
  | .removeNotification id => removeNotification state id
  | .setLoading isLoading message => setLoading state isLoading message

/-- What a reducer puts into the local storage. -/
def write : Action δ → Entries String → Entries String
  | .setTheme theme, storage => storage.setItem "theme" theme.text
  | .toggleTheme, storage => storage.setItem "theme" (toggleTheme state).theme
  | .setLanguage language, storage => storage.setItem "language" language.text
  | _, storage => storage

/-- The attribute `data-theme` of the document. -/
def setAttribute : Action δ → Option String → Option String
  | .setTheme theme, _ => some theme.text
  | .toggleTheme, _ => some (toggleTheme state).theme
  | _, dataTheme => dataTheme

end Reducers

/-- The slice and the document of a page. -/
structure Page (δ : Type) where
  ui : UIState δ
  dataTheme : Option String

def uiSlice (δ : Type) : Slice (Page δ) (Entries String) (Action δ) where
  initialState storage := ⟨initialState storage, none⟩
  reducer page action := ⟨reducer page.ui action, setAttribute page.ui action page.dataTheme⟩
  write page := write page.ui

abbrev State (δ : Type) := Slice.State (Page δ) (Entries String)

abbrev Label (δ : Type) := Slice.Label (Action δ)

/-! ## Notifications -/

def notifications (s : State δ) : List Notification := s.slice.ui.notifications

def ids (s : State δ) : List String := (notifications s).map Notification.id

/-- What a step makes of the notifications. -/
def notified : Label δ → List Notification → List Notification
  | .dispatch (.addNotification payload now), ns => ns ++ [{ payload with id := toString now }]
  | .dispatch (.removeNotification id), ns => without Notification.id id ns
  | .dispatch _, ns => ns
  | .reload, _ => []

theorem step_notifications {s t : State δ} {l : Label δ} (h : (uiSlice δ).step s l = some t) :
    notifications t = notified l (notifications s) := by
  cases l with
  | reload =>
    obtain rfl := Option.some.inj h
    rfl
  | dispatch action =>
    obtain rfl := Option.some.inj h
    cases action <;> rfl

/-- The ids are distinct after the step, and if it removes an id, then it takes away the one
notification that has it. -/
structure Identified (v : State δ × Label δ × State δ) : Prop where
  distinct : Distinct Notification.id (notifications v.2.2)
  removal : ∀ id, v.2.1 = .dispatch (.removeNotification id) →
    if id ∈ ids v.1 then RemovesOne Notification.id id (notifications v.1) (notifications v.2.2)
    else notifications v.2.2 = notifications v.1

/-- No notification that is still there was added in the millisecond in which one is added. -/
def Fresh (s : State δ) : Label δ → Prop
  | .dispatch (.addNotification _ now) => toString now ∉ ids s
  | _ => True

theorem distinct_notified {s : State δ} (hs : Distinct Notification.id (notifications s))
    (l : Label δ) : Distinct Notification.id (notified l (notifications s)) ↔ Fresh s l := by
  cases l with
  | reload => exact iff_of_true distinct_nil trivial
  | dispatch action =>
    cases action with
    | addNotification payload now => exact distinct_snoc.trans (and_iff_right hs)
    | removeNotification id => exact iff_of_true (hs.without id) trivial
    | _ => exact iff_of_true hs trivial

theorem removal_notified {s : State δ} (hs : Distinct Notification.id (notifications s))
    (id : String) :
    let remaining := notified (.dispatch (.removeNotification id) : Label δ) (notifications s)
    if id ∈ ids s then RemovesOne Notification.id id (notifications s) remaining
    else remaining = notifications s := by
  intro remaining
  split
  · rename_i hid
    exact hs.removesOne hid
  · rename_i hid
    exact without_absent hid

theorem step_identified_iff {s t : State δ} {l : Label δ}
    (hs : Distinct Notification.id (notifications s)) (h : (uiSlice δ).step s l = some t) :
    Identified (s, l, t) ↔ Fresh s l := by
  have ht : notifications t = notified l (notifications s) := step_notifications h
  constructor
  · intro hidentified
    have hdistinct := hidentified.distinct
    simp only [ht] at hdistinct
    exact (distinct_notified hs l).mp hdistinct
  · intro hfresh
    constructor
    · simp only [ht]
      exact (distinct_notified hs l).mpr hfresh
    · rintro id rfl
      simp only [ht]
      exact removal_notified hs id

theorem step_distinct {s t : State δ} {l : Label δ}
    (hs : Distinct Notification.id (notifications s)) (hfresh : Fresh s l)
    (h : (uiSlice δ).step s l = some t) : Distinct Notification.id (notifications t) := by
  rw [step_notifications h]
  exact (distinct_notified hs l).mpr hfresh

/-- In a run of actions and reloads the notifications are identified by their ids at every step
exactly if each is added in a millisecond in which none that is still there was added. -/
theorem notifications_identified_iff (storage : Entries String) (tr : List (Label δ)) :
    (∀ v ∈ visits (uiSlice δ).step ((uiSlice δ).start storage) tr, Identified v) ↔
      ∀ v ∈ visits (uiSlice δ).step ((uiSlice δ).start storage) tr, Fresh v.1 v.2.1 :=
  visits_iff (fun s => Distinct Notification.id (notifications s)) Identified Fresh
    (fun _ _ _ hs h => step_identified_iff hs h)
    (fun _ _ _ hs hfresh h => step_distinct hs hfresh h) distinct_nil tr

/-- A removal does not tell apart what was added in one millisecond. -/
theorem removeNotification_twins (state : UIState δ) (p q : NotificationPayload) (now : Int) :
    removeNotification (addNotification (addNotification state p now) q now) (toString now) =
      removeNotification state (toString now) := by
  simp [removeNotification, addNotification, without]

def saved : NotificationPayload := ⟨.success, "Saved", none⟩

def failed : NotificationPayload := ⟨.error, "Failed", none⟩

/-- Two notifications in one millisecond, the first of which is then dismissed. -/
def sameMillisecond (now : Int) : List (Label Unit) :=
  [.dispatch (.addNotification saved now), .dispatch (.addNotification failed now),
    .dispatch (.removeNotification (toString now))]

/-- The two have one id, and both are gone. -/
theorem same_millisecond_loses_both :
    ¬ (∀ (storage : Entries String) (tr : List (Label Unit)),
      ∀ v ∈ visits (uiSlice Unit).step ((uiSlice Unit).start storage) tr, Identified v) ∧
    ∃ t, run (uiSlice Unit).step ((uiSlice Unit).start .empty) (sameMillisecond 1700000000000) =
      some t ∧ notifications t = [] := by
  constructor
  · intro h
    have hids : [toString (1700000000000 : Int), toString (1700000000000 : Int)].Nodup :=
      (h .empty (sameMillisecond 1700000000000) _ (.tail _ (.head _))).distinct
    simp at hids
  · refine ⟨_, rfl, ?_⟩
    exact congrArg UIState.notifications
      (removeNotification_twins (initialState .empty) saved failed 1700000000000)

/-- When a step adds a notification. -/
def addTime : Label δ → Option Int
  | .dispatch (.addNotification _ now) => some now
  | _ => none

/-- The ids after a step are those before it, or the time of the step. -/
theorem mem_ids_step {s t : State δ} {l : Label δ} (h : (uiSlice δ).step s l = some t)
    {id : String} (hid : id ∈ ids t) :
    id ∈ ids s ∨ ∃ now, addTime l = some now ∧ id = toString now := by
  rw [ids, step_notifications h] at hid
  cases l with
  | reload => exact absurd hid List.not_mem_nil
  | dispatch action =>
    cases action with
    | addNotification payload now =>
      simp only [notified, List.map_append, List.mem_append, List.map_singleton,
        List.mem_singleton] at hid
      exact hid.imp_right fun hid => ⟨now, rfl, hid⟩
    | removeNotification id => exact .inl ((List.filter_sublist.map _).subset hid)
    | _ => exact .inl hid

/-- Notifications that are added at different times have ids of their own. -/
theorem fresh_of_times {s : State δ} {tr : List (Label δ)} (htimes : (tr.filterMap addTime).Nodup)
    (hs : ∀ now ∈ tr.filterMap addTime, toString now ∉ ids s) :
    ∀ v ∈ visits (uiSlice δ).step s tr, Fresh v.1 v.2.1 := by
  induction tr generalizing s with
  | nil => simp
  | cons l tr ih =>
    obtain ⟨t, ht⟩ := Option.isSome_iff_exists.mp ((uiSlice δ).step_isSome s l)
    rw [visits_cons tr ht, List.forall_mem_cons]
    have hlater : ∀ now ∈ tr.filterMap addTime, addTime l ≠ some now := by
      intro now hnow hl
      rw [List.filterMap_cons_some hl] at htimes
      exact (List.nodup_cons.mp htimes).1 hnow
    have hmem : ∀ now ∈ tr.filterMap addTime, now ∈ (l :: tr).filterMap addTime := by
      intro now hnow
      obtain ⟨k, hk, hnow⟩ := List.mem_filterMap.mp hnow
      exact List.mem_filterMap.mpr ⟨k, .tail _ hk, hnow⟩
    refine ⟨?_, ih (htimes.sublist ((List.sublist_cons_self l tr).filterMap addTime)) ?_⟩
    · cases l with
      | reload => trivial
      | dispatch action =>
        cases action with
        | addNotification payload now => exact hs now List.mem_cons_self
        | _ => trivial
    · intro now hnow hid
      rcases mem_ids_step ht hid with hid | ⟨now', hl, htext⟩
      · exact hs now (hmem now hnow) hid
      · obtain rfl : now = now' := Numerals.toString_inj.mp htext
        exact hlater now hnow hl

/-- Adding at different times is enough. -/
theorem identified_of_times (storage : Entries String) {tr : List (Label δ)}
    (htimes : (tr.filterMap addTime).Nodup) :
    ∀ v ∈ visits (uiSlice δ).step ((uiSlice δ).start storage) tr, Identified v := by
  have hfresh : ∀ v ∈ visits (uiSlice δ).step ((uiSlice δ).start storage) tr, Fresh v.1 v.2.1 :=
    fresh_of_times htimes fun _ _ => List.not_mem_nil
  intro v hv
  obtain ⟨hs, hstep, -⟩ := visits_invariant
    (fun s => Distinct Notification.id (notifications s)) Fresh
    (fun _ _ _ hs hfresh h => step_distinct hs hfresh h) distinct_nil hfresh v hv
  exact (step_identified_iff hs hstep).mpr (hfresh v hv)

/-! ## Modals -/

/-- The modals as a table. -/
def modal (state : UIState δ) : Entries (Modal δ) := fun id => lookup Modal.id id state.modals

/-- What an action makes of the table. -/
def tabled : Action δ → Entries (Modal δ) → Entries (Modal δ)
  | .openModal id data, table => table.setItem id ⟨id, true, data⟩
  | .closeModal id, table => (table id).elim table fun m => table.setItem id m.closed
  | _, table => table

/-- A change of one modal is an assignment in the table. -/
theorem modal_modifyFirst {state : UIState δ} {id : String} {m : Modal δ}
    (h : modal state id = some m) {f : Modal δ → Modal δ} (hf : ∀ m, (f m).id = m.id) :
    modal { state with modals := modifyFirst Modal.id id f state.modals } =
      (modal state).setItem id (f m) := by
  funext other
  by_cases hother : other = id
  · subst other
    rw [Entries.setItem_same, modal, lookup_modifyFirst_same hf]
    exact congrArg (Option.map f) h
  · rw [Entries.setItem_other _ _ hother]
    exact lookup_modifyFirst_other hf hother

theorem modal_openModal (state : UIState δ) (id : String) (data : Option δ) :
    modal (openModal state id data) = (modal state).setItem id ⟨id, true, data⟩ := by
  unfold openModal
  split
  · rename_i m hm
    have hid : m.id = id := lookup_key hm
    rw [modal_modifyFirst hm (f := Modal.opened data) fun _ => rfl, Modal.opened, hid]
  · rename_i hnone
    funext other
    rw [modal, lookup_snoc (lookup_eq_none.mp hnone)]
    by_cases hother : other = id
    · subst other
      simp
    · rw [if_neg (Ne.symm hother), Entries.setItem_other _ _ hother]
      rfl

theorem modal_closeModal (state : UIState δ) (id : String) :
    modal (closeModal state id) = tabled (.closeModal id) (modal state) := by
  cases h : modal state id with
  | none =>
    simp only [tabled, h, Option.elim_none, closeModal, modifyFirst_absent (lookup_eq_none.mp h)]
  | some m =>
    simp only [tabled, h, Option.elim_some]
    exact modal_modifyFirst h fun _ => rfl

theorem modal_reducer (state : UIState δ) (action : Action δ) :
    modal (reducer state action) = tabled action (modal state) := by
  cases action with
  | openModal id data => exact modal_openModal state id data
  | closeModal id => exact modal_closeModal state id
  | _ => rfl

theorem openModal_distinct {state : UIState δ} (h : Distinct Modal.id state.modals) (id : String)
    (data : Option δ) : Distinct Modal.id (openModal state id data).modals := by
  unfold openModal
  split
  · exact h.modifyFirst (f := Modal.opened data) (fun _ => rfl) id
  · rename_i hnone
    exact distinct_snoc.mpr ⟨h, lookup_eq_none.mp hnone⟩

/-- The same for a step; a page is loaded without modals. -/
def tabledStep (table : Entries (Modal δ)) : Label δ → Entries (Modal δ)
  | .dispatch action => tabled action table
  | .reload => .empty

/-- A run does with the modals what it does with a table. -/
theorem run_modal {s t : State δ} {tr : List (Label δ)} (h : run (uiSlice δ).step s tr = some t) :
    modal t.slice.ui = tr.foldl tabledStep (modal s.slice.ui) := by
  induction tr generalizing s with
  | nil =>
    obtain rfl : s = t := by simpa using h
    rfl
  | cons l tr ih =>
    obtain ⟨u, hl, hu⟩ := Option.bind_eq_some_iff.mp h
    rw [ih hu, List.foldl_cons]
    congr 1
    cases l with
    | reload =>
      obtain rfl := Option.some.inj hl
      rfl
    | dispatch action =>
      obtain rfl := Option.some.inj hl
      exact modal_reducer s.slice.ui action

/-- Under every sequence of actions the ids of the modals stay distinct. -/
theorem run_modals_distinct {storage : Entries String} {t : State δ} {tr : List (Label δ)}
    (h : run (uiSlice δ).step ((uiSlice δ).start storage) tr = some t) :
    Distinct Modal.id t.slice.ui.modals := by
  refine Slice.run_slice (fun page => Distinct Modal.id page.ui.modals) (fun _ => distinct_nil) ?_ h
  intro page action hpage
  cases action with
  | openModal id data => exact openModal_distinct hpage id data
  | closeModal id => exact hpage.modifyFirst (f := Modal.closed) (fun _ => rfl) id
  | _ => exact hpage

/-! ## Theme and language -/

theorem Theme.text_ne (theme : Theme) : theme.text ≠ "" := by
  cases theme <;> decide

theorem Language.text_ne (language : Language) : language.text ≠ "" := by
  cases language <;> decide

theorem getItem_ne {other : String} (h : other ≠ "") (name : String) (storage : Entries String) :
    getItem name other storage ≠ "" := by
  unfold getItem
  cases hitem : (storage name).filter (· ≠ "") with
  | none => exact h
  | some text => simpa using (Option.filter_eq_some_iff.mp hitem).2

theorem getItem_same {value : String} (h : value ≠ "") (name other : String)
    (storage : Entries String) : getItem name other (storage.setItem name value) = value := by
  simp [getItem, Option.filter, h]

theorem getItem_other {name name' : String} (h : name' ≠ name) (value other : String)
    (storage : Entries String) :
    getItem name' other (storage.setItem name value) = getItem name' other storage := by
  simp only [getItem, Entries.setItem_other _ _ h]

def appearance (page : Page δ) : String × String := (page.ui.theme, page.ui.language)

/-- Neither text is empty. -/
def Chosen (texts : String × String) : Prop := texts.1 ≠ "" ∧ texts.2 ≠ ""

theorem toggleTheme_ne (state : UIState δ) : (toggleTheme state).theme ≠ "" := Theme.text_ne _

/-- A theme and a language that are set are what the storage has for them. -/
theorem setTheme_mirror {s : State δ} (hs : (uiSlice δ).Mirrored appearance Chosen s)
    {theme : String} (h : theme ≠ "") :
    appearance ((uiSlice δ).initialState (s.storage.setItem "theme" theme)) =
      (theme, s.slice.ui.language) :=
  Prod.ext (getItem_same h "theme" _ s.storage)
    ((getItem_other (by decide) _ _ s.storage).trans (congrArg Prod.snd hs.mirror))

theorem setLanguage_mirror {s : State δ} (hs : (uiSlice δ).Mirrored appearance Chosen s)
    {language : String} (h : language ≠ "") :
    appearance ((uiSlice δ).initialState (s.storage.setItem "language" language)) =
      (s.slice.ui.theme, language) :=
  Prod.ext ((getItem_other (by decide) _ _ s.storage).trans (congrArg Prod.fst hs.mirror))
    (getItem_same h "language" _ s.storage)

theorem uiSlice_keeps : (uiSlice δ).KeepsMirror appearance Chosen := by
  intro s action hs
  cases action with
  | setTheme theme =>
    exact ⟨⟨theme.text_ne, hs.property.2⟩, setTheme_mirror hs theme.text_ne⟩
  | toggleTheme =>
    have hne := toggleTheme_ne s.slice.ui
    exact ⟨⟨hne, hs.property.2⟩, setTheme_mirror hs hne⟩
  | setLanguage language =>
    exact ⟨⟨hs.property.1, language.text_ne⟩, setLanguage_mirror hs language.text_ne⟩
  | _ => exact ⟨hs.property, hs.mirror⟩

/-- Once it is set, the attribute of the document is the theme. -/
theorem run_dataTheme {storage : Entries String} {t : State δ} {tr : List (Label δ)}
    (h : run (uiSlice δ).step ((uiSlice δ).start storage) tr = some t) :
    ∀ text ∈ t.slice.dataTheme, text = t.slice.ui.theme := by
  refine Slice.run_slice (fun page => ∀ text ∈ page.dataTheme, text = page.ui.theme)
    (fun _ text he => absurd he (Option.not_mem_none text)) ?_ h
  intro page action hpage
  cases action with
  | setTheme theme => exact fun _ he => (Option.mem_some.mp he).symm
  | toggleTheme => exact fun _ he => (Option.mem_some.mp he).symm
  | _ => exact hpage

end UserInterface
