import ShoppingProject.WebCartStorage

/-!
# The preferences of the web application

Every reducer of the slice stores all the preferences, and a load takes each of them from
what is stored, or from the defaults if it is missing there. The flag `isInitialized` is not
stored.
-/
namespace Preferences

open Runs
open WebCartStorage (LocalStorage)

inductive Currency where
  | USD | EUR | TRY
  deriving DecidableEq

def Currency.text : Currency → String
  | .USD => "USD"
  | .EUR => "EUR"
  | .TRY => "TRY"

def Currency.read : String → Option Currency
  | "USD" => some .USD
  | "EUR" => some .EUR
  | "TRY" => some .TRY
  | _ => none

inductive View where
  | grid | list
  deriving DecidableEq

def View.text : View → String
  | .grid => "grid"
  | .list => "list"

def View.read : String → Option View
  | "grid" => some .grid
  | "list" => some .list
  | _ => none

structure UserPreferences where
  emailNotifications : Bool
  pushNotifications : Bool
  currency : Currency
  itemsPerPage : ℚ
  defaultView : View
  autoSave : Bool
  deriving DecidableEq

structure PreferencesState extends UserPreferences where
  isInitialized : Bool
  deriving DecidableEq

/-- `Partial<UserPreferences>`. -/
structure PreferencesUpdate where
  emailNotifications : Option Bool
  pushNotifications : Option Bool
  currency : Option Currency
  itemsPerPage : Option ℚ
  defaultView : Option View
  autoSave : Option Bool
  deriving DecidableEq

def defaultPreferences : UserPreferences := ⟨true, false, .USD, 12, .grid, true⟩

/-- The fields of `update` over those of `preferences`. -/
def assign (preferences : UserPreferences) (update : PreferencesUpdate) : UserPreferences where
  emailNotifications := update.emailNotifications.getD preferences.emailNotifications
  pushNotifications := update.pushNotifications.getD preferences.pushNotifications
  currency := update.currency.getD preferences.currency
  itemsPerPage := update.itemsPerPage.getD preferences.itemsPerPage
  defaultView := update.defaultView.getD preferences.defaultView
  autoSave := update.autoSave.getD preferences.autoSave

/-- `JSON.stringify(preferences)`. -/
def preferencesJson (p : UserPreferences) : Json :=
  .obj [("emailNotifications", .bool p.emailNotifications),
    ("pushNotifications", .bool p.pushNotifications), ("currency", .str p.currency.text),
    ("itemsPerPage", .num p.itemsPerPage), ("defaultView", .str p.defaultView.text),
    ("autoSave", .bool p.autoSave)]

def asBool : Json → Option Bool
  | .bool b => some b
  | _ => none

/-- The preferences that a stored object names. -/
def readPreferences (j : Json) : PreferencesUpdate where
  emailNotifications := (j.field "emailNotifications").bind asBool
  pushNotifications := (j.field "pushNotifications").bind asBool
  currency := ((j.field "currency").bind Json.asStr).bind Currency.read
  itemsPerPage := (j.field "itemsPerPage").bind Json.asNum
  defaultView := ((j.field "defaultView").bind Json.asStr).bind View.read
  autoSave := (j.field "autoSave").bind asBool

def loadPreferences (storage : LocalStorage) : UserPreferences :=
  match storage "userPreferences" with
  | some stored => assign defaultPreferences (readPreferences stored)
  | none => defaultPreferences

def initialState (storage : LocalStorage) : PreferencesState := ⟨loadPreferences storage, true⟩

inductive Action where
  | updatePreferences (payload : PreferencesUpdate) : Action
  | toggleEmailNotifications : Action
  | togglePushNotifications : Action
  | setCurrency (payload : Currency) : Action
  | setItemsPerPage (payload : ℚ) : Action
  | setDefaultView (payload : View) : Action
  | toggleAutoSave : Action
  | resetPreferences : Action
  deriving DecidableEq

def reducer (state : PreferencesState) : Action → PreferencesState
  | .updatePreferences payload =>
    { state with toUserPreferences := assign state.toUserPreferences payload }
  | .toggleEmailNotifications => { state with emailNotifications := !state.emailNotifications }
  | .togglePushNotifications => { state with pushNotifications := !state.pushNotifications }
  | .setCurrency payload => { state with currency := payload }
  | .setItemsPerPage payload => { state with itemsPerPage := payload }
  | .setDefaultView payload => { state with defaultView := payload }
  | .toggleAutoSave => { state with autoSave := !state.autoSave }
  | .resetPreferences => { state with toUserPreferences := defaultPreferences }

def store (preferences : UserPreferences) (storage : LocalStorage) : LocalStorage :=
  storage.setItem "userPreferences" (preferencesJson preferences)

/-- All reducers store the preferences that they leave; the last one stores the defaults. -/
def write (state : PreferencesState) (action : Action) (storage : LocalStorage) : LocalStorage :=
  match action with
  | .resetPreferences => store defaultPreferences storage
  | action => store (reducer state action).toUserPreferences storage

def preferencesSlice : Slice PreferencesState LocalStorage Action where
  initialState := initialState
  reducer := reducer
  write := write

/-! ## What is stored is loaded -/

@[simp] theorem Currency.read_text (currency : Currency) : read currency.text = some currency := by
  cases currency <;> rfl

@[simp] theorem View.read_text (view : View) : read view.text = some view := by
  cases view <;> rfl

/-- Every preference is stored. -/
theorem readPreferences_preferencesJson (p : UserPreferences) :
    readPreferences (preferencesJson p) = ⟨some p.emailNotifications, some p.pushNotifications,
      some p.currency, some p.itemsPerPage, some p.defaultView, some p.autoSave⟩ := by
  simp [readPreferences, preferencesJson, Json.field, asBool, Json.asStr, Json.asNum]

theorem loadPreferences_store (p : UserPreferences) (storage : LocalStorage) :
    loadPreferences (store p storage) = p := by
  simp [loadPreferences, store, readPreferences_preferencesJson, assign]

theorem loadPreferences_write (state : PreferencesState) (action : Action)
    (storage : LocalStorage) :
    loadPreferences (write state action storage) = (reducer state action).toUserPreferences := by
  cases action <;> exact loadPreferences_store _ storage

theorem preferencesSlice_keeps :
    preferencesSlice.KeepsMirror PreferencesState.toUserPreferences fun _ => True :=
  fun s action _ => ⟨trivial, loadPreferences_write s.slice action s.storage⟩

/-- In every run of actions and reloads, a load gives the current preferences. -/
theorem preferences_survive (tr : List (Slice.Label Action)) :
    ∃ t, run preferencesSlice.step (preferencesSlice.start .empty) tr = some t ∧
      loadPreferences t.storage = t.slice.toUserPreferences := by
  obtain ⟨t, ht, hmirrored⟩ := preferencesSlice_keeps.exists_run trivial tr
  exact ⟨t, ht, hmirrored.mirror⟩

/-- No action takes back that the slice is initialized. -/
theorem isInitialized_kept {tr : List (Slice.Label Action)} {t}
    (h : run preferencesSlice.step (preferencesSlice.start .empty) tr = some t) :
    t.slice.isInitialized = true := by
  refine Slice.run_slice (fun state => state.isInitialized = true) (fun _ => rfl) ?_ h
  intro state action hstate
  cases action <;> exact hstate

end Preferences
