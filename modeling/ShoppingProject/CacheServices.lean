import ShoppingProject.Caches

/-!
# Two services over one cache

`CacheService` and `RedisCacheService` implement one interface over a distributed cache of
texts. The one takes for a miss what is null, the other what equals the default of the
type, and does not store it either. A type is given by its default and by how its values
compare with that. An operation that throws has no result. A factory is the value that it
answers with; one that throws leaves the cache alone in both services.
-/
namespace CacheServices

open Caches

variable {α : Type}

/-- A type of cached values. Where null is a value of it, that is its default, and the only
value that equals it. -/
structure CachedType (α : Type) where
  nullable : Bool
  default : α
  /-- `EqualityComparer<T>.Default.Equals(value, default)`. -/
  equalsDefault : α → Bool
  refl : equalsDefault default = true
  null : nullable = true → ∀ v, equalsDefault v = true → v = default

/-- `value is not null`. -/
def CachedType.isNotNull (T : CachedType α) (v : α) : Bool := !(T.nullable && T.equalsDefault v)

/-- `System.Text.Json` for a type whose values it reads back, whether the names of properties
are compared with case or without. -/
structure JsonSerializer (α : Type) where
  serialize : α → String
  deserialize : Bool → String → Option α
  roundTrip : ∀ caseInsensitive v, deserialize caseInsensitive (serialize v) = some v
  nonempty : ∀ v, serialize v ≠ ""

/-- Stores a text for some time, which the options have to be given as positive. -/
def setStringAsync (c : Cache String String) (now : Int) (key value : String) (relative : Int) :
    Option (Cache String String) :=
  if 0 < relative then some (set c key value (now + relative)) else none

def minutes (n : Int) : Int := n * 60 * 10000000

variable (T : CachedType α) (J : JsonSerializer α)

namespace CacheService

def getAsync (c : Cache String String) (now : Int) (key : String) : Option α :=
  match lookup now c key with
  | none => some T.default
  | some cachedValue => if cachedValue = "" then some T.default else J.deserialize false cachedValue

def setAsync (c : Cache String String) (now : Int) (key : String) (value : α)
    (expiration : Option Int) : Option (Cache String String) :=
  setStringAsync c now key (J.serialize value) (expiration.getD (minutes 10))

def getOrSetAsync (c : Cache String String) (now : Int) (key : String) (factory : α)
    (expiration : Option Int) : Option (α × Cache String String) := do
  let cachedValue ← getAsync T J c now key
  if T.isNotNull cachedValue then
    return (cachedValue, c)
  let c ← setAsync J c now key factory expiration
  return (factory, c)

end CacheService

namespace RedisCacheService

def getAsync (c : Cache String String) (now : Int) (key : String) : Option α :=
  match lookup now c key with
  | none => some T.default
  | some data => if data = "" then some T.default else J.deserialize true data

def setAsync (c : Cache String String) (now : Int) (key : String) (value : α)
    (expiration : Option Int) : Option (Cache String String) :=
  setStringAsync c now key (J.serialize value) (expiration.getD (minutes 30))

def getOrSetAsync (c : Cache String String) (now : Int) (key : String) (factory : α)
    (expiration : Option Int) : Option (α × Cache String String) := do
  let cachedValue ← getAsync T J c now key
  if !T.equalsDefault cachedValue then
    return (cachedValue, c)
  if !T.equalsDefault factory then
    let c ← setAsync J c now key factory expiration
    return (factory, c)
  return (factory, c)

end RedisCacheService

/-! ## The contract -/

/-- A cache in which a service has stored a value under the key, or none. -/
def stored (c : Cache String String) (key : String) : Option (Entry α) → Cache String String
  | none => remove c key
  | some e => set c key (J.serialize e.value) e.expires

/-- What has been stored and has not expired. -/
def present (now : Int) (written : Option (Entry α)) : Option (Entry α) :=
  written.filter fun e => decide (now < e.expires)

/-- What is cached is returned and stays; what is not is made, and kept for that time. -/
def Kept (c : Cache String String) (now : Int) (key : String) (written : Option (Entry α))
    (factory : α) (expiration : Int) (result : Option (α × Cache String String)) : Prop :=
  ∃ v c', result = some (v, c') ∧
    match present now written with
    | some e => v = e.value ∧ Same now c' c
    | none => v = factory ∧ live now c' key = some ⟨J.serialize factory, now + expiration⟩ ∧
      ∀ k, k ≠ key → live now c' k = live now c k

variable {T J} {c : Cache String String} {now : Int} {key : String} {written : Option (Entry α)}
  {factory : α} {expiration : Int}

theorem live_stored : live now (stored J c key written) key =
    (present now written).map fun e => ⟨J.serialize e.value, e.expires⟩ := by
  cases written with
  | none => simp [stored, present, live, remove]
  | some e => by_cases hlive : now < e.expires <;>
      simp [stored, present, live, Caches.set, hlive, Option.filter]

theorem getAsync_stored : CacheService.getAsync T J (stored J c key written) now key =
    some ((present now written).elim T.default Entry.value) := by
  rw [CacheService.getAsync, lookup_eq_live, live_stored]
  cases present now written with
  | none => rfl
  | some e => simp [J.nonempty, J.roundTrip]

theorem redis_getAsync_stored : RedisCacheService.getAsync T J (stored J c key written) now key =
    some ((present now written).elim T.default Entry.value) := by
  rw [RedisCacheService.getAsync, lookup_eq_live, live_stored]
  cases present now written with
  | none => rfl
  | some e => simp [J.nonempty, J.roundTrip]

theorem not_kept_none :
    ¬ Kept J c now key written factory expiration (none : Option (α × Cache String String)) := by
  rintro ⟨v, c', hresult, -⟩
  cases hresult

/-- A cache that is left as it is keeps what is there. -/
theorem kept_left {e : Entry α} (h : present now written = some e) (v : α) :
    Kept J c now key written factory expiration (some (v, c)) ↔ v = e.value := by
  constructor
  · rintro ⟨v', c', hresult, hkept⟩
    obtain ⟨rfl, rfl⟩ := Prod.mk.inj (Option.some.inj hresult)
    rw [h] at hkept
    exact hkept.1
  · intro hv
    refine ⟨v, c, rfl, ?_⟩
    rw [h]
    exact ⟨hv, .refl now c⟩

theorem not_kept_left (h : present now written = none) (v : α) :
    ¬ Kept J (stored J c key written) now key written factory expiration
      (some (v, stored J c key written)) := by
  rintro ⟨v', c', hresult, hkept⟩
  obtain ⟨rfl, rfl⟩ := Prod.mk.inj (Option.some.inj hresult)
  rw [h] at hkept
  obtain ⟨-, hstored, -⟩ := hkept
  rw [live_stored, h] at hstored
  cases hstored

/-- Storing keeps what is there if it is the same, until the same time. -/
theorem kept_set {e : Entry α} (h : present now written = some e) (hpositive : 0 < expiration) :
    Kept J (stored J c key written) now key written factory expiration (some (factory,
        Caches.set (stored J c key written) key (J.serialize factory) (now + expiration))) ↔
      factory = e.value ∧ e.expires = now + expiration := by
  have hsame := @same_set_iff _ _ _ now (now + expiration) (stored J c key written) key
    (J.serialize factory) (by omega)
  rw [live_stored, h] at hsame
  unfold Kept
  rw [h]
  constructor
  · rintro ⟨v, c', hresult, hv, hc⟩
    obtain ⟨rfl, rfl⟩ := Prod.mk.inj (Option.some.inj hresult)
    exact ⟨hv, congrArg Entry.expires (Option.some.inj (hsame.mp hc))⟩
  · rintro ⟨hv, hexpires⟩
    refine ⟨factory, _, rfl, hv, hsame.mpr ?_⟩
    rw [Option.map_some, hv, hexpires]

theorem kept_made (h : present now written = none) (hpositive : 0 < expiration) :
    Kept J c now key written factory expiration (some (factory,
      Caches.set c key (J.serialize factory) (now + expiration))) := by
  refine ⟨factory, _, rfl, ?_⟩
  rw [h]
  exact ⟨rfl, live_set_same _ _ _ (by omega), fun k hk => live_set_other _ _ hk⟩

/-- What is absent is made and stored, unless the time given has passed already. -/
theorem kept_of_absent (h : present now written = none) :
    Kept J c now key written factory expiration (if 0 < expiration then some (factory,
      Caches.set c key (J.serialize factory) (now + expiration)) else none) ↔
        0 < expiration := by
  by_cases hpositive : 0 < expiration
  · rw [if_pos hpositive]
    exact iff_of_true (kept_made h hpositive) hpositive
  · rw [if_neg hpositive]
    exact iff_of_false not_kept_none hpositive

theorem present_live {e : Entry α} (h : present now written = some e) : now < e.expires := by
  rw [present, Option.filter_eq_some_iff] at h
  simpa using h.2

theorem getOrSetAsync_stored {v : α} (hv : (present now written).elim T.default Entry.value = v) :
    CacheService.getOrSetAsync T J (stored J c key written) now key factory (some expiration) =
      if T.isNotNull v then some (v, stored J c key written)
      else if 0 < expiration then some (factory,
        Caches.set (stored J c key written) key (J.serialize factory) (now + expiration))
      else none := by
  simp only [CacheService.getOrSetAsync, getAsync_stored, hv, CacheService.setAsync,
    setStringAsync, Option.getD_some, Option.bind_eq_bind, Option.bind_some]
  split
  · rfl
  · split <;> rfl

theorem redis_getOrSetAsync_stored {v : α}
    (hv : (present now written).elim T.default Entry.value = v) :
    RedisCacheService.getOrSetAsync T J (stored J c key written) now key factory
        (some expiration) =
      if T.equalsDefault v = false then some (v, stored J c key written)
      else if T.equalsDefault factory = false then
        if 0 < expiration then some (factory,
          Caches.set (stored J c key written) key (J.serialize factory) (now + expiration))
        else none
      else some (factory, stored J c key written) := by
  simp only [RedisCacheService.getOrSetAsync, redis_getAsync_stored, hv,
    RedisCacheService.setAsync, setStringAsync, Option.getD_some, Option.bind_eq_bind,
    Option.bind_some, Bool.not_eq_true']
  split
  · rfl
  · split
    · split <;> rfl
    · rfl

/-- `CacheService` stores again what is null, and takes no default of a value type for a miss. -/
theorem cacheService_kept_iff :
    Kept J (stored J c key written) now key written factory expiration
        (CacheService.getOrSetAsync T J (stored J c key written) now key factory
          (some expiration)) ↔
      match present now written with
      | some e => T.isNotNull e.value = true ∨ factory = e.value ∧ e.expires = now + expiration
      | none => T.nullable = true ∧ 0 < expiration := by
  cases h : present now written with
  | some e =>
    have hlive := present_live h
    rw [getOrSetAsync_stored (v := e.value) (by rw [h]; rfl)]
    dsimp only
    by_cases hvalue : T.isNotNull e.value = true
    · rw [if_pos hvalue, kept_left h]
      exact iff_of_true rfl (.inl hvalue)
    · rw [if_neg hvalue, or_iff_right hvalue]
      by_cases hpositive : 0 < expiration
      · rw [if_pos hpositive, kept_set h hpositive]
      · rw [if_neg hpositive]
        refine iff_of_false not_kept_none ?_
        rintro ⟨-, hexpires⟩
        omega
  | none =>
    rw [getOrSetAsync_stored (v := T.default) (by rw [h]; rfl)]
    dsimp only
    by_cases hnullable : T.nullable = true
    · rw [if_neg (by simp [CachedType.isNotNull, T.refl, hnullable]), and_iff_right hnullable]
      exact kept_of_absent h
    · rw [if_pos (by simp [CachedType.isNotNull, hnullable])]
      exact iff_of_false (not_kept_left h T.default) fun hboth => hnullable hboth.1

/-- `RedisCacheService` takes every default for a miss, and does not store it. -/
theorem redis_kept_iff :
    Kept J (stored J c key written) now key written factory expiration
        (RedisCacheService.getOrSetAsync T J (stored J c key written) now key factory
          (some expiration)) ↔
      match present now written with
      | some e => T.equalsDefault e.value = false ∨ factory = e.value
      | none => T.equalsDefault factory = false ∧ 0 < expiration := by
  cases h : present now written with
  | some e =>
    rw [redis_getOrSetAsync_stored (v := e.value) (by rw [h]; rfl)]
    dsimp only
    by_cases hvalue : T.equalsDefault e.value = false
    · rw [if_pos hvalue, kept_left h]
      exact iff_of_true rfl (.inl hvalue)
    · rw [if_neg hvalue, or_iff_right hvalue]
      by_cases hfactory : T.equalsDefault factory = false
      · have hother : factory ≠ e.value := by
          rintro rfl
          exact hvalue hfactory
        rw [if_pos hfactory]
        by_cases hpositive : 0 < expiration
        · rw [if_pos hpositive, kept_set h hpositive]
          exact iff_of_false (fun hsame => hother hsame.1) hother
        · rw [if_neg hpositive]
          exact iff_of_false not_kept_none hother
      · rw [if_neg hfactory, kept_left h]
  | none =>
    rw [redis_getOrSetAsync_stored (v := T.default) (by rw [h]; rfl), if_neg (by simp [T.refl])]
    dsimp only
    by_cases hfactory : T.equalsDefault factory = false
    · rw [if_pos hfactory, and_iff_right hfactory]
      exact kept_of_absent h
    · rw [if_neg hfactory]
      exact iff_of_false (not_kept_left h factory) fun hboth => hfactory hboth.1

/-- Both services keep the contract: on what they find present, if it is not a default or
would be made the same, and null is stored with the same time again; on what is absent, if
null is a value of the type and the value made is not null. -/
theorem caches_agree_iff (T : CachedType α) (J : JsonSerializer α) (c : Cache String String)
    (now : Int) (key : String) (written : Option (Entry α)) (factory : α) (expiration : Int) :
    (Kept J (stored J c key written) now key written factory expiration
        (CacheService.getOrSetAsync T J (stored J c key written) now key factory
          (some expiration)) ∧
      Kept J (stored J c key written) now key written factory expiration
        (RedisCacheService.getOrSetAsync T J (stored J c key written) now key factory
          (some expiration))) ↔
      match present now written with
      | some e => T.equalsDefault e.value = false ∨
        factory = e.value ∧ (T.nullable = true → e.expires = now + expiration)
      | none => T.nullable = true ∧ T.equalsDefault factory = false ∧ 0 < expiration := by
  rw [cacheService_kept_iff, redis_kept_iff]
  cases present now written with
  | some e =>
    simp only [CachedType.isNotNull]
    cases T.nullable <;> cases T.equalsDefault e.value <;> simp
    tauto
  | none => tauto

/-- `bool`, whose default is `false`. -/
def boolean : CachedType Bool where
  nullable := false
  default := false
  equalsDefault v := !v
  refl := rfl
  null := by decide

def booleanJson : JsonSerializer Bool where
  serialize v := if v then "true" else "false"
  deserialize _ text :=
    if text = "true" then some true else if text = "false" then some false else none
  roundTrip := by decide
  nonempty := by decide

/-- `CacheService` finds `false` where nothing is cached, and `RedisCacheService` finds nothing
where `false` is. -/
theorem booleans_apart :
    ¬ (Kept booleanJson (stored booleanJson empty "seen" none) 0 "seen" none true (minutes 5)
        (CacheService.getOrSetAsync boolean booleanJson (stored booleanJson empty "seen" none) 0
          "seen" true (some (minutes 5))) ∧
      Kept booleanJson (stored booleanJson empty "seen" none) 0 "seen" none true (minutes 5)
        (RedisCacheService.getOrSetAsync boolean booleanJson (stored booleanJson empty "seen" none)
          0 "seen" true (some (minutes 5)))) ∧
    ¬ Kept booleanJson (stored booleanJson empty "seen" (some ⟨false, 1⟩)) 0 "seen"
      (some ⟨false, 1⟩) true (minutes 5)
      (RedisCacheService.getOrSetAsync boolean booleanJson
        (stored booleanJson empty "seen" (some ⟨false, 1⟩)) 0 "seen" true (some (minutes 5))) := by
  constructor
  · rintro ⟨hkept, -⟩
    have hnullable : boolean.nullable = true := (cacheService_kept_iff.mp hkept).1
    cases hnullable
  · intro hkept
    have hvalue : boolean.equalsDefault false = false ∨ true = false := redis_kept_iff.mp hkept
    exact absurd hvalue (by decide)

end CacheServices
