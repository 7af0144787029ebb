import ShoppingProject.CartSync
import ShoppingProject.Runs

/-!
# Replaying the offline cart

The local cart is keyed by the ids of its items, the server gives every cart row
a key of its own. The replay keeps the two alike exactly as long as each added
item happens to carry the key that the server assigns next; an update never
replays, since its body does not say which cart it is about.
-/
namespace OfflineReplay

open DomainEvents (Cart)
open Requests Carts OfflineQueue LocalStorage CartSync Runs
open Validation (greaterThan validate_eq_nil_iff)

/-- A mutation made offline, with the circumstances of its replay. -/
structure Event where
  now : Int
  mutation : Mutation
  caller : Caller
  env : Env

def offline (events : List Event) (d : LocalData) : LocalData :=
  events.foldl (fun d e => mutate e.now e.mutation d) d

/-- The replay of one operation, which has to succeed. -/
def replayStep (s : CartTable) (l : Operation × Event) : Option CartTable :=
  match syncOperation l.1 l.2.caller l.2.env s with
  | (true, s') => some s'
  | (false, _) => none

/-- The operations that wait for their replay, in the order in which they were queued. -/
def waiting (d : LocalData) : List Operation :=
  (d.queue.rows.filter isPending).map QueueRow.operation

/-- The replay of everything that waits after the mutations. -/
def replay (events : List Event) (d : LocalData) (server : CartTable) : Option CartTable :=
  run replayStep server ((waiting (offline events d)).zip events)

def localItems (cart : LocalCart) : List (Int × Int) := cart.rows.map fun r => (r.id, r.quantity)

def serverItems (s : CartTable) : List (Int × Int) := s.rows.map fun c => (c.id, c.quantity)

/-- Both carts hold the same items in the same quantities. -/
def Mirrors (cart : LocalCart) (s : CartTable) : Prop := (localItems cart).Perm (serverItems s)

instance (cart : LocalCart) (s : CartTable) : Decidable (Mirrors cart s) :=
  inferInstanceAs (Decidable (List.Perm _ _))

/-- The key that the server assigns after this mutation has been replayed. -/
def nextKey (next : Int) : Mutation → Int
  | .addCartItem _ => next + 1
  | _ => next

def FollowsKey (next : Int) : Mutation → Prop
  | .addCartItem item => item.id = next
  | _ => True

/-- Every added item carries the key that the server assigns to it. -/
def AddsFollowKeys : Int → List Event → Prop
  | _, [] => True
  | next, e :: es => FollowsKey next e.mutation ∧ AddsFollowKeys (nextKey next e.mutation) es

theorem requestOf_command {op : Operation} {request : Request} (h : requestOf op = some request) :
    request.isQuery = false := by
  unfold requestOf at h
  split at h
  · simp at h
  · obtain ⟨c, -, rfl⟩ := Option.map_eq_some_iff.mp h
    rfl
  · simp only [Option.bind_eq_bind, Option.bind_eq_some_iff] at h
    obtain ⟨id, -, c, -, h⟩ := h
    obtain rfl := Option.some.inj h
    rfl
  · obtain ⟨id, -, rfl⟩ := Option.map_eq_some_iff.mp h
    rfl
  · obtain rfl := Option.some.inj h
    rfl
  · simp at h

/-- A replayed operation was a request that wrote. -/
theorem replayStep_writes {op : Operation} {e : Event} {s t : CartTable}
    (h : replayStep s (op, e) = some t) :
    ∃ request, requestOf op = some request ∧ Writes e.env e.caller request ∧
      t = write e.env e.caller request s := by
  unfold replayStep syncOperation at h
  cases hrequest : requestOf op with
  | none => simp [hrequest] at h
  | some request =>
    cases hreply : (serve e.env e.caller request s).1 with
    | ok r =>
      have hwrites := writes_of_ok (requestOf_command hrequest) hreply
      refine ⟨request, rfl, hwrites, ?_⟩
      simp only [hrequest, hreply, isSuccess, Option.some.injEq] at h
      rw [← h, serve_writes s hwrites]
    | unauthorized => simp [hrequest, hreply, isSuccess] at h
    | forbidden => simp [hrequest, hreply, isSuccess] at h
    | invalid failures => simp [hrequest, hreply, isSuccess] at h
    | notFound message => simp [hrequest, hreply, isSuccess] at h
    | error => simp [hrequest, hreply, isSuccess] at h

theorem bindCreateCart_toJson (item : CartItem) :
    bindCreateCart item.toJson = ((some item.quantity).filter int32).map fun quantity =>
      ⟨none, quantity, item.title, item.price, some item.image⟩ := by
  simp [CartItem.toJson, bindCreateCart, bindNullableInt, bindInt, bindString, bindDecimal,
    bindNullableString, Json.fieldIgnoreCase, Json.equalsIgnoreCase, Json.asNum, Json.asStr,
    Option.map_eq_bind]

/-- The body of a queued update leaves the id of the command zero. -/
theorem bindUpdateCart_id {quantity : Int} {c : UpdateCartCommand}
    (h : bindUpdateCart (.obj [("quantity", .num quantity)]) = some c) : c.id = 0 := by
  simp [bindUpdateCart, bindInt, bindString, bindDecimal, Json.fieldIgnoreCase,
    Json.equalsIgnoreCase, Option.bind_eq_some_iff] at h
  obtain ⟨q, -, rfl⟩ := h
  rfl

section Step

variable {e : Event} {s t : CartTable} {cart : LocalCart}

theorem replay_addCartItem {item : CartItem}
    (h : replayStep s ((Mutation.addCartItem item).operation, e) = some t) :
    item.quantity ≠ 0 ∧ serverItems t = serverItems s ++ [(s.next, item.quantity)] ∧
      t.next = s.next + 1 := by
  obtain ⟨request, hrequest, hwrites, rfl⟩ := replayStep_writes h
  simp only [requestOf, Mutation.operation, bindCreateCart_toJson, Option.map_map,
    Option.map_eq_some_iff, Option.filter_eq_some_iff, Option.some.injEq] at hrequest
  obtain ⟨quantity, ⟨rfl, -⟩, rfl⟩ := hrequest
  have hvalid := hwrites.1.valid
  have hquantity : (0 : ℚ) < item.quantity := by
    simpa [greaterThan] using (validate_eq_nil_iff _ _).mp hvalid
      (greaterThan 0 "Quantity" "Quantity must be greater than zero." fun c => c.quantity)
      (by simp [createCartPipeline])
  have hquantity : 0 < item.quantity := by exact_mod_cast hquantity
  exact ⟨hquantity.ne', by simp [serverItems, write, Table.insert, newCart], rfl⟩

/-- No update is ever replayed. -/
theorem replay_updateCartItem (id quantity : Int) :
    replayStep s ((Mutation.updateCartItem id quantity).operation, e) = none := by
  cases h : replayStep s ((Mutation.updateCartItem id quantity).operation, e) with
  | none => rfl
  | some t =>
    obtain ⟨request, hrequest, hwrites, -⟩ := replayStep_writes h
    simp only [requestOf, Mutation.operation, Option.bind_eq_bind, Option.bind_eq_some_iff]
      at hrequest
    obtain ⟨route, -, c, hc, hrequest⟩ := hrequest
    obtain rfl := Option.some.inj hrequest
    have hid := bindUpdateCart_id hc
    have hpositive : (0 : ℚ) < c.id := by
      simpa [greaterThan] using (validate_eq_nil_iff _ _).mp hwrites.1.valid
        (greaterThan 0 "Id" "Cart Id must be greater than 0." fun c => c.id)
        (by simp [updateCartPipeline])
    simp [hid] at hpositive

theorem replay_removeCartItem {id : Int}
    (h : replayStep s ((Mutation.removeCartItem id).operation, e) = some t) : t = s.delete id := by
  obtain ⟨request, hrequest, -, rfl⟩ := replayStep_writes h
  simp only [requestOf, Mutation.operation, Json.asInt_num, Option.map_eq_some_iff,
    Option.filter_eq_some_iff, Option.some.injEq] at hrequest
  obtain ⟨id, ⟨rfl, -⟩, rfl⟩ := hrequest
  rfl

theorem replay_clearCartItems
    (h : replayStep s (Mutation.clearCartItems.operation, e) = some t) : t = s.clear := by
  obtain ⟨request, hrequest, -, rfl⟩ := replayStep_writes h
  obtain rfl := Option.some.inj hrequest
  rfl

theorem localItems_delete (cart : LocalCart) (id : Int) :
    localItems (cart.delete id) = (localItems cart).filter fun i => i.1 != id := by
  simp [localItems, LocalCart.delete, List.filter_map, Function.comp_def]

theorem serverItems_delete (s : CartTable) (id : Int) :
    serverItems (s.delete id) = (serverItems s).filter fun i => i.1 != id := by
  simp [serverItems, Table.delete, Table.filter, List.filter_map, Function.comp_def]

/-- The server has no item at the key that it assigns next. -/
theorem next_not_mem (s : CartTable) (quantity : Int) : (s.next, quantity) ∉ serverItems s := by
  intro hmem
  obtain ⟨c, hc, heq⟩ := List.mem_map.mp hmem
  have hbound := s.bounded c hc
  simp only [Prod.mk.injEq] at heq
  omega

/-- An addition keeps the carts alike only under the key of the server. -/
theorem mirrors_addCartItem (hm : Mirrors cart s) {item : CartItem}
    (h : replayStep s ((Mutation.addCartItem item).operation, e) = some t) :
    Mirrors ((Mutation.addCartItem item).write cart) t ↔ item.id = s.next := by
  obtain ⟨hquantity, hitems, -⟩ := replay_addCartItem h
  have hlocal : localItems ((Mutation.addCartItem item).write cart) =
      ((localItems cart).filter fun i => i.1 != item.id) ++ [(item.id, item.quantity)] := by
    rw [← localItems_delete]
    simp [localItems, Mutation.write, LocalCart.insertOrReplace, hquantity]
  unfold Mirrors
  rw [hlocal, hitems]
  constructor
  · intro hperm
    have hmem : (s.next, item.quantity) ∈
        ((localItems cart).filter fun i => i.1 != item.id) ++ [(item.id, item.quantity)] :=
      hperm.mem_iff.mpr (by simp)
    rcases List.mem_append.mp hmem with hmem | hmem
    · have hold : (s.next, item.quantity) ∈ localItems cart := (List.mem_filter.mp hmem).1
      exact absurd (hm.mem_iff.mp hold) (next_not_mem s _)
    · simp only [List.mem_singleton, Prod.mk.injEq, and_true] at hmem
      exact hmem.symm
  · intro hid
    have hfresh : (localItems cart).filter (fun i => i.1 != item.id) = localItems cart := by
      refine List.filter_eq_self.mpr fun i hi => ?_
      have hserver : i ∈ serverItems s := hm.mem_iff.mp hi
      have hne : i.1 ≠ item.id := by
        rintro heq
        exact next_not_mem s i.2 (by rw [← hid, ← heq]; exact hserver)
      simpa using hne
    rw [hfresh, hid]
    exact hm.append_right _

/-- What one mutation and its replay do to carts that are alike. -/
theorem mirrors_step (hm : Mirrors cart s)
    (h : replayStep s (e.mutation.operation, e) = some t) :
    (Mirrors (e.mutation.write cart) t ↔ FollowsKey s.next e.mutation) ∧
      t.next = nextKey s.next e.mutation := by
  cases hmutation : e.mutation with
  | addCartItem item =>
    rw [hmutation] at h
    exact ⟨mirrors_addCartItem hm h, (replay_addCartItem h).2.2⟩
  | updateCartItem id quantity =>
    rw [hmutation, replay_updateCartItem] at h
    simp at h
  | removeCartItem id =>
    rw [hmutation] at h
    obtain rfl := replay_removeCartItem h
    refine ⟨iff_of_true ?_ trivial, rfl⟩
    unfold Mirrors Mutation.write
    rw [localItems_delete, serverItems_delete]
    exact hm.filter _
  | clearCartItems =>
    rw [hmutation] at h
    obtain rfl := replay_clearCartItems h
    refine ⟨iff_of_true ?_ trivial, rfl⟩
    simp [Mirrors, Mutation.write, LocalCart.empty, localItems, serverItems]

end Step

section Run

variable {d : LocalData} {server t : CartTable}

/-- The carts are alike after every prefix of the mutations and of their replay. -/
def MirroredThroughout (events : List Event) (d : LocalData) (server : CartTable) : Prop :=
  ∀ before after, events = before ++ after → ∀ t, replay before d server = some t →
    Mirrors (offline before d).cart t

/-- Mutations append pending rows, one for each, in order. -/
theorem pending_offline {β : Type} {f : QueueRow → β} {g : Event → β}
    (hnew : ∀ e id, f (newRow e.mutation.operation e.now id) = g e) (events : List Event)
    (d : LocalData) :
    ((offline events d).queue.rows.filter isPending).map f =
      (d.queue.rows.filter isPending).map f ++ events.map g := by
  induction events generalizing d with
  | nil => simp [offline]
  | cons e es ih =>
    have hrow : isPending (newRow e.mutation.operation e.now d.queue.next) = true := rfl
    have hstep : offline (e :: es) d = offline es (mutate e.now e.mutation d) := rfl
    rw [hstep, ih]
    simp [mutate, addToQueue, Table.insert, hrow, hnew]

theorem waiting_offline (events : List Event) (d : LocalData) :
    waiting (offline events d) = waiting d ++ events.map fun e => e.mutation.operation := by
  apply pending_offline
  intro e id
  rfl

theorem offline_cart (events : List Event) (d : LocalData) :
    (offline events d).cart = events.foldl (fun cart e => e.mutation.write cart) d.cart := by
  induction events generalizing d with
  | nil => rfl
  | cons e es ih => exact ih (mutate e.now e.mutation d)

/-- If nothing waits at first, each mutation replays its own operation. -/
theorem replay_eq (events : List Event) (hqueue : waiting d = []) :
    replay events d server =
      run replayStep server (events.map fun e => (e.mutation.operation, e)) := by
  unfold replay
  rw [waiting_offline, hqueue, List.nil_append]
  congr 1
  induction events with
  | nil => rfl
  | cons e es ih => simp only [List.map_cons, List.zip_cons_cons, ih]

theorem mirrored_iff {cart : LocalCart} {s : CartTable} (events : List Event)
    (hm : Mirrors cart s)
    (hruns : (run replayStep s (events.map fun e => (e.mutation.operation, e))).isSome) :
    (∀ before after, events = before ++ after →
      ∀ t, run replayStep s (before.map fun e => (e.mutation.operation, e)) = some t →
        Mirrors (before.foldl (fun cart e => e.mutation.write cart) cart) t) ↔
    AddsFollowKeys s.next events := by
  induction events generalizing cart s with
  | nil =>
    refine iff_of_true ?_ trivial
    intro before after hsplit t ht
    obtain ⟨rfl, rfl⟩ := List.nil_eq_append_iff.mp hsplit
    obtain rfl : s = t := by simpa using ht
    exact hm
  | cons e es ih =>
    cases hstep : replayStep s (e.mutation.operation, e) with
    | none => simp [hstep] at hruns
    | some u =>
      simp only [List.map_cons, run_cons, hstep, Option.bind_some] at hruns
      obtain ⟨hfollows, hnext⟩ := mirrors_step hm hstep
      constructor
      · intro hall
        have hu : Mirrors (e.mutation.write cart) u := hall [e] es rfl u (by simp [hstep])
        refine ⟨hfollows.mp hu, ?_⟩
        rw [← hnext]
        refine (ih hu hruns).mp fun before after hsplit t ht => ?_
        exact hall (e :: before) after (by rw [hsplit]; rfl) t (by simpa [hstep] using ht)
      · rintro ⟨hfollow, hrest⟩ before after hsplit t ht
        have hu := hfollows.mpr hfollow
        rw [← hnext] at hrest
        cases before with
        | nil =>
          obtain rfl : s = t := by simpa using ht
          exact hm
        | cons e' before =>
          obtain ⟨rfl, htail⟩ := List.cons.inj hsplit
          exact (ih hu hruns).mpr hrest before after htail t (by simpa [hstep] using ht)

/-- If everything that was queued replays successfully, the carts stay alike
exactly if every added item carries the key that the server assigns to it. -/
theorem mirroredThroughout_iff (events : List Event) (hm : Mirrors d.cart server)
    (hqueue : waiting d = []) (hreplay : (replay events d server).isSome) :
    MirroredThroughout events d server ↔ AddsFollowKeys server.next events := by
  rw [replay_eq events hqueue] at hreplay
  rw [← mirrored_iff events hm hreplay]
  unfold MirroredThroughout
  simp only [replay_eq _ hqueue, offline_cart]

end Run

def someEvent (m : Mutation) : Event := ⟨100, m, someAdministrator, someEnv⟩

/-- Two items are added under the keys that the server assigns, and one is removed. -/
theorem mirroredThroughout_matching :
    MirroredThroughout [someEvent (.addCartItem (someItem 1)),
      someEvent (.addCartItem (someItem 2)), someEvent (.removeCartItem 1)]
      ⟨.empty, Table.empty⟩ Table.empty :=
  (mirroredThroughout_iff _ (by decide) rfl (by decide +kernel)).mpr ⟨rfl, rfl, trivial, trivial⟩

/-- An item that is added twice has one local row and two rows on the server. -/
theorem added_twice_not_mirrored :
    ¬ ∀ (events : List Event) (d : LocalData) (server t : CartTable), Mirrors d.cart server →
      waiting d = [] → replay events d server = some t → Mirrors (offline events d).cart t := by
  intro hall
  let events := [someEvent (.addCartItem (someItem 7)), someEvent (.addCartItem (someItem 7))]
  let d : LocalData := ⟨.empty, Table.empty⟩
  have hsome : (replay events d Table.empty).isSome := by decide +kernel
  obtain ⟨t, ht⟩ := Option.isSome_iff_exists.mp hsome
  have hmirrors := hall events d Table.empty t (by decide) rfl ht
  have hserver : (replay events d Table.empty).map (fun t => t.rows.length) = some 2 := by
    decide +kernel
  rw [ht] at hserver
  have hlocal : (offline events d).cart.rows.length = 1 := by decide
  have hlength := hmirrors.length_eq
  simp only [localItems, serverItems, List.length_map, Option.map_some, Option.some.injEq]
    at hlength hserver
  omega

end OfflineReplay
