import Mathlib.Data.List.Nodup
import ShoppingProject.MobileCart

/-!
# Answers that overtake each other

Followed per id, every answer is a function on quantities. The slice, brought up to date
with the answers still under way, is the server's cart, as long as no answer overtakes
one that it does not commute with.
-/
namespace CartDelivery

open MobileCart
open Runs

/-- The quantity of the first item with an id. -/
def quantityOf (items : List CartItem) (id : Int) : Option Int :=
  (items.find? fun item => item.id = id).map CartItem.quantity

/-- What an answer does to the quantity of one id. -/
def change (id : Int) : Payload → Option Int → Option Int
  | .fetchCart items, _ => quantityOf items id
  | .addToCart item, q => q.or (if item.id = id then some item.quantity else none)
  | .updateCartItem cartId quantity, q => if cartId = id then q.map fun _ => quantity else q
  | .removeCartItem removed, q => if removed = id then none else q
  | .removeAllCartItems, _ => none

def replay (id : Int) (answers : List Payload) (q : Option Int) : Option Int :=
  answers.foldl (fun q p => change id p q) q

@[simp] theorem replay_nil (id : Int) (q : Option Int) : replay id [] q = q := rfl

@[simp] theorem replay_cons (id : Int) (p : Payload) (answers : List Payload) (q : Option Int) :
    replay id (p :: answers) q = replay id answers (change id p q) := rfl

@[simp] theorem replay_append (id : Int) (l m : List Payload) (q : Option Int) :
    replay id (l ++ m) q = replay id m (replay id l q) := List.foldl_append ..

/-- What came before the answer to a fetch does not matter. -/
theorem replay_fetch (id : Int) (l m : List Payload) (items : List CartItem) (q : Option Int) :
    replay id (l ++ .fetchCart items :: m) q = replay id m (quantityOf items id) := by
  simp [change]

theorem quantityOf_cons (item : CartItem) (items : List CartItem) (id : Int) :
    quantityOf (item :: items) id =
      if item.id = id then some item.quantity else quantityOf items id := by
  by_cases h : item.id = id <;> simp [quantityOf, h]

theorem quantityOf_append (items more : List CartItem) (id : Int) :
    quantityOf (items ++ more) id = (quantityOf items id).or (quantityOf more id) := by
  simp [quantityOf, List.find?_append, Option.map_or]

theorem quantityOf_setQuantity (cartId quantity : Int) (items : List CartItem) (id : Int) :
    quantityOf (setQuantity cartId quantity items) id =
      change id (.updateCartItem cartId quantity) (quantityOf items id) := by
  induction items with
  | nil => simp [setQuantity, quantityOf, change]
  | cons item items ih =>
    simp only [setQuantity]
    by_cases hitem : item.id = cartId
    · simp only [hitem, if_true, quantityOf_cons, change]
      by_cases hid : cartId = id <;> simp [hid]
    · simp only [hitem, if_false, quantityOf_cons, ih, change]
      by_cases hid : item.id = id
      · have hne : cartId ≠ id := fun h => hitem (hid.trans h.symm)
        simp [hid, hne]
      · simp [hid]

theorem quantityOf_filter (removed : Int) (items : List CartItem) (id : Int) :
    quantityOf (items.filter fun item => item.id ≠ removed) id =
      change id (.removeCartItem removed) (quantityOf items id) := by
  induction items with
  | nil => simp [quantityOf, change]
  | cons item items ih =>
    simp only [change] at ih ⊢
    by_cases hitem : item.id = removed
    · rw [List.filter_cons_of_neg (by simpa using hitem), ih, quantityOf_cons]
      by_cases hid : removed = id
      · simp [hid]
      · simp [hid, hitem]
    · rw [List.filter_cons_of_pos (by simpa using hitem), quantityOf_cons, ih, quantityOf_cons]
      by_cases hid : item.id = id
      · have hne : removed ≠ id := fun h => hitem (hid.trans h.symm)
        simp [hid, hne]
      · simp [hid]

/-- Among keyed items the one with an id is found. -/
theorem quantityOf_eq_some {items : List CartItem} (h : (ids items).Nodup) (id quantity : Int) :
    quantityOf items id = some quantity ↔ ⟨id, quantity⟩ ∈ items := by
  induction items with
  | nil => simp [quantityOf]
  | cons item items ih =>
    obtain ⟨hnew, h⟩ := List.nodup_cons.mp h
    rw [quantityOf_cons, List.mem_cons]
    by_cases hid : item.id = id
    · subst hid
      have hnot : (⟨item.id, quantity⟩ : CartItem) ∉ items :=
        fun hmem => hnew (List.mem_map.mpr ⟨_, hmem, rfl⟩)
      simp only [if_true, Option.some.injEq, hnot, or_false]
      exact ⟨fun hq => by rw [← hq], fun hq => by rw [← hq]⟩
    · have hne : (⟨id, quantity⟩ : CartItem) ≠ item := fun hitem => hid (by rw [← hitem])
      simp [hid, hne, ih h]

/-- Keyed items with the same quantities are the same items. -/
theorem perm_of_quantityOf {items more : List CartItem} (h : (ids items).Nodup)
    (hmore : (ids more).Nodup) (hsame : ∀ id, quantityOf items id = quantityOf more id) :
    items.Perm more := by
  refine (List.perm_ext_iff_of_nodup (List.Nodup.of_map _ h) (List.Nodup.of_map _ hmore)).mpr
    fun ⟨id, quantity⟩ => ?_
  rw [← quantityOf_eq_some h, ← quantityOf_eq_some hmore, hsame id]

theorem quantityOf_perm {items more : List CartItem} (h : (ids items).Nodup)
    (hperm : more.Perm items) (id : Int) : quantityOf more id = quantityOf items id := by
  have hmore : (ids more).Nodup := (hperm.map CartItem.id).nodup_iff.mpr h
  ext quantity
  rw [quantityOf_eq_some h, quantityOf_eq_some hmore, hperm.mem_iff]

/-- The items of a slice, none if it has no cart. -/
def items (slice : CartState) : List CartItem := slice.cart.getD []

theorem items_fulfilled (slice : CartState) (p : Payload) (id : Int) :
    quantityOf (items (reducerFulfilled slice p)) id =
      change id p (quantityOf (items slice) id) := by
  cases p with
  | fetchCart => rfl
  | addToCart item =>
    simp only [items, reducerFulfilled, Option.getD_some, quantityOf_append, change]
    rw [quantityOf_cons]
    rfl
  | updateCartItem cartId quantity =>
    simp only [items, reducerFulfilled]
    rw [← quantityOf_setQuantity]
    cases slice.cart <;> rfl
  | removeCartItem removed =>
    simp only [items, reducerFulfilled]
    rw [← quantityOf_filter]
    cases slice.cart <;> rfl
  | removeAllCartItems => rfl

/-- The server's cart after a request is what the answer makes of the cart before. -/
theorem quantityOf_serve {server t : Server} {choice : Choice} {request : Request} {p : Payload}
    (h : serve server choice request = some (t, p)) (id : Int) :
    quantityOf t.items id = change id p (quantityOf server.items id) := by
  cases request with
  | fetchCart =>
    obtain ⟨hperm, heq⟩ := guarded h
    cases heq
    exact (quantityOf_perm server.keyed hperm id).symm
  | addToCart request =>
    simp only [serve] at h
    split at h
    · cases h
      simp only [Server.insert, quantityOf_append, change]
      rw [quantityOf_cons]
      rfl
    · cases h
  | updateCartItem cartId quantity =>
    obtain ⟨-, heq⟩ := guarded h
    cases heq
    exact quantityOf_setQuantity cartId quantity server.items id
  | removeCartItem removed =>
    obtain ⟨-, heq⟩ := guarded h
    cases heq
    exact quantityOf_filter removed server.items id
  | removeAllCartItems =>
    cases h
    rfl

/-- The answer `b` must not overtake the answer `a`. -/
def Conflict : Payload → Payload → Prop
  | .fetchCart _, b => b.isFetch = false
  | .addToCart item, .updateCartItem id _ | .addToCart item, .removeCartItem id => item.id = id
  | .addToCart _, .fetchCart _ | .addToCart _, .removeAllCartItems => True
  | .updateCartItem id _, .updateCartItem id' _ => id = id'
  | .removeAllCartItems, .addToCart _ => True
  | _, _ => False

instance : DecidableRel Conflict := fun a b => by
  cases a <;> cases b <;> unfold Conflict <;> infer_instance

/-- No answer that arrives overtakes one that it conflicts with. -/
def InOrder (s : State) : Label → Prop
  | .arrive i => ∀ b ∈ s.answered[i]?, ∀ a ∈ s.answered.take i, ¬ Conflict a b
  | _ => True

instance (s : State) : DecidablePred (InOrder s)
  | .arrive i => inferInstanceAs (Decidable (∀ b ∈ s.answered[i]?, ∀ a ∈ s.answered.take i, _))
  | .call _ | .reach _ _ | .refuse _ _ | .lose _ _ | .clearCart => .isTrue trivial

/-- The functions on quantities that updates and removals add up to. -/
inductive Shape : (Option Int → Option Int) → Prop where
  | keep : Shape id
  | drop : Shape fun _ => none
  | set (quantity : Int) : Shape (Option.map fun _ => quantity)

/-- The answer can bring an id into the cart. -/
def Brings (id : Int) : Payload → Prop
  | .fetchCart _ => True
  | .addToCart item => item.id = id
  | _ => False

/-- The answer can give an id in the cart another quantity. -/
def Sets (id : Int) : Payload → Prop
  | .updateCartItem cartId _ => cartId = id
  | _ => False

theorem Shape.comp {f g : Option Int → Option Int} (hg : Shape g) (hf : Shape f) :
    Shape (g ∘ f) := by
  cases hg with
  | keep => exact hf
  | drop => exact .drop
  | set quantity =>
    cases hf with
    | keep => exact .set quantity
    | drop => exact .drop
    | set other =>
      rw [Option.map_comp_map]
      exact .set quantity

/-- An answer about another id changes nothing. -/
theorem change_other {id : Int} {a : Payload} (hbrings : ¬ Brings id a) (hsets : ¬ Sets id a) :
    (change id a = fun q => q) ∨ change id a = fun _ => none := by
  cases a with
  | fetchCart => exact absurd trivial hbrings
  | addToCart item =>
    have hother : item.id ≠ id := hbrings
    refine .inl (funext fun q => ?_)
    simp [change, hother]
  | updateCartItem cartId quantity =>
    have hother : cartId ≠ id := hsets
    refine .inl (funext fun q => ?_)
    simp [change, hother]
  | removeCartItem removed =>
    by_cases hid : removed = id
    · refine .inr (funext fun q => ?_)
      simp [change, hid]
    · refine .inl (funext fun q => ?_)
      simp [change, hid]
  | removeAllCartItems => exact .inr rfl

theorem change_shape {id : Int} {a : Payload} (h : ¬ Brings id a) : Shape (change id a) := by
  by_cases hsets : Sets id a
  · cases a with
    | updateCartItem cartId quantity =>
      have hid : cartId = id := hsets
      have heq : change id (.updateCartItem cartId quantity) = Option.map fun _ => quantity := by
        funext q
        simp [change, hid]
      rw [heq]
      exact .set quantity
    | fetchCart | addToCart | removeCartItem | removeAllCartItems => exact hsets.elim
  · rcases change_other h hsets with heq | heq
    · rw [heq]
      exact .keep
    · rw [heq]
      exact .drop

theorem replay_other {id : Int} {l : List Payload} (hbrings : ∀ a ∈ l, ¬ Brings id a)
    (hsets : ∀ a ∈ l, ¬ Sets id a) :
    (replay id l = fun q => q) ∨ replay id l = fun _ => none := by
  induction l with
  | nil => exact .inl rfl
  | cons a l ih =>
    have hl := ih (fun b hb => hbrings b (List.mem_cons_of_mem _ hb))
      fun b hb => hsets b (List.mem_cons_of_mem _ hb)
    have ha := change_other (hbrings a List.mem_cons_self) (hsets a List.mem_cons_self)
    change replay id l ∘ change id a = _ ∨ replay id l ∘ change id a = _
    rcases hl with hl | hl
    · rw [hl]
      exact ha
    · rw [hl]
      exact .inr rfl

theorem replay_shape {id : Int} {l : List Payload} (h : ∀ a ∈ l, ¬ Brings id a) :
    Shape (replay id l) := by
  induction l with
  | nil => exact .keep
  | cons a l ih =>
    have hl : Shape (replay id l) := ih fun b hb => h b (List.mem_cons_of_mem _ hb)
    exact hl.comp (change_shape (h a List.mem_cons_self))

/-- The answer to an update or to a removal. -/
def adjusts : Payload → Bool
  | .updateCartItem _ _ | .removeCartItem _ => true
  | _ => false

theorem not_brings_of_adjusts {id : Int} {a : Payload} (h : adjusts a = true) : ¬ Brings id a := by
  cases a with
  | fetchCart | addToCart | removeAllCartItems => cases h
  | updateCartItem | removeCartItem => exact not_false

theorem shape_adjusts (id : Int) (l : List Payload) : Shape (replay id (l.filter adjusts)) :=
  replay_shape fun _ ha => not_brings_of_adjusts (List.mem_filter.mp ha).2

/-- The quantities already show the updates and removals among the answers. -/
def Quiet (q : Int → Option Int) (l : List Payload) : Prop :=
  ∀ id, replay id (l.filter adjusts) (q id) = q id

/-- They still do if one of the answers is taken out that conflicts with none before it. -/
theorem Quiet.drop {q : Int → Option Int} {l m : List Payload} {b : Payload}
    (h : Quiet q (l ++ b :: m)) (hfree : ∀ a ∈ l, ¬ Conflict a b) : Quiet q (l ++ m) := by
  intro id
  have hid := h id
  have hm := shape_adjusts id m
  cases hb : adjusts b with
  | false => simpa [hb] using hid
  | true =>
    simp only [List.filter_append, List.filter_cons_of_pos hb, replay_append, replay_cons] at hid ⊢
    generalize replay id (m.filter adjusts) = g at hm hid
    cases b with
    | fetchCart | addToCart | removeAllCartItems => cases hb
    | removeCartItem removed =>
      have hl := shape_adjusts id l
      generalize replay id (l.filter adjusts) = f at hl hid
      by_cases hsame : removed = id
      · have hnone : q id = none := by
          simp only [change, hsame, if_true] at hid
          cases hm <;> simpa using hid.symm
        rw [hnone]
        cases hl <;> cases hm <;> rfl
      · simpa [change, hsame] using hid
    | updateCartItem cartId quantity =>
      by_cases hsame : cartId = id
      · have hl : (replay id (l.filter adjusts) = fun q => q) ∨
            replay id (l.filter adjusts) = fun _ => none := by
          refine replay_other (fun a ha => not_brings_of_adjusts (List.mem_filter.mp ha).2) ?_
          intro a ha hsets
          cases a with
          | updateCartItem other _ =>
            exact hfree _ (List.mem_filter.mp ha).1 ((show other = id from hsets).trans hsame.symm)
          | fetchCart | addToCart | removeCartItem | removeAllCartItems => exact hsets
        simp only [change, hsame, if_true] at hid
        rcases hl with hl | hl
        · rw [hl] at hid ⊢
          cases hm with
          | keep =>
            cases hq : q id with
            | none => rfl
            | some n => rfl
          | drop => exact hid
          | set other =>
            cases hq : q id with
            | none => rfl
            | some n =>
              rw [hq] at hid
              exact hid
        · rw [hl] at hid ⊢
          exact hid
      · simpa [change, hsame] using hid

/-- An element of a list in two parts is in one of them. -/
theorem split_append {α : Type} {l m p r : List α} {x : α} (h : l ++ m = p ++ x :: r) :
    (∃ q, p = l ++ q ∧ m = q ++ x :: r) ∨ ∃ q, l = p ++ x :: q ∧ r = q ++ m := by
  rcases List.append_eq_append_iff.mp h with ⟨q, hp, hm⟩ | ⟨q, hl, hr⟩
  · exact .inl ⟨q, hp, hm⟩
  · cases q with
    | nil => exact .inl ⟨[], by simpa using hl.symm, by simpa using hr.symm⟩
    | cons y q =>
      obtain ⟨rfl, htail⟩ := List.cons.inj (show x :: r = y :: (q ++ m) from hr)
      exact .inr ⟨q, hl, htail⟩

/-- What is in the cart after a removal of everything has been added since, and the
answer to its addition is under way as well. -/
def Cleared (q : Int → Option Int) (l : List Payload) : Prop :=
  ∀ p r, l = p ++ .removeAllCartItems :: r → ∀ id, (q id).isSome →
    ∃ item, .addToCart item ∈ r ∧ item.id = id

theorem Cleared.drop {q : Int → Option Int} {l m : List Payload} {b : Payload}
    (h : Cleared q (l ++ b :: m)) (hfree : ∀ a ∈ l, ¬ Conflict a b) : Cleared q (l ++ m) := by
  intro p r hsplit id hid
  rcases split_append hsplit with ⟨k, rfl, rfl⟩ | ⟨k, rfl, rfl⟩
  · exact h (l ++ b :: k) r (by simp) id hid
  · obtain ⟨item, hitem, rfl⟩ := h p (k ++ b :: m) (by simp) id hid
    refine ⟨item, ?_, rfl⟩
    rcases List.mem_append.mp hitem with hitem | hitem
    · exact List.mem_append_left _ hitem
    · rcases List.mem_cons.mp hitem with rfl | hitem
      · exact absurd trivial (hfree .removeAllCartItems (by simp))
      · exact List.mem_append_right _ hitem

/-- From the quantities `q` the answers lead to the quantities `r`, and each fetch among
them shows what there was. -/
def Follows (q : Int → Option Int) : List Payload → (Int → Option Int) → Prop
  | [], r => q = r
  | p :: l, r => (∀ items, p = .fetchCart items → quantityOf items = q) ∧
      Follows (fun id => change id p (q id)) l r

theorem Follows.replay {q r : Int → Option Int} {l : List Payload} (h : Follows q l r) (id : Int) :
    replay id l (q id) = r id := by
  induction l generalizing q with
  | nil => exact congrFun h id
  | cons p l ih => exact ih h.2

theorem Follows.snoc {q r : Int → Option Int} {l : List Payload} {p : Payload} (h : Follows q l r)
    (hp : ∀ items, p = .fetchCart items → quantityOf items = r) :
    Follows q (l ++ [p]) fun id => change id p (r id) := by
  induction l generalizing q with
  | nil =>
    obtain rfl : q = r := h
    exact ⟨hp, rfl⟩
  | cons a l ih => exact ⟨h.1, ih h.2⟩

theorem Follows.drop_fetch {q r : Int → Option Int} {l m : List Payload} {items : List CartItem}
    (h : Follows q (l ++ .fetchCart items :: m) r) : Follows q (l ++ m) r := by
  induction l generalizing q with
  | nil =>
    obtain ⟨hitems, hm⟩ := h
    rw [← hitems items rfl]
    exact hm
  | cons a l ih => exact ⟨h.1, ih h.2⟩

/-- The ids that an answer speaks of. -/
def names : Payload → List Int
  | .fetchCart items => ids items
  | .addToCart item => [item.id]
  | .updateCartItem id _ | .removeCartItem id => [id]
  | .removeAllCartItems => []

/-- What `b` adds is new to `a`. -/
def New (a b : Payload) : Prop := ∀ item, b = .addToCart item → item.id ∉ names a

/-- A slice that has been fetched: its items are keyed and known, and what is about to
be added is not among them. -/
structure Held (s : State) : Prop where
  some : s.slice.cart.isSome
  keyed : (ids (items s.slice)).Nodup
  known : ids (items s.slice) ⊆ s.server.assigned
  new : ∀ item, .addToCart item ∈ s.answered → item.id ∉ ids (items s.slice)

structure Tracked (s : State) : Prop where
  named : ∀ p ∈ s.answered, names p ⊆ s.server.assigned
  new : s.answered.Pairwise New
  listed : ∀ items, .fetchCart items ∈ s.answered → (ids items).Nodup
  quiet : Quiet (quantityOf s.server.items) s.answered
  cleared : Cleared (quantityOf s.server.items) s.answered
  fetches : ∀ l items m, s.answered = l ++ .fetchCart items :: m → Quiet (quantityOf items) l ∧
    Cleared (quantityOf items) l ∧ Follows (quantityOf items) m (quantityOf s.server.items)
  current : (Fetched s ∨ ∃ items, .fetchCart items ∈ s.answered) → ∀ id,
    replay id s.answered (quantityOf (items s.slice) id) = quantityOf s.server.items id
  held : Fetched s → Held s

theorem start_tracked (slice : CartState) (server : Server) : Tracked (start slice server) where
  named := by simp [start]
  new := .nil
  listed := by simp [start]
  quiet := fun _ => rfl
  cleared := by simp [start, Cleared]
  fetches := by simp [start]
  current := by simp [start, Fetched]
  held := by simp [start, Fetched]

/-- An action that leaves the items as they are. -/
theorem Tracked.pending {s t : State} (h : Tracked s) (hcart : t.slice.cart = s.slice.cart)
    (hserver : t.server = s.server) (hanswered : t.answered = s.answered)
    (hfetched : Fetched t → Fetched s) : Tracked t := by
  have hitems : items t.slice = items s.slice := by rw [items, items, hcart]
  constructor
  · rw [hanswered, hserver]
    exact h.named
  · rw [hanswered]
    exact h.new
  · rw [hanswered]
    exact h.listed
  · rw [hanswered, hserver]
    exact h.quiet
  · rw [hanswered, hserver]
    exact h.cleared
  · rw [hanswered, hserver]
    exact h.fetches
  · rw [hanswered, hserver, hitems]
    exact fun hf => h.current (hf.imp_left hfetched)
  · intro hf
    obtain ⟨hsome, hkeyed, hknown, hnew⟩ := h.held (hfetched hf)
    exact ⟨hcart ▸ hsome, hitems ▸ hkeyed, hitems ▸ hserver ▸ hknown, hitems ▸ hanswered ▸ hnew⟩

/-- What the server says of the answer to a request. -/
theorem serve_cases {server t : Server} {choice : Choice} {request : Request} {p : Payload}
    (h : serve server choice request = some (t, p)) :
    server.assigned ⊆ t.assigned ∧ names p ⊆ t.assigned ∧
      (∀ listing, p = .fetchCart listing →
        (ids listing).Nodup ∧ quantityOf listing = quantityOf server.items) ∧
      ∀ item, p = .addToCart item → item.id ∉ server.assigned := by
  cases request with
  | fetchCart =>
    obtain ⟨hperm, heq⟩ := guarded h
    cases heq
    have hids : (ids choice.listing).Perm (ids server.items) := hperm.map _
    refine ⟨fun _ hid => hid, List.Subset.trans hids.subset server.known, ?_, by simp⟩
    rintro listing hlisting
    cases hlisting
    exact ⟨hids.nodup_iff.mpr server.keyed, funext (quantityOf_perm server.keyed hperm)⟩
  | addToCart request =>
    simp only [serve] at h
    split at h
    · rename_i fresh
      cases h
      refine ⟨fun _ hid => List.mem_append_left _ hid, by simp [names, Server.insert], by simp, ?_⟩
      rintro item hitem
      cases hitem
      exact fresh
    · cases h
  | updateCartItem cartId quantity =>
    obtain ⟨hin, heq⟩ := guarded h
    cases heq
    refine ⟨fun _ hid => hid, ?_, by simp, by simp⟩
    simpa [names, Server.update] using server.known hin
  | removeCartItem removed =>
    obtain ⟨hin, heq⟩ := guarded h
    cases heq
    refine ⟨fun _ hid => hid, ?_, by simp, by simp⟩
    simpa [names, Server.remove] using server.known hin
  | removeAllCartItems =>
    cases h
    exact ⟨fun _ hid => hid, List.nil_subset _, by simp, by simp⟩

/-- Answers that speak of other ids only, and not of the whole cart, change nothing. -/
theorem replay_unnamed {id : Int} {l : List Payload} (hparts : ∀ a ∈ l, a.isFetch = false)
    (hclear : .removeAllCartItems ∉ l) (h : ∀ a ∈ l, id ∉ names a) (q : Option Int) :
    replay id l q = q := by
  induction l with
  | nil => rfl
  | cons a l ih =>
    obtain ⟨hfirst, hparts⟩ := List.forall_mem_cons.mp hparts
    obtain ⟨hne, hclear⟩ := not_or.mp (mt List.mem_cons.mpr hclear)
    obtain ⟨ha, h⟩ := List.forall_mem_cons.mp h
    have hq : change id a q = q := by
      cases a with
      | fetchCart => cases hfirst
      | removeAllCartItems => exact absurd rfl hne
      | addToCart item =>
        have hother : item.id ≠ id := fun hid => ha (List.mem_singleton.mpr hid.symm)
        simp [change, hother]
      | updateCartItem cartId | removeCartItem cartId =>
        have hother : cartId ≠ id := fun hid => ha (List.mem_singleton.mpr hid.symm)
        simp only [change, hother, if_false]
    rw [replay_cons, hq]
    exact ih hparts hclear h

/-- The quantities stay up to date when the server applies one more request. -/
theorem Quiet.serve {server t : Server} {choice : Choice} {request : Request} {p : Payload}
    {l : List Payload} (h : Quiet (quantityOf server.items) l)
    (hnamed : ∀ a ∈ l, names a ⊆ server.assigned)
    (hserve : serve server choice request = some (t, p)) :
    Quiet (quantityOf t.items) (l ++ [p]) := by
  obtain ⟨-, -, hlisting, hadded⟩ := serve_cases hserve
  intro id
  have hid := h id
  have hshape := shape_adjusts id l
  rw [quantityOf_serve hserve, List.filter_append, replay_append]
  cases p with
  | fetchCart listing =>
    rw [show change id (.fetchCart listing) (quantityOf server.items id) =
      quantityOf server.items id from congrFun (hlisting listing rfl).2 id]
    exact hid
  | addToCart item =>
    by_cases hsame : item.id = id
    · have hnew : ∀ a ∈ l, id ∉ names a := fun a ha hin =>
        hadded item rfl (hsame ▸ hnamed a ha hin)
      refine replay_unnamed (l := l.filter adjusts) (fun a ha => ?_) (fun hin => ?_)
        (fun a ha => ?_) _
      · cases a with
        | fetchCart => cases (List.mem_filter.mp ha).2
        | addToCart | updateCartItem | removeCartItem | removeAllCartItems => rfl
      · cases (List.mem_filter.mp hin).2
      · exact hnew a (List.mem_filter.mp ha).1
    · have heq : ∀ q, change id (.addToCart item) q = q := fun q => by simp [change, hsame]
      rw [heq]
      exact hid
  | updateCartItem cartId quantity =>
    change change id (.updateCartItem cartId quantity) _ = _
    generalize replay id (l.filter adjusts) = f at hid hshape ⊢
    by_cases hsame : cartId = id
    · simp only [change, hsame, if_true]
      cases hshape with
      | keep => cases quantityOf server.items id <;> rfl
      | drop => rw [← hid]
      | set other => cases quantityOf server.items id <;> rfl
    · simpa only [change, hsame, if_false] using hid
  | removeCartItem removed =>
    change change id (.removeCartItem removed) _ = _
    by_cases hsame : removed = id
    · simp only [change, hsame, if_true]
    · simpa only [change, hsame, if_false] using hid
  | removeAllCartItems =>
    generalize replay id (l.filter adjusts) = f at hshape ⊢
    cases hshape <;> rfl

/-- Whatever the server adds after a removal of everything has its answer under way. -/
theorem Cleared.serve {server t : Server} {choice : Choice} {request : Request} {p : Payload}
    {l : List Payload} (h : Cleared (quantityOf server.items) l)
    (hserve : serve server choice request = some (t, p)) :
    Cleared (quantityOf t.items) (l ++ [p]) := by
  obtain ⟨-, -, hlisting, -⟩ := serve_cases hserve
  intro before after hsplit id hid
  rw [quantityOf_serve hserve] at hid
  rcases split_append hsplit with ⟨k, rfl, hp⟩ | ⟨k, rfl, rfl⟩
  · obtain rfl : p = .removeAllCartItems := by
      have hin : Payload.removeAllCartItems ∈ [p] := by simp [hp]
      exact (List.mem_singleton.mp hin).symm
    cases hid
  · have hold : (quantityOf server.items id).isSome →
        ∃ item, .addToCart item ∈ k ++ [p] ∧ item.id = id := fun hsome => by
      obtain ⟨item, hitem, heq⟩ := h before k rfl id hsome
      exact ⟨item, List.mem_append_left _ hitem, heq⟩
    cases p with
    | fetchCart listing => exact hold (by rwa [← (hlisting listing rfl).2])
    | addToCart item =>
      by_cases hsame : item.id = id
      · exact ⟨item, by simp, hsame⟩
      · exact hold (by simpa [change, hsame] using hid)
    | updateCartItem cartId quantity =>
      refine hold ?_
      simp only [change] at hid
      split at hid
      · simpa using hid
      · exact hid
    | removeCartItem removed =>
      refine hold ?_
      simp only [change] at hid
      split at hid
      · cases hid
      · exact hid
    | removeAllCartItems => cases hid

theorem Tracked.reach {s : State} {t : Server} {choice : Choice} {request : Request} {p : Payload}
    (h : Tracked s) (hserve : serve s.server choice request = some (t, p)) (sent : List Request) :
    Tracked { s with server := t, sent, answered := s.answered ++ [p] } := by
  obtain ⟨hmore, hnames, hlisting, hadded⟩ := serve_cases hserve
  have hserver : quantityOf t.items = fun id => change id p (quantityOf s.server.items id) :=
    funext (quantityOf_serve hserve)
  constructor
  · intro a ha
    rcases List.mem_append.mp ha with ha | ha
    · exact List.Subset.trans (h.named a ha) hmore
    · obtain rfl := List.mem_singleton.mp ha
      exact hnames
  · refine List.pairwise_append.mpr ⟨h.new, List.pairwise_singleton .., fun a ha b hb => ?_⟩
    obtain rfl := List.mem_singleton.mp hb
    exact fun item hitem hin => hadded item hitem (h.named a ha hin)
  · intro listing hl
    rcases List.mem_append.mp hl with hl | hl
    · exact h.listed listing hl
    · exact (hlisting listing (List.mem_singleton.mp hl).symm).1
  · exact h.quiet.serve h.named hserve
  · exact h.cleared.serve hserve
  · intro l listing m hsplit
    rcases List.eq_nil_or_concat m with rfl | ⟨m, a, rfl⟩
    · obtain ⟨hl, hp⟩ := List.append_inj' hsplit rfl
      obtain rfl := List.singleton_inj.mp hp
      have hq := (hlisting listing rfl).2
      refine ⟨?_, ?_, ?_⟩
      · rw [hq, ← hl]
        exact h.quiet
      · rw [hq, ← hl]
        exact h.cleared
      · rw [hserver]
        rfl
    · rw [List.concat_eq_append, ← List.cons_append, ← List.append_assoc] at hsplit
      obtain ⟨hl, hp⟩ := List.append_inj' hsplit rfl
      obtain rfl := List.singleton_inj.mp hp
      obtain ⟨hquiet, hcleared, hfollows⟩ := h.fetches l listing m hl
      refine ⟨hquiet, hcleared, ?_⟩
      rw [List.concat_eq_append, hserver]
      exact hfollows.snoc fun more hmore' => (hlisting more hmore').2
  · intro hf id
    rw [replay_append, hserver]
    by_cases hold : Fetched s ∨ ∃ items, .fetchCart items ∈ s.answered
    · exact congrArg (change id p) (h.current hold id)
    · obtain ⟨listing, hl⟩ := hf.resolve_left fun hf => hold (.inl hf)
      rcases List.mem_append.mp hl with hl | hl
      · exact absurd (.inr ⟨listing, hl⟩) hold
      · obtain rfl := List.mem_singleton.mp hl
        rfl
  · intro hf
    obtain ⟨hsome, hkeyed, hknown, hnew⟩ := h.held hf
    refine ⟨hsome, hkeyed, List.Subset.trans hknown hmore, fun item hitem => ?_⟩
    rcases List.mem_append.mp hitem with hitem | hitem
    · exact hnew item hitem
    · exact fun hin => hadded item (List.mem_singleton.mp hitem).symm (hknown hin)

theorem not_brings_of_free {id : Int} {a b : Payload} (h : ¬ Conflict a b)
    (hb : (∃ quantity, b = .updateCartItem id quantity) ∨ b = .removeCartItem id ∨
      b = .removeAllCartItems) : ¬ Brings id a := by
  intro ha
  cases a with
  | fetchCart => obtain ⟨_, rfl⟩ | rfl | rfl := hb <;> exact h rfl
  | addToCart item => obtain ⟨_, rfl⟩ | rfl | rfl := hb <;> first | exact h ha | exact h trivial
  | updateCartItem | removeCartItem | removeAllCartItems => exact ha

/-- An answer that conflicts with none of the others may as well arrive after them. -/
theorem replay_commutes {l : List Payload} {b : Payload} (hb : b.isFetch = false)
    (hfree : ∀ a ∈ l, ¬ Conflict a b) (hnew : ∀ a ∈ l, New a b) (id : Int) (q : Option Int) :
    replay id l (change id b q) = change id b (replay id l q) := by
  cases b with
  | fetchCart => cases hb
  | addToCart item =>
    by_cases hsame : item.id = id
    · have hparts : ∀ a ∈ l, a.isFetch = false := by
        intro a ha
        cases a with
        | fetchCart => exact absurd hb (hfree _ ha)
        | addToCart | updateCartItem | removeCartItem | removeAllCartItems => rfl
      have hclear : Payload.removeAllCartItems ∉ l := fun hin => hfree _ hin trivial
      have hother : ∀ a ∈ l, id ∉ names a := fun a ha => hsame ▸ hnew a ha item rfl
      rw [replay_unnamed hparts hclear hother, replay_unnamed hparts hclear hother]
    · have heq : ∀ q, change id (.addToCart item) q = q := fun q => by simp [change, hsame]
      rw [heq, heq]
  | updateCartItem cartId quantity =>
    by_cases hsame : cartId = id
    · subst hsame
      have hbrings : ∀ a ∈ l, ¬ Brings cartId a := fun a ha =>
        not_brings_of_free (hfree a ha) (.inl ⟨quantity, rfl⟩)
      have hsets : ∀ a ∈ l, ¬ Sets cartId a := by
        intro a ha hsets
        cases a with
        | updateCartItem other _ => exact hfree _ ha hsets
        | fetchCart | addToCart | removeCartItem | removeAllCartItems => exact hsets
      rcases replay_other hbrings hsets with heq | heq
      · rw [heq]
      · rw [heq]
        simp [change]
    · simp only [change, hsame, if_false]
  | removeCartItem removed =>
    by_cases hsame : removed = id
    · subst hsame
      have hshape := replay_shape fun a ha => not_brings_of_free (hfree a ha) (.inr (.inl rfl))
      generalize replay removed l = f at hshape ⊢
      simp only [change, if_true]
      cases hshape <;> rfl
    · simp only [change, hsame, if_false]
  | removeAllCartItems =>
    have hshape : Shape (replay id l) := replay_shape fun a ha =>
      not_brings_of_free (hfree a ha) (.inr (.inr rfl))
    generalize replay id l = f at hshape ⊢
    cases hshape <;> rfl

theorem isFetch_of_free {items : List CartItem} {b : Payload}
    (h : ¬ Conflict (.fetchCart items) b) :
    ∃ more, b = .fetchCart more := by
  cases b with
  | fetchCart more => exact ⟨more, rfl⟩
  | addToCart | updateCartItem | removeCartItem | removeAllCartItems => exact absurd rfl h

theorem fetched_arrive {s : State} {b : Payload} {answered : List Payload} :
    Fetched (dispatch (.fulfilled b) { s with answered }) ↔
      Fetched s ∨ ∃ items, b = .fetchCart items := by
  have hb : (Action.fetched? (.fulfilled b)).isSome ↔ ∃ items, b = .fetchCart items := by
    cases b <;> simp [Action.fetched?]
  simp only [Fetched, dispatch, List.mem_append, List.mem_singleton, or_and_right, exists_or,
    exists_eq_left]
  rw [hb]

theorem isSome_fulfilled {slice : CartState} (h : slice.cart.isSome) (b : Payload) :
    (reducerFulfilled slice b).cart.isSome := by
  cases b with
  | fetchCart | addToCart | removeAllCartItems => rfl
  | updateCartItem | removeCartItem => simpa [reducerFulfilled] using h

/-- Only fetches and additions bring in ids. -/
theorem ids_fulfilled (slice : CartState) {b : Payload} (hfetch : ∀ listing, b ≠ .fetchCart listing)
    (hadd : ∀ item, b ≠ .addToCart item) :
    (ids (items (reducerFulfilled slice b))).Sublist (ids (items slice)) := by
  cases b with
  | fetchCart listing => exact absurd rfl (hfetch listing)
  | addToCart item => exact absurd rfl (hadd item)
  | updateCartItem cartId quantity =>
    simp only [items, reducerFulfilled]
    cases slice.cart with
    | none => exact .refl _
    | some cart =>
      rw [Option.map_some, Option.getD_some, ids_setQuantity]
      exact .refl _
  | removeCartItem removed =>
    simp only [items, reducerFulfilled]
    cases slice.cart with
    | none => exact .refl _
    | some cart => exact ids_filter _ _
  | removeAllCartItems => exact List.nil_sublist _

/-- What a slice that has been fetched holds after one more answer. -/
theorem Tracked.arrive_held {s : State} {l m : List Payload} {b : Payload} (h : Tracked s)
    (hsplit : s.answered = l ++ b :: m) (hfree : ∀ a ∈ l, ¬ Conflict a b)
    (hf : Fetched (dispatch (.fulfilled b) { s with answered := l ++ m })) :
    Held (dispatch (.fulfilled b) { s with answered := l ++ m }) := by
  have hb : b ∈ s.answered := by simp [hsplit]
  have hin : ∀ p ∈ l ++ m, p ∈ s.answered := by
    intro p hp
    rw [hsplit]
    exact ((List.sublist_cons_self b m).append_left l).subset hp
  obtain ⟨-, hm, hcross⟩ := List.pairwise_append.mp (hsplit ▸ h.new)
  have hafter : ∀ a ∈ m, New b a := (List.pairwise_cons.mp hm).1
  by_cases hfetch : ∃ listing, b = .fetchCart listing
  · obtain ⟨listing, rfl⟩ := hfetch
    refine ⟨rfl, h.listed listing hb, h.named _ hb, fun item hitem => ?_⟩
    rcases List.mem_append.mp hitem with hitem | hitem
    · exact absurd trivial (hfree _ hitem)
    · exact hafter _ hitem item rfl
  · obtain ⟨hsome, hkeyed, hknown, hnew⟩ := h.held ((fetched_arrive.mp hf).resolve_right hfetch)
    have hsome' := isSome_fulfilled hsome b
    by_cases hadd : ∃ item, b = .addToCart item
    · obtain ⟨item, rfl⟩ := hadd
      have hids : ids (items (reducerFulfilled s.slice (.addToCart item))) =
          ids (items s.slice) ++ [item.id] := by simp [items, reducerFulfilled, ids]
      refine ⟨hsome', ?_, ?_, ?_⟩
      · change (ids (items (reducerFulfilled _ _))).Nodup
        rw [hids, List.nodup_append]
        refine ⟨hkeyed, List.nodup_singleton _, ?_⟩
        intro id hid other hother heq
        rw [List.mem_singleton.mp hother] at heq
        exact hnew item hb (heq ▸ hid)
      · change ids (items (reducerFulfilled _ _)) ⊆ s.server.assigned
        rw [hids]
        exact List.append_subset.mpr ⟨hknown, h.named _ hb⟩
      · intro more hmore
        change more.id ∉ ids (items (reducerFulfilled _ _))
        rw [hids, List.mem_append, not_or]
        refine ⟨hnew more (hin _ hmore), ?_⟩
        rcases List.mem_append.mp hmore with hmore | hmore
        · intro hid
          have hother := hcross _ hmore _ List.mem_cons_self item rfl
          exact hother (List.mem_singleton.mpr (List.mem_singleton.mp hid).symm)
        · exact hafter _ hmore more rfl
    · have hsub := ids_fulfilled s.slice (not_exists.mp hfetch) (not_exists.mp hadd)
      exact ⟨hsome', hkeyed.sublist hsub, List.Subset.trans hsub.subset hknown,
        fun more hmore hid => hnew more (hin _ hmore) (hsub.subset hid)⟩

/-- A fetch shows the updates and removals of the answers that it overtakes. -/
theorem replay_shown {l : List Payload} {listing : List CartItem}
    (hquiet : Quiet (quantityOf listing) l) (hcleared : Cleared (quantityOf listing) l)
    (hfetch : ∀ more, .fetchCart more ∉ l) (hadd : ∀ item, .addToCart item ∉ l) (id : Int) :
    replay id l (quantityOf listing id) = quantityOf listing id := by
  by_cases hclear : Payload.removeAllCartItems ∈ l
  · have hnone : quantityOf listing id = none := by
      obtain ⟨p, r, rfl⟩ := List.append_of_mem hclear
      by_contra hsome
      obtain ⟨item, hitem, -⟩ := hcleared p r rfl id (Option.isSome_iff_ne_none.mpr hsome)
      exact hadd item (by simp [hitem])
    have hshape : Shape (replay id l) := by
      refine replay_shape fun a ha => ?_
      cases a with
      | fetchCart more => exact absurd ha (hfetch more)
      | addToCart item => exact absurd ha (hadd item)
      | updateCartItem | removeCartItem | removeAllCartItems => exact not_false
    rw [hnone]
    generalize replay id l = f at hshape ⊢
    cases hshape <;> rfl
  · have hadjusts : ∀ a ∈ l, adjusts a = true := by
      intro a ha
      cases a with
      | fetchCart more => exact absurd ha (hfetch more)
      | addToCart item => exact absurd ha (hadd item)
      | removeAllCartItems => exact absurd ha hclear
      | updateCartItem | removeCartItem => rfl
    have hshown := hquiet id
    rwa [List.filter_eq_self.mpr hadjusts] at hshown

theorem Tracked.arrive_fetch {s : State} {l m : List Payload} {listing : List CartItem}
    (h : Tracked s) (hsplit : s.answered = l ++ .fetchCart listing :: m)
    (hfree : ∀ a ∈ l, ¬ Conflict a (.fetchCart listing)) (id : Int) :
    replay id (l ++ m) (quantityOf listing id) = quantityOf s.server.items id := by
  obtain ⟨hquiet, hcleared, hfollows⟩ := h.fetches l listing m hsplit
  by_cases hfetch : ∃ more, .fetchCart more ∈ l
  · obtain ⟨more, hmore⟩ := hfetch
    obtain ⟨p, r, rfl⟩ := List.append_of_mem hmore
    have hfollowsMore := (h.fetches p more (r ++ .fetchCart listing :: m) (by simp [hsplit])).2.2
    rw [List.append_assoc, List.cons_append, replay_fetch]
    exact hfollowsMore.drop_fetch.replay id
  · have hadd : ∀ item, .addToCart item ∉ l := fun item hin => hfree _ hin trivial
    rw [replay_append, replay_shown hquiet hcleared (not_exists.mp hfetch) hadd]
    exact hfollows.replay id

/-- If an answer arrives that conflicts with none before it, the slice stays on track. -/
theorem Tracked.arrive {s : State} {l m : List Payload} {b : Payload} (h : Tracked s)
    (hsplit : s.answered = l ++ b :: m) (hfree : ∀ a ∈ l, ¬ Conflict a b) :
    Tracked (dispatch (.fulfilled b) { s with answered := l ++ m }) := by
  have hsub : (l ++ m).Sublist s.answered := by
    rw [hsplit]
    exact (List.sublist_cons_self b m).append_left l
  constructor
  · exact fun p hp => h.named p (hsub.subset hp)
  · exact h.new.sublist hsub
  · exact fun listing hl => h.listed listing (hsub.subset hl)
  · exact Quiet.drop (hsplit ▸ h.quiet) hfree
  · exact Cleared.drop (hsplit ▸ h.cleared) hfree
  · intro p listing r hpr
    rcases split_append hpr with ⟨q, rfl, rfl⟩ | ⟨q, rfl, rfl⟩
    · obtain ⟨hquiet, hcleared, hfollows⟩ := h.fetches (l ++ b :: q) listing r (by simp [hsplit])
      exact ⟨hquiet.drop hfree, hcleared.drop hfree, hfollows⟩
    · obtain ⟨more, rfl⟩ := isFetch_of_free (hfree (.fetchCart listing) (by simp))
      obtain ⟨hquiet, hcleared, hfollows⟩ :=
        h.fetches p listing (q ++ .fetchCart more :: m) (by simp [hsplit])
      exact ⟨hquiet, hcleared, hfollows.drop_fetch⟩
  · intro hf id
    change replay id (l ++ m) (quantityOf (items (reducerFulfilled s.slice b)) id) =
      quantityOf s.server.items id
    rw [items_fulfilled]
    by_cases hfetch : ∃ listing, b = .fetchCart listing
    · obtain ⟨listing, rfl⟩ := hfetch
      exact h.arrive_fetch hsplit hfree id
    · have hbefore : Fetched s ∨ ∃ listing, .fetchCart listing ∈ s.answered :=
        hf.imp (fun hf => (fetched_arrive.mp hf).resolve_right hfetch)
          fun ⟨listing, hl⟩ => ⟨listing, hsub.subset hl⟩
      have hb : b.isFetch = false := by
        cases b with
        | fetchCart listing => exact absurd ⟨listing, rfl⟩ hfetch
        | addToCart | updateCartItem | removeCartItem | removeAllCartItems => rfl
      have hnew : ∀ a ∈ l, New a b := fun a ha =>
        (List.pairwise_append.mp (hsplit ▸ h.new)).2.2 a ha b List.mem_cons_self
      rw [← h.current hbefore id, hsplit, replay_append, replay_append, replay_cons,
        replay_commutes hb hfree hnew]
  · exact h.arrive_held hsplit hfree

/-- As long as nothing disturbs it. -/
def Sound (s : State) : Prop := Undisturbed s → Tracked s

theorem undisturbed_dispatch {s : State} {a : Action} (h : Undisturbed (dispatch a s)) :
    Undisturbed s ∧ ¬ a.Disturbs :=
  ⟨fun b hb => h b (List.mem_append_left _ hb), h a (by simp [dispatch])⟩

theorem step_sound {s t : State} {l : Label} (h : Sound s) (hin : InOrder s l)
    (hstep : step s l = some t) : Sound t := by
  intro hundisturbed
  cases l with
  | call request =>
    obtain rfl := Option.some.inj hstep
    have hs := h (undisturbed_dispatch hundisturbed).1
    refine hs.pending ?_ rfl rfl ?_
    · cases request <;> rfl
    · simp [Fetched, dispatch, Action.fetched?]
  | reach i choice =>
    obtain ⟨request, -, hstep⟩ := Option.bind_eq_some_iff.mp hstep
    obtain ⟨⟨server, p⟩, hserve, rfl⟩ := Option.map_eq_some_iff.mp hstep
    exact (h hundisturbed).reach hserve _
  | arrive i =>
    obtain ⟨b, hb, rfl⟩ := Option.map_eq_some_iff.mp hstep
    have hs := h (undisturbed_dispatch hundisturbed).1
    obtain ⟨hi, hget⟩ := List.getElem?_eq_some_iff.mp hb
    have hsplit : s.answered = s.answered.take i ++ b :: s.answered.drop (i + 1) := by
      rw [← hget, List.getElem_cons_drop, List.take_append_drop]
    rw [List.eraseIdx_eq_take_drop_succ]
    exact hs.arrive hsplit (hin b hb)
  | refuse i e =>
    obtain ⟨request, -, rfl⟩ := Option.map_eq_some_iff.mp hstep
    exact absurd trivial (undisturbed_dispatch hundisturbed).2
  | lose i e =>
    obtain ⟨p, -, rfl⟩ := Option.map_eq_some_iff.mp hstep
    exact absurd trivial (undisturbed_dispatch hundisturbed).2
  | clearCart =>
    obtain rfl := Option.some.inj hstep
    exact absurd trivial (undisturbed_dispatch hundisturbed).2

theorem Sound.converged {s : State} (h : Sound s) (hsettled : Settled s) : Converged s := by
  have hs := h hsettled.undisturbed
  obtain ⟨hsome, hkeyed, -, -⟩ := hs.held hsettled.fetched
  obtain ⟨cart, hcart⟩ := Option.isSome_iff_exists.mp hsome
  have hitems : items s.slice = cart := by rw [items, hcart]; rfl
  have hcurrent := hs.current (.inl hsettled.fetched)
  rw [hsettled.answered] at hcurrent
  rw [hitems] at hkeyed hcurrent
  exact ⟨cart, hcart, perm_of_quantityOf hkeyed s.server.keyed hcurrent⟩

/-- When all requests have succeeded, one of them a fetch, and no answer has overtaken one
that it conflicts with, the slice holds the server's items. -/
theorem converges (slice : CartState) (server : Server) (tr : List Label)
    (hin : ∀ v ∈ visits step (start slice server) tr, InOrder v.1 v.2.1) :
    ∀ v ∈ visits step (start slice server) tr, Settled v.2.2 → Converged v.2.2 := by
  intro v hv hsettled
  have hsound : Sound v.2.2 := (visits_invariant Sound InOrder (fun _ _ _ => step_sound)
    (fun _ => start_tracked slice server) hin v hv).2.2
  exact hsound.converged hsettled

def emptyServer : Server := ⟨[], [], List.nodup_nil, List.nil_subset _⟩

/-- Two additions whose answers change places, after a fetch. -/
def twoAdditions : List Label :=
  [.call .fetchCart, .reach 0 ⟨0, []⟩, .call (.addToCart ⟨0, 2⟩), .call (.addToCart ⟨0, 3⟩),
    .reach 0 ⟨1, []⟩, .reach 0 ⟨2, []⟩, .arrive 0, .arrive 1, .arrive 0]

theorem converges_twoAdditions :
    (∃ v ∈ visits step (start initialState emptyServer) twoAdditions, Settled v.2.2) ∧
      ∀ v ∈ visits step (start initialState emptyServer) twoAdditions,
        Settled v.2.2 → Converged v.2.2 :=
  ⟨by decide, converges _ _ _ (by decide)⟩

/-- The kinds of answers that conflict for some arguments. -/
def Clash : Thunk → Thunk → Prop
  | .fetchCart, b => b ≠ .fetchCart
  | .addToCart, b => b ≠ .addToCart
  | .updateCartItem, b => b = .updateCartItem
  | .removeAllCartItems, b => b = .addToCart
  | .removeCartItem, _ => False

/-- A server with one item. -/
def oneItem : Server := ⟨[⟨1, 1⟩], [1], by decide, by decide⟩

/-- After a first fetch the answer to `b` overtakes that to `a`. -/
def overtaken (listing : List CartItem) (a b : Request) (c d : Choice) : List Label :=
  [.call .fetchCart, .reach 0 ⟨0, listing⟩, .arrive 0, .call a, .call b, .reach 0 c, .reach 0 d,
    .arrive 1, .arrive 0]

def Diverges (server : Server) (a b : Request) (c d : Choice) : Prop :=
  ∃ v ∈ visits step (start initialState server) (overtaken server.items a b c d),
    Settled v.2.2 ∧ ¬ Converged v.2.2

instance (server : Server) (a b : Request) (c d : Choice) : Decidable (Diverges server a b c d) :=
  inferInstanceAs (Decidable (∃ v ∈ visits .., _))

/-- Each of the excluded overtakings goes wrong by itself. -/
theorem clash_diverges (t u : Thunk) (h : Clash t u) : ∃ server a b c d,
    a.thunk = t ∧ b.thunk = u ∧ Diverges server a b c d := by
  cases t with
  | fetchCart =>
    cases u with
    | fetchCart => exact absurd rfl h
    | addToCart =>
      exact ⟨oneItem, .fetchCart, .addToCart ⟨0, 2⟩, ⟨0, [⟨1, 1⟩]⟩, ⟨2, []⟩, rfl, rfl, by decide⟩
    | updateCartItem =>
      exact ⟨oneItem, .fetchCart, .updateCartItem 1 2, ⟨0, [⟨1, 1⟩]⟩, ⟨0, []⟩, rfl, rfl, by decide⟩
    | removeCartItem =>
      exact ⟨oneItem, .fetchCart, .removeCartItem 1, ⟨0, [⟨1, 1⟩]⟩, ⟨0, []⟩, rfl, rfl, by decide⟩
    | removeAllCartItems =>
      exact ⟨oneItem, .fetchCart, .removeAllCartItems, ⟨0, [⟨1, 1⟩]⟩, ⟨0, []⟩, rfl, rfl, by decide⟩
  | addToCart =>
    cases u with
    | addToCart => exact absurd rfl h
    | fetchCart =>
      exact ⟨emptyServer, .addToCart ⟨0, 2⟩, .fetchCart, ⟨1, []⟩, ⟨0, [⟨1, 2⟩]⟩, rfl, rfl,
        by decide⟩
    | updateCartItem =>
      exact ⟨emptyServer, .addToCart ⟨0, 2⟩, .updateCartItem 1 3, ⟨1, []⟩, ⟨0, []⟩, rfl, rfl,
        by decide⟩
    | removeCartItem =>
      exact ⟨emptyServer, .addToCart ⟨0, 2⟩, .removeCartItem 1, ⟨1, []⟩, ⟨0, []⟩, rfl, rfl,
        by decide⟩
    | removeAllCartItems =>
      exact ⟨emptyServer, .addToCart ⟨0, 2⟩, .removeAllCartItems, ⟨1, []⟩, ⟨0, []⟩, rfl, rfl,
        by decide⟩
  | updateCartItem =>
    obtain rfl : u = .updateCartItem := h
    exact ⟨oneItem, .updateCartItem 1 2, .updateCartItem 1 3, ⟨0, []⟩, ⟨0, []⟩, rfl, rfl, by decide⟩
  | removeCartItem => exact h.elim
  | removeAllCartItems =>
    obtain rfl : u = .addToCart := h
    exact ⟨emptyServer, .removeAllCartItems, .addToCart ⟨0, 2⟩, ⟨0, []⟩, ⟨1, []⟩, rfl, rfl,
      by decide⟩

/-- A fetch is answered with the empty cart, and before that answer an item is added and
its answer arrives: the item is gone from the slice. -/
def lateFetch : List Label :=
  [.call .fetchCart, .call (.addToCart ⟨0, 2⟩), .reach 0 ⟨0, []⟩, .reach 0 ⟨1, []⟩, .arrive 1,
    .arrive 0]

theorem item_lost_by_late_fetch : ¬ ∀ (slice : CartState) (server : Server) (tr : List Label),
    ∀ v ∈ visits step (start slice server) tr, Settled v.2.2 → Converged v.2.2 := by
  intro h
  have hrun := h initialState emptyServer lateFetch
  revert hrun
  decide

end CartDelivery
