import ShoppingProject.LocalDatabase

/-!
# What a call that throws has written

Each statement of a call of `LocalStorageRepository` is a transaction of its own, and a call
that throws leaves behind what the statements before the failure have written: a change of
the cart that nobody will ever tell the server, or a part of the products.
-/
namespace LocalAtomicity

open LocalDatabase
open LocalStorage (Mutation)
open OfflineQueue (addToQueue)

/-- The statement of a mutation on `cart_items`. -/
def statement : Mutation → Statement
  | .addCartItem item =>
    .insertCartItem item.id item.id (if item.quantity = 0 then 1 else item.quantity)
  | .updateCartItem id quantity => .updateCartItem quantity id
  | .removeCartItem id => .deleteCartItem id
  | .clearCartItems => .deleteCartItems

theorem call_eq (m : Mutation) : call m = mutate (statement m) m.operation := by
  cases m <;> rfl

/-- If the call throws, the cart and the queue are as they were, and if it returns, both the
change and its operation are stored. -/
def Atomic (m : Mutation) (a b : Answer) (d : Database) : Prop :=
  match call m a b d with
  | .error d' => d'.cartItems = d.cartItems ∧ d'.offlineQueue = d.offlineQueue
  | .ok d' => d'.cartItems = ((statement m).write a d).cartItems ∧
      d'.offlineQueue = addToQueue b.now m.operation d.offlineQueue

/-- The mutation finds the cart as it would leave it. -/
def Idle (m : Mutation) (a : Answer) (d : Database) : Prop :=
  match m with
  | .addCartItem item => d.cartItems.find item.id =
      some (cartItemRow a item.id item.id (if item.quantity = 0 then 1 else item.quantity))
  | .updateCartItem id quantity =>
    ∀ r, d.cartItems.find id = some r → r.quantity = quantity ∧ r.updatedAt = a.now
  | .removeCartItem id => d.cartItems.find id = none
  | .clearCartItems => d.cartItems.rows = []

theorem idle_iff (m : Mutation) (a : Answer) (d : Database) :
    ((statement m).write a d).cartItems = d.cartItems ↔ Idle m a d := by
  cases m with
  | addCartItem item => exact d.cartItems.replace_eq_iff _
  | updateCartItem id quantity =>
    refine (d.cartItems.modify_eq_iff id (setQuantity a quantity) (setQuantity_id a quantity)).trans
      (forall_congr' fun r => imp_congr_right fun _ => ?_)
    cases r
    simp [setQuantity, eq_comm]
  | removeCartItem id => exact d.cartItems.delete_eq_iff id
  | clearCartItems =>
    exact ⟨fun h => (congrArg Keyed.rows h).symm, fun h => Keyed.rows_injective h.symm⟩

/-- The statements of the cart do not touch the queue. -/
theorem write_offlineQueue (m : Mutation) (a : Answer) (d : Database) :
    ((statement m).write a d).offlineQueue = d.offlineQueue := by
  cases m <;> rfl

/-- A mutation is atomic unless its operation cannot be queued after the cart was changed. -/
theorem mutation_atomic_iff (m : Mutation) (a b : Answer) (d : Database) :
    Atomic m a b d ↔ (a.succeeds = true → b.succeeds = false → Idle m a d) := by
  unfold Atomic
  rw [call_eq]
  unfold mutate
  cases ha : a.succeeds with
  | false => simp [runAsync, ha, bind, Except.bind]
  | true =>
    cases hb : b.succeeds with
    | false =>
      simp only [runAsync, ha, if_true, bind, Except.bind, LocalDatabase.addToQueue, hb,
        Bool.false_eq_true, if_false, forall_true_left, write_offlineQueue, and_true]
      exact idle_iff m a d
    | true =>
      simp only [runAsync, ha, if_true, bind, Except.bind, LocalDatabase.addToQueue, hb,
        Bool.true_eq_false, false_implies, implies_true, iff_true]
      exact ⟨rfl, by rw [← write_offlineQueue m a d]; rfl⟩

/-! ## Products -/

/-- The rows that are written before the first failure. -/
def written (saves : List (Product × Answer)) : List ProductRow :=
  (saves.takeWhile fun s => s.2.succeeds).map fun s => productRow s.2 s.1

def productsLeft (saves : List (Product × Answer)) (d : Database) : Keyed ProductRow.id :=
  (written saves).foldl Keyed.replace d.products

theorem saveProducts_eq (saves : List (Product × Answer)) (d : Database) :
    saveProducts saves d =
      if saves.all fun s => s.2.succeeds then .ok { d with products := productsLeft saves d }
      else .error { d with products := productsLeft saves d } := by
  induction saves generalizing d with
  | nil => rfl
  | cons s saves ih =>
    obtain ⟨product, a⟩ := s
    cases ha : a.succeeds with
    | false => simp [saveProducts, runAsync, ha, bind, Except.bind, productsLeft, written]
    | true =>
      simp only [saveProducts, runAsync, ha, if_true, bind, Except.bind, ih, List.all_cons,
        Bool.true_and]
      simp [productsLeft, written, ha, Statement.write]

/-- A call that throws leaves the products as they were. -/
def SavesAll (saves : List (Product × Answer)) (d : Database) : Prop :=
  ∀ d', saveProducts saves d = .error d' → d'.products = d.products

/-- If a statement fails, the last row that was written under each key was there already. -/
def Stored (saves : List (Product × Answer)) (d : Database) : Prop :=
  (∃ s ∈ saves, s.2.succeeds = false) →
    ∀ id row, ((written saves).reverse.find? fun r => r.id == id) = some row →
      d.products.find id = some row

theorem savesAll_iff (saves : List (Product × Answer)) (d : Database) :
    SavesAll saves d ↔ Stored saves d := by
  have hleft := d.products.foldl_replace_eq_iff (written saves)
  unfold SavesAll Stored
  rw [saveProducts_eq, ← hleft]
  by_cases hall : (saves.all fun s => s.2.succeeds) = true
  · rw [if_pos hall]
    refine iff_of_true (fun d' h => nomatch h) fun ⟨s, hs, hfails⟩ => ?_
    have hsucceeds := List.all_eq_true.mp hall s hs
    rw [hfails] at hsucceeds
    cases hsucceeds
  · rw [if_neg hall]
    have hfails : ∃ s ∈ saves, s.2.succeeds = false := by simpa using hall
    constructor
    · intro h _
      exact h _ rfl
    · intro h d' herror
      obtain rfl := Except.error.inj herror
      exact h hfails

/-- A mutation of the cart is atomic unless it changes the cart and its operation cannot be
queued, and saving products is unless a product was written, and changed something, before
the statement that fails. -/
theorem atomic_iff (d : Database) :
    (∀ m a b, Atomic m a b d ↔ (a.succeeds = true → b.succeeds = false → Idle m a d)) ∧
      ∀ saves, SavesAll saves d ↔ Stored saves d :=
  ⟨fun m a b => mutation_atomic_iff m a b d, fun saves => savesAll_iff saves d⟩

def bag : Product := ⟨1, "Bag", 10, "A bag", "bags", "bag.png", ⟨4, 120⟩⟩

/-- A removed row is not queued, and the first of two products stays. -/
theorem half_written :
    (¬ ∀ m a b d, Atomic m a b d) ∧ ¬ ∀ saves d, SavesAll saves d := by
  let d : Database := ⟨.empty, Keyed.empty.replace (cartItemRow ⟨true, 0, 0⟩ 1 1 1), Table.empty⟩
  constructor
  · intro hall
    have hatomic := hall (.removeCartItem 1) ⟨true, 0, 0⟩ ⟨false, 0, 0⟩ d
    have hrows : (d.cartItems.delete 1).rows = d.cartItems.rows := congrArg Keyed.rows hatomic.1
    exact absurd hrows (by decide)
  · intro hall
    have hsaves := hall [(bag, ⟨true, 0, 0⟩), ({ bag with id := 2 }, ⟨false, 0, 0⟩)] d _ rfl
    have hrows := congrArg Keyed.rows hsaves
    exact absurd hrows (by decide)

end LocalAtomicity
