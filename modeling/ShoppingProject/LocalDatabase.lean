import ShoppingProject.LocalStorage
import ShoppingProject.PrimaryKeys

/-!
# The local database

The three tables of the mobile application with all their columns. A call of
`LocalStorageRepository` runs its statements one after the other, each in a transaction of
its own, and throws at the first one that fails.
-/
namespace LocalDatabase

open LocalStorage (CartItem Mutation)
open OfflineQueue hiding addToQueue

structure Rating where
  rate : ℚ
  count : ℚ
  deriving DecidableEq

structure Product where
  id : Int
  title : String
  price : ℚ
  description : String
  category : String
  image : String
  rating : Rating
  deriving DecidableEq

/-- A row of `products`; the text in `synced_at` is the time that it shows. -/
structure ProductRow where
  id : Int
  title : String
  price : ℚ
  description : String
  category : String
  image : String
  ratingRate : ℚ
  ratingCount : ℚ
  syncedAt : Option Int
  createdAt : Int
  updatedAt : Int
  deriving DecidableEq

structure CartItemRow where
  id : Int
  productId : Int
  quantity : Int
  syncedAt : Option Int
  createdAt : Int
  updatedAt : Int
  deriving DecidableEq

structure Database where
  products : Keyed ProductRow.id
  cartItems : Keyed CartItemRow.id
  offlineQueue : Queue

inductive Statement where
  | insertProduct (product : Product) : Statement
  | insertCartItem (id productId quantity : Int) : Statement
  | updateCartItem (quantity id : Int) : Statement
  | deleteCartItem (id : Int) : Statement
  | deleteCartItems : Statement
  | insertOperation (op : Operation) : Statement
  deriving DecidableEq

/-- What becomes of a statement: whether it succeeds, `CURRENT_TIMESTAMP` while it runs, and
`new Date()` just before. -/
structure Answer where
  succeeds : Bool
  now : Int
  date : Int

/-- The row of a product, in the columns of `INSERT OR REPLACE INTO products`. -/
def productRow (a : Answer) (product : Product) : ProductRow :=
  ⟨product.id, product.title, product.price, product.description, product.category, product.image,
    product.rating.rate, product.rating.count, some a.date, a.now, a.now⟩

def cartItemRow (a : Answer) (id productId quantity : Int) : CartItemRow :=
  ⟨id, productId, quantity, none, a.now, a.now⟩

def setQuantity (a : Answer) (quantity : Int) (r : CartItemRow) : CartItemRow :=
  { r with quantity := quantity, updatedAt := a.now }

theorem setQuantity_id (a : Answer) (quantity : Int) (r : CartItemRow) :
    (setQuantity a quantity r).id = r.id := rfl

/-- A statement that succeeds. -/
def Statement.write (a : Answer) (d : Database) : Statement → Database
  | .insertProduct product => { d with products := d.products.replace (productRow a product) }
  | .insertCartItem id productId quantity =>
    { d with cartItems := d.cartItems.replace (cartItemRow a id productId quantity) }
  | .updateCartItem quantity id =>
    let cartItems := d.cartItems.modify id (setQuantity a quantity) (setQuantity_id a quantity)
    { d with cartItems := cartItems }
  | .deleteCartItem id => { d with cartItems := d.cartItems.delete id }
  | .deleteCartItems => { d with cartItems := .empty }
  | .insertOperation op =>
    { d with offlineQueue := OfflineQueue.addToQueue a.now op d.offlineQueue }

/-- `runAsync`; a call that throws leaves a database too. -/
def runAsync (a : Answer) (statement : Statement) (d : Database) : Except Database Database :=
  if a.succeeds then .ok (statement.write a d) else .error d

def addToQueue (a : Answer) (op : Operation) (d : Database) : Except Database Database :=
  runAsync a (.insertOperation op) d

/-- A statement on the cart, and then the operation for the queue. -/
def mutate (statement : Statement) (op : Operation) (a b : Answer) (d : Database) :
    Except Database Database :=
  runAsync a statement d >>= addToQueue b op

def addCartItem (item : CartItem) : Answer → Answer → Database → Except Database Database :=
  mutate (.insertCartItem item.id item.id (if item.quantity = 0 then 1 else item.quantity))
    (Mutation.addCartItem item).operation

def updateCartItem (id quantity : Int) : Answer → Answer → Database → Except Database Database :=
  mutate (.updateCartItem quantity id) (Mutation.updateCartItem id quantity).operation

def removeCartItem (id : Int) : Answer → Answer → Database → Except Database Database :=
  mutate (.deleteCartItem id) (Mutation.removeCartItem id).operation

def clearCartItems : Answer → Answer → Database → Except Database Database :=
  mutate .deleteCartItems Mutation.clearCartItems.operation

def call : Mutation → Answer → Answer → Database → Except Database Database
  | .addCartItem item => addCartItem item
  | .updateCartItem id quantity => updateCartItem id quantity
  | .removeCartItem id => removeCartItem id
  | .clearCartItems => clearCartItems

/-- Each product with what becomes of its statement. -/
def saveProducts : List (Product × Answer) → Database → Except Database Database
  | [], d => .ok d
  | (product, a) :: saves, d => runAsync a (.insertProduct product) d >>= saveProducts saves

/-! ## Calls that succeed -/

def toCartRow (r : CartItemRow) : LocalStorage.CartRow := ⟨r.id, r.productId, r.quantity⟩

/-- `cart` has the rows of `cart_items`, without the times. -/
def Shows (t : Keyed CartItemRow.id) (cart : LocalStorage.LocalCart) : Prop :=
  ∀ r, r ∈ cart.rows ↔ ∃ r' ∈ t.rows, toCartRow r' = r

theorem shows_replace {t : Keyed CartItemRow.id} {cart : LocalStorage.LocalCart} (h : Shows t cart)
    (row : CartItemRow) : Shows (t.replace row) (cart.insertOrReplace (toCartRow row)) := by
  intro r
  simp only [LocalStorage.LocalCart.insertOrReplace, LocalStorage.LocalCart.delete,
    List.mem_append, List.mem_filter, List.mem_singleton, h r, Keyed.mem_replace]
  constructor
  · rintro (⟨⟨r', hr', rfl⟩, hne⟩ | rfl)
    · exact ⟨r', .inr ⟨hr', by simpa [toCartRow] using hne⟩, rfl⟩
    · exact ⟨row, .inl rfl, rfl⟩
  · rintro ⟨r', rfl | ⟨hr', hne⟩, rfl⟩
    · exact .inr rfl
    · exact .inl ⟨⟨r', hr', rfl⟩, by simpa [toCartRow] using hne⟩

theorem shows_delete {t : Keyed CartItemRow.id} {cart : LocalStorage.LocalCart} (h : Shows t cart)
    (id : Int) : Shows (t.delete id) (cart.delete id) := by
  intro r
  simp only [LocalStorage.LocalCart.delete, List.mem_filter, h r, Keyed.mem_delete]
  constructor
  · rintro ⟨⟨r', hr', rfl⟩, hne⟩
    exact ⟨r', ⟨hr', by simpa [toCartRow] using hne⟩, rfl⟩
  · rintro ⟨r', ⟨hr', hne⟩, rfl⟩
    exact ⟨⟨r', hr', rfl⟩, by simpa [toCartRow] using hne⟩

theorem shows_setQuantity {t : Keyed CartItemRow.id} {cart : LocalStorage.LocalCart}
    (h : Shows t cart) (a : Answer) (id quantity : Int) :
    Shows (t.modify id (setQuantity a quantity) (setQuantity_id a quantity))
      (cart.updateQuantity id quantity) := by
  have hrow : ∀ r : CartItemRow,
      toCartRow (if r.id = id then setQuantity a quantity r else r) =
        if (toCartRow r).id = id then { toCartRow r with quantity := quantity }
        else toCartRow r := by
    intro r
    by_cases hr : r.id = id <;> simp [hr, toCartRow, setQuantity]
  intro r
  simp only [LocalStorage.LocalCart.updateQuantity, List.mem_map, Keyed.mem_modify]
  constructor
  · rintro ⟨c, hc, rfl⟩
    obtain ⟨r', hr', rfl⟩ := (h c).mp hc
    exact ⟨_, ⟨r', hr', rfl⟩, hrow r'⟩
  · rintro ⟨-, ⟨r', hr', rfl⟩, rfl⟩
    exact ⟨toCartRow r', (h _).mpr ⟨r', hr', rfl⟩, (hrow r').symm⟩

/-- A statement that succeeds. -/
def success : Answer := ⟨true, 100, 100⟩

end LocalDatabase
