import ShoppingProject.DomainEvents
import ShoppingProject.OfflineQueue

/-!
# The local cart

The table `cart_items` of the mobile application. Each mutation of
`LocalStorageRepository` writes to it and queues an operation for the server.
A row is keyed by the id of the item it was made from.
-/
namespace LocalStorage

open DomainEvents (Rating)
open OfflineQueue

structure CartItem where
  id : Int
  title : String
  price : ℚ
  description : String
  category : String
  image : String
  rating : Rating
  quantity : Int
  deriving DecidableEq

/-- One bag, under this id. -/
def someItem (id : Int) : CartItem := ⟨id, "Bag", 10, "A bag", "bags", "bag.png", ⟨4, 120⟩, 1⟩

structure CartRow where
  id : Int
  productId : Int
  quantity : Int
  deriving DecidableEq

/-- `cart_items`; its ids are a primary key. -/
structure LocalCart where
  rows : List CartRow
  distinct : (rows.map CartRow.id).Nodup

namespace LocalCart

def empty : LocalCart := ⟨[], List.nodup_nil⟩

def delete (cart : LocalCart) (id : Int) : LocalCart where
  rows := cart.rows.filter fun r => r.id != id
  distinct := cart.distinct.sublist (List.filter_sublist.map _)

/-- `INSERT OR REPLACE`. -/
def insertOrReplace (cart : LocalCart) (row : CartRow) : LocalCart where
  rows := (cart.delete row.id).rows ++ [row]
  distinct := by
    rw [List.map_append, List.nodup_append]
    refine ⟨(cart.delete row.id).distinct, by simp, ?_⟩
    intro a ha b hb
    obtain ⟨r, hr, rfl⟩ := List.mem_map.mp ha
    obtain rfl : b = row.id := by simpa using hb
    simpa using (List.mem_filter.mp hr).2

def updateQuantity (cart : LocalCart) (id quantity : Int) : LocalCart where
  rows := cart.rows.map fun r => if r.id = id then { r with quantity := quantity } else r
  distinct := by
    have hids : ∀ r : CartRow,
        (if r.id = id then { r with quantity := quantity } else r).id = r.id := by
      intro r
      split <;> rfl
    simpa only [List.map_map, Function.comp_def, hids] using cart.distinct

end LocalCart

/-- What `LocalStorageRepository` is asked to do with the cart. -/
inductive Mutation where
  | addCartItem : CartItem → Mutation
  | updateCartItem (id quantity : Int) : Mutation
  | removeCartItem (id : Int) : Mutation
  | clearCartItems : Mutation
  deriving DecidableEq

/-- `JSON.stringify(cartItem)`. -/
def CartItem.toJson (item : CartItem) : Json :=
  .obj [("id", .num item.id), ("title", .str item.title), ("price", .num item.price),
    ("description", .str item.description), ("category", .str item.category),
    ("image", .str item.image),
    ("rating", .obj [("rate", .num item.rating.rate), ("count", .num item.rating.count)]),
    ("quantity", .num item.quantity)]

/-- The operation that a mutation queues. -/
def Mutation.operation : Mutation → Operation
  | .addCartItem item => ⟨.add, .cartItem, .num item.id, item.toJson⟩
  | .updateCartItem id quantity =>
    ⟨.update, .cartItem, .num id, .obj [("quantity", .num quantity)]⟩
  | .removeCartItem id => ⟨.delete, .cartItem, .num id, .obj []⟩
  | .clearCartItems => ⟨.deleteAll, .cartItem, .num 0, .obj []⟩

/-- The statement that a mutation runs on `cart_items`; a quantity of zero is
falsy and stored as one. -/
def Mutation.write (cart : LocalCart) : Mutation → LocalCart
  | .addCartItem item =>
    cart.insertOrReplace ⟨item.id, item.id, if item.quantity = 0 then 1 else item.quantity⟩
  | .updateCartItem id quantity => cart.updateQuantity id quantity
  | .removeCartItem id => cart.delete id
  | .clearCartItems => .empty

structure LocalData where
  cart : LocalCart
  queue : Queue

/-- A mutation whose two statements succeed. -/
def mutate (now : Int) (m : Mutation) (d : LocalData) : LocalData :=
  ⟨m.write d.cart, addToQueue now m.operation d.queue⟩

end LocalStorage
