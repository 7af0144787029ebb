import ShoppingProject.ClientQueries
import ShoppingProject.StoredCarts

/-!
# The cart page of the shop

`CartsPage.tsx` shows the answer to `GET /carts` that `useCart` has, and makes its changes through
the same hook. The source of its answers is the table of carts under the requests of everybody.
-/
namespace ShopCart

open Carts (CartTable CartDto toDto)
open ClientQueries (Key)
open ClientQueries.Shop (Change cart cart_invalidated client concerns)
open QueryCaches
open Runs
open StoredCarts (Spent)

/-- `CartAPIRepository.getAll`: the carts of the table in the order that the collation gives to
their titles. -/
def getAll (carts : CartTable) (key : Key) (a : List CartDto) : Bool :=
  key == cart && a.isPerm (carts.rows.map toDto)

/-- The endpoint gives such an answer. -/
theorem getAll_getCarts (env : Carts.Env) (carts : CartTable) :
    getAll carts cart ((env.byTitle carts.rows).map toDto) = true := by
  simp only [getAll, beq_self_eq_true, Bool.true_and, List.isPerm_iff]
  exact (env.byTitle_perm carts.rows).map toDto

/-- Somebody has sent a request to the carts endpoint. -/
def Served (carts carts' : CartTable) : Prop := ∃ l, Carts.step carts l = some carts'

theorem mem_getAll {carts : CartTable} {key : Key} {a : List CartDto}
    (h : getAll carts key a = true) (k : Int) :
    (∃ dto ∈ a, dto.id = k) ↔ ∃ c ∈ carts.rows, c.id = k := by
  obtain ⟨-, hperm⟩ := Bool.and_eq_true_iff.mp h
  have hmem : ∀ dto, dto ∈ a ↔ dto ∈ carts.rows.map toDto := fun dto =>
    (List.isPerm_iff.mp hperm).mem_iff
  constructor
  · rintro ⟨dto, hdto, rfl⟩
    obtain ⟨c, hc, rfl⟩ := List.mem_map.mp ((hmem dto).mp hdto)
    exact ⟨c, hc, rfl⟩
  · rintro ⟨c, hc, rfl⟩
    exact ⟨toDto c, (hmem _).mpr (List.mem_map_of_mem hc), rfl⟩

/-- A listing from a state of the table since `made` misses none of its carts that are still
there, and has none that was gone. -/
theorem listed_since {tables : List CartTable} (hchain : tables.IsChain Served) {n i m : Nat}
    {made carts last : CartTable} (hni : n ≤ i) (him : i ≤ m) (hmade : tables[n]? = some made)
    (hcarts : tables[i]? = some carts) (hlast : tables[m]? = some last) {key : Key}
    {a : List CartDto} (ha : getAll carts key a = true) :
    (∀ c ∈ made.rows, (∃ c' ∈ last.rows, c'.id = c.id) → ∃ dto ∈ a, dto.id = c.id) ∧
      ∀ k, Spent k made → ∀ dto ∈ a, dto.id ≠ k := by
  have hspent : ∀ k b c, Spent k b → Served b c → Spent k c := by
    rintro k b c hk ⟨l, hl⟩
    exact StoredCarts.step_spent hk hl
  constructor
  · intro c hc hstill
    rw [mem_getAll ha]
    by_contra hmissing
    -- the key has been given before, so that it is spent
    have hgiven : c.id < carts.next := by
      refine Chains.lasts (P := fun t => c.id < t.next) ?_ hchain hni hmade hcarts
        (made.bounded c hc)
      rintro b d hb ⟨l, hl⟩
      exact hb.trans_le (StoredCarts.next_le hl)
    have hgone : Spent c.id carts := by
      refine ⟨hgiven, fun c' hc' heq => ?_⟩
      exact hmissing ⟨c', hc', heq⟩
    obtain ⟨c', hc', heq⟩ := hstill
    exact (Chains.lasts (hspent c.id) hchain him hcarts hlast hgone).2 c' hc' heq
  · intro k hk dto hdto heq
    obtain ⟨c, hc, hkey⟩ := (mem_getAll ha k).mp ⟨dto, hdto, heq⟩
    exact (Chains.lasts (hspent k) hchain hni hmade hcarts hk).2 c hc hkey

/-- The table with one bag. -/
def withBag : CartTable :=
  (Carts.serve Carts.someEnv Carts.someAdministrator StoredCarts.creation.request .empty).2

def bag : CartDto := ⟨1, "Bag", 109, "", 1, ""⟩

/-- A bag is put into the empty cart that is on screen. -/
def adding : List (Label Key (List CartDto) CartTable Change) :=
  [.mount cart, .answer cart [], .receive cart, .mutate 0 .addToCart, .perform 0 withBag]

def listing : List (Label Key (List CartDto) CartTable Change) :=
  [.answer cart [bag], .receive cart]

theorem served_withBag : Served .empty withBag := ⟨StoredCarts.creation, rfl⟩

/-- The table changes once, from the empty one. -/
theorem adding_served : ∀ v ∈ visits (step (client getAll)) (start .empty 0)
    (adding ++ .settle 0 :: listing), Changes Served v.1 v.2.1 := by
  have hvisits : (visits (step (client getAll)) (start .empty 0)
      (adding ++ .settle 0 :: listing)).map (fun v => (v.1.source, v.2.1)) =
        (adding.map fun l => (.empty, l)) ++
          ((.settle 0 :: listing).map fun l => (withBag, l)) := rfl
  intro v hv
  have hmem := List.mem_map_of_mem (f := fun v => (v.1.source, v.2.1)) hv
  rw [hvisits] at hmem
  obtain ⟨s, l, t⟩ := v
  simp only [adding, listing, List.map_cons, List.map_nil, List.cons_append, List.nil_append,
    List.mem_cons, List.not_mem_nil, or_false, Prod.mk.injEq] at hmem
  rcases hmem with ⟨-, rfl⟩ | ⟨-, rfl⟩ | ⟨-, rfl⟩ | ⟨-, rfl⟩ | ⟨hsource, rfl⟩ | ⟨-, rfl⟩ |
    ⟨-, rfl⟩ | ⟨-, rfl⟩
  case inr.inr.inr.inr.inl =>
    change Served s.source withBag
    rw [hsource]
    exact served_withBag
  all_goals trivial

end ShopCart
