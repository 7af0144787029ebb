import Mathlib.Algebra.Order.Ring.Cast
import Mathlib.Data.Rat.Cast.Order
import ShoppingProject.CartOwnership

/-!
# What the table of carts holds

Every stored cart goes back to one request that created it, and keeps what that request
recorded; what it may be changed in stays within the rules of the validators. A key that has
been given away never comes back.
-/
namespace StoredCarts

open DomainEvents (Cart)
open Requests Carts Runs Validation

/-- The rules that both validators have in common. -/
structure Valid (c : Cart) : Prop where
  title : isNullOrWhiteSpace (some c.title) = false
  price : 0 < c.price
  quantity : 0 < c.quantity

/-- The cart goes back to the creation that took its key in this step. -/
structure Created (c : Cart) (v : CartTable × Label × CartTable) : Prop where
  request : ∃ command, v.2.1.request = .create command ∧
    Writes v.2.1.env v.2.1.caller (.create command)
  key : c.id = v.1.next
  creator : c.createdBy = some (auditUser v.2.1.caller)
  created : c.created = v.2.1.env.now
  owner : c.ownerId = ""
  status : c.status = .active

theorem valid_newCart {env : Env} {caller : Caller} {command : CreateCartCommand}
    (h : validate createCartPipeline.validators command = []) (id : Int) :
    Valid (newCart env caller command id) := by
  simp only [createCartPipeline, validate_eq_nil_iff, List.mem_cons, List.not_mem_nil, or_false,
    forall_eq_or_imp, forall_eq, notEmpty, greaterThan, rule_eq_nil_iff, Bool.not_eq_true',
    decide_eq_true_eq, Int.cast_pos] at h
  exact ⟨h.1, h.2.1, h.2.2⟩

theorem valid_updatedCart {env : Env} {caller : Caller} {command : UpdateCartCommand}
    (h : validate updateCartPipeline.validators command = []) (cart : Cart) :
    Valid (updatedCart env caller command cart) := by
  simp only [updateCartPipeline, validate_eq_nil_iff, List.mem_cons, List.not_mem_nil, or_false,
    forall_eq_or_imp, forall_eq, notEmpty, greaterThan, greaterThanOrEqualTo, rule_eq_nil_iff,
    Bool.not_eq_true', decide_eq_true_eq] at h
  obtain ⟨-, -, htitle, -, hprice, hquantity⟩ := h
  have hpositive : 0 < command.quantity := by
    have hone : (1 : ℚ) ≤ (command.quantity : ℚ) := hquantity
    have hcast : (1 : Int) ≤ command.quantity := by exact_mod_cast hone
    omega
  unfold updatedCart
  simp only
  split
  · rename_i hsame
    rw [← hsame]
    exact ⟨htitle, hprice, hpositive⟩
  · exact ⟨htitle, hprice, hpositive⟩

theorem created_updatedCart {env : Env} {caller : Caller} {command : UpdateCartCommand}
    {cart : Cart} {v : CartTable × Label × CartTable} (h : Created cart v) :
    Created (updatedCart env caller command cart) v := by
  obtain ⟨request, key, creator, created, owner, status⟩ := h
  unfold updatedCart
  simp only
  split
  · exact ⟨request, key, creator, created, owner, status⟩
  · exact ⟨request, key, creator, created, owner, status⟩

/-- What a step leaves in the table was there, was updated in it, or has been created by it. -/
theorem step_stored {s t : CartTable} {l : Label} (h : step s l = some t) {c : Cart}
    (hc : c ∈ t.rows) :
    c ∈ s.rows ∨
      (∃ command, Admits updateCartPipeline l.env.users.authorizeAsync l.caller command ∧
        ∃ cart ∈ s.rows, c = updatedCart l.env l.caller command cart) ∨
      ∃ command, l.request = .create command ∧ Writes l.env l.caller (.create command) ∧
        c = newCart l.env l.caller command s.next := by
  obtain rfl : (serve l.env l.caller l.request s).2 = t := Option.some.inj h
  by_cases hwrites : Writes l.env l.caller l.request
  · rw [serve_writes s hwrites] at hc
    obtain ⟨caller, request, env⟩ := l
    cases request with
    | getAll => exact .inl hc
    | getById id => exact .inl hc
    | create command =>
      simp only [write, Table.mem_insert] at hc
      rcases hc with hc | rfl
      · exact .inl hc
      · exact .inr (.inr ⟨command, rfl, hwrites, rfl⟩)
    | update id command =>
      simp only [write, Table.mem_modify] at hc
      rcases hc with ⟨hc, -⟩ | ⟨cart, hcart, -, rfl⟩
      · exact .inl hc
      · exact .inr (.inl ⟨command, hwrites.1, cart, hcart, rfl⟩)
    | delete id => exact .inl ((Table.mem_delete ..).mp hc).1
    | deleteAll => simp [write] at hc
  · rw [serve_silent s hwrites] at hc
    exact .inl hc

/-- A stored cart is valid, and one of these steps has created it. -/
def Accounted (steps : List (CartTable × Label × CartTable)) (t : CartTable) : Prop :=
  ∀ c ∈ t.rows, Valid c ∧ ∃ v ∈ steps, Created c v

theorem accounted_step {steps : List (CartTable × Label × CartTable)} {s t : CartTable} {l : Label}
    (h : Accounted steps s) (hstep : step s l = some t) :
    Accounted (steps ++ [(s, l, t)]) t := by
  intro c hc
  rcases step_stored hstep hc with hc | ⟨command, hadmits, cart, hcart, rfl⟩ |
    ⟨command, hrequest, hwrites, rfl⟩
  · obtain ⟨hvalid, v, hv, hcreated⟩ := h c hc
    exact ⟨hvalid, v, List.mem_append_left _ hv, hcreated⟩
  · obtain ⟨-, v, hv, hcreated⟩ := h cart hcart
    exact ⟨valid_updatedCart hadmits.valid cart, v, List.mem_append_left _ hv,
      created_updatedCart hcreated⟩
  · refine ⟨valid_newCart hwrites.1.valid _, _, List.mem_append_right _ (List.mem_singleton_self _),
      ⟨command, hrequest, hwrites⟩, rfl, rfl, rfl, rfl, rfl⟩

/-- In every run from the empty table each stored cart satisfies the rules of the validators,
and goes back to the one admitted request that created it: its key, its creator, its time of
creation, its empty owner and its status are those that this request has given it. -/
theorem stored_accounted {tr : List Label} {t : CartTable}
    (hrun : run step Table.empty tr = some t) :
    ∀ c ∈ t.rows, Valid c ∧ ∃ v ∈ visits step Table.empty tr, Created c v := by
  induction tr using List.reverseRecOn generalizing t with
  | nil =>
    obtain rfl : Table.empty = t := by simpa using hrun
    simp [Table.empty]
  | append_singleton tr l ih =>
    obtain ⟨s, hs, hl⟩ := run_snoc.mp hrun
    rw [visits_snoc hs hl]
    exact accounted_step (ih hs) hl

/-! ## Keys -/

/-- A key that has been given and is not in the table. -/
def Spent (k : Int) (s : CartTable) : Prop := k < s.next ∧ ∀ c ∈ s.rows, c.id ≠ k

theorem spent_delete {s : CartTable} {k : Int} (h : (s.find k).isSome) : Spent k (s.delete k) := by
  obtain ⟨c, hfind⟩ := Option.isSome_iff_exists.mp h
  have hc : c ∈ s.rows := List.mem_of_find?_eq_some hfind
  have hk : c.id = k := by simpa using List.find?_some hfind
  refine ⟨?_, fun c' hc' => ((Table.mem_delete ..).mp hc').2⟩
  rw [← hk]
  exact s.bounded c hc

theorem next_le {s t : CartTable} {l : Label} (h : step s l = some t) : s.next ≤ t.next := by
  obtain rfl : (serve l.env l.caller l.request s).2 = t := Option.some.inj h
  by_cases hwrites : Writes l.env l.caller l.request
  · rw [serve_writes s hwrites]
    cases l.request with
    | create command =>
      show s.next ≤ s.next + 1
      omega
    | _ => exact le_rfl
  · rw [serve_silent s hwrites]

theorem step_spent {s t : CartTable} {l : Label} {k : Int} (h : Spent k s)
    (hstep : step s l = some t) : Spent k t := by
  refine ⟨h.1.trans_le (next_le hstep), fun c hc => ?_⟩
  rcases step_stored hstep hc with hc | ⟨command, -, cart, hcart, rfl⟩ | ⟨command, -, -, rfl⟩
  · exact h.2 c hc
  · rw [updatedCart_id]
    exact h.2 cart hcart
  · rw [newCart_id]
    exact h.1.ne'

/-- The administrator creates a cart. -/
def creation : Label := ⟨someAdministrator, .create ⟨none, 1, "Bag", 109, none⟩, someEnv⟩

theorem creation_accounted : ∃ t, run step Table.empty [creation] = some t ∧
    ∀ c ∈ t.rows, Valid c ∧ ∃ v ∈ visits step Table.empty [creation], Created c v :=
  ⟨_, rfl, stored_accounted rfl⟩

end StoredCarts
