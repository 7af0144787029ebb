import ShoppingProject.CartSync

/-!
# Which cart an update changes

`PUT /carts/{id}` names a cart in its route and again in its body. The controller sends
the body as it came, so that the handler looks up the cart of the body.
-/
namespace CartUpdates

open DomainEvents (Cart)
open Requests Carts
open CartSync (bindUpdateCart)

/-- The cart has the values of the body. -/
def Holds (c : UpdateCartCommand) (cart : Cart) : Prop :=
  cart.title = c.title ∧ cart.price = c.price ∧ cart.image = c.image ∧ cart.quantity = c.quantity

instance (c : UpdateCartCommand) (cart : Cart) : Decidable (Holds c cart) :=
  inferInstanceAs (Decidable (_ ∧ _))

/-- `CartsController.Update`; `none` if the body is not one of the command. -/
def update (env : Env) (caller : Caller) (id : Int) (body : Json) (s : CartTable) :
    Option Response :=
  (bindUpdateCart body).map fun command => serve env caller (.update id command) s

/-- The cart of the route has the values of the body, and all other carts are as before. -/
structure Framed (id : Int) (c : UpdateCartCommand) (s t : CartTable) : Prop where
  updated : ∃ cart ∈ t.rows, cart.id = id ∧ Holds c cart
  others : ∀ cart : Cart, cart.id ≠ id → (cart ∈ t.rows ↔ cart ∈ s.rows)

/-- The cart with this key has the values of the body already. -/
def Present (id : Int) (c : UpdateCartCommand) (s : CartTable) : Prop :=
  ∃ cart ∈ s.rows, cart.id = id ∧ Holds c cart

theorem updatedCart_holds (env : Env) (caller : Caller) (c : UpdateCartCommand) (cart : Cart) :
    Holds c (updatedCart env caller c cart) := by
  unfold updatedCart
  simp only
  split
  · rename_i hsame
    rw [← hsame]
    exact ⟨rfl, rfl, rfl, rfl⟩
  · exact ⟨rfl, rfl, rfl, rfl⟩

theorem updatedCart_eq_iff (env : Env) (caller : Caller) (c : UpdateCartCommand) (cart : Cart) :
    updatedCart env caller c cart = cart ↔ Holds c cart := by
  constructor
  · intro heq
    rw [← heq]
    exact updatedCart_holds env caller c cart
  · rintro ⟨htitle, hprice, himage, hquantity⟩
    apply if_pos
    rw [← htitle, ← hprice, ← himage, ← hquantity]

/-- A successful update has changed the cart of the body, which was there. -/
theorem serve_update_ok {env : Env} {caller : Caller} {id : Int} {c : UpdateCartCommand}
    {s t : CartTable} (h : serve env caller (.update id c) s = (.ok .done, t)) :
    (∃ cart ∈ s.rows, cart.id = c.id) ∧
      t = s.modify c.id (updatedCart env caller c) (updatedCart_id env caller c) := by
  obtain ⟨hadmits, hok⟩ := send_ok (congrArg Prod.fst h)
  have hhandled : updateCart env caller c s = (.ok .done, t) := by
    rw [← h]
    exact (send_admitted hadmits _ s).symm
  unfold updateCart at hhandled
  cases hfind : s.find c.id with
  | none => simp [hfind] at hhandled
  | some cart =>
    simp only [hfind] at hhandled
    split at hhandled
    · refine ⟨⟨cart, List.mem_of_find?_eq_some hfind, ?_⟩, (congrArg Prod.snd hhandled).symm⟩
      simpa using List.find?_some hfind
    · cases congrArg Prod.fst hhandled

/-- With the key of the route in the body the update stays where it should. -/
theorem modify_framed {env : Env} {caller : Caller} {c : UpdateCartCommand} {s : CartTable}
    (h : ∃ cart ∈ s.rows, cart.id = c.id) :
    Framed c.id c s (s.modify c.id (updatedCart env caller c) (updatedCart_id env caller c)) where
  updated := by
    obtain ⟨cart, hcart, hid⟩ := h
    refine ⟨updatedCart env caller c cart, ?_, ?_, updatedCart_holds env caller c cart⟩
    · exact (Table.mem_modify ..).mpr (.inr ⟨cart, hcart, hid, rfl⟩)
    · rw [updatedCart_id, hid]
  others := by
    intro cart hne
    rw [Table.mem_modify]
    constructor
    · rintro (⟨hcart, -⟩ | ⟨b, -, hid, rfl⟩)
      · exact hcart
      · rw [updatedCart_id] at hne
        exact absurd hid hne
    · intro hcart
      exact .inl ⟨hcart, hne⟩

/-- An update of a cart that has the values already changes nothing. -/
theorem modify_present {env : Env} {caller : Caller} {c : UpdateCartCommand} {s : CartTable}
    (h : Present c.id c s) :
    s.modify c.id (updatedCart env caller c) (updatedCart_id env caller c) = s := by
  obtain ⟨cart, hcart, hid, hholds⟩ := h
  refine Table.ext ?_ rfl
  refine (List.map_congr_left fun b hb => ?_).trans (List.map_id s.rows)
  by_cases hkey : b.id = c.id
  · obtain rfl := s.key_injective hb hcart (hkey.trans hid.symm)
    rw [if_pos hkey]
    exact (updatedCart_eq_iff env caller c b).mpr hholds
  · exact if_neg hkey

/-- A successful update changes the cart of the route and no other exactly if the body
has the key of the route, or else both carts had the values of the body before. -/
theorem update_framed_iff {env : Env} {caller : Caller} {id : Int} {body : Json}
    {c : UpdateCartCommand} {s t : CartTable} (hbind : bindUpdateCart body = some c)
    (h : update env caller id body s = some (.ok .done, t)) :
    Framed id c s t ↔ c.id = id ∨ (Present c.id c s ∧ Present id c s) := by
  have hserve : serve env caller (.update id c) s = (.ok .done, t) := by
    simpa [update, hbind] using h
  obtain ⟨hthere, rfl⟩ := serve_update_ok hserve
  by_cases hid : c.id = id
  · subst id
    exact iff_of_true (modify_framed hthere) (.inl rfl)
  · simp only [hid, false_or]
    constructor
    · intro hframed
      obtain ⟨cart, hcart, hkey⟩ := hthere
      have hupdated : updatedCart env caller c cart ∈ s.rows := by
        apply (hframed.others _ _).mp
        · exact (Table.mem_modify ..).mpr (.inr ⟨cart, hcart, hkey, rfl⟩)
        · rw [updatedCart_id, hkey]
          exact hid
      refine ⟨⟨_, hupdated, ?_, updatedCart_holds env caller c cart⟩, ?_⟩
      · rw [updatedCart_id, hkey]
      · obtain ⟨other, hother, hroute, hholds⟩ := hframed.updated
        rcases (Table.mem_modify ..).mp hother with ⟨hmem, -⟩ | ⟨b, -, hb, rfl⟩
        · exact ⟨other, hmem, hroute, hholds⟩
        · rw [updatedCart_id, hb] at hroute
          exact absurd hroute hid
    · rintro ⟨hpresent, hroute⟩
      rw [modify_present hpresent]
      exact ⟨hroute, fun _ _ => Iff.rfl⟩

/-- Two carts, of which the second is the one to update. -/
def twoCarts : CartTable :=
  (Table.empty.insert (newCart someEnv someAdministrator ⟨none, 1, "First", 5, none⟩)
    (newCart_id _ _ _)).insert (newCart someEnv someAdministrator ⟨none, 1, "Second", 7, none⟩)
    (newCart_id _ _ _)

def someBody (id : Int) : Json :=
  .obj [("id", .num id), ("title", .str "New"), ("price", .num 9), ("image", .str ""),
    ("quantity", .num 2)]

theorem own_cart_framed : ∃ c t, bindUpdateCart (someBody 2) = some c ∧
    update someEnv someAdministrator 2 (someBody 2) twoCarts = some (.ok .done, t) ∧
    Framed 2 c twoCarts t := by
  have hbind : ∃ c, bindUpdateCart (someBody 2) = some c ∧ c.id = 2 := ⟨_, rfl, rfl⟩
  have hupdate : ∃ t, update someEnv someAdministrator 2 (someBody 2) twoCarts =
      some (.ok .done, t) := ⟨_, rfl⟩
  obtain ⟨c, hc, hid⟩ := hbind
  obtain ⟨t, ht⟩ := hupdate
  exact ⟨c, t, hc, ht, (update_framed_iff hc ht).mpr (.inl hid)⟩

/-- The route names cart 2 and the body cart 1: cart 1 is changed. -/
theorem other_cart_updated : ¬ ∀ (env : Env) (caller : Caller) (id : Int) (body : Json)
    (c : UpdateCartCommand) (s t : CartTable), bindUpdateCart body = some c →
      update env caller id body s = some (.ok .done, t) → Framed id c s t := by
  intro hall
  have hframed := hall someEnv someAdministrator 2 (someBody 1) ⟨1, "New", 9, "", 2⟩ twoCarts
    (twoCarts.modify 1 (updatedCart someEnv someAdministrator ⟨1, "New", 9, "", 2⟩)
      (updatedCart_id _ _ _)) rfl rfl
  obtain ⟨cart, hcart, hid, htitle, -⟩ := hframed.updated
  have hkept : ∀ cart ∈ (twoCarts.modify 1 (updatedCart someEnv someAdministrator
      ⟨1, "New", 9, "", 2⟩) (updatedCart_id _ _ _)).rows, cart.id = 2 → cart.title = "Second" := by
    decide
  have hsecond := (hkept cart hcart hid).symm.trans htitle
  exact absurd hsecond (by decide)

end CartUpdates
