import ShoppingProject.Carts
import ShoppingProject.Runs

/-!
# Whose carts a request touches

A cart belongs to the user whom the audit interceptor recorded as its creator.
No handler compares that user with the caller, so the carts of different users
stay apart exactly as long as the requests themselves keep away from them.
-/
namespace CartOwnership

open DomainEvents (Cart)
open Requests Carts Runs
open Validation (isNullOrWhiteSpace)
open Identity (CallerIsAdministrator)

/-- The caller created the cart. -/
def owns (caller : Caller) (c : Cart) : Bool :=
  match caller.bind Principal.id with
  | none => false
  | some id => c.createdBy == some id

/-- Every cart names its creator as its owner. -/
def Recorded (s : CartTable) : Prop := ∀ c ∈ s.rows, c.createdBy = some c.ownerId

/-- What one request should do: a caller who is not an administrator sees its own
carts and leaves all others as they are, owners are recorded, and an anonymous
caller changes nothing. -/
structure Separated (v : CartTable × Label × CartTable) : Prop where
  listing : ¬ CallerIsAdministrator v.2.1.env.users v.2.1.caller → v.2.1.request = .getAll →
    ∀ dtos, (serve v.2.1.env v.2.1.caller v.2.1.request v.1).1 = .ok (.carts dtos) →
      dtos.Perm ((v.1.rows.filter (owns v.2.1.caller)).map toDto)
  others : ¬ CallerIsAdministrator v.2.1.env.users v.2.1.caller →
    ∀ c ∈ v.1.rows, owns v.2.1.caller c = false → c ∈ v.2.2.rows
  owners : Recorded v.2.2
  anonymous : v.2.1.caller = none → v.2.2 = v.1

/-- The write leaves this cart alone. -/
def Spares (env : Env) (caller : Caller) (cart : Cart) : Request → Prop
  | .getAll => True
  | .getById _ => True
  | .create _ => True
  | .update _ c => cart.id = c.id → updatedCart env caller c cart = cart
  | .delete id => cart.id ≠ id
  | .deleteAll => False

/-- What a request must keep to, as nothing else does: no cart is created, and
a caller who is not an administrator lists the carts only when all are its own
and writes only where no cart of another user is. -/
structure Respects (s : CartTable) (l : Label) : Prop where
  reads : l.request = .getAll → l.caller = none ∨
    CallerIsAdministrator l.env.users l.caller ∨ ∀ c ∈ s.rows, owns l.caller c = true
  creates : ∀ c, l.request = .create c → ¬ Writes l.env l.caller l.request
  changes : Writes l.env l.caller l.request → ¬ CallerIsAdministrator l.env.users l.caller →
    ∀ c ∈ s.rows, owns l.caller c = false → Spares l.env l.caller c l.request

/-- A stored cart survives a write unchanged exactly if the write spares it. -/
theorem mem_write_iff {env : Env} {caller : Caller} {request : Request} {s : CartTable} {c : Cart}
    (hc : c ∈ s.rows) : c ∈ (write env caller request s).rows ↔ Spares env caller c request := by
  cases request with
  | getAll => simp [write, Spares, hc]
  | getById id => simp [write, Spares, hc]
  | create cmd => simp [write, Spares, hc]
  | update id cmd =>
    simp only [write, Table.mem_modify, Spares]
    constructor
    · rintro (⟨-, hne⟩ | ⟨b, hb, hid, heq⟩) hkey
      · exact absurd hkey hne
      · have hsame : c.id = b.id := hkey.trans hid.symm
        obtain rfl := s.key_injective hc hb hsame
        exact heq.symm
    · intro hspares
      by_cases hkey : c.id = cmd.id
      · exact .inr ⟨c, hc, hkey, (hspares hkey).symm⟩
      · exact .inl ⟨hc, hkey⟩
  | delete id => simp [write, Spares, hc]
  | deleteAll => simp [write, Spares]

/-- Only creating a cart can leave one whose owner is not recorded. -/
theorem recorded_write {env : Env} {caller : Caller} {request : Request} {s : CartTable}
    (hs : Recorded s) (hcreate : ∀ c, request ≠ .create c) :
    Recorded (write env caller request s) := by
  cases request with
  | getAll => exact hs
  | getById id => exact hs
  | create c => exact absurd rfl (hcreate c)
  | update id cmd =>
    intro c hc
    simp only [write, Table.mem_modify] at hc
    rcases hc with ⟨hc, -⟩ | ⟨b, hb, -, rfl⟩
    · exact hs c hc
    · have hb := hs b hb
      unfold updatedCart
      simp only
      split <;> exact hb
  | delete id => exact fun c hc => hs c ((Table.mem_delete ..).mp hc).1
  | deleteAll => simp [Recorded, write]

/-- A created cart records its creator and no owner. -/
theorem created_not_recorded {env : Env} {caller : Caller} {c : CreateCartCommand} {s : CartTable}
    (h : Writes env caller (.create c)) : ¬ Recorded (write env caller (.create c) s) := by
  obtain ⟨principal, id, rfl, hid, hwhite⟩ :=
    authorizationBehaviour_identified (by decide) h.1.command
  intro hrecorded
  have hnew := hrecorded (newCart env (some principal) c s.next)
    (by simp [write])
  have hempty : id = "" := by simpa [newCart, auditUser, hid] using hnew
  rw [hempty] at hwhite
  exact absurd hwhite (by decide)

/-- An anonymous request writes only if it deletes all carts. -/
theorem anonymous_writes {env : Env} {request : Request} (h : Writes env none request) :
    request = .deleteAll := by
  have hclosed : ∀ {γ : Type} {pipeline : Pipeline γ} {request : γ},
      pipeline.endpoint ≠ [] → ¬ Admits pipeline env.users.authorizeAsync none request := by
    intro γ pipeline request hne hadmits
    obtain ⟨principal, hsome⟩ := authorizeEndpoint_authenticated hne hadmits.endpoint
    simp at hsome
  cases request with
  | getAll => exact h.elim
  | getById id => exact h.elim
  | create c => exact absurd h.1 (hclosed (by decide))
  | update id c => exact absurd h.1 (hclosed (by decide))
  | delete id => exact absurd h.1 (hclosed (by decide))
  | deleteAll => rfl

/-- A caller with a token is shown all the carts. -/
theorem serve_getAll (env : Env) (principal : Principal) (s : CartTable) :
    (serve env (some principal) .getAll s).1 = .ok (.carts ((env.byTitle s.rows).map toDto)) := by
  have hadmitted : Admits getCartsPipeline env.users.authorizeAsync (some principal) () :=
    ⟨rfl, rfl, rfl⟩
  simp only [serve, send_admitted hadmitted, getCarts]

theorem serve_getAll_anonymous (env : Env) (s : CartTable) :
    (serve env none .getAll s).1 = .unauthorized := rfl

/-- All carts are shown to their creators only when there are no others. -/
theorem listed_own_iff (env : Env) (caller : Caller) (s : CartTable) :
    ((env.byTitle s.rows).map toDto).Perm ((s.rows.filter (owns caller)).map toDto) ↔
      ∀ c ∈ s.rows, owns caller c = true := by
  constructor
  · intro hperm
    have hlen := hperm.length_eq
    rw [List.length_map, List.length_map, (env.byTitle_perm s.rows).length_eq] at hlen
    exact List.length_filter_eq_length_iff.mp hlen.symm
  · intro hall
    rw [List.filter_eq_self.mpr hall]
    exact (env.byTitle_perm s.rows).map toDto

theorem listing_iff (env : Env) (caller : Caller) (request : Request) (s : CartTable) :
    (¬ CallerIsAdministrator env.users caller → request = .getAll →
      ∀ dtos, (serve env caller request s).1 = .ok (.carts dtos) →
        dtos.Perm ((s.rows.filter (owns caller)).map toDto)) ↔
    (request = .getAll → caller = none ∨ CallerIsAdministrator env.users caller ∨
      ∀ c ∈ s.rows, owns caller c = true) := by
  constructor
  · rintro h rfl
    cases caller with
    | none => exact .inl rfl
    | some principal =>
      by_cases hadmin : CallerIsAdministrator env.users (some principal)
      · exact .inr (.inl hadmin)
      · have hperm := h hadmin rfl _ (serve_getAll env principal s)
        exact .inr (.inr ((listed_own_iff env _ s).mp hperm))
  · rintro h hadmin rfl dtos hreply
    rcases h rfl with rfl | hadmin' | hall
    · simp [serve_getAll_anonymous] at hreply
    · exact absurd hadmin' hadmin
    · cases caller with
      | none => simp [serve_getAll_anonymous] at hreply
      | some principal =>
        rw [serve_getAll] at hreply
        obtain rfl : _ = dtos := by simpa using hreply
        exact (listed_own_iff env _ s).mpr hall

theorem others_iff (env : Env) (caller : Caller) (request : Request) (s : CartTable) :
    (∀ c ∈ s.rows, owns caller c = false → c ∈ (serve env caller request s).2.rows) ↔
    (Writes env caller request → ∀ c ∈ s.rows, owns caller c = false →
      Spares env caller c request) := by
  by_cases hw : Writes env caller request
  · rw [serve_writes s hw]
    constructor
    · exact fun h _ c hc hown => (mem_write_iff hc).mp (h c hc hown)
    · exact fun h c hc hown => (mem_write_iff hc).mpr (h hw c hc hown)
  · rw [serve_silent s hw]
    exact ⟨fun _ h => absurd h hw, fun _ c hc _ => hc⟩

theorem owners_iff (env : Env) (caller : Caller) (request : Request) {s : CartTable}
    (hs : Recorded s) :
    Recorded (serve env caller request s).2 ↔
      ∀ c, request = .create c → ¬ Writes env caller request := by
  by_cases hw : Writes env caller request
  · rw [serve_writes s hw]
    constructor
    · rintro h c rfl
      exact absurd h (created_not_recorded hw)
    · exact fun h => recorded_write hs fun c hc => h c hc hw
  · rw [serve_silent s hw]
    exact ⟨fun _ _ _ => hw, fun _ => hs⟩

/-- A request keeps users apart exactly if it respects them of itself. -/
theorem separated_iff {s t : CartTable} {l : Label} (hs : Recorded s) (h : step s l = some t) :
    Separated (s, l, t) ↔ Respects s l := by
  obtain rfl : (serve l.env l.caller l.request s).2 = t := Option.some.inj h
  constructor
  · intro hsep
    refine ⟨(listing_iff ..).mp hsep.listing, (owners_iff _ _ _ hs).mp hsep.owners, ?_⟩
    intro hw hadmin
    exact (others_iff ..).mp (hsep.others hadmin) hw
  · intro hres
    refine ⟨(listing_iff ..).mpr hres.reads, ?_, (owners_iff _ _ _ hs).mpr hres.creates, ?_⟩
    · intro hadmin
      exact (others_iff ..).mpr fun hw => hres.changes hw hadmin
    · intro hnone
      simp only at hnone ⊢
      by_cases hw : Writes l.env l.caller l.request
      · -- only deleting all is open to an anonymous caller, who owns no cart
        have hall : l.request = .deleteAll := anonymous_writes (hnone ▸ hw)
        have hadmin : ¬ CallerIsAdministrator l.env.users l.caller := by
          rintro ⟨principal, id, hsome, -⟩
          simp [hnone] at hsome
        have hempty : s.rows = [] := by
          refine List.eq_nil_iff_forall_not_mem.mpr fun c hc => ?_
          have hspares := hres.changes hw hadmin c hc (by simp [hnone, owns])
          rw [hall] at hspares
          exact hspares
        rw [serve_writes s hw, hall]
        exact Table.ext (by simp [write, hempty]) rfl
      · exact serve_silent s hw

/-- In a run the carts of different users stay apart exactly as long as every
request respects them; nothing in the code makes one do so. -/
theorem separated_iff_respects (tr : List Label) {s : CartTable} (hs : Recorded s) :
    (∀ v ∈ visits step s tr, Separated v) ↔ ∀ v ∈ visits step s tr, Respects v.1 v.2.1 := by
  refine visits_iff Recorded Separated Respects (fun s l t => separated_iff) ?_ hs tr
  intro s l t hs hres h
  exact ((separated_iff hs h).mpr hres).owners

def u1 : Caller := some ⟨some "u1", []⟩

def u2 : Caller := some ⟨some "u2", []⟩

/-- A cart of each of two users, with its owner. -/
def ownedTable : CartTable where
  rows := [⟨1, .active, 0, some "u1", 0, none, "Bag", 10, "", 1, "u1"⟩,
    ⟨2, .active, 0, some "u2", 0, none, "Hat", 20, "", 1, "u2"⟩]
  next := 3
  ordered := by simp
  bounded := by decide

/-- One user changes the own cart, the other deletes the own one, and the first lists what
is left. -/
def ownRequests : List Label :=
  [⟨u2, .update 2 ⟨2, "Cap", 15, "", 2⟩, someEnv⟩, ⟨u1, .delete 1, someEnv⟩,
    ⟨u2, .getAll, someEnv⟩]

theorem ownRequests_separated : Recorded ownedTable ∧
    ∀ v ∈ visits step ownedTable ownRequests, Separated v := by
  have hrecorded : Recorded ownedTable := by simp [Recorded, ownedTable]
  refine ⟨hrecorded, (separated_iff_respects _ hrecorded).mpr ?_⟩
  let updated := (serve someEnv u2 (.update 2 ⟨2, "Cap", 15, "", 2⟩) ownedTable).2
  let deleted := (serve someEnv u1 (.delete 1) updated).2
  have hupdate : ∀ c ∈ ownedTable.rows, owns u2 c = false → c.id ≠ 2 := by decide
  have hdelete : ∀ c ∈ updated.rows, owns u1 c = false → c.id ≠ 1 := by decide +kernel
  have hlist : ∀ c ∈ deleted.rows, owns u2 c = true := by decide +kernel
  simp only [ownRequests, visits, step, List.mem_cons, List.not_mem_nil, or_false,
    forall_eq_or_imp, forall_eq]
  refine ⟨⟨by simp, by simp, fun _ _ c hc hown hid => ?_⟩, ⟨by simp, by simp, fun _ _ => hdelete⟩,
    ⟨fun _ => .inr (.inr hlist), by simp, fun hw => hw.elim⟩⟩
  exact absurd hid (hupdate c hc hown)

/-- An administrator creates a cart, and an anonymous caller deletes all carts. -/
theorem anonymous_deletes_all : ¬ ∀ (tr : List Label) (s : CartTable), Recorded s →
    ∀ v ∈ visits step s tr, Separated v := by
  intro hall
  let create : Label :=
    ⟨some ⟨some "a1", [Roles.administrator]⟩, .create ⟨none, 1, "Bag", 10, none⟩, someEnv⟩
  let deleteAll : Label := ⟨none, .deleteAll, someEnv⟩
  let s₁ := (serve create.env create.caller create.request Table.empty).2
  let s₂ := (serve deleteAll.env deleteAll.caller deleteAll.request s₁).2
  have hsep := hall [create, deleteAll] Table.empty (by simp [Recorded, Table.empty])
    (s₁, deleteAll, s₂) (by simp [visits, step, s₁, s₂])
  have hsame : s₂.rows.length = s₁.rows.length :=
    congrArg (fun t : CartTable => t.rows.length) (hsep.anonymous rfl)
  exact absurd hsame (by decide +kernel)

end CartOwnership
