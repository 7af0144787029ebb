import ShoppingProject.Caches
import ShoppingProject.DomainEvents
import ShoppingProject.Numerals
import ShoppingProject.Runs
import ShoppingProject.Slots
import ShoppingProject.Tables

/-!
# Reading products through the caches

A read of one product or of the list looks into Redis, reads the table if it finds
nothing, and leaves what it read in Redis for ten minutes: the handler does so for one
product, `CachingBehaviour` for the list. A write changes the table and then evicts what
the output cache keeps under the tag of the products. Reads and writes take their steps
in any order. The collation of titles and the hash in the key of the list are parameters;
all earlier states of the table are kept beside it, to say what a read should return.
-/
namespace ProductCache

open Caches
open DomainEvents (DateTime Product ticksPerMinute)
open Runs

structure Platform where
  collation : String → String → Bool
  hash : String → String

structure RatingDto where
  rate : ℚ
  count : Int
  deriving DecidableEq

structure ProductDto where
  id : Int
  title : String
  price : ℚ
  description : String
  category : String
  image : String
  rating : Option RatingDto
  deriving DecidableEq

/-- `CreateMap<Product, ProductDto>()`: the status of a product is not shown. -/
def toDto (p : Product) : ProductDto :=
  ⟨p.id, p.title, p.price, p.description, p.category, p.image, some ⟨p.rating.rate, p.rating.count⟩⟩

inductive Query where
  | byId (id : Int) : Query
  | list : Query
  deriving DecidableEq, Repr

inductive Answer where
  | product (dto : ProductDto) : Answer
  | products (dtos : List ProductDto) : Answer
  | notFound : Answer
  deriving DecidableEq

/-- `GetProductByIdQueryValidator`; the query for the list has no rules. -/
def isValid : Query → Bool
  | .byId id => decide (0 < id)
  | .list => true

/-- The keys in Redis; the query for the list is serialized as an empty object. -/
def cacheKey (pf : Platform) : Query → String
  | .byId id => "product-" ++ toString id
  | .list => "products" ++ ":" ++ "GetProductsQuery" ++ ":" ++ pf.hash "{}"

def durationMinutes : Query → Int
  | .byId _ => 10
  | .list => 10

def findAsync (id : Int) (rows : List Product) : Option Product := rows.find? fun p => p.id == id

/-- The active products in the order of their titles; ties may stand in any order. -/
def IsListing (pf : Platform) (rows : List Product) (dtos : List ProductDto) : Prop :=
  dtos.Perm ((rows.filter fun p => p.status == .active).map toDto) ∧
    dtos.Pairwise fun a b => pf.collation a.title b.title = true

instance (pf : Platform) (rows : List Product) (dtos : List ProductDto) :
    Decidable (IsListing pf rows dtos) := inferInstanceAs (Decidable (_ ∧ _))

/-- The answer is what a read of the table itself gives. -/
def Shows (pf : Platform) (rows : List Product) : Query → Answer → Prop
  | .byId id, a => a = ((findAsync id rows).elim .notFound fun p => .product (toDto p))
  | .list, .products dtos => IsListing pf rows dtos
  | .list, _ => False

instance (pf : Platform) (rows : List Product) : (q : Query) → (a : Answer) →
    Decidable (Shows pf rows q a)
  | .byId _, _ => inferInstanceAs (Decidable (_ = _))
  | .list, .products _ => inferInstanceAs (Decidable (IsListing _ _ _))
  | .list, .product _ => inferInstanceAs (Decidable False)
  | .list, .notFound => inferInstanceAs (Decidable False)

/-- The two handlers; `listed` is how the database arranges the list. -/
def readTable (pf : Platform) (rows : List Product) (listed : List ProductDto) :
    Query → Option Answer
  | .byId id => some ((findAsync id rows).elim .notFound fun p => .product (toDto p))
  | .list => if IsListing pf rows listed then some (.products listed) else none

/-- `AddOutputCache()` is called without options and registers no policy. -/
def outputCachePolicies : List String := []

def policyName : Query → String
  | .byId _ => "ProductDetail"
  | .list => "ProductsList"

/-- An `[OutputCache]` attribute does nothing if its policy is not registered. -/
def isOutputCached (q : Query) : Bool := outputCachePolicies.contains (policyName q)

inductive Phase where
  | started : Phase
  | missed : Phase
  | loaded (answer : Answer) : Phase
  deriving DecidableEq

/-- A read in flight; `since` is the number of the table's state at its start. -/
structure Read where
  query : Query
  since : Nat
  phase : Phase
  deriving DecidableEq

structure Returned where
  query : Query
  since : Nat
  answer : Answer
  deriving DecidableEq

structure CreateProductCommand where
  title : Option String
  price : ℚ
  description : Option String
  category : Option String
  image : Option String

structure UpdateProductCommand where
  id : Int
  title : Option String
  price : ℚ
  description : Option String
  image : Option String
  category : Option String

inductive Command where
  | create : CreateProductCommand → Command
  | update : UpdateProductCommand → Command
  | delete (id : Int) : Command

/-- A write in flight: before its commit it holds what it will insert, or the row it has
read and what it made of it. -/
inductive Write where
  | creating : CreateProductCommand → Write
  | changing (read changed : Product) : Write
  | committed : Write

/-- `UpdateDetails` and `UpdatePrice`. -/
def updateDetails (c : UpdateProductCommand) (p : Product) : Product :=
  { p with
    title := c.title.getD p.title
    description := c.description.getD p.description
    category := c.category.getD p.category
    image := c.image.getD p.image
    price := c.price }

/-- The handler of a command up to its save; it throws if there is no such product. -/
def begin (rows : List Product) : Command → Option Write
  | .create c => some (.creating c)
  | .update c => (findAsync c.id rows).map fun p => .changing p (updateDetails c p)
  | .delete id => (findAsync id rows).map fun p => .changing p { p with status := .deleted }

def user (userId : Option String) : Option String := some (userId.getD "system")

def newProduct (utcNow : DateTime) (userId : Option String) (c : CreateProductCommand)
    (id : Int) : Product where
  id := id
  status := .active
  created := utcNow
  createdBy := user userId
  lastModified := 0
  lastModifiedBy := none
  title := c.title.getD ""
  price := c.price
  description := c.description.getD ""
  category := c.category.getD ""
  image := c.image.getD ""
  rating := ⟨0, 0⟩

/-- The column of a row after an `UPDATE` that lists the column only if it was changed. -/
def column [DecidableEq α] (read changed row : α) : α := if changed = read then row else changed

def updatedRow (utcNow : DateTime) (userId : Option String) (read changed row : Product) :
    Product :=
  { row with
    status := column read.status changed.status row.status
    lastModified := utcNow
    lastModifiedBy := user userId
    title := column read.title changed.title row.title
    price := column read.price changed.price row.price
    description := column read.description changed.description row.description
    category := column read.category changed.category row.category
    image := column read.image changed.image row.image }

/-- The table after the save of a write. -/
def commit (utcNow : DateTime) (userId : Option String) (w : Write) (products : Table Product.id) :
    Table Product.id :=
  match w with
  | .creating c => products.insert (newProduct utcNow userId c) fun _ => rfl
  | .changing read changed =>
    if changed = read then products
    else products.modify read.id (updatedRow utcNow userId read changed) fun _ => rfl
  | .committed => products

structure State where
  products : Table Product.id
  earlier : List (List Product)
  cache : Cache String Answer
  outputCache : Query → Option Answer
  now : DateTime
  reads : Slots Read
  writes : Slots Write
  returned : List Returned

def start (products : Table Product.id) (now : DateTime) : State :=
  ⟨products, [], empty, fun _ => none, now, Slots.idle, Slots.idle, []⟩

/-- The states of the table so far, the present one last. -/
def history (s : State) : List (List Product) := s.earlier ++ [s.products.rows]

/-- A read ends; an answer that is not an error may go into the output cache. -/
def respond (i : Nat) (r : Read) (a : Answer) (s : State) : State :=
  { s with
    reads := s.reads.put i none
    returned := s.returned ++ [⟨r.query, r.since, a⟩]
    outputCache := fun q =>
      if q = r.query ∧ isOutputCached q = true ∧ a ≠ .notFound then some a else s.outputCache q }

inductive Label where
  | beginRead (i : Nat) (query : Query) : Label
  /-- `GetAsync` of the cache service. -/
  | getCache (i : Nat) : Label
  | readTable (i : Nat) (listed : List ProductDto) : Label
  /-- `SetAsync` of the cache service, and the answer. -/
  | setCache (i : Nat) : Label
  | failRead (i : Nat) : Label
  | beginWrite (j : Nat) (command : Command) : Label
  | commit (j : Nat) (userId : Option String) : Label
  /-- `EvictByTagAsync`, and the answer. -/
  | evict (j : Nat) : Label
  | failWrite (j : Nat) : Label
  | elapse (ticks : Nat) : Label
  /-- Redis loses an entry before it expires. -/
  | lose (key : String) : Label

def step (pf : Platform) (s : State) : Label → Option State
  | .beginRead i query => match s.reads i with
    | some _ => none
    | none =>
      if isValid query then
        let r : Read := ⟨query, s.earlier.length, .started⟩
        match s.outputCache query with
        | some a => some (respond i r a s)
        | none => some { s with reads := s.reads.put i (some r) }
      else some s
  | .getCache i => match s.reads i with
    | some ⟨query, since, .started⟩ => match lookup s.now s.cache (cacheKey pf query) with
      | some a => some (respond i ⟨query, since, .started⟩ a s)
      | none => some { s with reads := s.reads.put i (some ⟨query, since, .missed⟩) }
    | _ => none
  | .readTable i listed => match s.reads i with
    | some ⟨query, since, .missed⟩ => match readTable pf s.products.rows listed query with
      | some .notFound => some (respond i ⟨query, since, .missed⟩ .notFound s)
      | some a => some { s with reads := s.reads.put i (some ⟨query, since, .loaded a⟩) }
      | none => none
    | _ => none
  | .setCache i => match s.reads i with
    | some ⟨query, since, .loaded a⟩ =>
      let expires := s.now + durationMinutes query * ticksPerMinute
      some (respond i ⟨query, since, .loaded a⟩ a
        { s with cache := set s.cache (cacheKey pf query) a expires })
    | _ => none
  | .failRead i => some { s with reads := s.reads.put i none }
  | .beginWrite j command => match s.writes j with
    | some _ => none
    | none => match begin s.products.rows command with
      | some w => some { s with writes := s.writes.put j (some w) }
      | none => some s
  | .commit j userId => match s.writes j with
    | none | some .committed => none
    | some w => some
      { s with
        products := commit s.now userId w s.products
        earlier := s.earlier ++ [s.products.rows]
        writes := s.writes.put j (some .committed) }
  | .evict j => match s.writes j with
    | some .committed => some
      { s with outputCache := fun _ => none, writes := s.writes.put j none }
    | _ => none
  | .failWrite j => some { s with writes := s.writes.put j none }
  | .elapse ticks => some { s with now := s.now + ticks }
  | .lose key => some { s with cache := remove s.cache key }

/-- A read that has returned showed a state of the table that was not older than its
start. -/
def Right (pf : Platform) (states : List (List Product)) (r : Returned) : Prop :=
  Since (fun rows => Shows pf rows r.query r.answer) states r.since

/-- What is kept under a key is an answer to every query with that key. -/
def Answers (pf : Platform) (rows : List Product) (key : String) (a : Answer) : Prop :=
  ∀ q, isValid q = true → cacheKey pf q = key → Shows pf rows q a

/-- What Redis would answer now is what the table says now. -/
def Coherent (pf : Platform) (s : State) : Prop :=
  Holds (Answers pf s.products.rows) s.now s.cache

/-- The steps that neither change the table nor put anything into Redis. -/
def Looks : Label → Prop
  | .commit _ _ | .setCache _ => False
  | _ => True

/-- Every read that has returned is right, and so is every read that looks into Redis
from here on. -/
def Trusted (pf : Platform) (s : State) : Prop :=
  ∀ more t, (∀ l ∈ more, Looks l) → run (step pf) s more = some t →
    ∀ r ∈ t.returned, Right pf (history t) r

/-- The condition on a step: a commit leaves every live entry an answer, and a read puts
into Redis only what the table still says. -/
def InStep (pf : Platform) (s : State) : Label → Prop
  | .commit j userId => ∀ w, s.writes j = some w →
    Holds (Answers pf (commit s.now userId w s.products).rows) s.now s.cache
  | .setCache i => ∀ r a, s.reads i = some r → r.phase = .loaded a →
    Shows pf s.products.rows r.query a
  | _ => True

/-- What a step can do, with the facts that its guards give. -/
inductive Effect (pf : Platform) (s : State) : Label → State → Prop where
  | refused (i : Nat) (query : Query) : Effect pf s (.beginRead i query) s
  | servedEarly (i : Nat) {query : Query} {a : Answer} (hfound : s.outputCache query = some a) :
    Effect pf s (.beginRead i query) (respond i ⟨query, s.earlier.length, .started⟩ a s)
  | begun (i : Nat) {query : Query} (hvalid : isValid query = true) :
    Effect pf s (.beginRead i query)
      { s with reads := s.reads.put i (some ⟨query, s.earlier.length, .started⟩) }
  | hit {i : Nat} {query : Query} {since : Nat} {a : Answer}
    (hread : s.reads i = some ⟨query, since, .started⟩)
    (hfound : lookup s.now s.cache (cacheKey pf query) = some a) :
    Effect pf s (.getCache i) (respond i ⟨query, since, .started⟩ a s)
  | missed {i : Nat} {query : Query} {since : Nat}
    (hread : s.reads i = some ⟨query, since, .started⟩)
    (hmissed : lookup s.now s.cache (cacheKey pf query) = none) :
    Effect pf s (.getCache i) { s with reads := s.reads.put i (some ⟨query, since, .missed⟩) }
  | absent {i : Nat} {query : Query} {since : Nat} (listed : List ProductDto)
    (hread : s.reads i = some ⟨query, since, .missed⟩)
    (hshows : Shows pf s.products.rows query .notFound) :
    Effect pf s (.readTable i listed) (respond i ⟨query, since, .missed⟩ .notFound s)
  | loaded {i : Nat} {query : Query} {since : Nat} (listed : List ProductDto) {a : Answer}
    (hread : s.reads i = some ⟨query, since, .missed⟩) (hshows : Shows pf s.products.rows query a)
    (hfound : a ≠ .notFound) :
    Effect pf s (.readTable i listed)
      { s with reads := s.reads.put i (some ⟨query, since, .loaded a⟩) }
  | stored {i : Nat} {query : Query} {since : Nat} {a : Answer} {expires : Int}
    (hread : s.reads i = some ⟨query, since, .loaded a⟩) (hlive : s.now < expires) :
    Effect pf s (.setCache i) (respond i ⟨query, since, .loaded a⟩ a
      { s with cache := set s.cache (cacheKey pf query) a expires })
  | readFailed (i : Nat) : Effect pf s (.failRead i) { s with reads := s.reads.put i none }
  | unhandled (j : Nat) (command : Command) : Effect pf s (.beginWrite j command) s
  | handled (j : Nat) {command : Command} {w : Write}
    (hbegin : begin s.products.rows command = some w) :
    Effect pf s (.beginWrite j command) { s with writes := s.writes.put j (some w) }
  | committed {j : Nat} (userId : Option String) {w : Write} (hwrite : s.writes j = some w) :
    Effect pf s (.commit j userId)
      { s with
        products := commit s.now userId w s.products
        earlier := s.earlier ++ [s.products.rows]
        writes := s.writes.put j (some .committed) }
  | evicted (j : Nat) :
    Effect pf s (.evict j) { s with outputCache := fun _ => none, writes := s.writes.put j none }
  | writeFailed (j : Nat) : Effect pf s (.failWrite j) { s with writes := s.writes.put j none }
  | elapsed (ticks : Nat) : Effect pf s (.elapse ticks) { s with now := s.now + ticks }
  | lost (key : String) : Effect pf s (.lose key) { s with cache := remove s.cache key }

theorem readTable_shows {pf : Platform} {rows : List Product} {listed : List ProductDto} {q : Query}
    {a : Answer} (h : readTable pf rows listed q = some a) : Shows pf rows q a := by
  cases q with
  | byId id =>
    cases h
    rfl
  | list =>
    simp only [readTable] at h
    split at h
    · cases h
      assumption
    · cases h

theorem expires_live (now : DateTime) (q : Query) :
    now < now + durationMinutes q * ticksPerMinute := by
  have hpositive : 0 < durationMinutes q * ticksPerMinute := by
    cases q <;> simp [durationMinutes, ticksPerMinute]
  exact Int.lt_add_of_pos_right now hpositive

theorem step_effect {pf : Platform} {s t : State} {l : Label} (h : step pf s l = some t) :
    Effect pf s l t := by
  cases l with
  | beginRead i query =>
    cases hread : s.reads i with
    | some r => simp [step, hread] at h
    | none =>
      cases hvalid : isValid query with
      | false =>
        simp only [step, hread, hvalid, Bool.false_eq_true, if_false, Option.some.injEq] at h
        exact h ▸ .refused i query
      | true =>
        cases hfound : s.outputCache query with
        | some a =>
          simp only [step, hread, hvalid, if_true, hfound, Option.some.injEq] at h
          exact h ▸ .servedEarly i hfound
        | none =>
          simp only [step, hread, hvalid, if_true, hfound, Option.some.injEq] at h
          exact h ▸ .begun i hvalid
  | getCache i =>
    cases hread : s.reads i with
    | none => simp [step, hread] at h
    | some r =>
      obtain ⟨query, since, phase⟩ := r
      cases phase with
      | missed | loaded => simp [step, hread] at h
      | started =>
        cases hfound : lookup s.now s.cache (cacheKey pf query) with
        | some a =>
          simp only [step, hread, hfound, Option.some.injEq] at h
          exact h ▸ .hit hread hfound
        | none =>
          simp only [step, hread, hfound, Option.some.injEq] at h
          exact h ▸ .missed hread hfound
  | readTable i listed =>
    cases hread : s.reads i with
    | none => simp [step, hread] at h
    | some r =>
      obtain ⟨query, since, phase⟩ := r
      cases phase with
      | started | loaded => simp [step, hread] at h
      | missed =>
        cases hanswer : readTable pf s.products.rows listed query with
        | none => simp [step, hread, hanswer] at h
        | some a =>
          have hshows := readTable_shows hanswer
          cases a with
          | notFound =>
            simp only [step, hread, hanswer, Option.some.injEq] at h
            exact h ▸ .absent listed hread hshows
          | product | products =>
            simp only [step, hread, hanswer, Option.some.injEq] at h
            exact h ▸ .loaded listed hread hshows (by simp)
  | setCache i =>
    cases hread : s.reads i with
    | none => simp [step, hread] at h
    | some r =>
      obtain ⟨query, since, phase⟩ := r
      cases phase with
      | started | missed => simp [step, hread] at h
      | loaded a =>
        simp only [step, hread, Option.some.injEq] at h
        exact h ▸ .stored hread (expires_live s.now query)
  | failRead i => exact Option.some.inj h ▸ .readFailed i
  | beginWrite j command =>
    cases hwrite : s.writes j with
    | some w => simp [step, hwrite] at h
    | none =>
      cases hbegin : begin s.products.rows command with
      | none =>
        simp only [step, hwrite, hbegin, Option.some.injEq] at h
        exact h ▸ .unhandled j command
      | some w =>
        simp only [step, hwrite, hbegin, Option.some.injEq] at h
        exact h ▸ .handled j hbegin
  | commit j userId =>
    cases hwrite : s.writes j with
    | none => simp [step, hwrite] at h
    | some w =>
      cases w with
      | committed => simp [step, hwrite] at h
      | creating | changing =>
        simp only [step, hwrite, Option.some.injEq] at h
        exact h ▸ .committed userId hwrite
  | evict j =>
    cases hwrite : s.writes j with
    | none => simp [step, hwrite] at h
    | some w =>
      cases w with
      | creating | changing => simp [step, hwrite] at h
      | committed =>
        simp only [step, hwrite, Option.some.injEq] at h
        exact h ▸ .evicted j
  | failWrite j => exact Option.some.inj h ▸ .writeFailed j
  | elapse ticks => exact Option.some.inj h ▸ .elapsed ticks
  | lose key => exact Option.some.inj h ▸ .lost key

/-- Queries that the validators admit have keys of their own. -/
theorem cacheKey_injective (pf : Platform) {q q' : Query} (hq : isValid q = true)
    (hq' : isValid q' = true) (h : cacheKey pf q = cacheKey pf q') : q = q' := by
  have hseventh := congrArg (fun s => s.toList[7]?) h
  cases q with
  | byId id =>
    cases q' with
    | byId id' =>
      have hid := (String.append_right_inj _).mp h
      obtain ⟨m, rfl⟩ := Int.eq_ofNat_of_zero_le (Int.le_of_lt (of_decide_eq_true hq))
      obtain ⟨n, rfl⟩ := Int.eq_ofNat_of_zero_le (Int.le_of_lt (of_decide_eq_true hq'))
      rw [Numerals.repr_injective hid]
    | list => simp [cacheKey] at hseventh
  | list =>
    cases q' with
    | byId id' => simp [cacheKey] at hseventh
    | list => rfl

theorem answers_cacheKey_iff (pf : Platform) (rows : List Product) {q : Query}
    (hq : isValid q = true)
    (a : Answer) : Answers pf rows (cacheKey pf q) a ↔ Shows pf rows q a := by
  constructor
  · intro h
    exact h q hq rfl
  · intro h q' hq' hkey
    rw [cacheKey_injective pf hq' hq hkey]
    exact h

/-- A read in flight began with the table as it is in the history, and has loaded an
answer that the table has given since. -/
structure Begun (pf : Platform) (states : List (List Product)) (r : Read) : Prop where
  valid : isValid r.query = true
  since_lt : r.since < states.length
  loaded : ∀ a, r.phase = .loaded a → Right pf states ⟨r.query, r.since, a⟩

/-- What every step keeps, as long as the cache is coherent. -/
structure Sound (pf : Platform) (s : State) : Prop where
  returned : ∀ r ∈ s.returned, Right pf (history s) r
  reads : s.reads.All (Begun pf (history s))
  uncached : ∀ q, s.outputCache q = none

theorem Right.append {pf : Platform} {states : List (List Product)} {r : Returned}
    (h : Right pf states r) (rows : List Product) : Right pf (states ++ [rows]) r :=
  Since.append h [rows]

theorem Begun.append {pf : Platform} {states : List (List Product)} {r : Read}
    (h : Begun pf states r) (rows : List Product) : Begun pf (states ++ [rows]) r where
  valid := h.valid
  since_lt := by
    have hlt := h.since_lt
    rw [List.length_append]
    omega
  loaded := fun a ha => (h.loaded a ha).append rows

/-- What the table says now is right for every read in flight. -/
theorem Begun.right {pf : Platform} {s : State} {r : Read} (h : Begun pf (history s) r) {a : Answer}
    (ha : Shows pf s.products.rows r.query a) : Right pf (history s) ⟨r.query, r.since, a⟩ := by
  have hlt := h.since_lt
  simp only [history, List.length_append, List.length_cons, List.length_nil] at hlt
  exact since_last ha (Nat.le_of_lt_succ hlt)

theorem start_sound (pf : Platform) (products : Table Product.id) (now : DateTime) :
    Sound pf (start products now) where
  returned := by simp [start]
  reads := Slots.all_idle _
  uncached := fun _ => rfl

theorem start_coherent (pf : Platform) (products : Table Product.id) (now : DateTime) :
    Coherent pf (start products now) := holds_empty _ _

/-- No endpoint has a registered policy. -/
theorem not_outputCached (q : Query) : isOutputCached q = false := by
  cases q <;> rfl

theorem Sound.respond {pf : Platform} {s : State} (h : Sound pf s) (i : Nat) {r : Read} {a : Answer}
    (hr : Right pf (history s) ⟨r.query, r.since, a⟩) : Sound pf (respond i r a s) where
  returned := by
    intro r' hr'
    simp only [ProductCache.respond, List.mem_append, List.mem_singleton] at hr'
    rcases hr' with hr' | rfl
    · exact h.returned r' hr'
    · exact hr
  reads := h.reads.finish i
  uncached := by
    intro q
    simp [ProductCache.respond, not_outputCached, h.uncached q]

theorem Sound.put {pf : Platform} {s : State} (h : Sound pf s) (i : Nat) {r : Read}
    (hr : Begun pf (history s) r) : Sound pf { s with reads := s.reads.put i (some r) } where
  returned := h.returned
  reads := h.reads.start i hr
  uncached := h.uncached

/-- From a coherent cache every step keeps what has been returned right. -/
theorem step_sound {pf : Platform} {s t : State} {l : Label} (h : Sound pf s) (hc : Coherent pf s)
    (hstep : step pf s l = some t) : Sound pf t := by
  cases step_effect hstep with
  | refused i query => exact h
  | servedEarly i hfound =>
    rw [h.uncached] at hfound
    cases hfound
  | begun i hvalid => exact h.put i ⟨hvalid, by simp [history], by simp⟩
  | hit hread hfound =>
    have hbegun := h.reads _ _ hread
    exact h.respond _ (hbegun.right (hc _ _ hfound _ hbegun.valid rfl))
  | missed hread hmissed =>
    have hbegun := h.reads _ _ hread
    exact h.put _ ⟨hbegun.valid, hbegun.since_lt, by simp⟩
  | absent listed hread hshows => exact h.respond _ ((h.reads _ _ hread).right hshows)
  | loaded listed hread hshows hfound =>
    have hbegun := h.reads _ _ hread
    refine h.put _ ⟨hbegun.valid, hbegun.since_lt, ?_⟩
    intro a ha
    cases ha
    exact hbegun.right hshows
  | @stored i query since a expires hread hlive =>
    have hset : Sound pf { s with cache := set s.cache (cacheKey pf query) a expires } :=
      ⟨h.returned, h.reads, h.uncached⟩
    exact hset.respond i ((h.reads _ _ hread).loaded a rfl)
  | readFailed i => exact ⟨h.returned, h.reads.finish i, h.uncached⟩
  | committed userId hwrite =>
    exact ⟨fun r hr => (h.returned r hr).append _, h.reads.mono fun _ hr => hr.append _, h.uncached⟩
  | evicted j => exact ⟨h.returned, h.reads, fun _ => rfl⟩
  | unhandled j command => exact h
  | handled j hbegin => exact ⟨h.returned, h.reads, h.uncached⟩
  | writeFailed j => exact ⟨h.returned, h.reads, h.uncached⟩
  | elapsed ticks => exact ⟨h.returned, h.reads, h.uncached⟩
  | lost key => exact ⟨h.returned, h.reads, h.uncached⟩

/-- A step leaves a coherent cache coherent exactly if it meets its condition. -/
theorem step_coherent_iff {pf : Platform} {s t : State} {l : Label} (h : Sound pf s)
    (hc : Coherent pf s) (hstep : step pf s l = some t) : Coherent pf t ↔ InStep pf s l := by
  cases step_effect hstep with
  | refused | servedEarly | begun | hit | missed | absent | loaded => exact iff_of_true hc trivial
  | @stored i query since a expires hread hlive =>
    have hvalid := (h.reads _ _ hread).valid
    have hset : Coherent pf { s with cache := set s.cache (cacheKey pf query) a expires } ↔
        Shows pf s.products.rows query a := by
      rw [← answers_cacheKey_iff pf _ hvalid]
      exact holds_set_iff hc _ _ hlive
    refine hset.trans ⟨?_, ?_⟩
    · intro hshows r b hr hb
      rw [hread] at hr
      cases hr
      cases hb
      exact hshows
    · intro hcondition
      exact hcondition _ a hread rfl
  | readFailed | unhandled | handled | evicted | writeFailed => exact iff_of_true hc trivial
  | @committed j userId w hwrite =>
    constructor
    · intro hafter w' hw'
      rw [hwrite] at hw'
      cases hw'
      exact hafter
    · intro hcondition
      exact hcondition w hwrite
  | elapsed ticks =>
    have hlater : s.now ≤ s.now + (ticks : Int) := Int.le_add_of_nonneg_right (Int.natCast_nonneg _)
    exact iff_of_true (hc.elapse hlater) trivial
  | lost key => exact iff_of_true (Holds.remove hc key) trivial

/-- The history does not know of this answer. -/
theorem not_right_of_last {pf : Platform} {states : List (List Product)} {rows : List Product}
    {r : Returned} (hsince : states.length ≤ r.since) (h : ¬ Shows pf rows r.query r.answer) :
    ¬ Right pf (states ++ [rows]) r := by
  rintro ⟨k, rows', hk, hrows', hshows⟩
  have hlt := (List.getElem?_eq_some_iff.mp hrows').1
  simp only [List.length_append, List.length_cons, List.length_nil] at hlt
  obtain rfl : k = states.length := by omega
  rw [List.getElem?_concat_length, Option.some.injEq] at hrows'
  subst hrows'
  exact h hshows

/-- A read that begins now and finds its answer in Redis. -/
theorem run_hit {pf : Platform} {s : State} (h : Sound pf s) (i : Nat) {q : Query} {a : Answer}
    (hvalid : isValid q = true) (hfound : lookup s.now s.cache (cacheKey pf q) = some a) :
    ∃ t, run (step pf) s [.failRead i, .beginRead i q, .getCache i] = some t ∧
      history t = history s ∧ ⟨q, s.earlier.length, a⟩ ∈ t.returned := by
  let r : Read := ⟨q, s.earlier.length, .started⟩
  let u : State := { s with reads := s.reads.put i none }
  let v : State := { s with reads := (s.reads.put i none).put i (some r) }
  have hfail : step pf s (.failRead i) = some u := rfl
  have hbegin : step pf u (.beginRead i q) = some v := by
    simp [step, u, v, r, hvalid, h.uncached]
  have hget : step pf v (.getCache i) = some (respond i r a v) := by
    simp [step, v, r, hfound]
  refine ⟨respond i r a v, by simp [hfail, hbegin, hget], rfl, ?_⟩
  simp [respond, r]

/-- Reads can be trusted exactly if the cache is coherent. -/
theorem trusted_iff {pf : Platform} {s : State} (h : Sound pf s) :
    Trusted pf s ↔ Coherent pf s := by
  constructor
  · intro htrusted key a hfound q hvalid hkey
    subst hkey
    by_contra hwrong
    obtain ⟨t, ht, hhistory, hr⟩ := run_hit h 0 hvalid hfound
    have hright := htrusted _ t (by simp [Looks]) ht _ hr
    rw [hhistory] at hright
    exact not_right_of_last (Nat.le_refl _) hwrong hright
  · intro hc more t hlooks ht
    have hkept : Sound pf t ∧ Coherent pf t := by
      refine run_keeps (fun s => Sound pf s ∧ Coherent pf s) Looks ?_ ⟨h, hc⟩ hlooks ht
      intro s l t hs hl hstep
      refine ⟨step_sound hs.1 hs.2 hstep, (step_coherent_iff hs.1 hs.2 hstep).mpr ?_⟩
      cases l <;> trivial
    exact hkept.1.returned

/-- After every step of a run reads can be trusted exactly if all its steps meet their
conditions. -/
theorem trusted_throughout_iff (pf : Platform) (products : Table Product.id) (now : DateTime)
    (tr : List Label) :
    (∀ v ∈ visits (step pf) (start products now) tr, Trusted pf v.2.2) ↔
      ∀ v ∈ visits (step pf) (start products now) tr, InStep pf v.1 v.2.1 := by
  refine visits_iff (fun s => Sound pf s ∧ Coherent pf s) (fun v => Trusted pf v.2.2) (InStep pf)
    ?_ ?_ ⟨start_sound pf products now, start_coherent pf products now⟩ tr
  · intro s l t hs hstep
    rw [trusted_iff (step_sound hs.1 hs.2 hstep)]
    exact step_coherent_iff hs.1 hs.2 hstep
  · intro s l t hs hC hstep
    exact ⟨step_sound hs.1 hs.2 hstep, (step_coherent_iff hs.1 hs.2 hstep).mpr hC⟩

def phone : Table Product.id :=
  Table.empty.insert (newProduct 0 none ⟨some "phone", 100, none, none, none⟩) fun _ => rfl

def cheaperPhone : Product :=
  { newProduct 0 none ⟨some "phone", 80, none, none, none⟩ 1 with lastModifiedBy := some "system" }

def samplePlatform : Platform := ⟨fun _ _ => true, fun _ => ""⟩

/-- A phone is read for 100, becomes cheaper, and is read again. -/
def repricedRun : List Label :=
  [.beginRead 0 (.byId 1), .getCache 0, .readTable 0 [], .setCache 0,
    .beginWrite 0 (.update ⟨1, none, 80, none, none, none⟩), .commit 0 none, .evict 0,
    .beginRead 0 (.byId 1), .getCache 0]

/-- The second read returns the old price. -/
theorem old_price_returned : ¬ ∀ (pf : Platform) (products : Table Product.id) (now : DateTime)
    (tr : List Label) (s : State), run (step pf) (start products now) tr = some s →
      ∀ r ∈ s.returned, Right pf (history s) r := by
  intro hall
  obtain ⟨s, hs, hhistory, hr⟩ : ∃ s,
      run (step samplePlatform) (start phone 0) repricedRun = some s ∧
      history s = [phone.rows] ++ [[cheaperPhone]] ∧
      ⟨.byId 1, 1, .product ⟨1, "phone", 100, "", "", "", some ⟨0, 0⟩⟩⟩ ∈ s.returned := by
    refine ⟨_, rfl, by decide, by decide⟩
  have hright := hall _ _ _ _ s hs _ hr
  rw [hhistory] at hright
  exact not_right_of_last (Nat.le_refl _) (by decide) hright

end ProductCache
