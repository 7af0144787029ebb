import ShoppingProject.PageOffsets

/-!
# Products that have been deleted

A deletion only sets the status of the row. The list of all products leaves such rows
out, but is answered from Redis for ten minutes; a product by its id, the pages by title
and the search take the rows as they are.
-/
namespace DeletedProducts

open Caches
open DomainEvents (Product DateTime)
open DynamicQueries Lexing
open PageOffsets (Request)
open Paging
open ProductCache hiding State Label step start InStep Sound Effect step_effect start_sound
  step_sound
open ProductPages (DynamicLinq matching matching_sublist sorting)
open Runs

variable (pf : Platform) {A : Alphabet} (T : EntityType A) (linq : DynamicLinq)

/-- A page that was answered, and the number of the table's state that it was read from. -/
structure Shown where
  since : Nat
  dtos : List ProductDto

structure State where
  shop : ProductCache.State
  pages : List Shown

def start (products : Table Product.id) (now : DateTime) : State :=
  ⟨ProductCache.start products now, []⟩

inductive Label where
  /-- A command, a product by its id, or the list of all products. -/
  | cached (l : ProductCache.Label) : Label
  /-- `answer` is how the database arranges the products. -/
  | paged (pageNumber pageSize : Int32) (answer : List Product) : Label
  | search (q : DynamicQuery) (index size : Int32) (answer : List Product) : Label

def addPage (s : State) (dtos : List ProductDto) : State :=
  { s with pages := s.pages ++ [⟨s.shop.earlier.length, dtos⟩] }

/-- The database may answer the query for the pages by title like this. -/
def Titled (rows answer : List Product) : Prop :=
  answer.Perm rows ∧ answer.Pairwise fun a b => pf.collation a.title b.title = true

instance (rows answer : List Product) : Decidable (Titled pf rows answer) :=
  inferInstanceAs (Decidable (_ ∧ _))

/-- The database may answer the search like this. -/
def Found (q : DynamicQuery) (rows answer : List Product) : Prop :=
  ∃ selected ∈ matching T linq q rows, ∃ o ∈ sorting linq q, Answer o selected answer

instance (q : DynamicQuery) (rows answer : List Product) : Decidable (Found T linq q rows answer) :=
  match hselected : matching T linq q rows, ho : sorting linq q with
  | none, _ => .isFalse (by simp [Found, hselected])
  | some _, none => .isFalse (by simp [Found, ho])
  | some selected, some o => decidable_of_iff (Answer o selected answer) (by
      simp [Found, hselected, ho])

def step (s : State) : Label → Option State
  | .cached l => (ProductCache.step pf s.shop l).map fun shop => { s with shop }
  | .paged pageNumber pageSize answer =>
    if Titled pf s.shop.products.rows answer then
      ((Request.products pageNumber pageSize).items (answer.map toDto)).map (addPage s)
    else none
  | .search q index size answer =>
    if Found T linq q s.shop.products.rows answer then
      ((Request.search index size).items answer).map fun rows => addPage s (rows.map toDto)
    else none

/-- The product has the status of a deleted one. -/
def Gone (rows : List Product) (id : Int) : Prop := ∃ p ∈ rows, p.id = id ∧ p.status = .deleted

instance (rows : List Product) (id : Int) : Decidable (Gone rows id) :=
  inferInstanceAs (Decidable (∃ p ∈ rows, _))

def GoneAt (states : List (List Product)) (since : Nat) (id : Int) : Prop :=
  ∃ rows ∈ states[since]?, Gone rows id

def ids : ProductCache.Answer → List Int
  | .product dto => [dto.id]
  | .products dtos => dtos.map ProductDto.id
  | .notFound => []

/-- No query that began after the deletion of a product has returned it. -/
structure Hidden (s : State) : Prop where
  returned : ∀ r ∈ s.shop.returned, ∀ id ∈ ids r.answer, ¬ GoneAt (history s.shop) r.since id
  pages : ∀ p ∈ s.pages, ∀ dto ∈ p.dtos, ¬ GoneAt (history s.shop) p.since dto.id

/-- The rows of a page; its offset is computed on `int`. -/
def window (r : Request) (answer : List α) : List α :=
  (answer.drop r.offset.toNatClampNeg).take r.size.toNatClampNeg

/-- A query does not come upon a product that was deleted before it began: not in Redis,
not by its id, and not on its page. -/
def InStep (s : State) : Label → Prop
  | .cached (.getCache i) => ∀ query since a, s.shop.reads i = some ⟨query, since, .started⟩ →
    lookup s.shop.now s.shop.cache (cacheKey pf query) = some a →
    ∀ id ∈ ids a, ¬ GoneAt (history s.shop) since id
  | .cached (.setCache i) => ∀ id since a, s.shop.reads i = some ⟨.byId id, since, .loaded a⟩ →
    ¬ GoneAt (history s.shop) since id
  | .paged pageNumber pageSize answer =>
    ∀ p ∈ window (.products pageNumber pageSize) answer, p.status ≠ .deleted
  | .search _ index size answer =>
    ∀ p ∈ window (.search index size) answer, p.status ≠ .deleted
  | .cached _ => True

/-! ## Deleted rows stay deleted -/

theorem gone_iff (products : Table Product.id) {p : Product} (hp : p ∈ products.rows) :
    Gone products.rows p.id ↔ p.status = .deleted := by
  constructor
  · rintro ⟨p', hp', hid, hstatus⟩
    rwa [← products.key_injective hp' hp hid]
  · intro hstatus
    exact ⟨p, hp, rfl, hstatus⟩

/-- A write in flight: its row is there, a deleted row was read as such only if it is
deleted, and the status has been left alone or set to deleted. -/
structure Follows (rows : List Product) (read changed : Product) : Prop where
  present : ∃ p ∈ rows, p.id = read.id
  gone : read.status = .deleted → Gone rows read.id
  status : changed.status = read.status ∨ changed.status = .deleted

/-- The table after a save: what was deleted is deleted, and so is the row of a deletion. -/
structure Kept (w : Write) (rows after : List Product) : Prop where
  gone : ∀ id, Gone rows id → Gone after id
  present : ∀ id, (∃ p ∈ rows, p.id = id) → ∃ p ∈ after, p.id = id
  deletes : ∀ read changed, w = .changing read changed → changed.status = .deleted →
    Gone after read.id

theorem commit_kept (utcNow : DateTime) (userId : Option String) (w : Write)
    (products : Table Product.id)
    (hw : ∀ read changed, w = .changing read changed → Follows products.rows read changed) :
    Kept w products.rows (commit utcNow userId w products).rows := by
  cases w with
  | creating c =>
    have hmem : ∀ p ∈ products.rows, p ∈ (commit utcNow userId (.creating c) products).rows :=
      fun p hp => List.mem_append_left _ hp
    refine ⟨?_, ?_, by simp⟩
    · rintro id ⟨p, hp, hgone⟩
      exact ⟨p, hmem p hp, hgone⟩
    · rintro id ⟨p, hp, hid⟩
      exact ⟨p, hmem p hp, hid⟩
  | committed => exact ⟨fun _ h => h, fun _ h => h, by simp⟩
  | changing read changed =>
    obtain ⟨⟨row, hrow, hid⟩, hgone, hstatus⟩ := hw read changed rfl
    by_cases hsame : changed = read
    · have heq : commit utcNow userId (.changing read changed) products = products := by
        simp [commit, hsame]
      rw [heq]
      refine ⟨fun _ h => h, fun _ h => h, ?_⟩
      rintro read' changed' hw' hdeleted
      cases hw'
      exact hgone (hsame ▸ hdeleted)
    · let f := updatedRow utcNow userId read changed
      have heq : commit utcNow userId (.changing read changed) products =
          products.modify read.id f fun _ => rfl := by simp [commit, hsame, f]
      rw [heq]
      have hkeeps : ∀ p : Product, p.status = .deleted → (f p).status = .deleted := by
        intro p hp
        by_cases hsame : changed.status = read.status
        · simpa [f, updatedRow, column, hsame] using hp
        · simpa [f, updatedRow, column, hsame] using hstatus.resolve_left hsame
      have hmem : ∀ p ∈ products.rows, ∃ p' ∈ (products.modify read.id f fun _ => rfl).rows,
          p'.id = p.id ∧ (p.status = .deleted → p'.status = .deleted) := by
        intro p hp
        by_cases hpid : p.id = read.id
        · exact ⟨f p, (Table.mem_modify ..).mpr (.inr ⟨p, hp, hpid, rfl⟩), rfl, hkeeps p⟩
        · exact ⟨p, (Table.mem_modify ..).mpr (.inl ⟨hp, hpid⟩), rfl, id⟩
      refine ⟨?_, ?_, ?_⟩
      · rintro id ⟨p, hp, rfl, hdeleted⟩
        obtain ⟨p', hp', hid', hdeleted'⟩ := hmem p hp
        exact ⟨p', hp', hid', hdeleted' hdeleted⟩
      · rintro id ⟨p, hp, rfl⟩
        obtain ⟨p', hp', hid', -⟩ := hmem p hp
        exact ⟨p', hp', hid'⟩
      · rintro read' changed' hw' hdeleted
        cases hw'
        refine ⟨f row, (Table.mem_modify ..).mpr (.inr ⟨row, hrow, hid, rfl⟩), hid, ?_⟩
        by_cases hstatus' : changed.status = read.status
        · obtain ⟨p, hp, hpid, hpdeleted⟩ := hgone (hstatus' ▸ hdeleted)
          obtain rfl := products.key_injective hp hrow (hpid.trans hid.symm)
          exact hkeeps p hpdeleted
        · simpa [f, updatedRow, column, hstatus'] using hdeleted

/-- The writes that a command begins follow the table. -/
theorem begin_follows {products : Table Product.id} {command : Command} {w : Write}
    (h : begin products.rows command = some w) {read changed : Product}
    (hw : w = .changing read changed) : Follows products.rows read changed := by
  have hfound : ∀ id p, findAsync id products.rows = some p → p ∈ products.rows := fun id p hp =>
    List.mem_of_find?_eq_some hp
  cases command with
  | create c =>
    cases h
    cases hw
  | update c =>
    obtain ⟨p, hp, rfl⟩ := Option.map_eq_some_iff.mp h
    cases hw
    have hin := hfound _ _ hp
    exact ⟨⟨read, hin, rfl⟩, fun hd => ⟨read, hin, rfl, hd⟩, .inl rfl⟩
  | delete id =>
    obtain ⟨p, hp, rfl⟩ := Option.map_eq_some_iff.mp h
    cases hw
    have hin := hfound _ _ hp
    exact ⟨⟨read, hin, rfl⟩, fun hd => ⟨read, hin, rfl, hd⟩, .inr rfl⟩

/-! ## What a query returns -/

/-- What a read has loaded: the product that was asked for, or a list without products
that were deleted before it began. -/
def Loaded (states : List (List Product)) (since : Nat) : Query → ProductCache.Answer → Prop
  | .byId id, a => ids a = [id]
  | .list, a => ∀ id ∈ ids a, ¬ GoneAt states since id

structure Begun (states : List (List Product)) (r : Read) : Prop where
  since_lt : r.since < states.length
  loaded : ∀ a, r.phase = .loaded a → Loaded states r.since r.query a

structure Tracked (s : State) : Prop where
  writes : s.shop.writes.All fun w =>
    ∀ read changed, w = .changing read changed → Follows s.shop.products.rows read changed
  earlier : ∀ rows ∈ history s.shop, ∀ id, Gone rows id → Gone s.shop.products.rows id
  reads : s.shop.reads.All (Begun (history s.shop))
  uncached : ∀ q, s.shop.outputCache q = none
  returned : ∀ r ∈ s.shop.returned, r.since < (history s.shop).length
  pages : ∀ p ∈ s.pages, p.since < (history s.shop).length

theorem start_tracked (products : Table Product.id) (now : DateTime) :
    Tracked (start products now) where
  writes := Slots.all_idle _
  earlier := by
    intro rows hrows id hgone
    obtain rfl : rows = products.rows := by simpa [history, start, ProductCache.start] using hrows
    exact hgone
  reads := Slots.all_idle _
  uncached := fun _ => rfl
  returned := by simp [start, ProductCache.start]
  pages := by simp [start]

theorem start_hidden (products : Table Product.id) (now : DateTime) :
    Hidden (start products now) where
  returned := by simp [start, ProductCache.start]
  pages := by simp [start]

/-- More states do not change an earlier one. -/
theorem goneAt_append {states : List (List Product)} (rows : List Product) {since : Nat} {id : Int}
    (h : since < states.length) : GoneAt (states ++ [rows]) since id ↔ GoneAt states since id := by
  rw [GoneAt, GoneAt, List.getElem?_append_left h]

theorem goneAt_now (s : ProductCache.State) (id : Int) :
    GoneAt (history s) s.earlier.length id ↔ Gone s.products.rows id := by
  simp [GoneAt, history]

theorem Tracked.gone_of_goneAt {s : State} (h : Tracked s) {since : Nat} {id : Int}
    (hgone : GoneAt (history s.shop) since id) : Gone s.shop.products.rows id := by
  obtain ⟨rows, hrows, hgone⟩ := hgone
  exact h.earlier rows (List.mem_of_getElem? hrows) id hgone

/-- What the table answers to a read in flight. -/
theorem Tracked.loaded {s : State} (h : Tracked s) {q : Query} {a : ProductCache.Answer}
    (since : Nat) (hshows : Shows pf s.shop.products.rows q a) (hfound : a ≠ .notFound) :
    Loaded (history s.shop) since q a := by
  cases q with
  | byId id =>
    obtain rfl := hshows
    cases hp : findAsync id s.shop.products.rows with
    | none =>
      rw [hp] at hfound
      exact absurd rfl hfound
    | some p =>
      have hid : p.id = id := by simpa using List.find?_some hp
      simp [Loaded, ids, toDto, hid]
  | list =>
    cases a with
    | product | notFound => exact hshows.elim
    | products dtos =>
      intro id hid hgone
      obtain ⟨dto, hdto, rfl⟩ := List.mem_map.mp hid
      obtain ⟨p, hp, rfl⟩ := List.mem_map.mp (hshows.1.mem_iff.mp hdto)
      obtain ⟨hprows, hactive⟩ := List.mem_filter.mp hp
      have hdeleted : p.status = .deleted :=
        (gone_iff s.shop.products hprows).mp (h.gone_of_goneAt hgone)
      rw [hdeleted] at hactive
      cases hactive

/-- A read ends with an answer. -/
def respondWith (i : Nat) (r : Read) (a : ProductCache.Answer) (s : State) : State :=
  { s with shop := respond i r a s.shop }

theorem Tracked.respond {s : State} (h : Tracked s) (i : Nat) {r : Read} (a : ProductCache.Answer)
    (hsince : r.since < (history s.shop).length) : Tracked (respondWith i r a s) where
  writes := h.writes
  earlier := h.earlier
  reads := h.reads.finish i
  uncached := by
    intro q
    simp [respondWith, ProductCache.respond, not_outputCached, h.uncached q]
  returned := by
    intro r' hr'
    simp only [respondWith, ProductCache.respond, List.mem_append, List.mem_singleton] at hr'
    rcases hr' with hr' | rfl
    · exact h.returned r' hr'
    · exact hsince
  pages := h.pages

theorem hidden_respond_iff {s : State} (h : Hidden s) (i : Nat) (r : Read)
    (a : ProductCache.Answer) : Hidden (respondWith i r a s) ↔
      ∀ id ∈ ids a, ¬ GoneAt (history s.shop) r.since id := by
  constructor
  · intro hidden
    exact hidden.returned ⟨r.query, r.since, a⟩ (by simp [respondWith, respond])
  · intro ha
    refine ⟨fun r' hr' => ?_, h.pages⟩
    simp only [respondWith, respond, List.mem_append, List.mem_singleton] at hr'
    rcases hr' with hr' | rfl
    · exact h.returned r' hr'
    · exact ha

/-- A change of the shop that neither answers a query nor touches the table. -/
theorem Tracked.same {s : State} (h : Tracked s) (shop : ProductCache.State)
    (hproducts : shop.products = s.shop.products) (hearlier : shop.earlier = s.shop.earlier)
    (hreturned : shop.returned = s.shop.returned)
    (hwrites : shop.writes.All fun w =>
      ∀ read changed, w = .changing read changed → Follows shop.products.rows read changed)
    (hreads : shop.reads.All (Begun (history s.shop)))
    (huncached : ∀ q, shop.outputCache q = none) :
    Tracked { s with shop } := by
  have hhistory : history shop = history s.shop := by rw [history, history, hproducts, hearlier]
  constructor
  · exact hwrites
  · rw [hhistory]
    change ∀ rows ∈ history s.shop, ∀ id, Gone rows id → Gone shop.products.rows id
    rw [hproducts]
    exact h.earlier
  · rw [hhistory]
    exact hreads
  · exact huncached
  · rw [hhistory]
    change ∀ r ∈ shop.returned, r.since < (history s.shop).length
    rw [hreturned]
    exact h.returned
  · rw [hhistory]
    exact h.pages

theorem Hidden.same {s : State} (h : Hidden s) {shop : ProductCache.State}
    (hhistory : history shop = history s.shop) (hreturned : shop.returned = s.shop.returned) :
    Hidden { s with shop } := by
  refine ⟨?_, ?_⟩
  · rw [hhistory]
    change ∀ r ∈ shop.returned, ∀ id ∈ ids r.answer, ¬ GoneAt (history s.shop) r.since id
    rw [hreturned]
    exact h.returned
  · rw [hhistory]
    exact h.pages

/-- The save of a write. -/
def committed (j : Nat) (userId : Option String) (w : Write) (s : State) : State :=
  { s with shop :=
    { s.shop with
      products := commit s.shop.now userId w s.shop.products
      earlier := s.shop.earlier ++ [s.shop.products.rows]
      writes := s.shop.writes.put j (some .committed) } }

theorem Tracked.kept {s : State} (h : Tracked s) {j : Nat} {w : Write}
    (hw : s.shop.writes j = some w) (userId : Option String) :
    Kept w s.shop.products.rows (commit s.shop.now userId w s.shop.products).rows :=
  commit_kept _ _ _ _ (h.writes j w hw)

theorem history_committed (j : Nat) (userId : Option String) (w : Write) (s : State) :
    history (committed j userId w s).shop =
      history s.shop ++ [(commit s.shop.now userId w s.shop.products).rows] := rfl

theorem Tracked.commit {s : State} (h : Tracked s) {j : Nat} {w : Write}
    (hw : s.shop.writes j = some w) (userId : Option String) :
    Tracked (committed j userId w s) := by
  have hkept := h.kept hw userId
  have hlonger : (history s.shop).length < (history (committed j userId w s).shop).length := by
    simp [history_committed]
  constructor
  · refine Slots.all_put ?_ ?_
    · rintro w' hw' read changed rfl
      cases hw'
    · intro i w' _ hw' read changed heq
      obtain ⟨hpresent, hgone, hstatus⟩ := h.writes i w' hw' read changed heq
      exact ⟨hkept.present _ hpresent, fun hd => hkept.gone _ (hgone hd), hstatus⟩
  · intro rows hrows id hgone
    rw [history_committed, List.mem_append] at hrows
    rcases hrows with hrows | hrows
    · exact hkept.gone id (h.earlier rows hrows id hgone)
    · obtain rfl := List.mem_singleton.mp hrows
      exact hgone
  · intro i r hr
    obtain ⟨hsince, hloaded⟩ := h.reads i r hr
    refine ⟨hsince.trans hlonger, fun a ha => ?_⟩
    have hla := hloaded a ha
    rw [history_committed]
    cases hq : r.query with
    | byId id =>
      rw [hq] at hla
      exact hla
    | list =>
      rw [hq] at hla
      intro id hid
      rw [goneAt_append _ hsince]
      exact hla id hid
  · exact h.uncached
  · exact fun r hr => (h.returned r hr).trans hlonger
  · exact fun p hp => (h.pages p hp).trans hlonger

theorem Hidden.commit {s : State} (h : Hidden s) (htracked : Tracked s) (j : Nat)
    (userId : Option String) (w : Write) : Hidden (committed j userId w s) := by
  constructor
  · intro r hr id hid
    rw [history_committed, goneAt_append _ (htracked.returned r hr)]
    exact h.returned r hr id hid
  · intro p hp dto hdto
    rw [history_committed, goneAt_append _ (htracked.pages p hp)]
    exact h.pages p hp dto hdto

theorem Tracked.addPage {s : State} (h : Tracked s) (dtos : List ProductDto) :
    Tracked (addPage s dtos) where
  writes := h.writes
  earlier := h.earlier
  reads := h.reads
  uncached := h.uncached
  returned := h.returned
  pages := by
    intro p hp
    rcases List.mem_append.mp hp with hp | hp
    · exact h.pages p hp
    · obtain rfl := List.mem_singleton.mp hp
      simp [DeletedProducts.addPage, history]

/-- A page shows no deleted product exactly if its rows are not deleted. -/
theorem hidden_addPage_iff {s : State} (h : Hidden s) {rows : List Product}
    (hrows : ∀ p ∈ rows, p ∈ s.shop.products.rows) :
    Hidden (addPage s (rows.map toDto)) ↔ ∀ p ∈ rows, p.status ≠ .deleted := by
  have hpage : (∀ dto ∈ rows.map toDto, ¬ GoneAt (history s.shop) s.shop.earlier.length dto.id) ↔
      ∀ p ∈ rows, p.status ≠ .deleted := by
    rw [List.forall_mem_map]
    refine forall₂_congr fun p hp => ?_
    rw [goneAt_now]
    exact not_congr (gone_iff s.shop.products (hrows p hp))
  rw [← hpage]
  constructor
  · intro hidden
    exact hidden.pages ⟨s.shop.earlier.length, rows.map toDto⟩ (by simp [addPage])
  · intro hdtos
    refine ⟨h.returned, fun p hp => ?_⟩
    rcases List.mem_append.mp hp with hp | hp
    · exact h.pages p hp
    · obtain rfl := List.mem_singleton.mp hp
      exact hdtos

theorem window_map (f : α → β) (r : Request) (answer : List α) :
    window r (answer.map f) = (window r answer).map f := by
  simp [window, List.map_drop, List.map_take]

theorem mem_of_window {r : Request} {answer : List Product} {p : Product}
    (h : p ∈ window r answer) : p ∈ answer :=
  List.mem_of_mem_drop (List.mem_of_mem_take h)

/-- A step keeps track, and hides what is deleted exactly if it meets its condition. -/
def Faithful (s : State) (l : Label) (t : State) : Prop :=
  Tracked t ∧ (Hidden s → (Hidden t ↔ InStep pf s l))

/-- Steps that neither answer a query nor save a write. -/
theorem Tracked.silent {s : State} (h : Tracked s) {shop : ProductCache.State} {l : Label}
    (hproducts : shop.products = s.shop.products) (hearlier : shop.earlier = s.shop.earlier)
    (hreturned : shop.returned = s.shop.returned)
    (hwrites : shop.writes.All fun w =>
      ∀ read changed, w = .changing read changed → Follows shop.products.rows read changed)
    (hreads : shop.reads.All (Begun (history s.shop)))
    (huncached : ∀ q, shop.outputCache q = none) (hin : InStep pf s l) :
    Faithful pf s l { s with shop } := by
  have hhistory : history shop = history s.shop := by rw [history, history, hproducts, hearlier]
  exact ⟨h.same shop hproducts hearlier hreturned hwrites hreads huncached,
    fun hidden => iff_of_true (hidden.same hhistory hreturned) hin⟩

/-- A read that finds an entry answers with it. -/
theorem Tracked.hit {s : State} {i : Nat} {query : Query} {since : Nat} {a : ProductCache.Answer}
    (h : Tracked s) (hread : s.shop.reads i = some ⟨query, since, .started⟩)
    (hfound : lookup s.shop.now s.shop.cache (cacheKey pf query) = some a) :
    Faithful pf s (.cached (.getCache i)) (respondWith i ⟨query, since, .started⟩ a s) := by
  refine ⟨h.respond i a (h.reads _ _ hread).since_lt,
    fun hidden => (hidden_respond_iff hidden _ _ _).trans ⟨?_, ?_⟩⟩
  · intro hids query' since' a' hread' hfound'
    obtain ⟨rfl, rfl⟩ : query = query' ∧ since = since' := by simpa [hread] using hread'
    rw [hfound] at hfound'
    obtain rfl := Option.some.inj hfound'
    exact hids
  · intro hcondition
    exact hcondition query since a hread hfound

/-- A read that has asked the table leaves the answer in Redis and gives it. -/
theorem Tracked.stored {s : State} {i : Nat} {query : Query} {since : Nat}
    {a : ProductCache.Answer} (h : Tracked s)
    (hread : s.shop.reads i = some ⟨query, since, .loaded a⟩) (expires : Int) :
    Faithful pf s (.cached (.setCache i)) (respondWith i ⟨query, since, .loaded a⟩ a
      { s with shop :=
        { s.shop with cache := set s.shop.cache (cacheKey pf query) a expires } }) := by
  let cached : State :=
    { s with shop := { s.shop with cache := set s.shop.cache (cacheKey pf query) a expires } }
  have hcached : Tracked cached := h.same _ rfl rfl rfl h.writes h.reads h.uncached
  obtain ⟨hsince, hloaded⟩ := h.reads _ _ hread
  have hanswer := hloaded a rfl
  refine ⟨hcached.respond i a hsince, fun hidden => ?_⟩
  have hhidden : Hidden cached := hidden.same rfl rfl
  refine (hidden_respond_iff hhidden i _ a).trans ⟨?_, ?_⟩
  · rintro hids id since' a' hread'
    obtain ⟨rfl, rfl, rfl⟩ : query = .byId id ∧ since = since' ∧ a = a' := by
      simpa [hread] using hread'
    have hid : id ∈ ids a := by
      rw [show ids a = [id] from hanswer]
      exact List.mem_singleton_self id
    exact hids id hid
  · intro hcondition
    cases query with
    | list => exact hanswer
    | byId id =>
      intro id' hid'
      rw [show ids a = [id] from hanswer] at hid'
      obtain rfl := List.mem_singleton.mp hid'
      exact hcondition id' since a hread

theorem step_shop {s : State} {shop : ProductCache.State} {l : ProductCache.Label} (h : Tracked s)
    (hstep : ProductCache.step pf s.shop l = some shop) :
    Faithful pf s (.cached l) { s with shop } := by
  cases ProductCache.step_effect hstep with
  | refused i query => exact h.silent pf rfl rfl rfl h.writes h.reads h.uncached trivial
  | servedEarly i hfound =>
    rw [h.uncached] at hfound
    cases hfound
  | @begun i query hvalid =>
    have hreads := h.reads.start i (a := ⟨query, s.shop.earlier.length, .started⟩)
      ⟨by simp [history], by simp⟩
    exact h.silent pf rfl rfl rfl h.writes hreads h.uncached trivial
  | hit hread hfound => exact h.hit pf hread hfound
  | @missed i query since hread hmissed =>
    refine h.silent pf rfl rfl rfl h.writes
      (h.reads.start i ⟨(h.reads _ _ hread).since_lt, by simp⟩) h.uncached ?_
    intro query' since' a' hread' hfound'
    obtain ⟨rfl, rfl⟩ : query = query' ∧ since = since' := by simpa [hread] using hread'
    rw [hmissed] at hfound'
    cases hfound'
  | @absent i query since listed hread hshows =>
    refine ⟨h.respond i .notFound (h.reads _ _ hread).since_lt,
      fun hidden => iff_of_true ?_ trivial⟩
    exact (hidden_respond_iff hidden i _ .notFound).mpr (by simp [ids])
  | @loaded i query since listed a hread hshows hfound =>
    have hbegun : Begun (history s.shop) ⟨query, since, .loaded a⟩ := by
      refine ⟨(h.reads _ _ hread).since_lt, fun a' ha' => ?_⟩
      cases ha'
      exact h.loaded pf since hshows hfound
    exact h.silent pf rfl rfl rfl h.writes (h.reads.start i hbegun) h.uncached trivial
  | stored hread hlive => exact h.stored pf hread _
  | readFailed i => exact h.silent pf rfl rfl rfl h.writes (h.reads.finish i) h.uncached trivial
  | unhandled j command => exact h.silent pf rfl rfl rfl h.writes h.reads h.uncached trivial
  | handled j hbegin =>
    have hwrites := h.writes.start j fun read changed => begin_follows hbegin
    exact h.silent pf rfl rfl rfl hwrites h.reads h.uncached trivial
  | @committed j userId w hwrite =>
    exact ⟨h.commit hwrite userId, fun hidden => iff_of_true (hidden.commit h j userId _) trivial⟩
  | evicted j => exact h.silent pf rfl rfl rfl (h.writes.finish j) h.reads (fun _ => rfl) trivial
  | writeFailed j => exact h.silent pf rfl rfl rfl (h.writes.finish j) h.reads h.uncached trivial
  | elapsed ticks => exact h.silent pf rfl rfl rfl h.writes h.reads h.uncached trivial
  | lost key => exact h.silent pf rfl rfl rfl h.writes h.reads h.uncached trivial

theorem step_hidden_iff {s t : State} {l : Label} (h : Tracked s)
    (hstep : step pf T linq s l = some t) : Faithful pf s l t := by
  cases l with
  | cached l =>
    obtain ⟨shop, hshop, rfl⟩ := Option.map_eq_some_iff.mp hstep
    exact step_shop pf h hshop
  | paged pageNumber pageSize answer =>
    obtain ⟨htitled, hpage⟩ := Option.ite_none_right_eq_some.mp hstep
    obtain ⟨dtos, hdtos, rfl⟩ := Option.map_eq_some_iff.mp hpage
    have hwindow : dtos = (window (.products pageNumber pageSize) answer).map toDto := by
      rw [← window_map]
      exact Request.items_window hdtos
    refine ⟨h.addPage _, fun hidden => ?_⟩
    rw [hwindow]
    exact hidden_addPage_iff hidden fun p hp => htitled.1.mem_iff.mp (mem_of_window hp)
  | search q index size answer =>
    obtain ⟨⟨selected, hselected, o, -, hanswer⟩, hpage⟩ := Option.ite_none_right_eq_some.mp hstep
    obtain ⟨rows, hrows, rfl⟩ := Option.map_eq_some_iff.mp hpage
    have hwindow : rows = window (.search index size) answer := Request.items_window hrows
    refine ⟨h.addPage _, fun hidden => ?_⟩
    rw [hwindow]
    exact hidden_addPage_iff hidden fun p hp =>
      (matching_sublist T linq hselected).subset (hanswer.perm.mem_iff.mp (mem_of_window hp))

/-- A step leaves what is deleted deleted, and the save of a deletion deletes its row. -/
structure Lasting (s : State) (l : Label) (t : State) : Prop where
  gone : ∀ id, Gone s.shop.products.rows id → Gone t.shop.products.rows id
  deleted : ∀ j userId read, l = .cached (.commit j userId) →
    s.shop.writes j = some (.changing read { read with status := .deleted }) →
    Gone t.shop.products.rows read.id

theorem step_lasting {s t : State} {l : Label} (h : Tracked s)
    (hstep : step pf T linq s l = some t) : Lasting s l t := by
  cases l with
  | paged pageNumber pageSize answer =>
    obtain ⟨-, hpage⟩ := Option.ite_none_right_eq_some.mp hstep
    obtain ⟨dtos, -, rfl⟩ := Option.map_eq_some_iff.mp hpage
    exact ⟨fun _ hgone => hgone, by simp⟩
  | search q index size answer =>
    obtain ⟨-, hpage⟩ := Option.ite_none_right_eq_some.mp hstep
    obtain ⟨p, -, rfl⟩ := Option.map_eq_some_iff.mp hpage
    exact ⟨fun _ hgone => hgone, by simp⟩
  | cached l =>
    obtain ⟨shop, hshop, rfl⟩ := Option.map_eq_some_iff.mp hstep
    cases ProductCache.step_effect hshop with
    | @committed j userId w hwrite =>
      have hkept := h.kept hwrite userId
      refine ⟨hkept.gone, fun j' userId' read hl hw => ?_⟩
      cases hl
      rw [hwrite] at hw
      exact hkept.deletes _ _ (Option.some.inj hw) rfl
    | _ => exact ⟨fun _ hgone => hgone, by simp⟩

/-- Deleted products stay deleted; and after every step no query has returned a product
that was deleted before it began, exactly if all the steps meet their conditions. -/
theorem hidden_throughout_iff (products : Table Product.id) (now : DateTime) (tr : List Label) :
    (∀ v ∈ visits (step pf T linq) (start products now) tr, Lasting v.1 v.2.1 v.2.2) ∧
      ((∀ v ∈ visits (step pf T linq) (start products now) tr, Hidden v.2.2) ↔
        ∀ v ∈ visits (step pf T linq) (start products now) tr, InStep pf v.1 v.2.1) := by
  refine ⟨fun v hv => ?_, ?_⟩
  · obtain ⟨htracked, hstep, -⟩ := visits_invariant Tracked (fun _ _ => True)
      (fun _ _ _ h _ hstep => (step_hidden_iff pf T linq h hstep).1)
      (start_tracked products now) (fun _ _ => trivial) v hv
    exact step_lasting pf T linq htracked hstep
  · refine visits_iff (fun s => Tracked s ∧ Hidden s) (fun v => Hidden v.2.2) (InStep pf) ?_ ?_
      ⟨start_tracked products now, start_hidden products now⟩ tr
    · intro s l t hs hstep
      exact (step_hidden_iff pf T linq hs.1 hstep).2 hs.2
    · intro s l t hs hin hstep
      obtain ⟨htracked, hiff⟩ := step_hidden_iff pf T linq hs.1 hstep
      exact ⟨htracked, (hiff hs.2).mpr hin⟩

/-- The product is deleted, and then asked for by its id. -/
def askedAgain : List Label :=
  [.cached (.beginWrite 0 (.delete 1)), .cached (.commit 0 none), .cached (.evict 0),
    .cached (.beginRead 0 (.byId 1)), .cached (.getCache 0), .cached (.readTable 0 []),
    .cached (.setCache 0)]

theorem deleted_product_returned : ¬ ∀ (pf : Platform) (A : Alphabet) (T : EntityType A)
    (linq : DynamicLinq) (products : Table Product.id) (now : DateTime) (tr : List Label),
    ∀ v ∈ visits (step pf T linq) (start products now) tr, Hidden v.2.2 := by
  intro h
  have hrun := h samplePlatform ascii product ⟨fun _ => none, fun _ => none⟩ phone 0 askedAgain
  obtain ⟨v, hv, hr, hgone⟩ : ∃ v ∈ visits (step samplePlatform product
      ⟨fun _ => none, fun _ => none⟩) (start phone 0) askedAgain,
      ⟨.byId 1, 1, .product ⟨1, "phone", 100, "", "", "", some ⟨0, 0⟩⟩⟩ ∈ v.2.2.shop.returned ∧
        GoneAt (history v.2.2.shop) 1 1 := by
    exact ⟨_, List.mem_of_getLast? rfl, by decide, _, rfl, by decide⟩
  exact (hrun v hv).returned _ hr 1 (by simp [ids]) hgone

end DeletedProducts
