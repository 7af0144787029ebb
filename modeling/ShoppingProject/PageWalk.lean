import ShoppingProject.ProductPages

/-!
# Walking through the pages

All pages of an endpoint, from the first to the last, hold every matching row exactly
once, whatever the database does with rows that tie, exactly if no page ends between two
rows that tie. A search without an order is one large tie.
-/
namespace PageWalk

open AuditChain (AuditLog AuditLogs)
open DomainEvents (Product)
open DynamicQueries Lexing
open Paging ProductPages
open ProductCache (ProductDto toDto)

variable {α β : Type}

/-- The items of all pages, as many as the first answer says, if every request is
answered. -/
def requestAll (request : Nat → Option (Int × List β)) : Option (List β) := do
  let (pages, _) ← request 0
  let items ← (List.range pages.toNat).mapM fun n => (request n).map Prod.snd
  return items.flatten

theorem mapM_eq_some {f : Nat → Option β} {g : Nat → β} (h : ∀ n, f n = some (g n))
    (l : List Nat) : l.mapM f = some (l.map g) := by
  induction l with
  | nil => rfl
  | cons n l ih =>
    rw [List.mapM_cons, h, ih]
    rfl

theorem requestAll_eq {f : α → β} {size : Nat} {answers : Nat → List α}
    {request : Nat → Option (Int × List β)} {pages : Nat → Int}
    (h : ∀ n, request n = some (pages n, (page size n (answers n)).map f)) :
    requestAll request = some ((walk size (pages 0).toNat answers).map f) := by
  have hitems : ∀ n, (request n).map Prod.snd = some ((page size n (answers n)).map f) :=
      fun n => by
    rw [h]
    rfl
  rw [requestAll, h, Option.bind_eq_bind, Option.bind_some]
  dsimp only
  rw [mapM_eq_some hitems, walk, List.map_flatMap]
  rfl

/-- The last page reaches the end. -/
theorem le_totalPages (count : Nat) {size : Int} (hsize : 1 ≤ size) :
    count ≤ (totalPages count size).toNat * size.toNat := by
  have hdiv : (-(count : Int)) / size * size ≤ -count := Int.ediv_mul_le _ (by omega)
  have hpages : totalPages count size ≤ (totalPages count size).toNat := Int.self_le_toNat _
  have hmul : totalPages count size * size ≤ (totalPages count size).toNat * size :=
    Int.mul_le_mul_of_nonneg_right hpages (by omega)
  have hcount : (count : Int) ≤ totalPages count size * size := by
    rw [totalPages, Int.neg_mul]
    omega
  have hsizeNat : (size.toNat : Int) = size := Int.toNat_of_nonneg (by omega)
  have hcast : ((count : Nat) : Int) ≤ ((totalPages count size).toNat * size.toNat : Nat) := by
    rw [Int.natCast_mul, hsizeNat]
    exact hcount.trans hmul
  exact Int.ofNat_le.mp hcast

/-- No page ends between two rows that tie. -/
def KeepsTies (o : Sorting α) (rows : List α) (size : Int) : Prop :=
  ∀ k, ¬ Split o rows (k * size.toNat)

/-- An endpoint that cuts its pages out of the answers. -/
theorem requestAll_perm_iff {o : Sorting α} {rows : List α} {f : α → β} (hrows : (rows.map f).Nodup)
    {size : Int} (hsize : 1 ≤ size) {request : List α → Nat → Option (Int × List β)}
    (hrequest : ∀ answer n, request answer n =
      some (totalPages answer.length size, (page size.toNat n answer).map f)) :
    (∀ answers : Nat → List α, (∀ n, Answer o rows (answers n)) →
      ∃ all ∈ requestAll fun n => request (answers n) n, all.Perm (rows.map f)) ↔
        KeepsTies o rows size := by
  have hpositive : 0 < size.toNat := by omega
  refine Iff.trans ?_ (walk_perm_iff hrows hpositive (le_totalPages rows.length hsize))
  refine forall₂_congr fun answers hanswers => ?_
  rw [requestAll_eq fun n => hrequest (answers n) n, (hanswers 0).perm.length_eq]
  simp

theorem toNat_offset {size : Int} (n : Nat) (hsize : 1 ≤ size) :
    ((n + 1 : Int) - 1) * size = (n * size.toNat : Nat) := by
  have hsizeNat : (size.toNat : Int) = size := Int.toNat_of_nonneg (by omega)
  rw [Int.natCast_mul, hsizeNat, Int.add_sub_cancel]

theorem createAsync_eq {size : Int} (hsize : 1 ≤ size) (answer : List β) (n : Nat) :
    createAsync answer (n + 1) size =
      some ⟨page size.toNat n answer, n + 1, totalPages answer.length size, answer.length⟩ := by
  have hoffset := toNat_offset n hsize
  have hguard : 0 ≤ ((n + 1 : Int) - 1) * size ∧ 0 ≤ size := by
    rw [hoffset]
    exact ⟨Int.natCast_nonneg _, by omega⟩
  rw [createAsync, if_pos hguard, hoffset, Int.toNat_natCast]
  rfl

theorem page_map (f : α → β) (size n : Nat) (answer : List α) :
    page size n (answer.map f) = (page size n answer).map f := by
  simp [page, List.map_take, List.map_drop]

/-! ## The three endpoints -/

/-- `GET products/paged` for the page after `n` others: the number of pages and the items. -/
def pagedRequest (size : Int) (answer : List Product) (n : Nat) : Option (Int × List ProductDto) :=
  (getProductsWithPagination ⟨n + 1, size⟩ answer).map fun list => (list.totalPages, list.items)

/-- `POST products/search`, whose pages are counted from zero. -/
def searchRequest (size : Int) (answer : List Product) (n : Nat) : Option (Int × List ProductDto) :=
  (searchPage n size answer).map fun p => (p.pages, p.items.map toDto)

/-- `GET auditlogs`. -/
def auditRequest (size : Int) (answer : List AuditLog) (n : Nat) :
    Option (Int × List AuditLogDto) :=
  (getAuditLogs (n + 1) size answer).map fun list => (list.totalPages, list.items)

theorem pagedRequest_eq {size : Int} (hsize : 1 ≤ size) (answer : List Product) (n : Nat) :
    pagedRequest size answer n =
      some (totalPages answer.length size, (page size.toNat n answer).map toDto) := by
  have hvalid : (⟨n + 1, size⟩ : GetProductsWithPaginationQuery).isValid = true := by
    simp [GetProductsWithPaginationQuery.isValid, hsize]
  rw [pagedRequest, getProductsWithPagination, if_pos hvalid, createAsync_eq hsize, page_map,
    List.length_map]
  rfl

theorem searchRequest_eq {size : Int} (hsize : 1 ≤ size ∧ size ≤ 100) (answer : List Product)
    (n : Nat) : searchRequest size answer n =
      some (totalPages answer.length size, (page size.toNat n answer).map toDto) := by
  have hoffset := toNat_offset n hsize.1
  rw [Int.add_sub_cancel] at hoffset
  have hvalid : 0 ≤ (n : Int) ∧ 0 < size ∧ size ≤ 100 := by omega
  rw [searchRequest, searchPage, if_pos hvalid, hoffset, Int.toNat_natCast]
  rfl

theorem auditRequest_eq {size : Int} (hsize : 1 ≤ size) (answer : List AuditLog) (n : Nat) :
    auditRequest size answer n =
      some (totalPages answer.length size, (page size.toNat n answer).map toAuditLogDto) := by
  rw [auditRequest, getAuditLogs, createAsync_eq hsize, page_map, List.length_map]
  rfl

/-- Rows with keys of their own do not become alike when they are shown. -/
theorem nodup_shown {key : α → Int} (t : Table key) (f : α → β) (shownKey : β → Int)
    (hkey : ∀ a, shownKey (f a) = key a) : (t.rows.map f).Nodup := by
  refine List.Nodup.of_map shownKey ?_
  rw [List.map_map, show shownKey ∘ f = key from funext hkey]
  exact List.pairwise_map.mpr (t.ordered.imp fun hlt => ne_of_lt hlt)

/-- The walk through each endpoint returns every matching row exactly once, for every
choice among ties in each request, exactly if no page ends between rows that tie. -/
theorem walk_exact_iff (collation : Sorting String) (products : Table Product.id)
    (logs : AuditLogs) (size : Int) :
    (1 ≤ size →
      ((∀ answers : Nat → List Product,
          (∀ n, Answer (byTitle collation) products.rows (answers n)) →
          ∃ all ∈ requestAll fun n => pagedRequest size (answers n) n,
            all.Perm (products.rows.map toDto)) ↔
        KeepsTies (byTitle collation) products.rows size)) ∧
    (∀ (A : Alphabet) (T : EntityType A) (linq : DynamicLinq) (q : DynamicQuery)
        (selected : List Product) (o : Sorting Product),
      matching T linq q products.rows = some selected → sorting linq q = some o →
      1 ≤ size ∧ size ≤ 100 →
      ((∀ answers : Nat → List Product, (∀ n, Answer o selected (answers n)) →
          ∃ all ∈ requestAll fun n => searchRequest size (answers n) n,
            all.Perm (selected.map toDto)) ↔
        KeepsTies o selected size)) ∧
    (1 ≤ size →
      ((∀ answers : Nat → List AuditLog, (∀ n, Answer newestFirst logs.rows (answers n)) →
          ∃ all ∈ requestAll fun n => auditRequest size (answers n) n,
            all.Perm (logs.rows.map toAuditLogDto)) ↔
        KeepsTies newestFirst logs.rows size)) := by
  refine ⟨fun hsize => ?_, ?_, fun hsize => ?_⟩
  · exact requestAll_perm_iff (nodup_shown products toDto ProductDto.id fun _ => rfl) hsize
      (pagedRequest_eq hsize)
  · intro A T linq q selected o hselected _ hsize
    have hrows : (selected.map toDto).Nodup :=
      (nodup_shown products toDto ProductDto.id fun _ => rfl).sublist
        ((matching_sublist T linq hselected).map toDto)
    exact requestAll_perm_iff hrows hsize.1 (searchRequest_eq hsize)
  · exact requestAll_perm_iff (nodup_shown logs toAuditLogDto AuditLogDto.id fun _ => rfl) hsize
      (auditRequest_eq hsize)

/-- Without an order the walk is exact only if there is just one page. -/
theorem keepsTies_unordered_iff (rows : List α) {size : Int} (hsize : 1 ≤ size) :
    KeepsTies Sorting.none rows size ↔ rows.length ≤ size.toNat := by
  have hbelow : ∀ x, below Sorting.none rows x = 0 := fun x => by
    rw [below, List.countP_eq_zero]
    intro y _
    simp [Sorting.none]
  have hupTo : ∀ x, upTo Sorting.none rows x = rows.length := fun x =>
    List.countP_eq_length.mpr fun _ _ => rfl
  constructor
  · intro h
    by_contra hmore
    obtain ⟨x, hx⟩ : ∃ x, x ∈ rows := List.exists_mem_of_length_pos (by omega)
    exact h 1 ⟨x, hx, by rw [hbelow]; omega, by rw [hupTo]; omega⟩
  · rintro h k ⟨x, -, hpositive, hless⟩
    rw [hbelow] at hpositive
    rw [hupTo] at hless
    have hk : 1 ≤ k := Nat.pos_of_mul_pos_right hpositive
    have hle : size.toNat ≤ k * size.toNat := Nat.le_mul_of_pos_left _ hk
    omega

/-- Two phones with one title. -/
def phone (id : Int) : Product :=
  ⟨id, .active, 0, some "system", 0, none, "Phone", 100, "", "phones", "", ⟨0, 0⟩⟩

def twoPhones : Table Product.id where
  rows := [phone 1, phone 2]
  next := 3
  ordered := by decide
  bounded := by decide

def textOrder : Sorting String where
  le a b := decide (a ≤ b)
  total a b := by simpa using String.le_total a b
  trans a b c hab hbc := by
    simp only [decide_eq_true_eq] at hab hbc ⊢
    exact String.le_trans hab hbc

/-- The order of the first answer is turned round in the second. -/
def turned (n : Nat) : List Product := if n = 0 then [phone 1, phone 2] else [phone 2, phone 1]

theorem turned_answer (n : Nat) : Answer (byTitle textOrder) twoPhones.rows (turned n) := by
  have htie : ∀ i j, (byTitle textOrder).le (phone i) (phone j) = true :=
      fun _ _ => textOrder.refl _
  unfold turned
  split
  · exact ⟨.refl _, by simp [htie]⟩
  · exact ⟨.swap _ _ _, by simp [htie]⟩

theorem phone_shown_twice : ¬ ∀ (collation : Sorting String) (products : Table Product.id)
    (size : Int), 1 ≤ size → ∀ answers : Nat → List Product,
    (∀ n, Answer (byTitle collation) products.rows (answers n)) →
    ∃ all ∈ requestAll fun n => pagedRequest size (answers n) n,
      all.Perm (products.rows.map toDto) := by
  intro h
  obtain ⟨all, hall, hperm⟩ := h textOrder twoPhones 1 (le_refl 1) turned turned_answer
  have htwice : requestAll (fun n => pagedRequest 1 (turned n) n) =
      some [toDto (phone 1), toDto (phone 1)] := by rfl
  rw [htwice] at hall
  obtain rfl := Option.some.inj hall
  revert hperm
  decide

end PageWalk
