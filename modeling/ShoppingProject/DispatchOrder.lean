import ShoppingProject.OfflineMiddleware

/-!
# The order in which actions reach the reducers

`offlineMiddleware` is an async function. An action whose branch awaits the local database
is passed on when the call has settled, whether it fails or not, and every other action
in the turn in which it is dispatched. Actions are numbered as they are dispatched.
-/
namespace DispatchOrder

open OfflineMiddleware Runs

structure Dispatch where
  number : Nat
  type : String
  payload : Option Json

/-- The branch of an action awaits a local call; what destructures its payload first throws
on `undefined` and `null`, and then there is nothing to await. -/
def awaits (type : String) (payload : Option Json) : Bool :=
  isCartAction (some type) &&
    if type = "cart/addCartItemAsync" ∨ type = "cart/addToCart" then true
    else if type = "cart/updateCartItem" then (property "cartId" payload).isSome
    else if type = "cart/removeCartItem" then (property "id" payload).isSome
    else type = "cart/clearCart"

/-- What was dispatched, the actions that wait for their calls, and what the reducers have
received, each in order. -/
structure State where
  dispatched : List Dispatch
  held : List Dispatch
  received : List Dispatch

def start : State := ⟨[], [], []⟩

inductive Label where
  | dispatch (type : String) (payload : Option Json) : Label
  /-- The local call of an action settles. -/
  | settle (number : Nat) : Label

def step (s : State) : Label → Option State
  | .dispatch type payload =>
    let d : Dispatch := ⟨s.dispatched.length, type, payload⟩
    if awaits type payload then
      some { s with dispatched := s.dispatched ++ [d], held := s.held ++ [d] }
    else some { s with dispatched := s.dispatched ++ [d], received := s.received ++ [d] }
  | .settle number => (s.held.find? fun d => d.number == number).map fun d =>
    { s with
      held := s.held.filter fun d => d.number != number
      received := s.received ++ [d] }

/-- The reducers have received the first actions that were dispatched, in order, and every
action is either received or held, once. -/
structure InOrder (s : State) : Prop where
  order : s.received <+: s.dispatched
  once : (s.received ++ s.held).Perm s.dispatched

/-- When a step passes on the action that is next. -/
def Meets (s : State) : Label → Prop
  | .dispatch type payload => awaits type payload = false → s.held = []
  | .settle number => s.held.head?.map Dispatch.number = some number

/-- What is held comes right after what was received. -/
structure Kept (s : State) : Prop where
  split : s.dispatched = s.received ++ s.held
  numbered : s.dispatched.map Dispatch.number = List.range s.dispatched.length

theorem Kept.distinct {s : State} (h : Kept s) : (s.dispatched.map Dispatch.number).Nodup := by
  rw [h.numbered]
  exact List.nodup_range

theorem Kept.inOrder {s : State} (h : Kept s) : InOrder s := by
  constructor
  · exact ⟨s.held, h.split.symm⟩
  · rw [h.split]

theorem Kept.number_lt {s : State} (h : Kept s) {d : Dispatch} (hd : d ∈ s.held) :
    d.number < s.dispatched.length := by
  have hmem : d.number ∈ s.dispatched.map Dispatch.number := by
    rw [h.split]
    exact List.mem_map_of_mem (List.mem_append_right _ hd)
  rw [h.numbered] at hmem
  exact List.mem_range.mp hmem

/-- Whatever is passed on next has to be the first that is held. -/
theorem head_of_prefix {received held rest : List Dispatch} {d first : Dispatch}
    (h : received ++ [d] <+: received ++ (first :: held) ++ rest) : d = first := by
  rw [List.append_assoc, List.prefix_append_right_inj] at h
  exact (List.cons_prefix_cons.mp h).1

theorem kept_hold {s : State} (h : Kept s) (type : String) (payload : Option Json) :
    Kept { s with
      dispatched := s.dispatched ++ [⟨s.dispatched.length, type, payload⟩]
      held := s.held ++ [⟨s.dispatched.length, type, payload⟩] } := by
  constructor
  · simp only [h.split, List.append_assoc]
  · simp [h.numbered, List.range_succ]

theorem kept_pass {s : State} (h : Kept s) (hheld : s.held = []) (type : String)
    (payload : Option Json) :
    Kept { s with
      dispatched := s.dispatched ++ [⟨s.dispatched.length, type, payload⟩]
      received := s.received ++ [⟨s.dispatched.length, type, payload⟩] } := by
  constructor
  · simp only [hheld, List.append_nil]
    rw [h.split, hheld, List.append_nil]
  · simp [h.numbered, List.range_succ]

/-- The first of the held actions is passed on. -/
theorem kept_first {s : State} (h : Kept s) {d : Dispatch} {rest : List Dispatch}
    (hheld : s.held = d :: rest) :
    Kept { s with
      held := s.held.filter fun e => e.number != d.number
      received := s.received ++ [d] } := by
  have hdistinct := h.distinct
  rw [h.split, hheld, List.map_append, List.map_cons] at hdistinct
  have hrest : ∀ e ∈ rest, e.number ≠ d.number := by
    intro e he heq
    have hnot := (List.nodup_cons.mp (List.nodup_append.mp hdistinct).2.1).1
    exact hnot (heq ▸ List.mem_map_of_mem he)
  have hfilter : s.held.filter (fun e => e.number != d.number) = rest := by
    rw [hheld, List.filter_cons_of_neg (by simp), List.filter_eq_self]
    intro e he
    simpa using hrest e he
  constructor
  · simp only [hfilter]
    rw [h.split, hheld, List.append_assoc, List.singleton_append]
  · exact h.numbered

/-- A step leaves the actions in order if and only if it passes on the next one. -/
theorem step_inOrder {s t : State} {l : Label} (h : Kept s) (hstep : step s l = some t) :
    (Meets s l → Kept t) ∧ (InOrder t → Meets s l) := by
  cases l with
  | dispatch type payload =>
    simp only [step] at hstep
    split at hstep
    · rename_i hawaits
      obtain rfl := Option.some.inj hstep
      refine ⟨fun _ => kept_hold h type payload, fun _ hnot => ?_⟩
      rw [hawaits] at hnot
      cases hnot
    · rename_i hawaits
      obtain rfl := Option.some.inj hstep
      refine ⟨fun hmeets => kept_pass h (hmeets (by simpa using hawaits)) type payload, ?_⟩
      intro hinOrder _
      cases hheld : s.held with
      | nil => rfl
      | cons first rest =>
        have horder := hinOrder.order
        simp only [h.split, hheld] at horder
        have hlt := h.number_lt (hheld ▸ List.mem_cons_self : first ∈ s.held)
        rw [← head_of_prefix horder, ← hheld, ← h.split] at hlt
        exact absurd hlt (lt_irrefl _)
  | settle number =>
    obtain ⟨d, hfind, rfl⟩ := Option.map_eq_some_iff.mp hstep
    have hnumber : d.number = number := by simpa using List.find?_some hfind
    subst hnumber
    cases hheld : s.held with
    | nil => simp [hheld] at hfind
    | cons first rest =>
      constructor
      · intro hmeets
        simp only [Meets, hheld, List.head?_cons, Option.map_some, Option.some.injEq] at hmeets
        have hfirst : d = first := by
          rw [hheld, List.find?_cons_of_pos (by simp [hmeets])] at hfind
          exact (Option.some.inj hfind).symm
        subst hfirst
        rw [← hheld]
        exact kept_first h hheld
      · intro hinOrder
        have horder := hinOrder.order
        simp only [h.split, hheld] at horder
        rw [← List.append_nil (s.received ++ first :: rest)] at horder
        rw [Meets, hheld, head_of_prefix horder]
        rfl

theorem start_kept : Kept start := ⟨rfl, rfl⟩

/-- In every run the reducers receive the actions in the order of their dispatch, each once,
exactly if no action is passed on before one that is held. -/
theorem ordered_throughout_iff (tr : List Label) :
    (∀ v ∈ visits step start tr, InOrder v.2.2) ↔ ∀ v ∈ visits step start tr, Meets v.1 v.2.1 := by
  refine visits_iff Kept (fun v => InOrder v.2.2) Meets ?_ ?_ start_kept tr
  · intro s l t h hstep
    obtain ⟨hkept, hmeets⟩ := step_inOrder h hstep
    exact ⟨hmeets, fun hl => (hkept hl).inOrder⟩
  · intro s l t h hl hstep
    exact (step_inOrder h hstep).1 hl

/-- Everything that was dispatched arrives in order once no call is under way. -/
theorem InOrder.complete {s : State} (h : InOrder s) (hheld : s.held = []) :
    s.received = s.dispatched := by
  have hlength := h.once.length_eq
  rw [hheld, List.append_nil] at hlength
  exact h.order.eq_of_length hlength

/-- The cart is cleared, and what a fetch dispatches next arrives first. -/
theorem fetch_overtakes : ¬ ∀ tr : List Label, ∀ v ∈ visits step start tr, InOrder v.2.2 := by
  intro hall
  let clear : Dispatch := ⟨0, "cart/clearCart", none⟩
  let fetch : Dispatch := ⟨1, "cart/fetchCart/pending", none⟩
  have hclear : step start (.dispatch "cart/clearCart" none) = some ⟨[clear], [clear], []⟩ := by
    have hawaits : awaits "cart/clearCart" none = true := by decide +kernel
    simp [step, start, hawaits, clear]
  have hfetch : step ⟨[clear], [clear], []⟩ (.dispatch "cart/fetchCart/pending" none) =
      some ⟨[clear, fetch], [clear], [fetch]⟩ := by
    have hawaits : awaits "cart/fetchCart/pending" none = false := by decide +kernel
    simp [step, hawaits, clear, fetch]
  have hvisit : (⟨[clear], [clear], []⟩, .dispatch "cart/fetchCart/pending" none,
      ⟨[clear, fetch], [clear], [fetch]⟩) ∈ visits step start
        [.dispatch "cart/clearCart" none, .dispatch "cart/fetchCart/pending" none] := by
    rw [visits_cons _ hclear, visits_cons _ hfetch]
    exact .tail _ (.head _)
  have horder := (hall _ _ hvisit).order
  simp [List.cons_prefix_cons, clear, fetch] at horder

end DispatchOrder
