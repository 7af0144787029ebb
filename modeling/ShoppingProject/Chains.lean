import Mathlib.Data.List.Chain
import Mathlib.Data.List.Nodup

/-!
# Chains of links

A list whose neighbours are linked, where nothing has two different predecessors.
Such a list can be cut at both ends but not in the middle: a part of it that is
itself linked is contiguous.
-/
namespace Chains

variable {α : Type} {R : α → α → Prop}

theorem isChain_snoc {l : List α} {a : α} :
    (l ++ [a]).IsChain R ↔ l.IsChain R ∧ ∀ b, l.getLast? = some b → R b a := by
  rw [List.isChain_append]
  simp

theorem pairwise_snoc {l : List α} {a : α} :
    (l ++ [a]).Pairwise R ↔ l.Pairwise R ∧ ∀ b ∈ l, R b a := by
  rw [List.pairwise_append]
  simp

/-- What every link keeps lasts from one element of a chain to all later ones. -/
theorem lasts {P : α → Prop} (keep : ∀ a b, P a → R a b → P b) {l : List α} (h : l.IsChain R)
    {i j : Nat} {a b : α} (hij : i ≤ j) (ha : l[i]? = some a) (hb : l[j]? = some b) (hP : P a) :
    P b := by
  induction j, hij using Nat.le_induction generalizing b with
  | base =>
    obtain rfl : a = b := Option.some.inj (ha.symm.trans hb)
    exact hP
  | succ j hj ih =>
    obtain ⟨hlt, rfl⟩ := List.getElem?_eq_some_iff.mp hb
    exact keep _ _ (ih (List.getElem?_eq_getElem (Nat.lt_of_succ_lt hlt))) (h.getElem j hlt)

/-- Whatever the link leads to, it comes from one element of the list only. -/
def Backwards (R : α → α → Prop) (l : List α) : Prop :=
  ∀ a ∈ l, ∀ b ∈ l, ∀ c, R a c → R b c → a = b

theorem Backwards.subset {l k : List α} (h : Backwards R l) (hk : ∀ a ∈ k, a ∈ l) :
    Backwards R k := fun a ha b hb => h a (hk a ha) b (hk b hb)

/-- A linked selection of a chain leaves no gap. -/
theorem infix_of_isChain {l k : List α} (hl : l.IsChain R) (hnodup : l.Nodup)
    (hback : Backwards R l) (hsub : k.Sublist l) (hk : k.IsChain R) : k <:+: l := by
  induction k generalizing l with
  | nil => exact List.nil_infix
  | cons a k ih =>
    obtain ⟨before, after, rfl, ha, hrest⟩ := List.cons_sublist_iff.mp hsub
    obtain ⟨start, middle, rfl⟩ := List.append_of_mem ha
    cases k with
    | nil => exact ⟨start, middle ++ after, by simp⟩
    | cons b k =>
      have hsub' : (b :: k).Sublist (middle ++ after) :=
        hrest.trans (List.sublist_append_right _ _)
      have hsplit : start ++ a :: middle ++ after = start ++ [a] ++ (middle ++ after) := by simp
      rw [hsplit] at hl hnodup hback ⊢
      have hwithin : b :: k <:+: middle ++ after := by
        refine ih hl.right_of_append hnodup.of_append_right (hback.subset ?_) hsub' hk.tail
        intro c hc
        exact List.mem_append_right _ hc
      obtain ⟨gap, rest, hgap⟩ := hwithin
      rw [← hgap] at hl hnodup hback ⊢
      -- a gap would end in a second predecessor of `b`
      have hnone : gap = [] := by
        rcases List.eq_nil_or_concat gap with hnil | ⟨gap', c, rfl⟩
        · exact hnil
        · have hcb : R c b := by
            have hchain := hl.right_of_append
            simp only [List.concat_eq_append, List.append_assoc, List.cons_append,
              List.nil_append] at hchain
            exact (List.isChain_append_cons_cons.mp hchain).2.1
          have hab : R a b := (List.isChain_cons_cons.mp hk).1
          have hac : a = c := hback a (by simp) c (by simp) b hab hcb
          subst hac
          simp [List.nodup_append] at hnodup
      subst hnone
      exact ⟨start, rest, by simp⟩

/-- A part that ends where the whole ends is its end. -/
theorem suffix_of_getLast? {l k : List α} (hnodup : l.Nodup) (hwithin : k <:+: l) {a : α}
    (hk : k.getLast? = some a) (hl : l.getLast? = some a) : k <:+ l := by
  obtain ⟨before, after, rfl⟩ := hwithin
  cases after with
  | nil => exact ⟨before, by simp⟩
  | cons b after =>
    have hak : a ∈ k := List.mem_of_getLast? hk
    have hlast : (b :: after).getLast? = some a := by simpa [List.getLast?_append] using hl
    have ha : a ∈ b :: after := List.mem_of_getLast? hlast
    have hdisjoint := (List.nodup_append.mp hnodup).2.2
    exact absurd rfl (hdisjoint a (List.mem_append_right _ hak) a ha)

end Chains
