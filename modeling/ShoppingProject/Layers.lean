import Mathlib.Tactic.Common

/-!
# Layers around a computation that may fail

A layer surrounds what is inside it. It may answer by itself, without looking
inside, or pass on every failure from inside; what it does with a result is left
open. Layers of these two kinds wrap into layers of the same kinds.
-/
namespace Layers

variable {ε α : Type}

abbrev Layer (ε α : Type) := Except ε α → Except ε α

/-- The first layer is the outermost. -/
def wrap (layers : List (Layer ε α)) (inner : Except ε α) : Except ε α :=
  layers.foldr (fun layer next => layer next) inner

@[simp] theorem wrap_nil (inner : Except ε α) : wrap [] inner = inner := rfl
@[simp] theorem wrap_cons (layer : Layer ε α) (layers : List (Layer ε α)) (inner : Except ε α) :
    wrap (layer :: layers) inner = layer (wrap layers inner) := rfl

theorem wrap_append (outer inside : List (Layer ε α)) (inner : Except ε α) :
    wrap (outer ++ inside) inner = wrap outer (wrap inside inner) := by
  induction outer with
  | nil => rfl
  | cons layer outer ih => simp [ih]

/-- What is inside makes no difference. -/
def Answers (layer : Layer ε α) : Prop := ∀ a b, layer a = layer b

/-- A failure from inside leaves the layer as it is. -/
def Passes (layer : Layer ε α) : Prop := ∀ e, layer (.error e) = .error e

theorem passes_wrap {layers : List (Layer ε α)} (h : ∀ layer ∈ layers, Passes layer) :
    Passes (wrap layers) := by
  intro e
  induction layers with
  | nil => rfl
  | cons layer layers ih =>
    have hinner : wrap layers (.error e) = .error e := ih fun l hl => h l (.tail _ hl)
    rw [wrap_cons, hinner]
    exact h layer (.head _) e

theorem answers_wrap {layers : List (Layer ε α)} {layer : Layer ε α} (hmem : layer ∈ layers)
    (h : Answers layer) : Answers (wrap layers) := by
  intro a b
  induction layers with
  | nil => cases hmem
  | cons l layers ih =>
    rcases List.mem_cons.mp hmem with rfl | hmem
    · exact h _ _
    · exact congrArg l (ih hmem)

/-- Failures that are renamed inside leave under their new names, and nothing else changes. -/
theorem Passes.mapError {layer : Layer ε α} (h : Passes layer) (f : ε → ε) {inner : Except ε α}
    {e : ε} (hinner : inner = .error e) : layer (inner.mapError f) = .error (f e) := by
  subst hinner
  exact h (f e)

@[simp] theorem mapError_ok (f : ε → ε) (a : α) :
    (Except.ok a : Except ε α).mapError f = .ok a := rfl

end Layers
