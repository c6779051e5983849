import Mathlib.Logic.Basic

/-! A replica of a map, kept up to date by refreshing single keys. Whoever changes the source at a key
    makes the key due, and a refresh copies whatever the source holds there by then. The replica is
    therefore right at every key that is not due, and everywhere once nothing is. -/

namespace SeeedMote.Lib

variable {K A : Type*}

/-- The replica agrees with the source outside the keys that are due. -/
def InStep (due : K → Prop) (view source : K → A) : Prop := ∀ k, ¬due k → view k = source k

/-- A replica that was just copied. -/
theorem InStep.copied (due : K → Prop) (source : K → A) : InStep due source source :=
  fun _ _ => rfl

/-- The source changes at keys that are due from then on. -/
theorem InStep.change {due due' : K → Prop} {view source source' : K → A}
    (h : InStep due view source) (hdue : ∀ k, due k → due' k)
    (hsource : ∀ k, ¬due' k → source' k = source k) : InStep due' view source' := by
  intro k hk
  rw [hsource k hk]
  exact h k fun hd => hk (hdue k hd)

/-- One key is refreshed. -/
theorem InStep.refresh {due due' : K → Prop} {view view' source : K → A} (h : InStep due view source)
    (k₀ : K) (hdue : ∀ k, k ≠ k₀ → due k → due' k) (hkey : view' k₀ = source k₀)
    (hview : ∀ k, k ≠ k₀ → view' k = view k) : InStep due' view' source := by
  intro k hk
  rcases eq_or_ne k k₀ with rfl | hne
  · exact hkey
  · rw [hview k hne]
    exact h k fun hd => hk (hdue k hne hd)

/-- Nothing is due: the replica is right. -/
theorem InStep.settled {due : K → Prop} {view source : K → A} (h : InStep due view source)
    (hdue : ∀ k, ¬due k) (k : K) : view k = source k := h k (hdue k)

end SeeedMote.Lib
