import Mathlib.Data.List.Basic

/-! The elements of a list that are the first with their key, found by looking back at everything that
    came before. There is one for each key; in a sorted list it is the best of its key. -/

namespace SeeedMote.Lib

variable {A K : Type*} [DecidableEq K] (key : A → K)

/-- The elements of a list whose key is neither in `before` nor earlier in the list. -/
def firstsAfter (before : List A) : List A → List A
  | [] => []
  | a :: l =>
    if ∃ b ∈ before, key b = key a then firstsAfter (before ++ [a]) l
    else a :: firstsAfter (before ++ [a]) l

variable {key} {before l : List A}

theorem mem_firstsAfter_iff {a : A} : a ∈ firstsAfter key before l ↔
    ∃ pre post, l = pre ++ a :: post ∧ ∀ b ∈ before ++ pre, key b ≠ key a := by
  induction l generalizing before with
  | nil => simp [firstsAfter]
  | cons c l ih =>
    have hrest : a ∈ firstsAfter key (before ++ [c]) l ↔
        ∃ pre post, l = pre ++ a :: post ∧ ∀ b ∈ before ++ c :: pre, key b ≠ key a := by
      rw [ih]
      simp only [List.append_assoc, List.singleton_append]
    constructor
    · intro h
      have hcase : a = c ∧ (∀ b ∈ before, key b ≠ key c) ∨ a ∈ firstsAfter key (before ++ [c]) l := by
        rw [firstsAfter] at h
        split at h
        · exact .inr h
        · next hnew =>
          rcases List.mem_cons.mp h with rfl | h
          · exact .inl ⟨rfl, fun b hb hkey => hnew ⟨b, hb, hkey⟩⟩
          · exact .inr h
      rcases hcase with ⟨rfl, hnew⟩ | h
      · exact ⟨[], l, rfl, by rwa [List.append_nil]⟩
      · obtain ⟨pre, post, rfl, hpre⟩ := hrest.mp h
        exact ⟨c :: pre, post, rfl, hpre⟩
    · rintro ⟨pre, post, hsplit, hpre⟩
      cases pre with
      | nil =>
        obtain ⟨rfl, rfl⟩ := List.cons.inj hsplit
        rw [List.append_nil] at hpre
        rw [firstsAfter, if_neg fun ⟨b, hb, hkey⟩ => hpre b hb hkey]
        exact List.mem_cons_self ..
      | cons d pre =>
        obtain ⟨rfl, rfl⟩ := List.cons.inj hsplit
        have hmem := hrest.mpr ⟨pre, post, rfl, hpre⟩
        rw [firstsAfter]
        split
        · exact hmem
        · exact List.mem_cons_of_mem _ hmem

/-- No key twice. -/
theorem pairwise_firstsAfter : (firstsAfter key before l).Pairwise fun a b => key a ≠ key b := by
  induction l generalizing before with
  | nil => exact .nil
  | cons c l ih =>
    rw [firstsAfter]
    split
    · exact ih
    · refine List.pairwise_cons.mpr ⟨fun a ha => ?_, ih⟩
      obtain ⟨pre, post, -, hpre⟩ := mem_firstsAfter_iff.mp ha
      exact hpre c (by simp)

/-- No key is missed. -/
theorem exists_firstsAfter {b : A} (hb : b ∈ l) : ∃ a ∈ firstsAfter key [] l, key a = key b := by
  -- the first of those with this key
  obtain ⟨a, pre, post, hl, hkey, hpre⟩ : ∃ a pre post, l = pre ++ a :: post ∧ key a = key b ∧
      ∀ c ∈ pre, key c ≠ key b := by
    induction l with
    | nil => exact absurd hb List.not_mem_nil
    | cons c l ih =>
      by_cases hc : key c = key b
      · exact ⟨c, [], l, rfl, hc, by simp⟩
      · have hmem : b ∈ l := (List.mem_cons.mp hb).resolve_left fun h => hc (congrArg key h.symm)
        obtain ⟨a, pre, post, rfl, hkey, hpre⟩ := ih hmem
        refine ⟨a, c :: pre, post, rfl, hkey, fun d hd => ?_⟩
        rcases List.mem_cons.mp hd with rfl | hd
        · exact hc
        · exact hpre d hd
  refine ⟨a, mem_firstsAfter_iff.mpr ⟨pre, post, hl, fun c hc => ?_⟩, hkey⟩
  rw [hkey]
  exact hpre c hc

/-- In a sorted list the first of a key comes before the others. -/
theorem firstsAfter_first {R : A → A → Prop} (hl : l.Pairwise R) {a b : A}
    (ha : a ∈ firstsAfter key [] l) (hb : b ∈ l) (hkey : key b = key a) : b = a ∨ R a b := by
  obtain ⟨pre, post, rfl, hpre⟩ := mem_firstsAfter_iff.mp ha
  rcases List.mem_append.mp hb with hold | hrest
  · exact absurd hkey (hpre b hold)
  · rcases List.mem_cons.mp hrest with rfl | hpost
    · exact .inl rfl
    · exact .inr (List.rel_of_pairwise_cons (List.pairwise_append.mp hl).2.1 hpost)

end SeeedMote.Lib
