import Mathlib.Data.List.Perm.Basic
import Mathlib.Order.MinMax

/-! The steps of a sequence: the distance from each element to the next, for any distance `d`. The
    greatest step is the one thing a scan with a running maximum keeps, and it depends on the steps
    alone: not on the direction in which the sequence is read, nor on a motion of all its elements
    that preserves `d`. -/

namespace SeeedMote.Lib

variable {A B T : Type*}

/-- `b` comes right after `a`. -/
def Consecutive (l : List A) (a b : A) : Prop := ∃ pre post, l = pre ++ a :: b :: post

/-- The steps, in order. -/
def steps (d : A → A → T) : List A → List T
  | a :: b :: l => d b a :: steps d (b :: l)
  | _ => []

theorem mem_steps_iff {d : A → A → T} {t : T} {l : List A} :
    t ∈ steps d l ↔ ∃ a b, Consecutive l a b ∧ d b a = t := by
  induction l with
  | nil => simp [steps, Consecutive]
  | cons a l ih =>
    cases l with
    | nil =>
      simp only [steps, List.not_mem_nil, false_iff, not_exists]
      rintro x y ⟨⟨_ | ⟨c, pre⟩, post, h⟩, -⟩
      · simp at h
      · simp at h
    | cons b l =>
      rw [steps, List.mem_cons, ih]
      constructor
      · rintro (rfl | ⟨x, y, ⟨pre, post, h⟩, hd⟩)
        · exact ⟨a, b, ⟨[], l, rfl⟩, rfl⟩
        · exact ⟨x, y, ⟨a :: pre, post, by rw [h, List.cons_append]⟩, hd⟩
      · rintro ⟨x, y, ⟨_ | ⟨c, pre⟩, post, h⟩, hd⟩
        · obtain ⟨rfl, hrest⟩ := List.cons.inj h
          obtain ⟨rfl, -⟩ := List.cons.inj hrest
          exact .inl hd.symm
        · obtain ⟨-, hrest⟩ := List.cons.inj h
          exact .inr ⟨x, y, ⟨pre, post, hrest⟩, hd⟩

theorem steps_concat (d : A → A → T) (l : List A) (a b : A) :
    steps d (l ++ [a, b]) = steps d (l ++ [a]) ++ [d b a] := by
  induction l with
  | nil => rfl
  | cons c l ih =>
    cases l with
    | nil => rfl
    | cons e l =>
      simp only [List.cons_append, steps] at ih ⊢
      rw [ih]

/-- Read backwards, a sequence has the same steps, backwards. -/
theorem steps_reverse {d : A → A → T} (hsymm : ∀ a b, d a b = d b a) (l : List A) :
    steps d l.reverse = (steps d l).reverse := by
  induction l with
  | nil => rfl
  | cons a l ih =>
    cases l with
    | nil => rfl
    | cons b l =>
      rw [List.reverse_cons, List.reverse_cons, List.append_assoc, List.singleton_append,
        steps_concat, ← List.reverse_cons, ih, steps, List.reverse_cons, hsymm]

/-- Sequences related element by element have the same steps if the relation preserves the distance. -/
theorem steps_congr {d : A → A → T} {d' : B → B → T} {R : A → B → Prop}
    (hd : ∀ a a' b b', R a a' → R b b' → d b a = d' b' a') {l : List A} {l' : List B}
    (h : List.Forall₂ R l l') : steps d l = steps d' l' := by
  induction h with
  | nil => rfl
  | cons ha h ih =>
    cases h with
    | nil => rfl
    | cons hb h => rw [steps, steps, ih, hd _ _ _ _ ha hb]

theorem steps_eq_nil_iff {d : A → A → T} {l : List A} : steps d l = [] ↔ l.length < 2 := by
  rcases l with _ | ⟨a, _ | ⟨b, l⟩⟩
  · simp [steps]
  · simp [steps]
  · simp [steps]

/-- `m` is the greatest step of `l`, and 0 where there is none. -/
structure GreatestStep [LE T] [Zero T] (d : A → A → T) (l : List A) (m : T) : Prop where
  short : l.length < 2 → m = 0
  attained : 2 ≤ l.length → ∃ a b, Consecutive l a b ∧ d b a = m
  bound : ∀ a b, Consecutive l a b → d b a ≤ m

/-- A running maximum from 0 on ends with the greatest step. -/
theorem greatestStep_foldl [LinearOrder T] [Zero T] {d : A → A → T} (hpos : ∀ a b, 0 ≤ d a b)
    (l : List A) : GreatestStep d l ((steps d l).foldl max 0) := by
  rw [List.foldl_max]
  cases hmax : (steps d l).max? with
  | none =>
    have hnil : steps d l = [] := List.max?_eq_none_iff.mp hmax
    refine ⟨fun _ => max_self 0, ?_, ?_⟩
    · intro hlen
      exact absurd (steps_eq_nil_iff.mp hnil) (Nat.not_lt.mpr hlen)
    · intro a b hab
      have hmem : d b a ∈ steps d l := mem_steps_iff.mpr ⟨a, b, hab, rfl⟩
      rw [hnil] at hmem
      simp at hmem
  | some m =>
    obtain ⟨hmem, hbound⟩ := List.max?_eq_some_iff.mp hmax
    obtain ⟨a, b, hab, rfl⟩ := mem_steps_iff.mp hmem
    have hval : max 0 ((some (d b a)).getD 0) = d b a := max_eq_right (hpos b a)
    rw [hval]
    refine ⟨?_, fun _ => ⟨a, b, hab, rfl⟩, ?_⟩
    · intro hlen
      rw [steps_eq_nil_iff.mpr hlen] at hmem
      simp at hmem
    · intro x y hxy
      exact hbound _ (mem_steps_iff.mpr ⟨x, y, hxy, rfl⟩)

theorem foldl_max_steps_reverse [LinearOrder T] {d : A → A → T} (hsymm : ∀ a b, d a b = d b a)
    (m : T) (l : List A) : (steps d l.reverse).foldl max m = (steps d l).foldl max m := by
  rw [steps_reverse hsymm]
  exact (List.reverse_perm _).foldl_eq _

end SeeedMote.Lib
