import Mathlib.Algebra.Order.Group.Defs
import Mathlib.Tactic.Linarith
import SeeedMote.Lib.Run

/-! The ideal window filter: accept a key exactly when it was not accepted less than `ttl` ago, with
    every accepted time remembered forever. `Covers` relates a finite table to that history: the
    table may forget entries, as long as it keeps the latest time of every key accepted less than
    `ttl` before the present. Such a table decides like the full history, and both recording a
    decision and dropping expired entries keep the relation. -/

namespace SeeedMote.Lib

variable {K T : Type*} [DecidableEq K] [AddCommGroup T] [LinearOrder T] [IsOrderedAddMonoid T]

/-- `k` was accepted less than `ttl` before `now`. -/
def Recent (ttl : T) (hist : List (K × T)) (k : K) (now : T) : Prop :=
  ∃ e ∈ hist, e.1 = k ∧ now - e.2 < ttl

instance (ttl : T) (hist : List (K × T)) (k : K) (now : T) : Decidable (Recent ttl hist k now) :=
  inferInstanceAs (Decidable (∃ e ∈ hist, e.1 = k ∧ now - e.2 < ttl))

/-- One call of the ideal filter; the output says whether it accepts. -/
def windowStep (ttl : T) (hist : List (K × T)) (call : K × T) : List (K × T) × List Bool :=
  if Recent ttl hist call.1 call.2 then (hist, [false]) else (call :: hist, [true])

/-- A table `get` that knows every unexpired entry of `hist` at time `clock`. -/
structure Covers (ttl clock : T) (hist : List (K × T)) (get : K → Option T) : Prop where
  past : ∀ k t, (k, t) ∈ hist → t ≤ clock
  sound : ∀ k t, get k = some t → (k, t) ∈ hist
  complete : ∀ k t, (k, t) ∈ hist → clock - t < ttl → ∃ u, get k = some u ∧ t ≤ u

namespace Covers

variable {ttl clock now : T} {hist : List (K × T)} {get : K → Option T}

omit [DecidableEq K] [IsOrderedAddMonoid T] in
theorem nil (ttl clock : T) : Covers ttl clock ([] : List (K × T)) (fun _ => none) :=
  ⟨by simp, by simp, by simp⟩

omit [DecidableEq K] in
/-- Time passes: fewer entries are unexpired. -/
theorem later (h : Covers ttl clock hist get) (hnow : clock ≤ now) : Covers ttl now hist get where
  past k t hm := (h.past k t hm).trans hnow
  sound := h.sound
  complete k t hm hlt := h.complete k t hm (lt_of_le_of_lt (sub_le_sub_right hnow t) hlt)

omit [DecidableEq K] [IsOrderedAddMonoid T] in
/-- The order of the history does not matter. -/
theorem of_mem_iff (h : Covers ttl clock hist get) {hist' : List (K × T)}
    (hmem : ∀ e, e ∈ hist' ↔ e ∈ hist) : Covers ttl clock hist' get where
  past k t hm := h.past k t ((hmem _).mp hm)
  sound k t ht := (hmem _).mpr (h.sound k t ht)
  complete k t hm := h.complete k t ((hmem _).mp hm)

omit [DecidableEq K] in
/-- The table decides like the full history. -/
theorem decides (h : Covers ttl now hist get) (k : K) :
    (∃ t, get k = some t ∧ now - t < ttl) ↔ Recent ttl hist k now := by
  constructor
  · rintro ⟨t, ht, hlt⟩
    exact ⟨(k, t), h.sound k t ht, rfl, hlt⟩
  · rintro ⟨⟨k', t⟩, hm, rfl, hlt⟩
    obtain ⟨u, hu, htu⟩ := h.complete k' t hm hlt
    exact ⟨u, hu, lt_of_le_of_lt (sub_le_sub_left htu now) hlt⟩

omit [IsOrderedAddMonoid T] in
/-- Recording an acceptance. -/
theorem accept (h : Covers ttl now hist get) (k : K) {get' : K → Option T}
    (hget : ∀ k', get' k' = if k' = k then some now else get k') :
    Covers ttl now ((k, now) :: hist) get' where
  past k' t hm := by
    rcases List.mem_cons.mp hm with heq | hm
    · exact (Prod.mk.inj heq).2.le
    · exact h.past k' t hm
  sound k' t ht := by
    rw [hget] at ht
    split at ht
    · next hk => rw [hk, ← Option.some.inj ht]; exact List.mem_cons_self ..
    · exact List.mem_cons_of_mem _ (h.sound k' t ht)
  complete k' t hm hlt := by
    rw [hget]
    split
    · refine ⟨now, rfl, ?_⟩
      rcases List.mem_cons.mp hm with heq | hm
      · exact (Prod.mk.inj heq).2.le
      · exact h.past k' t hm
    · next hk =>
      rcases List.mem_cons.mp hm with heq | hm
      · exact absurd (Prod.mk.inj heq).1 hk
      · exact h.complete k' t hm hlt

omit [DecidableEq K] in
/-- Dropping expired entries. -/
theorem prune (h : Covers ttl now hist get) {get' : K → Option T}
    (hget : ∀ k t, get' k = some t ↔ get k = some t ∧ now - t < ttl) :
    Covers ttl now hist get' where
  past := h.past
  sound k t ht := h.sound k t ((hget k t).mp ht).1
  complete k t hm hlt := by
    obtain ⟨u, hu, htu⟩ := h.complete k t hm hlt
    exact ⟨u, (hget k u).mpr ⟨hu, lt_of_le_of_lt (sub_le_sub_left htu now) hlt⟩, htu⟩

end Covers

/-! ### Labelled calls

Several calls can stand for one thing, the label: its copies. When every copy of a label comes within
`ttl` of the label's start, and labels that share a key start far enough apart, the filter accepts
one copy of every label that has any. -/

section Labels
variable {B : Type*} {ttl now : T} {key : B → K} {start : B → T}

/-- The ideal filter on labelled calls; the output is the label of an accepted call. -/
def labelStep (ttl : T) (key : B → K) (hist : List (K × T)) (a : B × T) : List (K × T) × List B :=
  if Recent ttl hist (key a.1) a.2 then (hist, []) else ((key a.1, a.2) :: hist, [a.1])

omit [IsOrderedAddMonoid T] in
theorem labelStep_eq (ttl : T) (key : B → K) (hist : List (K × T)) (a : B × T) :
    labelStep ttl key hist a = ((windowStep ttl hist (key a.1, a.2)).1,
      ((windowStep ttl hist (key a.1, a.2)).2.filter id).map fun _ => a.1) := by
  rw [labelStep, windowStep]
  split
  · rfl
  · rfl

/-- The call comes less than `ttl` after the start of its label. -/
def OnTime (ttl : T) (start : B → T) (a : B × T) : Prop :=
  start a.1 ≤ a.2 ∧ a.2 < start a.1 + ttl

/-- Two labels that share a key start two windows apart. -/
def Apart (ttl : T) (key : B → K) (start : B → T) (b b' : B) : Prop :=
  key b = key b' → b ≠ b' → start b + (ttl + ttl) ≤ start b' ∨ start b' + (ttl + ttl) ≤ start b

/-- The key and time of a labelled call. -/
def unlabel (key : B → K) (a : B × T) : K × T := (key a.1, a.2)

omit [DecidableEq K] in
/-- After calls `acc` were accepted, a call is recent exactly when its label is among theirs. -/
theorem recent_iff_mem {acc : List (B × T)} {b : B} (hacc : ∀ a ∈ acc, OnTime ttl start a ∧ a.2 ≤ now)
    (hnow : OnTime ttl start (b, now)) (hapart : ∀ a ∈ acc, Apart ttl key start a.1 b) :
    Recent ttl (acc.map (unlabel key)) (key b) now ↔ b ∈ acc.map Prod.fst := by
  obtain ⟨hs, ht⟩ := hnow
  simp only at hs ht
  constructor
  · rintro ⟨e, he, hk, hlt⟩
    obtain ⟨a, ha, rfl⟩ := List.mem_map.mp he
    obtain ⟨⟨hs', ht'⟩, hle⟩ := hacc a ha
    simp only [unlabel] at hk hlt
    by_cases hb : a.1 = b
    · exact List.mem_map.mpr ⟨a, ha, hb⟩
    · -- the copies of another label with this key are all older than the window, or yet to come
      rcases hapart a ha hk hb with h | h <;> grind
  · intro hb
    obtain ⟨a, ha, rfl⟩ := List.mem_map.mp hb
    obtain ⟨⟨hs', ht'⟩, hle⟩ := hacc a ha
    refine ⟨_, List.mem_map_of_mem ha, rfl, ?_⟩
    simp only [unlabel]
    grind

variable [DecidableEq B]

/-- A run after `acc` accepts each label that arrives and is not yet accepted once, and no other. -/
theorem count_labelStep_from : ∀ as acc : List (B × T),
    (∀ a ∈ acc ++ as, OnTime ttl start a) → (∀ a ∈ acc, ∀ c ∈ as, a.2 ≤ c.2) →
      as.Pairwise (fun a c => a.2 ≤ c.2) →
      (∀ a ∈ acc ++ as, ∀ c ∈ acc ++ as, Apart ttl key start a.1 c.1) → ∀ b,
      (outputs (labelStep ttl key) (acc.map (unlabel key)) as).count b
        = if b ∈ as.map Prod.fst ∧ b ∉ acc.map Prod.fst then 1 else 0
  | [], _, _, _, _, _, _ => by simp [outputs]
  | a :: as, acc, htime, hpast, hclock, hapart, b => by
      obtain ⟨hle, hclock'⟩ := List.pairwise_cons.mp hclock
      have hrecent := recent_iff_mem
        (fun c hc => ⟨htime c (List.mem_append_left _ hc), hpast c hc a (List.mem_cons_self ..)⟩)
        (htime a (by simp))
        (fun c hc => hapart c (List.mem_append_left _ hc) a (by simp))
      have hsub : ∀ c ∈ acc ++ as, c ∈ acc ++ a :: as := fun c hc =>
        (List.mem_append.mp hc).elim (List.mem_append_left _)
          fun hc => List.mem_append_right _ (List.mem_cons_of_mem _ hc)
      rw [outputs, labelStep]
      by_cases ha : a.1 ∈ acc.map Prod.fst
      · have ih := count_labelStep_from as acc (fun c hc => htime c (hsub c hc))
          (fun c hc d hd => hpast c hc d (List.mem_cons_of_mem _ hd)) hclock'
          (fun c hc d hd => hapart c (hsub c hc) d (hsub d hd)) b
        rw [if_pos (hrecent.mpr ha), List.nil_append, ih]
        simp only [List.map_cons, List.mem_cons]
        by_cases hb : b = a.1
        · simp only [hb, ha, not_true_eq_false, and_false, if_false]
        · simp only [hb, false_or]
      · have hperm : ∀ c ∈ (a :: acc) ++ as, c ∈ acc ++ a :: as := by
          intro c hc
          rcases List.mem_cons.mp hc with rfl | hc
          · simp
          · exact hsub c hc
        have ih := count_labelStep_from as (a :: acc) (fun c hc => htime c (hperm c hc))
          (fun c hc d hd => (List.mem_cons.mp hc).elim (fun h => h ▸ hle d hd)
            fun hc => hpast c hc d (List.mem_cons_of_mem _ hd)) hclock'
          (fun c hc d hd => hapart c (hperm c hc) d (hperm d hd)) b
        rw [if_neg (fun hr => ha (hrecent.mp hr)), List.count_append]
        refine (congrArg _ ih).trans ?_
        simp only [List.map_cons, List.mem_cons]
        by_cases hb : b = a.1
        · simp [hb, ha, -List.mem_map]
        · simp [hb, Ne.symm hb, -List.mem_map]

/-- From the empty history, every label that arrives is accepted once. -/
theorem count_labelStep (as : List (B × T)) (htime : ∀ a ∈ as, OnTime ttl start a)
    (hclock : as.Pairwise fun a c => a.2 ≤ c.2)
    (hapart : ∀ a ∈ as, ∀ c ∈ as, Apart ttl key start a.1 c.1) (b : B) :
    (outputs (labelStep ttl key) [] as).count b = if b ∈ as.map Prod.fst then 1 else 0 := by
  have h := count_labelStep_from as [] htime (by simp) hclock hapart b
  simpa only [List.map_nil, List.not_mem_nil, not_false_eq_true, and_true] using h

end Labels

end SeeedMote.Lib
