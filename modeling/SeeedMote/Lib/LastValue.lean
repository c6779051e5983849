import Mathlib.Data.List.Chain
import SeeedMote.Lib.Run

/-! The ideal change filter: remember the last value under each key and let an item through exactly
    when its key has no last value yet or a different one. On a stream made of blocks, each block a
    repetition of one value of one key, it lets exactly one item of every block through as long as
    neighbouring blocks differ. -/

namespace SeeedMote.Lib

variable {A K V : Type*} [DecidableEq K]

/-- `last` with `v` recorded under `k`. -/
def remember (last : K → Option V) (k : K) (v : V) : K → Option V :=
  fun k' => if k' = k then some v else last k'

@[simp] theorem remember_self (last : K → Option V) (k : K) (v : V) :
    remember last k v k = some v := if_pos rfl

variable [DecidableEq V]

/-- One step of the ideal change filter. -/
def changeStep (key : A → K) (val : A → V) (last : K → Option V) (a : A) :
    (K → Option V) × List A :=
  if last (key a) = some (val a) then (last, [])
  else (remember last (key a) (val a), [a])

theorem changeStep_out (key : A → K) (val : A → V) (last : K → Option V) (a : A) :
    (changeStep key val last a).2 = if last (key a) = some (val a) then [] else [a] := by
  rw [changeStep]; split <;> rfl

/-- Whether forwarded or swallowed, the value is the last one of its key afterwards. -/
theorem changeStep_last (key : A → K) (val : A → V) (last : K → Option V) (a : A) (k : K) :
    (changeStep key val last a).1 k = if k = key a then some (val a) else last k := by
  rw [changeStep]
  split
  · next h =>
    by_cases hk : k = key a
    · rw [if_pos hk, hk]; exact h
    · rw [if_neg hk]
  · rfl

/-- Repetitions of the remembered value are all swallowed. -/
theorem outputs_change_repeat (key : A → K) (val : A → V) {last : K → Option V} {k : K} {v : V}
    (hl : last k = some v) : ∀ (as : List A), (∀ a ∈ as, key a = k ∧ val a = v) →
      outputs (changeStep key val) last as = [] ∧
        finalState (changeStep key val) last as = last := by
  intro as h
  induction as with
  | nil => exact ⟨rfl, rfl⟩
  | cons a as ih =>
    obtain ⟨⟨hk, hv⟩, has⟩ := List.forall_mem_cons.mp h
    have hstep : changeStep key val last a = (last, []) := by
      rw [changeStep, hk, hv, if_pos hl]
    rw [outputs, finalState, hstep]
    exact ih has

/-- A block of one new value lets its first item through and nothing else. -/
theorem outputs_change_block (key : A → K) (val : A → V) {last : K → Option V} {k : K} {v : V}
    (hl : last k ≠ some v) {a : A} {as : List A} (h : ∀ b ∈ a :: as, key b = k ∧ val b = v) :
    outputs (changeStep key val) last (a :: as) = [a] ∧
      finalState (changeStep key val) last (a :: as) = remember last k v := by
  obtain ⟨hk, hv⟩ := h a (List.mem_cons_self ..)
  have hstep : changeStep key val last a = (remember last k v, [a]) := by
    rw [changeStep, hk, hv, if_neg hl]
  obtain ⟨ho, hf⟩ := outputs_change_repeat key val (remember_self last k v) as
    fun b hb => h b (List.mem_cons_of_mem _ hb)
  exact ⟨by rw [outputs, hstep]; simpa using ho, by rw [finalState, hstep]; exact hf⟩

/-- A stream of blocks under one key. If the values of neighbouring blocks differ, the first item of
    every block gets through and nothing else; otherwise too few items do. -/
theorem outputs_change_blocks {B : Type*} (key : A → K) (val : A → V) (block : B → List A)
    (v : B → V) {k : K} : ∀ (bs : List B) (last : K → Option V) {v₀ : V}, last k = some v₀ →
      (∀ b ∈ bs, ∀ a ∈ block b, key a = k ∧ val a = v b) →
      ((v₀ :: (bs.filter fun b => block b ≠ []).map v).IsChain (· ≠ ·) ∧
        outputs (changeStep key val) last (bs.flatMap block)
          = bs.filterMap fun b => (block b).head?) ∨
      (¬(v₀ :: (bs.filter fun b => block b ≠ []).map v).IsChain (· ≠ ·) ∧
        (outputs (changeStep key val) last (bs.flatMap block)).length
          < (bs.filterMap fun b => (block b).head?).length) := by
  intro bs
  induction bs with
  | nil =>
    intro last v₀ _ _
    exact .inl ⟨.singleton _, rfl⟩
  | cons b bs ih =>
    intro last v₀ hl hblock
    obtain ⟨hhead, hrest⟩ := List.forall_mem_cons.mp hblock
    rw [List.flatMap_cons, outputs_append, List.filterMap_cons]
    cases hb : block b with
    | nil =>
      rw [List.filter_cons_of_neg (by simp [hb])]
      exact ih last hl hrest
    | cons a as =>
      rw [hb] at hhead
      rw [List.filter_cons_of_pos (by simp [hb]), List.map_cons, List.isChain_cons_cons,
        List.head?_cons]
      rcases eq_or_ne v₀ (v b) with rfl | hne
      · -- the whole block is swallowed
        obtain ⟨hout, hfinal⟩ := outputs_change_repeat key val hl (a :: as) hhead
        rw [hout, hfinal, List.nil_append]
        refine .inr ⟨fun h => h.1 rfl, ?_⟩
        rcases ih last hl hrest with ⟨-, heq⟩ | ⟨-, hlt⟩
        · rw [heq]
          exact Nat.lt_succ_self _
        · exact hlt.trans (Nat.lt_succ_self _)
      · obtain ⟨hout, hfinal⟩ := outputs_change_block key val
          (fun h => hne (Option.some.inj (hl.symm.trans h))) hhead
        rw [hout, hfinal, List.singleton_append]
        rcases ih _ (remember_self last k (v b)) hrest with ⟨hchain, heq⟩ | ⟨hchain, hlt⟩
        · exact .inl ⟨⟨hne, hchain⟩, by rw [heq]⟩
        · exact .inr ⟨fun h => hchain h.2, Nat.succ_lt_succ hlt⟩

end SeeedMote.Lib
