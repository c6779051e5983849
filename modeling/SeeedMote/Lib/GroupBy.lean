import Mathlib.Algebra.BigOperators.Group.List.Basic
import Mathlib.Algebra.Ring.Nat
import SeeedMote.Lib.Dict

/-! Grouping a list by a key, as a loop over the list does it that keeps one dictionary entry per key:

        for x in xs:  d[key(x)] = upd(d.get(key(x)), x)

    An entry is the fold of `upd` over its own group, and the keys stand in the order in which they
    first appear. Counting, keeping the first element and keeping the largest value are instances. -/

namespace SeeedMote.Lib.Dict

variable {A K V : Type*} [DecidableEq K]

/-- One turn of the loop. -/
def upsert (key : A → K) (upd : Option V → A → V) (d : Dict K V) (x : A) : Dict K V :=
  d.set (key x) (upd (d.get? (key x)) x)

/-- The whole loop. -/
def groupBy (key : A → K) (upd : Option V → A → V) (xs : List A) : Dict K V :=
  xs.foldl (upsert key upd) empty

section Groups
variable (key : A → K) (upd : Option V → A → V)

theorem get?_foldl_upsert (k : K) (xs : List A) (d : Dict K V) :
    (xs.foldl (upsert key upd) d).get? k
      = (xs.filter (key · = k)).foldl (fun o x => some (upd o x)) (d.get? k) := by
  induction xs generalizing d with
  | nil => rfl
  | cons x xs ih =>
    rw [List.foldl_cons, ih, upsert]
    by_cases hk : key x = k
    · rw [List.filter_cons_of_pos (by simpa using hk), List.foldl_cons, hk, get?_set_self]
    · rw [List.filter_cons_of_neg (by simpa using hk), get?_set_ne _ _ (Ne.symm hk)]

/-- The entry of a key comes from its group alone. -/
theorem get?_groupBy (k : K) (xs : List A) :
    (groupBy key upd xs).get? k
      = (xs.filter (key · = k)).foldl (fun o x => some (upd o x)) none := by
  rw [groupBy, get?_foldl_upsert, get?_empty]

theorem keys_upsert (d : Dict K V) (x : A) :
    (upsert key upd d x).keys = if key x ∈ d.keys then d.keys else d.keys ++ [key x] := by
  rw [upsert, keys, entries_set, map_fst_assign]
  rfl

theorem keys_foldl_upsert [BEq K] [LawfulBEq K] (xs : List A) (d : Dict K V) :
    (xs.foldl (upsert key upd) d).keys
      = d.keys ++ ((xs.map key).filter (· ∉ d.keys)).eraseDups := by
  induction xs generalizing d with
  | nil => simp
  | cons x xs ih =>
    rw [List.foldl_cons, ih, keys_upsert, List.map_cons]
    by_cases hk : key x ∈ d.keys
    · rw [if_pos hk, List.filter_cons_of_neg (by simpa using hk)]
    · have hrest : (xs.map key).filter (· ∉ d.keys ++ [key x])
          = ((xs.map key).filter (· ∉ d.keys)).filter fun b => !b == key x := by
        rw [List.filter_filter]
        congr 1
        funext b
        by_cases hb : b = key x <;> simp [hb]
      rw [if_neg hk, List.filter_cons_of_pos (by simpa using hk), List.eraseDups_cons, hrest,
        List.append_assoc]
      rfl

/-- The keys in the order of their first appearance. -/
theorem keys_groupBy [BEq K] [LawfulBEq K] (xs : List A) :
    (groupBy key upd xs).keys = (xs.map key).eraseDups := by
  rw [groupBy, keys_foldl_upsert]
  simp [keys, empty]

theorem mem_keys_groupBy (xs : List A) (k : K) :
    k ∈ (groupBy key upd xs).keys ↔ ∃ x ∈ xs, key x = k := by
  rw [keys_groupBy, List.mem_eraseDups, List.mem_map]

end Groups

/-! ### Instances -/

section Instances
variable (key : A → K)

/-- `counts[key] = (counts[key] ?? 0) + 1`. -/
def countUpd (n : Option ℕ) (_ : A) : ℕ := n.getD 0 + 1

/-- The first element of the group stays. -/
def firstUpd (first : Option A) (x : A) : A := first.getD x

theorem foldl_countUpd (xs : List A) (n : Option ℕ) :
    xs.foldl (fun o x => some (countUpd o x)) n
      = if xs = [] then n else some (n.getD 0 + xs.length) := by
  induction xs generalizing n with
  | nil => rfl
  | cons x xs ih =>
    rw [List.foldl_cons, ih, if_neg (List.cons_ne_nil x xs), countUpd, List.length_cons]
    by_cases hxs : xs = []
    · rw [if_pos hxs, hxs]
      rfl
    · rw [if_neg hxs, Option.getD_some]
      congr 1
      omega

theorem get?_counts (xs : List A) (k : K) (n : ℕ) :
    (groupBy key countUpd xs).get? k = some n ↔ 0 < n ∧ xs.countP (key · = k) = n := by
  rw [get?_groupBy, foldl_countUpd, List.countP_eq_length_filter]
  split
  · next hnil => simp only [hnil, List.length_nil, reduceCtorEq, false_iff]; omega
  · next hcons =>
    have hpos := List.length_pos_iff.mpr hcons
    simp only [Option.getD_none, Nat.zero_add, Option.some.injEq]
    omega

theorem sum_assign_succ (k : K) (es : List (K × ℕ)) :
    ((assign k ((assoc k es).getD 0 + 1) es).map Prod.snd).sum = (es.map Prod.snd).sum + 1 := by
  induction es with
  | nil => rfl
  | cons e es ih =>
    by_cases hk : e.1 = k
    · simp only [assign, assoc, if_pos hk, Option.getD_some, List.map_cons, List.sum_cons]
      omega
    · simp only [assign, assoc, if_neg hk, List.map_cons, List.sum_cons, ih]
      omega

/-- The counts add up to the length. -/
theorem sum_counts (xs : List A) :
    ((groupBy key countUpd xs).entries.map Prod.snd).sum = xs.length := by
  have hfold : ∀ (xs : List A) (d : Dict K ℕ),
      ((xs.foldl (upsert key countUpd) d).entries.map Prod.snd).sum
        = (d.entries.map Prod.snd).sum + xs.length := by
    intro xs
    induction xs with
    | nil => intro d; rfl
    | cons x xs ih =>
      intro d
      rw [List.foldl_cons, ih, upsert, entries_set, countUpd, get?, sum_assign_succ,
        List.length_cons]
      omega
  rw [groupBy, hfold]
  exact Nat.zero_add _

theorem foldl_firstUpd (xs : List A) (first : Option A) :
    xs.foldl (fun o x => some (firstUpd o x)) first = first.or xs.head? := by
  induction xs generalizing first with
  | nil => cases first <;> rfl
  | cons x xs ih =>
    rw [List.foldl_cons, ih]
    cases first <;> rfl

theorem get?_first (xs : List A) (k : K) :
    (groupBy key firstUpd xs).get? k = xs.find? (key · = k) := by
  rw [get?_groupBy, foldl_firstUpd, Option.none_or, List.head?_filter]

end Instances

end SeeedMote.Lib.Dict
