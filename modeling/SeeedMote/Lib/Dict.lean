import Mathlib.Data.Finset.Card

/-! Python's containers. A dictionary is a list of entries in insertion order with pairwise distinct
    keys, the distinctness being part of the value: overwriting a key keeps its position, a new key
    goes to the end. A bounded deque carries its bound the same way. -/

namespace SeeedMote.Lib

/-- A dictionary in insertion order. -/
structure Dict (K V : Type*) where
  entries : List (K × V)
  nodup : (entries.map Prod.fst).Nodup
  deriving DecidableEq

namespace Dict

variable {K V : Type*} [DecidableEq K]

/-! ### Association lists -/

/-- Value of the first entry with key `k`. -/
def assoc (k : K) : List (K × V) → Option V
  | [] => none
  | e :: es => if e.1 = k then some e.2 else assoc k es

/-- Overwrite the first entry with key `k`, or append one. -/
def assign (k : K) (v : V) : List (K × V) → List (K × V)
  | [] => [(k, v)]
  | e :: es => if e.1 = k then (k, v) :: es else e :: assign k v es

theorem assoc_eq_none_iff (k : K) (es : List (K × V)) :
    assoc k es = none ↔ k ∉ es.map Prod.fst := by
  induction es with
  | nil => simp [assoc]
  | cons e es ih =>
    rw [assoc, List.map_cons, List.mem_cons]
    split
    · next hk => simp [hk]
    · next hk => rw [ih, not_or, and_iff_right (Ne.symm hk)]

theorem mem_of_assoc (k : K) (v : V) {es : List (K × V)} (h : assoc k es = some v) :
    (k, v) ∈ es := by
  induction es with
  | nil => simp [assoc] at h
  | cons e es ih =>
    rw [assoc] at h
    split at h
    · next hk =>
      obtain rfl := Option.some.inj h
      exact hk ▸ List.mem_cons_self ..
    · exact List.mem_cons_of_mem _ (ih h)

theorem assoc_of_mem (k : K) (v : V) {es : List (K × V)} (hn : (es.map Prod.fst).Nodup)
    (h : (k, v) ∈ es) : assoc k es = some v := by
  induction es with
  | nil => simp at h
  | cons e es ih =>
    rw [List.map_cons, List.nodup_cons] at hn
    rcases List.mem_cons.mp h with rfl | h
    · exact if_pos rfl
    · have hk : e.1 ≠ k := fun hk => hn.1 (hk ▸ List.mem_map_of_mem h)
      rw [assoc, if_neg hk]
      exact ih hn.2 h

theorem map_fst_assign (k : K) (v : V) (es : List (K × V)) :
    (assign k v es).map Prod.fst =
      if k ∈ es.map Prod.fst then es.map Prod.fst else es.map Prod.fst ++ [k] := by
  induction es with
  | nil => rfl
  | cons e es ih =>
    simp only [assign, List.map_cons, List.mem_cons]
    split
    · next hk => simp [hk]
    · next hk =>
      rw [List.map_cons, ih]
      simp only [Ne.symm hk, false_or]
      split <;> rfl

theorem nodup_assign (k : K) (v : V) (es : List (K × V)) (hn : (es.map Prod.fst).Nodup) :
    ((assign k v es).map Prod.fst).Nodup := by
  rw [map_fst_assign]
  split
  · exact hn
  · next hk =>
    refine List.nodup_append.mpr ⟨hn, List.nodup_singleton k, ?_⟩
    intro a ha b hb hab
    exact hk ((hab.trans (List.mem_singleton.mp hb)) ▸ ha)

theorem assoc_assign (k k' : K) (v : V) (es : List (K × V)) :
    assoc k' (assign k v es) = if k' = k then some v else assoc k' es := by
  induction es with
  | nil =>
    simp only [assign, assoc, eq_comm]
  | cons e es ih =>
    rw [assign]
    split
    · next he =>
      rw [assoc, assoc, he]
      simp only [eq_comm (a := k)]
      split <;> rfl
    · next he =>
      rw [assoc, assoc, ih]
      split
      · next h => rw [if_neg (h ▸ he)]
      · rfl

theorem assign_of_absent (k : K) (v : V) {es : List (K × V)} (h : assoc k es = none) :
    assign k v es = es ++ [(k, v)] := by
  induction es with
  | nil => rfl
  | cons e es ih =>
    rw [assoc] at h
    split at h
    · simp at h
    · next hk => rw [assign, if_neg hk, ih h, List.cons_append]

theorem length_assign_of_present (k : K) (v : V) {w : V} {es : List (K × V)}
    (h : assoc k es = some w) : (assign k v es).length = es.length := by
  induction es with
  | nil => simp [assoc] at h
  | cons e es ih =>
    rw [assoc] at h
    split at h
    · next hk => rw [assign, if_pos hk, List.length_cons, List.length_cons]
    · next hk => rw [assign, if_neg hk, List.length_cons, ih h, List.length_cons]

theorem assign_assign (k : K) (v w : V) (es : List (K × V)) :
    assign k w (assign k v es) = assign k w es := by
  induction es with
  | nil => exact if_pos rfl
  | cons e es ih =>
    rw [assign, assign]
    split
    · exact if_pos rfl
    · next hk => rw [assign, if_neg hk, ih]

theorem assign_same (k : K) (v : V) {es : List (K × V)} (h : assoc k es = some v) :
    assign k v es = es := by
  induction es with
  | nil => simp [assoc] at h
  | cons e es ih =>
    rw [assoc] at h
    split at h
    · next hk =>
      obtain rfl := Option.some.inj h
      rw [assign, if_pos hk, ← hk]
    · next hk => rw [assign, if_neg hk, ih h]

/-! ### Operations -/

/-- The dictionary without entries. -/
def empty : Dict K V := ⟨[], List.nodup_nil⟩

/-- `d.get(k)`. -/
def get? (d : Dict K V) (k : K) : Option V := assoc k d.entries

/-- `d[k] = v`. -/
def set (d : Dict K V) (k : K) (v : V) : Dict K V :=
  ⟨assign k v d.entries, nodup_assign k v d.entries d.nodup⟩

/-- The entries that satisfy `p`, in their order. -/
def filter (p : K → V → Bool) (d : Dict K V) : Dict K V :=
  ⟨d.entries.filter fun e => p e.1 e.2,
    d.nodup.sublist (List.Sublist.map Prod.fst List.filter_sublist)⟩

/-- Every value replaced by `f` of its key and itself. -/
def mapVals (f : K → V → V) (d : Dict K V) : Dict K V :=
  ⟨d.entries.map fun e => (e.1, f e.1 e.2), by
    rw [List.map_map]; exact d.nodup⟩

/-- The keys, in insertion order. -/
def keys (d : Dict K V) : List K := d.entries.map Prod.fst

/-- `len(d)`. -/
def size (d : Dict K V) : ℕ := d.entries.length

@[simp] theorem entries_set (d : Dict K V) (k : K) (v : V) :
    (d.set k v).entries = assign k v d.entries := rfl

@[simp] theorem set_set (d : Dict K V) (k : K) (v w : V) : (d.set k v).set k w = d.set k w := by
  simp only [set, assign_assign]

theorem set_of_get? (d : Dict K V) {k : K} {v : V} (h : d.get? k = some v) : d.set k v = d := by
  cases d with
  | mk entries nodup => simp only [set, assign_same k v h]

theorem size_set_of_present (d : Dict K V) {k : K} {w : V} (v : V) (h : d.get? k = some w) :
    (d.set k v).size = d.size := length_assign_of_present k v h

theorem size_set_of_absent (d : Dict K V) {k : K} (v : V) (h : d.get? k = none) :
    (d.set k v).size = d.size + 1 := by
  rw [size, entries_set, assign_of_absent k v h, List.length_append]; rfl

@[simp] theorem get?_empty (k : K) : (empty : Dict K V).get? k = none := rfl

theorem get?_set (d : Dict K V) (k k' : K) (v : V) :
    (d.set k v).get? k' = if k' = k then some v else d.get? k' := assoc_assign k k' v d.entries

@[simp] theorem get?_set_self (d : Dict K V) (k : K) (v : V) : (d.set k v).get? k = some v := by
  rw [get?_set, if_pos rfl]

theorem get?_set_ne (d : Dict K V) {k k' : K} (v : V) (h : k' ≠ k) :
    (d.set k v).get? k' = d.get? k' := by rw [get?_set, if_neg h]

theorem mem_entries_iff (d : Dict K V) (k : K) (v : V) : (k, v) ∈ d.entries ↔ d.get? k = some v :=
  ⟨assoc_of_mem k v d.nodup, mem_of_assoc k v⟩

theorem mem_keys_set (d : Dict K V) (k k' : K) (v : V) :
    k' ∈ (d.set k v).keys ↔ k' = k ∨ k' ∈ d.keys := by
  rw [keys, entries_set, map_fst_assign]
  split
  · next hk =>
    constructor
    · exact Or.inr
    · rintro (rfl | h)
      · exact hk
      · exact h
  · rw [List.mem_append, List.mem_singleton, or_comm]; rfl

omit [DecidableEq K] in
theorem length_keys (d : Dict K V) : d.keys.length = d.size := List.length_map _

/-- Setting a key leaves the keys in their places. -/
theorem getElem?_keys_set (d : Dict K V) (k : K) (v : V) {i : ℕ} {k' : K}
    (h : d.keys[i]? = some k') : (d.set k v).keys[i]? = some k' := by
  rw [keys] at h
  rw [keys, entries_set, map_fst_assign]
  split
  · exact h
  · rw [List.getElem?_append_left (List.getElem?_eq_some_iff.mp h).1]
    exact h

theorem toFinset_keys_set (d : Dict K V) (k : K) (v : V) :
    (d.set k v).keys.toFinset = insert k d.keys.toFinset := by
  ext k'
  rw [List.mem_toFinset, mem_keys_set, Finset.mem_insert, List.mem_toFinset]

theorem card_keys (d : Dict K V) : d.keys.toFinset.card = d.size := by
  rw [keys, List.toFinset_card_of_nodup d.nodup, List.length_map, size]

/-- Keys drawn from a finite set that has one more member are fewer than the set's members. -/
theorem size_lt_card {d : Dict K V} {A : Finset K} (hsub : ∀ k ∈ d.keys, k ∈ A) {k : K} (hk : k ∈ A)
    (habs : d.get? k = none) : d.size < A.card := by
  have hnot : k ∉ d.keys := (assoc_eq_none_iff k d.entries).mp habs
  rw [← card_keys]
  refine Finset.card_lt_card (Finset.ssubset_iff_of_subset ?_ |>.mpr ⟨k, hk, ?_⟩)
  · intro a ha; exact hsub a (List.mem_toFinset.mp ha)
  · simpa using hnot

theorem assoc_map {W : Type*} (f : K → V → W) (k : K) (es : List (K × V)) :
    assoc k (es.map fun e => (e.1, f e.1 e.2)) = (assoc k es).map (f k) := by
  induction es with
  | nil => rfl
  | cons e es ih =>
    rw [List.map_cons, assoc, assoc, ih]
    split
    · next hk => rw [Option.map_some, ← hk]
    · rfl

theorem get?_mapVals (f : K → V → V) (d : Dict K V) (k : K) :
    (d.mapVals f).get? k = (d.get? k).map (f k) := assoc_map f k d.entries

/-- A filtered dictionary finds `v` under `k` exactly when it was there and `p` keeps it. -/
theorem get?_filter_eq_some_iff (p : K → V → Bool) (d : Dict K V) (k : K) (v : V) :
    (d.filter p).get? k = some v ↔ d.get? k = some v ∧ p k v = true := by
  rw [← mem_entries_iff, ← mem_entries_iff]
  exact List.mem_filter

end Dict

/-! ### Bounded deques -/

/-- `deque(maxlen=maxlen)`, leftmost item first. -/
structure Deque (A : Type*) where
  maxlen : ℕ
  items : List A
  length_le : items.length ≤ maxlen
  deriving DecidableEq

namespace Deque

variable {A : Type*}

def empty (maxlen : ℕ) : Deque A := ⟨maxlen, [], Nat.zero_le _⟩

/-- `appendleft`: a full deque drops its last item. -/
def appendleft (a : A) (q : Deque A) : Deque A :=
  ⟨q.maxlen, (a :: q.items).take q.maxlen, List.length_take_le _ _⟩

@[simp] theorem items_appendleft (a : A) (q : Deque A) :
    (q.appendleft a).items = (a :: q.items).take q.maxlen := rfl

/-- Dropping overlong items early makes no difference. -/
theorem take_cons_take (a : A) (n : ℕ) (xs : List A) :
    (a :: xs.take n).take n = (a :: xs).take n := by
  cases n with
  | zero => rfl
  | succ n => rw [List.take_succ_cons, List.take_succ_cons, List.take_take, Nat.min_eq_left n.le_succ]

end Deque

end SeeedMote.Lib
