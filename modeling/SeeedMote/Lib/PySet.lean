import Mathlib.Data.List.Nodup
import Mathlib.Data.List.Perm.Basic

/-! Python's `set` as its hash table: slots that are free or hold a member, no member twice. An
    iterator remembers the size it started with and a position in the table; its next step fails
    when the size differs and otherwise takes the first member at or after its position. An insertion
    fills a free slot, or rebuilds the table in an order of its own. -/

namespace SeeedMote.Lib

variable {A : Type*}

structure PySet (A : Type*) where
  slots : List (Option A)
  distinct : (slots.filterMap id).Nodup
  deriving DecidableEq

namespace PySet

/-- The members, in table order. -/
def members (s : PySet A) : List A := s.slots.filterMap id

/-- `len(s)`. -/
def used (s : PySet A) : ℕ := s.members.length

/-- Slot `i` holds `a`. -/
def At (s : PySet A) (i : ℕ) (a : A) : Prop := s.slots[i]? = some (some a)

/-! ### Iteration -/

/-- First member of the slots `ss`, the first of which has index `i`. -/
def scan : List (Option A) → ℕ → Option (ℕ × A)
  | [], _ => none
  | some a :: _, i => some (i, a)
  | none :: ss, i => scan ss (i + 1)

/-- First member at or after position `pos`, with its slot. -/
def next? (s : PySet A) (pos : ℕ) : Option (ℕ × A) := scan (s.slots.drop pos) pos

theorem scan_eq_some : ∀ {ss : List (Option A)} {i j : ℕ} {a : A}, scan ss i = some (j, a) →
    ∃ k, j = i + k ∧ ss[k]? = some (some a) ∧ ∀ l < k, ∀ b, ss[l]? ≠ some (some b)
  | [], _, _, _, h => by simp [scan] at h
  | some b :: ss, i, j, a, h => by
      obtain ⟨rfl, rfl⟩ := Prod.mk.inj (Option.some.inj h)
      exact ⟨0, rfl, rfl, by simp⟩
  | none :: ss, i, j, a, h => by
      rw [scan] at h
      obtain ⟨k, rfl, hk, hl⟩ := scan_eq_some h
      refine ⟨k + 1, by omega, by simpa using hk, fun l hlt b => ?_⟩
      cases l with
      | zero => simp
      | succ l => simpa using hl l (by omega) b

theorem scan_eq_none : ∀ {ss : List (Option A)} {i : ℕ}, scan ss i = none →
    ∀ (l : ℕ) (b : A), ss[l]? ≠ some (some b)
  | [], _, _, l, b => by simp
  | some a :: ss, i, h, _, _ => by simp [scan] at h
  | none :: ss, i, h, l, b => by
      rw [scan] at h
      cases l with
      | zero => simp
      | succ l => simpa using scan_eq_none h l b

theorem next?_eq_some {s : PySet A} {pos j : ℕ} {a : A} (h : s.next? pos = some (j, a)) :
    pos ≤ j ∧ s.At j a ∧ ∀ i b, pos ≤ i → i < j → ¬s.At i b := by
  obtain ⟨k, rfl, hk, hl⟩ := scan_eq_some h
  refine ⟨Nat.le_add_right _ _, by simpa [At, List.getElem?_drop] using hk, fun i b hi hij hat => ?_⟩
  obtain ⟨l, rfl⟩ := Nat.exists_eq_add_of_le hi
  exact hl l (by omega) b (by simpa [At, List.getElem?_drop] using hat)

theorem next?_eq_none {s : PySet A} {pos : ℕ} (h : s.next? pos = none) (i : ℕ) (b : A)
    (hi : pos ≤ i) : ¬s.At i b := by
  intro hat
  obtain ⟨l, rfl⟩ := Nat.exists_eq_add_of_le hi
  exact scan_eq_none h l b (by simpa [At, List.getElem?_drop] using hat)

/-! ### Members and slots -/

theorem mem_members_iff (s : PySet A) (a : A) : a ∈ s.members ↔ ∃ i, s.At i a := by
  simp only [members, List.mem_filterMap, id, exists_eq_right, At]
  exact List.mem_iff_getElem?

theorem At.lt_length {s : PySet A} {i : ℕ} {a : A} (h : s.At i a) : i < s.slots.length :=
  (List.getElem?_eq_some_iff.mp h).1

theorem slot_unique : ∀ {ss : List (Option A)} {i j : ℕ} {a : A}, (ss.filterMap id).Nodup →
    ss[i]? = some (some a) → ss[j]? = some (some a) → i = j
  | [], i, _, _, _, h, _ => by simp at h
  | o :: ss, 0, 0, _, _, _, _ => rfl
  | o :: ss, i + 1, j + 1, a, hn, hi, hj => by
      have htail : (ss.filterMap id).Nodup :=
        hn.sublist (List.Sublist.filterMap id (List.sublist_cons_self o ss))
      exact congrArg (· + 1) (slot_unique (a := a) htail (by simpa using hi) (by simpa using hj))
  | o :: ss, 0, j + 1, a, hn, hi, hj => by
      obtain rfl : o = some a := by simpa using hi
      have hmem : a ∈ ss.filterMap id :=
        List.mem_filterMap.mpr ⟨some a, List.mem_of_getElem? (by simpa using hj), rfl⟩
      exact absurd hmem (List.nodup_cons.mp (by simpa using hn)).1
  | o :: ss, i + 1, 0, a, hn, hi, hj => by
      obtain rfl : o = some a := by simpa using hj
      have hmem : a ∈ ss.filterMap id :=
        List.mem_filterMap.mpr ⟨some a, List.mem_of_getElem? (by simpa using hi), rfl⟩
      exact absurd hmem (List.nodup_cons.mp (by simpa using hn)).1

/-- A member has one slot. -/
theorem At.unique {s : PySet A} {i j : ℕ} {a : A} (hi : s.At i a) (hj : s.At j a) : i = j :=
  slot_unique s.distinct hi hj

/-- A slot has one member. -/
theorem At.inj {s : PySet A} {i : ℕ} {a b : A} (ha : s.At i a) (hb : s.At i b) : a = b :=
  Option.some.inj (Option.some.inj (ha.symm.trans hb))

/-! ### Updates -/

theorem filterMap_set_perm (a : A) : ∀ {ss : List (Option A)} {i : ℕ}, ss[i]? = some none →
    ((ss.set i (some a)).filterMap id).Perm (a :: ss.filterMap id)
  | [], i, h => by simp at h
  | o :: ss, 0, h => by
      obtain rfl : o = none := by simpa using h
      simp
  | o :: ss, i + 1, h => by
      have ih := filterMap_set_perm a (by simpa using h : ss[i]? = some none)
      cases o with
      | none => simpa using ih
      | some b => simpa using (ih.cons b).trans (List.Perm.swap a b _)

variable [DecidableEq A]

/-- `add` of a new member into the free slot `i`. -/
def insertAt (s : PySet A) (i : ℕ) (a : A) : Option (PySet A) :=
  if h : s.slots[i]? = some none ∧ a ∉ s.members then
    some ⟨s.slots.set i (some a),
      (filterMap_set_perm a h.1).nodup_iff.mpr (List.nodup_cons.mpr ⟨h.2, s.distinct⟩)⟩
  else none

/-- `add` of a new member by rebuilding the table into `slots`. -/
def rebuildWith (s : PySet A) (slots : List (Option A)) (a : A) : Option (PySet A) :=
  if h : (slots.filterMap id).Perm (a :: s.members) ∧ a ∉ s.members then
    some ⟨slots, h.1.nodup_iff.mpr (List.nodup_cons.mpr ⟨h.2, s.distinct⟩)⟩
  else none

omit [DecidableEq A] in
theorem filterMap_map_filter (p : A → Bool) : ∀ ss : List (Option A),
    (ss.map (Option.filter p)).filterMap id = (ss.filterMap id).filter p
  | [] => rfl
  | none :: ss => by
      rw [List.map_cons, Option.filter_none, List.filterMap_cons_none rfl,
        List.filterMap_cons_none rfl, filterMap_map_filter p ss]
  | some a :: ss => by
      rw [List.map_cons, List.filterMap_cons_some (b := a) (a := some a) rfl, Option.filter_some]
      by_cases h : p a = true
      · rw [if_pos h, List.filterMap_cons_some (f := id) (b := a) rfl, List.filter_cons_of_pos h,
          filterMap_map_filter p ss]
      · rw [if_neg h, List.filterMap_cons_none rfl, List.filter_cons_of_neg h,
          filterMap_map_filter p ss]

/-- The members that satisfy `p`, in their slots. -/
def filter (p : A → Bool) (s : PySet A) : PySet A :=
  ⟨s.slots.map (Option.filter p), by rw [filterMap_map_filter]; exact s.distinct.filter p⟩

theorem insertAt_spec {s s' : PySet A} {i : ℕ} {a : A} (h : s.insertAt i a = some s') :
    a ∉ s.members ∧ s'.slots.length = s.slots.length ∧
      ∀ j b, s'.At j b ↔ (j = i ∧ b = a) ∨ s.At j b := by
  rw [insertAt] at h
  split at h
  · next hc =>
    obtain rfl := Option.some.inj h
    refine ⟨hc.2, List.length_set, ?_⟩
    intro j b
    have hlt := (List.getElem?_eq_some_iff.mp hc.1).1
    by_cases hj : j = i
    · subst hj
      simp only [At, List.getElem?_set_self hlt, Option.some.injEq, true_and, hc.1, reduceCtorEq,
        or_false]
      exact eq_comm
    · simp [At, List.getElem?_set_ne (Ne.symm hj), hj]
  · simp at h

omit [DecidableEq A] in
theorem filter_at (p : A → Bool) (s : PySet A) (i : ℕ) (a : A) :
    (s.filter p).At i a ↔ s.At i a ∧ p a = true := by
  simp only [At, filter, List.getElem?_map, Option.map_eq_some_iff]
  constructor
  · rintro ⟨o, ho, hf⟩
    obtain ⟨rfl, hp⟩ := Option.filter_eq_some_iff.mp hf
    exact ⟨ho, hp⟩
  · rintro ⟨ho, hp⟩
    exact ⟨some a, ho, by rw [Option.filter_some, if_pos hp]⟩

omit [DecidableEq A] in
@[simp] theorem length_slots_filter (p : A → Bool) (s : PySet A) :
    (s.filter p).slots.length = s.slots.length := List.length_map ..

omit [DecidableEq A] in
theorem mem_filter (p : A → Bool) (s : PySet A) (a : A) :
    a ∈ (s.filter p).members ↔ a ∈ s.members ∧ p a = true := by
  simp only [mem_members_iff, filter_at, exists_and_right]

end PySet

end SeeedMote.Lib
