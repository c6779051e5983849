import SeeedMote.Gateway.OneMote

/-! The dedup table over a whole run, slot by slot. Used slots fill up from the front and are never
    given back, so a slot stands for one mote from its claim on:

        slot     0       1             k-1      k      …      31
               addr₀   addr₁    …    addrₖ₋₁   free    …     free

    In such a table the one pass of `find_or_add_dedup`, which looks for a match and for a free slot
    at once, finds the slot of an address wherever it is. -/

namespace SeeedMote.Gateway
open Lib

/-! ### Slots -/

/-- Slot `i` is used, by `m`. -/
def DedupTable.UsedBy (t : DedupTable) (i : ℕ) (m : BleAddr) : Prop :=
  ∃ p, t.slots[i]? = some ⟨m, p, true⟩

/-- Slot `i` is free. -/
def DedupTable.Free (t : DedupTable) (i : ℕ) : Prop := ∃ s, t.slots[i]? = some s ∧ s.used = false

/-- Slot `i` is the first free one. -/
def DedupTable.FirstFree (t : DedupTable) (i : ℕ) : Prop := t.Free i ∧ ∀ j < i, ¬t.Free j

/-- The used slots come first, and no two are used by the same address. -/
structure DedupTable.WellFormed (t : DedupTable) : Prop where
  used_first : ∀ i j m, i ≤ j → t.UsedBy j m → ∃ m', t.UsedBy i m'
  distinct : ∀ i j m, t.UsedBy i m → t.UsedBy j m → i = j

/-- A used slot keeps its address. -/
def KeepsAddresses (t t' : DedupTable) : Prop := ∀ i m, t.UsedBy i m → t'.UsedBy i m

/-- What `find_or_add_dedup` does for `addr`: it returns the slot of the address, else it claims the
    first free slot, else it returns -1; no other slot changes. -/
structure FindsOrAdds (t : DedupTable) (addr : BleAddr) : Prop where
  found : ∀ i, t.UsedBy i addr → findOrAddDedup t addr = (some i, t)
  claimed : (∀ i, ¬t.UsedBy i addr) → ∀ i, t.FirstFree i →
    findOrAddDedup t addr = (some i, t.setSlot i ⟨addr, 0xFF, true⟩)
  none_iff : (findOrAddDedup t addr).1 = none ↔ ∀ i < maxMotes, ∃ m ≠ addr, t.UsedBy i m
  unchanged : ∀ i, (findOrAddDedup t addr).2.slots[i]? ≠ t.slots[i]? →
    (findOrAddDedup t addr).1 = some i ∧ t.Free i

/-! ### Slots of a table that holds a dictionary -/

theorem rep_slot {t : DedupTable} {d : Dict BleAddr UInt8} (h : Rep t d) (i : ℕ) :
    t.slots[i]? = if i < d.size then (d.entries[i]?).map usedSlot
      else if i < maxMotes then some bootSlot else none := by
  rw [h.slots_eq, slotsOf, List.getElem?_append, List.length_map, List.getElem?_map,
    List.getElem?_replicate]
  have hle := h.size_le
  rw [Dict.size] at hle ⊢
  split
  · rfl
  · congr 1
    rw [eq_iff_iff]
    omega

/-- The used slots are the keys, in order. -/
theorem usedBy_iff {t : DedupTable} {d : Dict BleAddr UInt8} (h : Rep t d) {i : ℕ} {m : BleAddr} :
    t.UsedBy i m ↔ d.keys[i]? = some m := by
  rw [DedupTable.UsedBy, rep_slot h, Dict.keys, List.getElem?_map]
  split
  · next hi =>
    rw [Dict.size] at hi
    simp [List.getElem?_eq_getElem hi, usedSlot]
  · next hi =>
    rw [List.getElem?_eq_none (Nat.le_of_not_lt hi)]
    split
    · simp [bootSlot]
    · simp

theorem free_iff {t : DedupTable} {d : Dict BleAddr UInt8} (h : Rep t d) {i : ℕ} :
    t.Free i ↔ d.size ≤ i ∧ i < maxMotes := by
  rw [DedupTable.Free, rep_slot h]
  split
  · next hi =>
    rw [Dict.size] at hi ⊢
    simp only [List.getElem?_eq_getElem hi, Option.map_some, Option.some.injEq, exists_eq_left',
      usedSlot]
    constructor
    · intro hused
      simp at hused
    · rintro ⟨hle, -⟩
      omega
  · next hi =>
    split
    · next hlt => simp [bootSlot, Nat.le_of_not_lt hi, hlt]
    · next hge => simp [hge]

theorem wellFormed_of_rep {t : DedupTable} {d : Dict BleAddr UInt8} (h : Rep t d) :
    t.WellFormed := by
  refine ⟨?_, ?_⟩
  · intro i j m hij hj
    rw [usedBy_iff h] at hj
    obtain ⟨hlt, -⟩ := List.getElem?_eq_some_iff.mp hj
    exact ⟨d.keys[i], (usedBy_iff h).mpr (List.getElem?_eq_getElem (by omega))⟩
  · intro i j m hi hj
    rw [usedBy_iff h] at hi hj
    obtain ⟨hlt, -⟩ := List.getElem?_eq_some_iff.mp hi
    exact (List.getElem?_inj hlt d.nodup).mp (hi.trans hj.symm)

/-- The slots after the used ones are free, up to the last. -/
theorem firstFree_iff {t : DedupTable} {d : Dict BleAddr UInt8} (h : Rep t d) {i : ℕ} :
    t.FirstFree i ↔ i = d.size ∧ d.size < maxMotes := by
  simp only [DedupTable.FirstFree, free_iff h]
  constructor
  · rintro ⟨⟨hle, hlt⟩, hfirst⟩
    rcases hle.eq_or_lt with rfl | hgt
    · exact ⟨rfl, hlt⟩
    · exact absurd ⟨le_refl _, hgt.trans hlt⟩ (hfirst _ hgt)
  · rintro ⟨rfl, hlt⟩
    refine ⟨⟨le_refl _, hlt⟩, ?_⟩
    intro j hj
    omega

/-- No slot is used by an address without an entry. -/
theorem not_usedBy_of_absent {t : DedupTable} {d : Dict BleAddr UInt8} (h : Rep t d)
    {addr : BleAddr} (hp : d.get? addr = none) (i : ℕ) : ¬t.UsedBy i addr := by
  rw [usedBy_iff h]
  intro hi
  have hmem : addr ∈ d.keys := List.mem_of_getElem? hi
  exact (Dict.assoc_eq_none_iff addr d.entries).mp hp hmem

theorem findsOrAdds_present {t : DedupTable} {d : Dict BleAddr UInt8} (h : Rep t d) {addr : BleAddr}
    {p : UInt8} (hp : d.get? addr = some p) : FindsOrAdds t addr := by
  obtain ⟨j, hj⟩ := keyIdx_of_assoc hp
  have hrun := findOrAdd_present h hj
  have hused : t.UsedBy j addr := ⟨p, (slot_spec h hj hp).1⟩
  have hkey := (usedBy_iff h).mp hused
  refine ⟨?_, ?_, ?_, ?_⟩
  · intro i hi
    rw [hrun, (wellFormed_of_rep h).distinct i j addr hi hused]
  · intro hnone
    exact absurd hused (hnone j)
  · rw [hrun]
    constructor
    · intro hnone
      simp at hnone
    · intro hall
      have hlt : j < d.keys.length := (List.getElem?_eq_some_iff.mp hkey).1
      rw [Dict.length_keys] at hlt
      obtain ⟨m, hm, hmj⟩ := hall j (hlt.trans_le h.size_le)
      have hsame := ((usedBy_iff h).mp hmj).symm.trans hkey
      exact absurd (Option.some.inj hsame) hm
  · intro i hi
    rw [hrun] at hi
    exact absurd rfl hi

theorem findsOrAdds_room {t : DedupTable} {d : Dict BleAddr UInt8} (h : Rep t d) {addr : BleAddr}
    (hp : d.get? addr = none) (hsize : d.size < maxMotes) : FindsOrAdds t addr := by
  have hrun := findOrAdd_claims h hp hsize
  refine ⟨?_, ?_, ?_, ?_⟩
  · intro i hi
    exact absurd hi (not_usedBy_of_absent h hp i)
  · intro _ i hi
    obtain ⟨rfl, -⟩ := (firstFree_iff h).mp hi
    exact hrun
  · rw [hrun]
    constructor
    · intro hnone
      simp at hnone
    · intro hall
      obtain ⟨m, -, hm⟩ := hall d.size hsize
      rw [usedBy_iff h, List.getElem?_eq_none d.length_keys.le] at hm
      simp at hm
  · intro i hi
    rw [hrun] at hi ⊢
    rcases eq_or_ne i d.size with rfl | hne
    · exact ⟨rfl, (free_iff h).mpr ⟨le_refl _, hsize⟩⟩
    · rw [DedupTable.slots_setSlot, List.getElem?_set_ne (Ne.symm hne)] at hi
      exact absurd rfl hi

theorem findsOrAdds_full {t : DedupTable} {d : Dict BleAddr UInt8} (h : Rep t d) {addr : BleAddr}
    (hp : d.get? addr = none) (hsize : d.size = maxMotes) : FindsOrAdds t addr := by
  have hrun := findOrAdd_full h hp hsize.not_lt
  refine ⟨?_, ?_, ?_, ?_⟩
  · intro i hi
    exact absurd hi (not_usedBy_of_absent h hp i)
  · intro _ i hi
    obtain ⟨-, hlt⟩ := (firstFree_iff h).mp hi
    exact absurd hsize hlt.ne
  · rw [hrun]
    refine ⟨fun _ => ?_, fun _ => rfl⟩
    intro i hi
    have hlt : i < d.keys.length := by rwa [Dict.length_keys, hsize]
    have hused := (usedBy_iff h).mpr (List.getElem?_eq_getElem hlt)
    refine ⟨d.keys[i], ?_, hused⟩
    intro heq
    exact not_usedBy_of_absent h hp i (heq ▸ hused)
  · intro i hi
    rw [hrun] at hi
    exact absurd rfl hi

theorem findsOrAdds_of_rep {t : DedupTable} {d : Dict BleAddr UInt8} (h : Rep t d)
    (addr : BleAddr) : FindsOrAdds t addr := by
  cases hp : d.get? addr with
  | some p => exact findsOrAdds_present h hp
  | none =>
    rcases h.size_le.lt_or_eq with hsize | hsize
    · exact findsOrAdds_room h hp hsize
    · exact findsOrAdds_full h hp hsize

/-! ### Runs -/

theorem keepsAddresses_step {t : DedupTable} {d : Dict BleAddr UInt8} (h : Rep t d) (x : Heard) :
    KeepsAddresses t (heardStep t x).1 := by
  intro i m hi
  rcases heardStep_entries h x with ⟨-, hrep⟩ | ⟨-, -, hsame⟩
  · rw [usedBy_iff h] at hi
    rw [usedBy_iff hrep]
    exact d.getElem?_keys_set _ _ hi
  · rw [hsame]
    exact hi

/-- Every table of a run goes on keeping the addresses of its used slots. -/
theorem keepsAddresses_run (hs : List Heard) {t : DedupTable} {d : Dict BleAddr UInt8}
    (h : Rep t d) : KeepsAddresses t (finalState heardStep t hs) := by
  induction hs generalizing t d with
  | nil => exact fun _ _ hi => hi
  | cons x hs ih =>
    obtain ⟨d', hrep'⟩ := rep_of_run [x] h
    intro i m hi
    exact ih hrep' i m (keepsAddresses_step h x i m hi)

/-- In every table a run of reports leaves, used slots come first and hold distinct addresses, later
    tables keep them, and `find_or_add_dedup` finds, claims or refuses as it should. -/
theorem dedup_table_invariant (rs rs' : List Report) :
    ∃ t out t' out', scan bootTable rs = .ok (t, out) ∧ scan bootTable (rs ++ rs') = .ok (t', out') ∧
      t.WellFormed ∧ KeepsAddresses t t' ∧ ∀ addr, FindsOrAdds t addr := by
  obtain ⟨d, hrep⟩ := rep_of_run (rs.flatMap Report.heard) rep_boot
  refine ⟨_, _, _, _, scan_eq rs bootTable, scan_eq (rs ++ rs') bootTable, wellFormed_of_rep hrep, ?_,
    findsOrAdds_of_rep hrep⟩
  rw [List.flatMap_append, finalState_append]
  exact keepsAddresses_run _ hrep

end SeeedMote.Gateway
