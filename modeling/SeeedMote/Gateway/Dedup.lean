import SeeedMote.Lib.Dict
import SeeedMote.Lib.LastValue
import SeeedMote.Gateway.Scanner

/-! The dedup table against its purpose. A table reached from boot holds a dictionary from addresses
    to last packet ids in its first slots and free slots behind it (`Rep`); through that dictionary
    the scan is a lookup and `dedupStep` one step of a change filter. The one difference to the
    ideal filter is the claim of a fresh slot, which writes packet id `0xFF` before the first
    comparison. -/

namespace SeeedMote.Gateway
open Lib

/-! ### Tables as dictionaries -/

def usedSlot (e : BleAddr × UInt8) : DedupSlot := ⟨e.1, e.2, true⟩

/-- The slots of a table that holds `es`. -/
def slotsOf (es : List (BleAddr × UInt8)) : List DedupSlot :=
  es.map usedSlot ++ List.replicate (maxMotes - es.length) bootSlot

/-- `t` holds exactly the entries of `d`, in slot order. -/
structure Rep (t : DedupTable) (d : Dict BleAddr UInt8) : Prop where
  slots_eq : t.slots = slotsOf d.entries
  size_le : d.size ≤ maxMotes

theorem rep_boot : Rep bootTable Dict.empty := ⟨rfl, Nat.zero_le _⟩

/-- Index of the entry with key `mac`. -/
def keyIdx (mac : BleAddr) : List (BleAddr × UInt8) → Option ℕ
  | [] => none
  | e :: es => if e.1 = mac then some 0 else (keyIdx mac es).map (· + 1)

theorem scanSlots_free (mac : BleAddr) : ∀ (k i : ℕ) (empty : Option ℕ),
    scanSlots mac (List.replicate k bootSlot) i empty
      = .ended (if empty = none ∧ 0 < k then some i else empty)
  | 0, i, empty => by simp [scanSlots]
  | k + 1, i, empty => by
      rw [List.replicate_succ, scanSlots, if_neg (by simp [bootSlot]), scanSlots_free mac k]
      cases empty <;> simp [bootSlot]

/-- The scan finds the entry of `mac`; without one it ends with the first free slot. -/
theorem scanSlots_used (mac : BleAddr) (k : ℕ) : ∀ (es : List (BleAddr × UInt8)) (i : ℕ),
    scanSlots mac (es.map usedSlot ++ List.replicate k bootSlot) i none
      = match keyIdx mac es with
        | some j => .found (i + j)
        | none => .ended (if 0 < k then some (i + es.length) else none)
  | [], i => by simp [scanSlots_free, keyIdx]
  | e :: es, i => by
      rw [List.map_cons, List.cons_append, scanSlots, keyIdx]
      by_cases h : e.1 = mac
      · simp [usedSlot, h]
      · rw [if_neg (by simp [usedSlot, h]), if_neg (by simp [usedSlot]), if_neg h,
          scanSlots_used mac k es (i + 1)]
        cases keyIdx mac es with
        | none => simp only [Option.map_none, List.length_cons]; congr 3; omega
        | some j => simp only [Option.map_some]; congr 1; omega

theorem keyIdx_eq_none_iff (mac : BleAddr) : ∀ es : List (BleAddr × UInt8),
    keyIdx mac es = none ↔ Dict.assoc mac es = none
  | [] => by simp [keyIdx, Dict.assoc]
  | e :: es => by
    rw [keyIdx, Dict.assoc]
    split
    · simp
    · rw [Option.map_eq_none_iff]
      exact keyIdx_eq_none_iff mac es

theorem keyIdx_of_assoc {mac : BleAddr} {es : List (BleAddr × UInt8)} {p : UInt8}
    (h : Dict.assoc mac es = some p) : ∃ j, keyIdx mac es = some j :=
  Option.ne_none_iff_exists'.mp fun hn => by
    rw [keyIdx_eq_none_iff] at hn; exact absurd (h.symm.trans hn) (by simp)

theorem keyIdx_concat (mac : BleAddr) (pid : UInt8) {es : List (BleAddr × UInt8)}
    (h : keyIdx mac es = none) : keyIdx mac (es ++ [(mac, pid)]) = some es.length := by
  induction es with
  | nil => exact if_pos rfl
  | cons e es ih =>
    rw [keyIdx] at h
    split at h
    · simp at h
    · next hk =>
      rw [List.cons_append, keyIdx, if_neg hk, ih (Option.map_eq_none_iff.mp h)]
      rfl

/-- The slot at the index of `mac` holds its id, and writing an id there assigns it. -/
theorem slots_at_keyIdx (mac : BleAddr) (pid : UInt8) (tail : List DedupSlot) :
    ∀ {es : List (BleAddr × UInt8)} {j : ℕ} {p : UInt8}, keyIdx mac es = some j →
      Dict.assoc mac es = some p →
      (es.map usedSlot ++ tail)[j]? = some ⟨mac, p, true⟩ ∧
        (es.map usedSlot ++ tail).set j ⟨mac, pid, true⟩
          = (Dict.assign mac pid es).map usedSlot ++ tail := by
  intro es
  induction es with
  | nil =>
    intro j p h _
    simp [keyIdx] at h
  | cons e es ih =>
    intro j p h hp
    rcases eq_or_ne e.1 mac with hk | hk
    · obtain rfl : 0 = j := by simpa [keyIdx, hk] using h
      obtain rfl : e.2 = p := by simpa [Dict.assoc, hk] using hp
      simp [usedSlot, Dict.assign, hk]
    · rw [keyIdx, if_neg hk, Option.map_eq_some_iff] at h
      obtain ⟨i, hi, rfl⟩ := h
      rw [Dict.assoc, if_neg hk] at hp
      obtain ⟨hat, hset⟩ := ih hi hp
      rw [List.map_cons, List.cons_append, Dict.assign, if_neg hk, List.map_cons, List.cons_append,
        List.getElem?_cons_succ, List.set_cons_succ, hset]
      exact ⟨hat, rfl⟩

/-! ### `find_or_add_dedup` and the dedup step through the dictionary -/

/-- What the slot of a known address looks like, and what writing its id does. -/
theorem slot_spec {t : DedupTable} {d : Dict BleAddr UInt8} (h : Rep t d) {mac : BleAddr} {j : ℕ}
    {p : UInt8} (hj : keyIdx mac d.entries = some j) (hp : d.get? mac = some p) :
    t.slots[j]? = some ⟨mac, p, true⟩ ∧
      ∀ pid, Rep (t.setSlot j ⟨mac, pid, true⟩) (d.set mac pid) := by
  refine ⟨?_, fun pid => ⟨?_, ?_⟩⟩
  · rw [h.slots_eq]; exact (slots_at_keyIdx mac p _ hj hp).1
  · have hlen := Dict.length_assign_of_present mac pid hp
    rw [DedupTable.slots_setSlot, h.slots_eq, slotsOf, (slots_at_keyIdx mac pid _ hj hp).2,
      Dict.entries_set, slotsOf, hlen]
  · rw [Dict.size_set_of_present d pid hp]; exact h.size_le

theorem findOrAdd_present {t : DedupTable} {d : Dict BleAddr UInt8} (h : Rep t d) {mac : BleAddr}
    {j : ℕ} (hj : keyIdx mac d.entries = some j) : findOrAddDedup t mac = (some j, t) := by
  have hscan : scanSlots mac t.slots 0 none = .found j := by
    simp [h.slots_eq, slotsOf, scanSlots_used, hj]
  rw [findOrAddDedup, hscan]

theorem findOrAdd_claims {t : DedupTable} {d : Dict BleAddr UInt8} (h : Rep t d) {mac : BleAddr}
    (hp : d.get? mac = none) (hsize : d.size < maxMotes) :
    findOrAddDedup t mac = (some d.size, t.setSlot d.size ⟨mac, 0xFF, true⟩) := by
  have hscan : scanSlots mac t.slots 0 none = .ended (some d.size) := by
    rw [h.slots_eq, slotsOf, scanSlots_used, (keyIdx_eq_none_iff _ _).mpr hp, Dict.size]
    have hpos : 0 < maxMotes - d.entries.length := Nat.sub_pos_of_lt hsize
    simp [hpos]
  rw [findOrAddDedup, hscan]

theorem findOrAdd_absent {t : DedupTable} {d : Dict BleAddr UInt8} (h : Rep t d) {mac : BleAddr}
    (hp : d.get? mac = none) (hsize : d.size < maxMotes) :
    ∃ t', findOrAddDedup t mac = (some d.size, t') ∧ Rep t' (d.set mac 0xFF) := by
  obtain ⟨k, hk⟩ : ∃ k, maxMotes - d.entries.length = k + 1 :=
    Nat.exists_eq_succ_of_ne_zero (Nat.sub_ne_zero_of_lt hsize)
  refine ⟨_, findOrAdd_claims h hp hsize, ?_, ?_⟩
  · rw [DedupTable.slots_setSlot, h.slots_eq, slotsOf, slotsOf, Dict.entries_set,
      Dict.assign_of_absent mac _ hp, Dict.size, hk, List.length_append, List.length_singleton,
      show maxMotes - (d.entries.length + 1) = k by omega, List.replicate_succ]
    simp [usedSlot]
  · rw [Dict.size_set_of_absent d _ hp]; exact hsize

theorem findOrAdd_full {t : DedupTable} {d : Dict BleAddr UInt8} (h : Rep t d) {mac : BleAddr}
    (hp : d.get? mac = none) (hsize : ¬d.size < maxMotes) : findOrAddDedup t mac = (none, t) := by
  have hscan : scanSlots mac t.slots 0 none = .ended none := by
    rw [h.slots_eq, slotsOf, scanSlots_used, (keyIdx_eq_none_iff _ _).mpr hp]
    have hzero : maxMotes - d.entries.length = 0 := Nat.sub_eq_zero_of_le (Nat.le_of_not_lt hsize)
    simp [hzero]
  rw [findOrAddDedup, hscan]

/-- The comparison of the dedup step, in a table `t'` whose slot for `addr` holds `p`. -/
theorem dedupStep_of_slot {t t' : DedupTable} {d : Dict BleAddr UInt8} (h : Rep t' d)
    {addr : BleAddr} {j : ℕ} {p : UInt8} (hf : findOrAddDedup t addr = (some j, t'))
    (hj : keyIdx addr d.entries = some j) (hp : d.get? addr = some p) (rssi : Int8)
    (pid moving : UInt8) :
    (dedupStep t addr rssi pid moving).2
        = (if p = pid then [] else [publishCall addr rssi pid moving]) ∧
      Rep (dedupStep t addr rssi pid moving).1 (d.set addr pid) := by
  obtain ⟨hs, hrep⟩ := slot_spec h hj hp
  rw [dedupStep, hf]
  simp only [hs]
  by_cases hpid : p = pid
  · subst hpid
    rw [Dict.set_of_get? d hp]; simpa using h
  · simpa [hpid] using hrep pid

/-- A known address: the step compares with its last id. -/
theorem dedupStep_present {t : DedupTable} {d : Dict BleAddr UInt8} (h : Rep t d) {addr : BleAddr}
    {p : UInt8} (hp : d.get? addr = some p) (rssi : Int8) (pid moving : UInt8) :
    (dedupStep t addr rssi pid moving).2
        = (if p = pid then [] else [publishCall addr rssi pid moving]) ∧
      Rep (dedupStep t addr rssi pid moving).1 (d.set addr pid) := by
  obtain ⟨j, hj⟩ := keyIdx_of_assoc hp
  exact dedupStep_of_slot h (findOrAdd_present h hj) hj hp rssi pid moving

/-- A new address: the slot claimed for it already reads `0xFF`. -/
theorem dedupStep_absent {t : DedupTable} {d : Dict BleAddr UInt8} (h : Rep t d) {addr : BleAddr}
    (hp : d.get? addr = none) (hsize : d.size < maxMotes) (rssi : Int8) (pid moving : UInt8) :
    (dedupStep t addr rssi pid moving).2
        = (if 0xFF = pid then [] else [publishCall addr rssi pid moving]) ∧
      Rep (dedupStep t addr rssi pid moving).1 (d.set addr pid) := by
  obtain ⟨t', hf, hrep⟩ := findOrAdd_absent h hp hsize
  have hj : keyIdx addr (d.set addr 0xFF).entries = some d.size := by
    rw [Dict.entries_set, Dict.assign_of_absent addr _ hp]
    exact keyIdx_concat addr 0xFF ((keyIdx_eq_none_iff _ _).mpr hp)
  have hstep := dedupStep_of_slot hrep hf hj (Dict.get?_set_self d addr 0xFF) rssi pid moving
  rwa [Dict.set_set] at hstep

/-! ### Runs of the scanner -/

/-- An advert that parses: its address, its signal strength and the two objects. -/
structure Heard where
  addr : BleAddr
  rssi : Int8
  packetId : UInt8
  moving : UInt8
  deriving DecidableEq

/-- The valid BTHome adverts are those `parse_bthome` takes to the dedup step. -/
def heard? (a : Advert) : Option Heard :=
  match parseObjects a.data with
  | .ok (some (packetId, moving)) => some ⟨a.addr, a.rssi, packetId, moving⟩
  | _ => none

def Heard.call (h : Heard) : PublishCall := publishCall h.addr h.rssi h.packetId h.moving

def heardStep (t : DedupTable) (h : Heard) : DedupTable × List PublishCall :=
  dedupStep t h.addr h.rssi h.packetId h.moving

/-- On valid adverts `parse_bthome` is the dedup step alone. -/
theorem parseAll_valid (as : List Advert) (t : DedupTable) (h : ∀ a ∈ as, (heard? a).isSome) :
    parseAll t as = .ok (finalState heardStep t (as.filterMap heard?),
      outputs heardStep t (as.filterMap heard?)) := by
  induction as generalizing t with
  | nil => rfl
  | cons a as ih =>
    obtain ⟨ha, has⟩ := List.forall_mem_cons.mp h
    obtain ⟨x, hx⟩ := Option.isSome_iff_exists.mp ha
    have hstep : parseBthome t a.addr a.rssi a.data = .ok (heardStep t x) := by
      rw [heard?] at hx
      split at hx
      · next hp =>
        obtain rfl := Option.some.inj hx
        rw [parseBthome, hp]
        rfl
      · simp at hx
    rw [parseAll, hstep, List.filterMap_cons_some hx]
    simp only [ok_bind, ih _ has]
    rfl

/-- The ideal filter of the heard adverts: per address, forward a changed packet id. -/
def idealStep : (BleAddr → Option UInt8) → Heard → (BleAddr → Option UInt8) × List Heard :=
  changeStep Heard.addr Heard.packetId

/-- Packet id of the first advert heard from `addr`. -/
def firstPid (addr : BleAddr) (hs : List Heard) : Option UInt8 :=
  (hs.find? (·.addr = addr)).map Heard.packetId

theorem firstPid_cons_ne {addr : BleAddr} {h : Heard} (hs : List Heard) (hne : h.addr ≠ addr) :
    firstPid addr (h :: hs) = firstPid addr hs := by
  rw [firstPid, List.find?_cons_of_neg (by simpa using hne), firstPid]

theorem firstPid_cons_self (h : Heard) (hs : List Heard) :
    firstPid h.addr (h :: hs) = some h.packetId := by
  rw [firstPid, List.find?_cons_of_pos (by simp)]; rfl

/-- One heard advert, table against ideal filter: unless it is the first of its address and carries
    `0xFF` the outputs agree, and the table records the id in every case. -/
theorem heardStep_spec {t : DedupTable} {d : Dict BleAddr UInt8} {last : BleAddr → Option UInt8}
    (h : Rep t d) (hl : ∀ a, d.get? a = last a) (x : Heard)
    (hroom : d.get? x.addr = none → d.size < maxMotes) :
    ((heardStep t x).2 = if d.get? x.addr = none ∧ x.packetId = 0xFF then []
      else (idealStep last x).2.map Heard.call) ∧
      Rep (heardStep t x).1 (d.set x.addr x.packetId) ∧
      ∀ a, (d.set x.addr x.packetId).get? a = (idealStep last x).1 a := by
  have hideal : ∀ a, (d.set x.addr x.packetId).get? a = (idealStep last x).1 a := by
    intro a
    rw [Dict.get?_set, idealStep, changeStep_last, hl]
  have hout : (idealStep last x).2 = if d.get? x.addr = some x.packetId then [] else [x] := by
    rw [idealStep, changeStep_out, hl]
  rw [hout]
  cases hx : d.get? x.addr with
  | none =>
    obtain ⟨ho, hrep⟩ := dedupStep_absent h hx (hroom hx) x.rssi x.packetId x.moving
    refine ⟨?_, hrep, hideal⟩
    rw [heardStep, ho]
    by_cases hff : x.packetId = 0xFF
    · simp [hff]
    · simp [hff, Ne.symm hff, Heard.call]
  | some p =>
    obtain ⟨ho, hrep⟩ := dedupStep_present h hx x.rssi x.packetId x.moving
    refine ⟨?_, hrep, hideal⟩
    rw [heardStep, ho]
    by_cases hp : p = x.packetId
    · simp [hp]
    · simp [hp, Heard.call]

/-- Table and ideal filter publish the same stream exactly when no address not yet in the table is
    first heard with packet id `0xFF`; each such first advert is one publish call less. -/
theorem outputs_eq_ideal_iff {A : Finset BleAddr} (hA : A.card ≤ maxMotes) :
    ∀ (hs : List Heard) {t : DedupTable} {d : Dict BleAddr UInt8} {last : BleAddr → Option UInt8},
      Rep t d → (∀ a, d.get? a = last a) → (∀ a ∈ d.keys, a ∈ A) → (∀ x ∈ hs, x.addr ∈ A) →
      (outputs heardStep t hs = (outputs idealStep last hs).map Heard.call ↔
        ∀ a, d.get? a = none → firstPid a hs ≠ some 0xFF) ∧
      (outputs heardStep t hs).length ≤ (outputs idealStep last hs).length
  | [], _, _, _, _, _, _, _ => by simp [outputs, firstPid]
  | x :: hs, t, d, last, hrep, hl, hd, hx => by
      have hxA := hx x (List.mem_cons_self ..)
      obtain ⟨ho, hrep', hl'⟩ := heardStep_spec hrep hl x
        fun hn => (Dict.size_lt_card hd hxA hn).trans_le hA
      have hd' : ∀ a ∈ (d.set x.addr x.packetId).keys, a ∈ A := by
        intro a ha
        rcases (Dict.mem_keys_set d _ _ _).mp ha with rfl | ha
        · exact hxA
        · exact hd a ha
      obtain ⟨ih, ihlen⟩ := outputs_eq_ideal_iff hA hs hrep' hl' hd'
        fun y hy => hx y (List.mem_cons_of_mem _ hy)
      have hfirst : (∀ a, (d.set x.addr x.packetId).get? a = none → firstPid a hs ≠ some 0xFF) ↔
          ∀ a, a ≠ x.addr → d.get? a = none → firstPid a (x :: hs) ≠ some 0xFF := by
        refine forall_congr' ?_
        intro a
        by_cases ha : a = x.addr
        · simp [ha]
        · rw [Dict.get?_set_ne d _ ha, firstPid_cons_ne hs (Ne.symm ha)]
          exact ⟨fun h _ => h, fun h => h ha⟩
      rw [hfirst] at ih
      rw [outputs, outputs, List.map_append, ho]
      by_cases hbad : d.get? x.addr = none ∧ x.packetId = 0xFF
      · -- the claimed slot swallows this advert: the streams already differ in length
        have hone : (idealStep last x).2 = [x] := by
          rw [idealStep, changeStep_out, ← hl, hbad.1, if_neg (by simp)]
        rw [if_pos hbad, hone]
        refine ⟨⟨?_, ?_⟩, by simp; omega⟩
        · intro heq
          have := congrArg List.length heq
          simp at this; omega
        · intro h
          exact absurd (hbad.2 ▸ firstPid_cons_self x hs) (h x.addr hbad.1)
      · rw [if_neg hbad, List.append_cancel_left_eq, ih]
        refine ⟨⟨?_, fun h a _ ha => h a ha⟩, by simp; omega⟩
        intro h a ha
        by_cases hax : a = x.addr
        · subst hax
          rw [firstPid_cons_self]
          exact fun hc => hbad ⟨ha, Option.some.inj hc⟩
        · exact h a hax ha

/-! ### The scanner refines the ideal filter -/

/-- What the ideal filter publishes for the adverts. -/
def idealPublishes (as : List Advert) : List PublishCall :=
  (outputs idealStep (fun _ => none) (as.filterMap heard?)).map Heard.call

/-- The publish calls of `parse_bthome` from boot. -/
def publishes (as : List Advert) : Mem (List PublishCall) := Prod.snd <$> parseAll bootTable as

/-- From boot, on valid adverts of at most `MAX_MOTES` addresses, the scanner publishes what the
    ideal filter publishes if and only if no address is first heard with packet id `0xFF`. -/
theorem publishes_eq_ideal_iff (as : List Advert) (hvalid : ∀ a ∈ as, (heard? a).isSome)
    (hmotes : (as.map Advert.addr).toFinset.card ≤ maxMotes) :
    publishes as = .ok (idealPublishes as) ↔
      ∀ addr, firstPid addr (as.filterMap heard?) ≠ some 0xFF := by
  have hmem : ∀ x ∈ as.filterMap heard?, x.addr ∈ (as.map Advert.addr).toFinset := by
    intro x hx
    obtain ⟨a, ha, hax⟩ := List.mem_filterMap.mp hx
    have haddr : x.addr = a.addr := by
      rw [heard?] at hax
      split at hax
      · obtain rfl := Option.some.inj hax; rfl
      · simp at hax
    rw [List.mem_toFinset, haddr]
    exact List.mem_map_of_mem ha
  have hlast : ∀ a, (Dict.empty : Dict BleAddr UInt8).get? a = (fun _ => none) a := fun _ => rfl
  have hiff := (outputs_eq_ideal_iff hmotes (as.filterMap heard?) rep_boot hlast
    (by simp [Dict.keys, Dict.empty]) hmem).1
  rw [publishes, parseAll_valid as _ hvalid, idealPublishes]
  simpa using hiff

/-- One advert of a pickup, `moving = 1`. -/
def pickupAdvert (packetId : UInt8) : Advert :=
  ⟨#v[1, 2, 3, 4, 5, 6], -60, [0x44, 0x00, packetId, 0x22, 0x01]⟩

theorem publishes_eq_ideal_wrapped :
    publishes [pickupAdvert 0, pickupAdvert 0, pickupAdvert 1]
      = .ok (idealPublishes [pickupAdvert 0, pickupAdvert 0, pickupAdvert 1]) := by
  refine (publishes_eq_ideal_iff _ (by decide +kernel) (by decide +kernel)).mpr fun addr => ?_
  have hhs : [pickupAdvert 0, pickupAdvert 0, pickupAdvert 1].filterMap heard?
      = [⟨#v[1, 2, 3, 4, 5, 6], -60, 0, 1⟩, ⟨#v[1, 2, 3, 4, 5, 6], -60, 0, 1⟩,
          ⟨#v[1, 2, 3, 4, 5, 6], -60, 1, 1⟩] := by decide +kernel
  rw [hhs]
  by_cases ha : addr = #v[1, 2, 3, 4, 5, 6]
  · subst ha; decide
  · simp [firstPid, Ne.symm ha]

/-- A restarted gateway never reports a pickup whose packet id is 255. -/
theorem publishes_drops_first_ff :
    ¬∀ as : List Advert, (∀ a ∈ as, (heard? a).isSome) →
      (as.map Advert.addr).toFinset.card ≤ maxMotes → publishes as = .ok (idealPublishes as) := by
  intro h
  have := h [pickupAdvert 0xFF, pickupAdvert 0xFF] (by decide +kernel) (by decide +kernel)
  exact absurd this (by decide +kernel)

end SeeedMote.Gateway
