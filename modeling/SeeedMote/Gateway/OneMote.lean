import Mathlib.Data.Finset.Card
import SeeedMote.Gateway.Discovery

/-! One mote among all that a gateway hears. Once the table has an entry for the mote, other addresses
    cannot touch it, and the calls made for the mote are those of a change filter of its own. The
    table has `MAX_MOTES` slots and gives none back, so what others can do is come first: a mote that
    finds the table full stays unheard for good. -/

namespace SeeedMote.Gateway
open Lib

/-! ### The calls made for one mote -/

/-- The argument `mac` of a publish call. -/
def PublishCall.mac : PublishCall → CStr
  | .event mac _ _ => mac
  | .seen mac _ => mac

def PublishCall.isFor (addr : BleAddr) (c : PublishCall) : Bool := c.mac = macKey addr

/-- The publish calls made for `addr` in a run of the scanner from boot. -/
def publishesFor (addr : BleAddr) (rs : List Report) : Mem (List PublishCall) :=
  (fun r => r.2.filter (PublishCall.isFor addr)) <$> scan bootTable rs

/-- The reports of `addr` in a run. -/
def reportsOf (addr : BleAddr) (rs : List Report) : List Report := rs.filter (·.addr = addr)

/-- The other addresses heard before `addr`. -/
def heardBefore (addr : BleAddr) (hs : List Heard) : Finset BleAddr :=
  ((hs.takeWhile (·.addr ≠ addr)).map Heard.addr).toFinset

/-- The other addresses with a valid advert before the first one of `addr`. -/
def strangersFirst (addr : BleAddr) (rs : List Report) : Finset BleAddr :=
  heardBefore addr (rs.flatMap Report.heard)

/-! ### The key of a mote -/

theorem hexDigit_inj : ∀ m : Fin 16, ∀ n : Fin 16, digitByte m = digitByte n → m = n := by
  decide

theorem fmtHex2_inj {b c : UInt8} (h : fmtHex2 b = fmtHex2 c) : b = c := by
  have hb := b.toNat_lt
  have hc := c.toNat_lt
  simp only [fmtHex2, List.cons.injEq, and_true] at h
  have hhi := hexDigit_inj ⟨b.toNat / 16, by omega⟩ ⟨c.toNat / 16, by omega⟩ h.1
  have hlo := hexDigit_inj ⟨b.toNat % 16, by omega⟩ ⟨c.toNat % 16, by omega⟩ h.2
  simp only [Fin.mk.injEq] at hhi hlo
  exact UInt8.toNat_inj.mp (by omega)

theorem flatMap_fmtHex2_inj : ∀ {bs cs : List UInt8},
    bs.flatMap fmtHex2 = cs.flatMap fmtHex2 → bs = cs
  | [], [], _ => rfl
  | [], c :: cs, h => by simp [fmtHex2] at h
  | b :: bs, [], h => by simp [fmtHex2] at h
  | b :: bs, c :: cs, h => by
      rw [List.flatMap_cons, List.flatMap_cons] at h
      obtain ⟨hhead, htail⟩ := List.append_inj h rfl
      rw [fmtHex2_inj hhead, flatMap_fmtHex2_inj htail]

/-- Different addresses have different keys. -/
theorem macKey_inj {a b : BleAddr} (h : macKey a = macKey b) : a = b := by
  rw [macKey_eq, macKey_eq] at h
  exact Vector.toList_inj.mp (List.reverse_injective (flatMap_fmtHex2_inj h))

theorem isFor_call (addr : BleAddr) (x : Heard) :
    PublishCall.isFor addr x.call = decide (x.addr = addr) := by
  have hmac : x.call.mac = macKey x.addr := by
    rw [Heard.call, publishCall]
    split <;> rfl
  rw [PublishCall.isFor, hmac]
  exact decide_eq_decide.mpr ⟨macKey_inj, congrArg macKey⟩

/-! ### One advert -/

/-- A step makes the call of its advert or none. -/
theorem heardStep_out (t : DedupTable) (x : Heard) :
    (heardStep t x).2 = [] ∨ (heardStep t x).2 = [x.call] := by
  rw [heardStep, dedupStep]
  split
  · exact .inl rfl
  · split
    · exact .inl rfl
    · split
      · exact .inl rfl
      · exact .inr rfl

/-- An advert from elsewhere makes no call for `addr`. -/
theorem heardStep_other {addr : BleAddr} {x : Heard} (hx : x.addr ≠ addr) (t : DedupTable) :
    (heardStep t x).2.filter (PublishCall.isFor addr) = [] := by
  have hfor : PublishCall.isFor addr x.call = false := by
    rw [isFor_call]
    exact decide_eq_false hx
  rcases heardStep_out t x with h | h
  · rw [h]
    rfl
  · rw [h, List.filter_cons_of_neg (by simp [hfor])]
    rfl

/-- An advert of `addr` makes calls for `addr` only. -/
theorem heardStep_own {addr : BleAddr} {x : Heard} (hx : x.addr = addr) (t : DedupTable) :
    (heardStep t x).2.filter (PublishCall.isFor addr) = (heardStep t x).2 := by
  have hfor : PublishCall.isFor addr x.call = true := by
    rw [isFor_call]
    exact decide_eq_true hx
  rcases heardStep_out t x with h | h
  · rw [h]
    rfl
  · rw [h, List.filter_cons_of_pos hfor]
    rfl

/-- What one advert does to the entries: it records the id, or the table is full. -/
theorem heardStep_entries {t : DedupTable} {d : Dict BleAddr UInt8} (h : Rep t d) (x : Heard) :
    ((d.get? x.addr ≠ none ∨ d.size < maxMotes) ∧
      Rep (heardStep t x).1 (d.set x.addr x.packetId)) ∨
    (d.get? x.addr = none ∧ d.size = maxMotes ∧ heardStep t x = (t, [])) := by
  cases hp : d.get? x.addr with
  | some p => exact .inl ⟨.inl (by simp), (dedupStep_present h hp x.rssi x.packetId x.moving).2⟩
  | none =>
    rcases h.size_le.lt_or_eq with hsize | hsize
    · exact .inl ⟨.inr hsize, (dedupStep_absent h hp hsize x.rssi x.packetId x.moving).2⟩
    · refine .inr ⟨rfl, hsize, ?_⟩
      rw [heardStep, dedupStep, findOrAdd_full h hp hsize.not_lt]

/-! ### With an entry -/

/-- The filter a mote with an entry meets. -/
def aloneStep : (Unit → Option UInt8) → Heard → (Unit → Option UInt8) × List Heard :=
  changeStep (fun _ => ()) Heard.packetId

/-- The calls for a mote whose entry holds `p`, hearing only its own adverts. -/
def aloneCalls (p : UInt8) (hs : List Heard) : List PublishCall :=
  (outputs aloneStep (fun _ => some p) hs).map Heard.call

theorem aloneCalls_cons (p : UInt8) (x : Heard) (hs : List Heard) :
    aloneCalls p (x :: hs)
      = (if p = x.packetId then [] else [x.call]) ++ aloneCalls x.packetId hs := by
  have hnext : (aloneStep (fun _ => some p) x).1 = fun _ => some x.packetId := by
    funext u
    rw [aloneStep, changeStep_last, if_pos rfl]
  rw [aloneCalls, outputs, List.map_append, hnext, aloneStep, changeStep_out]
  by_cases hp : p = x.packetId
  · simp [hp, aloneCalls, aloneStep]
  · simp [hp, aloneCalls, aloneStep]

/-- The entry of `addr` is the last value of its filter. -/
def Remembers (addr : BleAddr) (t : DedupTable) (last : Unit → Option UInt8) : Prop :=
  ∃ d p, Rep t d ∧ d.get? addr = some p ∧ last () = some p

theorem remembers_own {addr : BleAddr} {t : DedupTable} {last : Unit → Option UInt8}
    (h : Remembers addr t last) {x : Heard} (hx : x.addr = addr) :
    (heardStep t x).2 = (aloneStep last x).2.map Heard.call ∧
      Remembers addr (heardStep t x).1 (aloneStep last x).1 := by
  obtain ⟨d, p, hrep, hp, hlast⟩ := h
  subst hx
  obtain ⟨hout, hrep'⟩ := dedupStep_present hrep hp x.rssi x.packetId x.moving
  refine ⟨?_, _, x.packetId, hrep', Dict.get?_set_self d _ _, ?_⟩
  · rw [heardStep, hout, aloneStep, changeStep_out, hlast]
    by_cases hpid : p = x.packetId
    · simp [hpid]
    · simp [hpid, Heard.call]
  · rw [aloneStep, changeStep_last]
    rfl

theorem remembers_other {addr : BleAddr} {t : DedupTable} {last : Unit → Option UInt8}
    (h : Remembers addr t last) {x : Heard} (hx : x.addr ≠ addr) :
    Remembers addr (heardStep t x).1 last := by
  obtain ⟨d, p, hrep, hp, hlast⟩ := h
  rcases heardStep_entries hrep x with ⟨-, hrep'⟩ | ⟨-, -, hsame⟩
  · exact ⟨_, p, hrep', by rw [Dict.get?_set_ne d _ hx.symm]; exact hp, hlast⟩
  · exact ⟨d, p, by rw [hsame]; exact hrep, hp, hlast⟩

/-- The calls for a mote with an entry, whatever else is heard. -/
theorem calls_of_remembers {addr : BleAddr} {t : DedupTable} {last : Unit → Option UInt8}
    (h : Remembers addr t last) (hs : List Heard) :
    (outputs heardStep t hs).filter (PublishCall.isFor addr)
        = (outputs aloneStep last (hs.filter (·.addr = addr))).map Heard.call ∧
      Remembers addr (finalState heardStep t hs)
        (finalState aloneStep last (hs.filter (·.addr = addr))) := by
  refine outputs_unwinding (fun x : Heard => decide (x.addr = addr)) _ Heard.call ?_ ?_ hs h
  · intro t last x h hx
    obtain ⟨hout, hnext⟩ := remembers_own h (of_decide_eq_true hx)
    exact ⟨by rw [heardStep_own (of_decide_eq_true hx), hout], hnext⟩
  · intro t last x h hx
    exact ⟨heardStep_other (of_decide_eq_false hx) t, remembers_other h (of_decide_eq_false hx)⟩

theorem callsFor_present {addr : BleAddr} {t : DedupTable} {d : Dict BleAddr UInt8} {p : UInt8}
    (hrep : Rep t d) (hp : d.get? addr = some p) (hs : List Heard) :
    (outputs heardStep t hs).filter (PublishCall.isFor addr)
      = aloneCalls p (hs.filter (·.addr = addr)) :=
  (calls_of_remembers ⟨d, p, hrep, hp, rfl⟩ hs).1

/-! ### Tables reached from boot -/

/-- A table that holds a dictionary goes on to hold one. -/
theorem rep_of_run (hs : List Heard) {t : DedupTable} {d : Dict BleAddr UInt8} (h : Rep t d) :
    ∃ d, Rep (finalState heardStep t hs) d := by
  refine finalState_invariant (fun t => ∃ d, Rep t d) ?_ hs ⟨d, h⟩
  rintro t x ⟨d, hrep⟩
  rcases heardStep_entries hrep x with ⟨-, hrep'⟩ | ⟨-, -, hsame⟩
  · exact ⟨_, hrep'⟩
  · exact ⟨d, by rw [hsame]; exact hrep⟩

/-- The dictionary holds what a used slot holds. -/
theorem get?_of_slot {t : DedupTable} {d : Dict BleAddr UInt8} (h : Rep t d) {s : DedupSlot}
    (hs : s ∈ t.slots) (hused : s.used = true) : d.get? s.mac = some s.pid := by
  rw [h.slots_eq, slotsOf, List.mem_append] at hs
  rcases hs with hs | hs
  · obtain ⟨e, he, rfl⟩ := List.mem_map.mp hs
    exact (Dict.mem_entries_iff d e.1 e.2).mp he
  · rw [List.eq_of_mem_replicate hs] at hused
    exact absurd hused (by decide)

/-! ### Without an entry -/

theorem heardBefore_self {addr : BleAddr} {x : Heard} (hx : x.addr = addr) (hs : List Heard) :
    heardBefore addr (x :: hs) = ∅ := by
  rw [heardBefore, List.takeWhile_cons_of_neg (by simpa using hx)]
  rfl

theorem heardBefore_other {addr : BleAddr} {x : Heard} (hx : x.addr ≠ addr) (hs : List Heard) :
    heardBefore addr (x :: hs) = insert x.addr (heardBefore addr hs) := by
  rw [heardBefore, List.takeWhile_cons_of_pos (by simpa using hx), List.map_cons,
    List.toFinset_cons]
  rfl

/-- A full table has no room, whatever else is heard. -/
theorem no_room {d : Dict BleAddr UInt8} (h : d.size = maxMotes) (s : Finset BleAddr) :
    ¬(d.keys.toFinset ∪ s).card < maxMotes := by
  have hle := Finset.card_le_card (show d.keys.toFinset ⊆ d.keys.toFinset ∪ s from
    Finset.subset_union_left)
  rw [Dict.card_keys] at hle
  omega

/-- The calls for a mote without an entry. If the others leave it a slot, it meets the filter whose
    last id is the `0xFF` that claims the slot; otherwise nothing is called for it. -/
theorem callsFor_absent {addr : BleAddr} (hs : List Heard) {t : DedupTable}
    {d : Dict BleAddr UInt8} (hrep : Rep t d) (hp : d.get? addr = none) :
    (outputs heardStep t hs).filter (PublishCall.isFor addr)
      = if (d.keys.toFinset ∪ heardBefore addr hs).card < maxMotes then
          aloneCalls 0xFF (hs.filter (·.addr = addr)) else [] := by
  induction hs generalizing t d with
  | nil => split <;> rfl
  | cons x hs ih =>
    rw [outputs, List.filter_append]
    rcases eq_or_ne x.addr addr with hx | hx
    · rw [List.filter_cons_of_pos (by simpa using hx), heardBefore_self hx, Finset.union_empty,
        Dict.card_keys, heardStep_own hx]
      subst hx
      rcases heardStep_entries hrep x with ⟨hroom, hrep'⟩ | ⟨-, hsize, hsame⟩
      · have hsize : d.size < maxMotes := hroom.resolve_left (by simp [hp])
        obtain ⟨hout, -⟩ := dedupStep_absent hrep hp hsize x.rssi x.packetId x.moving
        rw [if_pos hsize, callsFor_present hrep' (Dict.get?_set_self d _ _), aloneCalls_cons,
          heardStep, hout]
        rfl
      · rw [hsame, ih hrep hp, if_neg (no_room hsize _), if_neg hsize.not_lt]
        rfl
    · rw [List.filter_cons_of_neg (by simpa using hx), heardBefore_other hx, heardStep_other hx,
        List.nil_append]
      rcases heardStep_entries hrep x with ⟨-, hrep'⟩ | ⟨-, hsize, hsame⟩
      · have hp' : (d.set x.addr x.packetId).get? addr = none := by
          rw [Dict.get?_set_ne d _ (Ne.symm hx)]
          exact hp
        rw [ih hrep' hp', Dict.toFinset_keys_set, Finset.insert_union, Finset.union_insert]
      · rw [hsame, ih hrep hp, if_neg (no_room hsize _), if_neg (no_room hsize _)]

/-! ### Runs from boot -/

/-- The adverts of `addr` are those of its reports. -/
theorem heard_reportsOf (addr : BleAddr) (rs : List Report) :
    (rs.flatMap Report.heard).filter (·.addr = addr) = (reportsOf addr rs).flatMap Report.heard := by
  induction rs with
  | nil => rfl
  | cons r rs ih =>
    rw [List.flatMap_cons, List.filter_append, ih, reportsOf, reportsOf]
    by_cases hr : r.addr = addr
    · rw [List.filter_cons_of_pos (by simpa using hr), List.flatMap_cons,
        List.filter_eq_self.mpr fun x hx => by simp [addr_of_heard hx, hr]]
    · rw [List.filter_cons_of_neg (by simpa using hr),
        List.filter_eq_nil_iff.mpr fun x hx => by simp [addr_of_heard hx, hr]]
      rfl

/-- The calls for a mote in a run: those of its own filter, unless the table was full of strangers. -/
theorem publishesFor_eq (addr : BleAddr) (rs : List Report) :
    publishesFor addr rs = .ok (if (strangersFirst addr rs).card < maxMotes then
      aloneCalls 0xFF ((reportsOf addr rs).flatMap Report.heard) else []) := by
  have hcalls := callsFor_absent (rs.flatMap Report.heard) rep_boot (Dict.get?_empty addr)
  rw [heard_reportsOf] at hcalls
  rw [publishesFor, scan_eq, strangersFirst]
  refine congrArg Except.ok (hcalls.trans ?_)
  rw [show (Dict.empty : Dict BleAddr UInt8).keys.toFinset = ∅ from rfl, Finset.empty_union]

/-- Two runs that hear the same reports of a mote make the same calls for it, if both or neither hear
    `MAX_MOTES` other addresses first; and where that many come first, none is made. -/
theorem motes_do_not_interfere {addr : BleAddr} {rs rs' : List Report}
    (hsame : reportsOf addr rs = reportsOf addr rs')
    (hroom : (strangersFirst addr rs).card < maxMotes ↔ (strangersFirst addr rs').card < maxMotes) :
    publishesFor addr rs = publishesFor addr rs' ∧
      (maxMotes ≤ (strangersFirst addr rs).card → publishesFor addr rs = .ok []) := by
  refine ⟨?_, ?_⟩
  · rw [publishesFor_eq, publishesFor_eq, hsame]
    simp only [hroom]
  · intro hfull
    rw [publishesFor_eq, if_neg hfull.not_gt]

/-- A report of one advert, `moving = 1`. -/
def pickupReport (addr : BleAddr) (packetId : UInt8) : Report :=
  ⟨addr, -60, [8, 0x16, 0xD2, 0xFC, 0x44, 0x00, packetId, 0x22, 0x01]⟩

/-- The address of a stranger. -/
def strangerAddr (i : ℕ) : BleAddr := #v[i.toUInt8, 0, 0, 0, 0, 0xC0]

def thisMote : BleAddr := #v[0x5A, 0x07, 0x2C, 0x91, 0xE3, 0xF0]

theorem motes_do_not_interfere_three :
    publishesFor thisMote [pickupReport thisMote 2, pickupReport (strangerAddr 0) 2,
        pickupReport thisMote 2, pickupReport (strangerAddr 1) 0xFF, pickupReport thisMote 3]
      = publishesFor thisMote [pickupReport (strangerAddr 2) 7, pickupReport thisMote 2,
          pickupReport thisMote 2, pickupReport thisMote 3] := by
  refine (motes_do_not_interfere ?_ ?_).1
  · decide +kernel
  · decide +kernel

/-- Thirty-two strangers make a mote unheard. -/
theorem motes_interfere :
    ¬∀ (addr : BleAddr) (rs rs' : List Report), reportsOf addr rs = reportsOf addr rs' →
      publishesFor addr rs = publishesFor addr rs' := by
  intro h
  have := h thisMote [pickupReport thisMote 2]
    ((List.range 32).map (fun i => pickupReport (strangerAddr i) 2) ++ [pickupReport thisMote 2])
    (by decide +kernel)
  exact absurd this (by decide +kernel)

end SeeedMote.Gateway
