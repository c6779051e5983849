import SeeedMote.Lib.CBytes

/-! The gateway's BLE scanner, `ble_scanner.c`: the walk over the AD structures of an advert, the
    BTHome object loop, and the table that suppresses repeats of a mote's last packet id.

        advert ──▶ gapEventCb ──▶ parseBthome ──▶ findOrAddDedup ──▶ publish call
                   (AD walk)      (object loop)   (last id per address) -/

namespace SeeedMote.Gateway
open Lib

def bthomeUuid : ℕ := 0xFCD2
def bthomeDevinfoV2Trigger : UInt8 := 0x44
def maxMotes : ℕ := 32

/-- A BLE address as NimBLE stores it, least significant byte first. -/
abbrev BleAddr := Vector UInt8 6

/-! ### The dedup table -/

structure DedupSlot where
  mac : BleAddr
  pid : UInt8
  used : Bool
  deriving DecidableEq

/-- `dedup_table`, always `MAX_MOTES` slots. -/
structure DedupTable where
  slots : List DedupSlot
  length_eq : slots.length = maxMotes
  deriving DecidableEq

/-- A slot as static storage leaves it. -/
def bootSlot : DedupSlot := ⟨#v[0, 0, 0, 0, 0, 0], 0, false⟩

/-- The table at boot. -/
def bootTable : DedupTable := ⟨List.replicate maxMotes bootSlot, List.length_replicate⟩

def DedupTable.setSlot (t : DedupTable) (i : ℕ) (s : DedupSlot) : DedupTable :=
  ⟨t.slots.set i s, by rw [List.length_set, t.length_eq]⟩

@[simp] theorem DedupTable.slots_setSlot (t : DedupTable) (i : ℕ) (s : DedupSlot) :
    (t.setSlot i s).slots = t.slots.set i s := rfl

/-- Outcome of the scan loop: `return i`, or the loop's `empty` after the last slot. -/
inductive Scan where
  | found (i : ℕ)
  | ended (empty : Option ℕ)
  deriving DecidableEq

/-- The `for` loop of `find_or_add_dedup` from slot `i` on. -/
def scanSlots (mac : BleAddr) : List DedupSlot → ℕ → Option ℕ → Scan
  | [], _, empty => .ended empty
  | s :: ss, i, empty =>
    if s.used ∧ s.mac = mac then .found i
    else scanSlots mac ss (i + 1) (if ¬s.used ∧ empty = none then some i else empty)

/-- `find_or_add_dedup`; `none` is the return value -1. -/
def findOrAddDedup (t : DedupTable) (mac : BleAddr) : Option ℕ × DedupTable :=
  match scanSlots mac t.slots 0 none with
  | .found i => (some i, t)
  | .ended none => (none, t)
  | .ended (some e) => (some e, t.setSlot e ⟨mac, 0xFF, true⟩)

/-! ### The BTHome object loop -/

/-- `have_pid` with `packet_id`, `have_moving` with `moving`. -/
structure ObjLocals where
  packetId : Option UInt8 := none
  moving : Option UInt8 := none
  deriving DecidableEq

/-- Data bytes of an object; `none` is the default branch, `parse_err`. -/
def objNeed (obj : UInt8) : Option ℕ :=
  if obj = 0x00 then some 1
  else if obj = 0x22 then some 1
  else if obj = 0x2C then some 1
  else if obj = 0x3E then some 4
  else none

/-- The `while (i < data_len)` loop of `parse_bthome`; `none` is `parse_err`. -/
def objLoop (data : List UInt8) (i : ℕ) (l : ObjLocals) : Mem (Option ObjLocals) :=
  if i < data.length then do
    let obj ← rd data i
    match objNeed obj with
    | none => pure none
    | some need =>
      if i + 1 + need > data.length then pure none
      else if obj = 0x00 then do
        let b ← rd data (i + 1)
        objLoop data (i + 1 + need) { l with packetId := some b }
      else if obj = 0x22 then do
        let b ← rd data (i + 1)
        objLoop data (i + 1 + need) { l with moving := some b }
      else objLoop data (i + 1 + need) l
  else pure (some l)
termination_by data.length - i

/-- `parse_bthome` up to the dedup step: the packet id and the moving value, `none` on `return`. -/
def parseObjects (data : List UInt8) : Mem (Option (UInt8 × UInt8)) := do
  if data.length < 1 then return none
  if (← rd data 0) ≠ bthomeDevinfoV2Trigger then return none
  match ← objLoop data 1 {} with
  | some ⟨some packetId, some moving⟩ => return some (packetId, moving)
  | _ => return none

/-! ### Publish calls -/

/-- A call of `mqtt_mgr_publish_event` or `mqtt_mgr_publish_seen`. -/
inductive PublishCall where
  | event (macKey : CStr) (packetId : UInt8) (rssi : ℤ)
  | seen (macKey : CStr) (rssi : ℤ)
  deriving DecidableEq

/-- `mac_key`, printed most significant byte first. -/
def macKey (addr : BleAddr) : CStr :=
  snprintf 13 (fmtHex2 addr[5] ++ fmtHex2 addr[4] ++ fmtHex2 addr[3] ++ fmtHex2 addr[2] ++
    fmtHex2 addr[1] ++ fmtHex2 addr[0])

/-- The key is two hex digits for each byte of the address, from the last to the first. -/
theorem macKey_eq (addr : BleAddr) : macKey addr = addr.toList.reverse.flatMap fmtHex2 := by
  have hsix : addr.toList = [addr[0], addr[1], addr[2], addr[3], addr[4], addr[5]] := by
    refine List.ext_getElem (by simp) fun i hi _ => ?_
    rw [Vector.length_toList] at hi
    rcases (by omega : i = 0 ∨ i = 1 ∨ i = 2 ∨ i = 3 ∨ i = 4 ∨ i = 5) with
      rfl | rfl | rfl | rfl | rfl | rfl
    all_goals rfl
  rw [macKey, hsix, snprintf_of_lt (by decide : 12 < 13)]
  rfl

def publishCall (addr : BleAddr) (rssi : Int8) (packetId moving : UInt8) : PublishCall :=
  if moving = 1 then .event (macKey addr) packetId rssi.toInt
  else .seen (macKey addr) rssi.toInt

/-- `parse_bthome` from the dedup step on. -/
def dedupStep (t : DedupTable) (addr : BleAddr) (rssi : Int8) (packetId moving : UInt8) :
    DedupTable × List PublishCall :=
  match findOrAddDedup t addr with
  | (none, t) => (t, [])
  | (some idx, t) =>
    match t.slots[idx]? with
    | none => (t, [])
    | some slot =>
      if slot.pid = packetId then (t, [])
      else (t.setSlot idx { slot with pid := packetId }, [publishCall addr rssi packetId moving])

/-- `parse_bthome`. -/
def parseBthome (t : DedupTable) (addr : BleAddr) (rssi : Int8) (data : List UInt8) :
    Mem (DedupTable × List PublishCall) := do
  match ← parseObjects data with
  | none => return (t, [])
  | some (packetId, moving) => return dedupStep t addr rssi packetId moving

/-- The arguments of one call of `parse_bthome`. -/
structure Advert where
  addr : BleAddr
  rssi : Int8
  data : List UInt8
  deriving DecidableEq

/-- Calls of `parse_bthome` one after the other, with the publish calls they make. -/
def parseAll : DedupTable → List Advert → Mem (DedupTable × List PublishCall)
  | t, [] => .ok (t, [])
  | t, a :: as => do
    let (t', out) ← parseBthome t a.addr a.rssi a.data
    let (t'', out') ← parseAll t' as
    return (t'', out ++ out')

/-! ### The AD walk -/

/-- The `while (pos < ad_len)` loop of `gap_event_cb`: the `data` arguments it passes to
    `parse_bthome`, in order. -/
def adWalk (ad : List UInt8) (pos : ℕ) : Mem (List (List UInt8)) :=
  if pos < ad.length then do
    let lenByte ← rd ad pos
    let len := lenByte.toNat
    if len = 0 ∨ pos + 1 + len > ad.length then return []
    let type ← rd ad (pos + 1)
    if type = 0x16 ∧ len ≥ 3 then
      let lo ← rd ad (pos + 2)
      let hi ← rd ad (pos + 3)
      let rest ← adWalk ad (pos + 1 + len)
      if lo.toNat ||| (hi.toNat <<< 8) = bthomeUuid then
        return (ad.drop (pos + 4)).take (len - 3) :: rest
      else return rest
    else adWalk ad (pos + 1 + len)
  else return []
termination_by ad.length - pos

/-- `gap_event_cb` on `BLE_GAP_EVENT_DISC`. -/
def gapEventCb (t : DedupTable) (addr : BleAddr) (rssi : Int8) (ad : List UInt8) :
    Mem (DedupTable × List PublishCall) := do
  let calls ← adWalk ad 0
  parseAll t (calls.map fun data => ⟨addr, rssi, data⟩)

end SeeedMote.Gateway
