import Mathlib.Data.Int.Notation
import Mathlib.Data.Nat.Notation
import SeeedMote.Lib.Work

/-! The mote's advertising, `main.c`: the BTHome payload, the state variable `adv_state` with its two
    delayable work items, and the bodies that run under `adv_mutex`. Each body is one function here;
    `rc` is the return code of its `bt_le_adv_start`.

        IDLE ──burst──▶ EVENT_BURST ──burst_done──▶ CONFIG_WINDOW ──timeout──▶ IDLE
                                                       │ connected         ▲
                                                       └─▶ CONNECTED ──disconnected

    Two things are recorded that no body reads: `starts` numbers the broadcasts, and each arming of a
    work item carries the number of the broadcast it was armed for. -/

namespace SeeedMote.Mote
open Lib

def eventBurstMs : ℕ := 500
def bootHeartbeatMs : ℕ := 150
def configWindowMs : ℕ := 30000

/-- `EALREADY` of the C library. -/
def ealready : ℤ := 120

/-! ### Payload -/

/-- `struct bthome_payload`. -/
structure BthomePayload where
  uuidLsb : UInt8
  uuidMsb : UInt8
  deviceInfo : UInt8
  packetIdId : UInt8
  packetId : UInt8
  movingId : UInt8
  moving : UInt8
  deriving DecidableEq

/-- The packed struct in memory. -/
def BthomePayload.bytes (p : BthomePayload) : List UInt8 :=
  [p.uuidLsb, p.uuidMsb, p.deviceInfo, p.packetIdId, p.packetId, p.movingId, p.moving]

/-- The payload `fill_bthome_payload` writes for a packet id. -/
def bthomePayload (packetId moving : UInt8) : BthomePayload where
  uuidLsb := 0xD2
  uuidMsb := 0xFC
  deviceInfo := 0x44
  packetIdId := 0x00
  packetId := packetId
  movingId := 0x22
  moving := if moving ≠ 0 then 1 else 0

/-- One AD structure on the air: its length, type and data. -/
def btData (type : UInt8) (data : List UInt8) : List UInt8 :=
  (data.length + 1).toUInt8 :: type :: data

/-- `%02X` of a byte. -/
def fmtHex2Upper (b : UInt8) : List UInt8 :=
  [b.toNat / 16, b.toNat % 16].map fun d => (if d < 10 then 48 + d else 55 + d).toUInt8

/-- `bt_name` as `build_ble_name` prints it from the low bytes of `DEVICEADDR[0]`. -/
def buildBleName (b0 b1 b2 : UInt8) : List UInt8 :=
  [83, 69, 69, 69, 68, 45] ++ fmtHex2Upper b2 ++ fmtHex2Upper b1 ++ fmtHex2Upper b0

/-- `bthome_adv_data`: flags, name and service data. -/
def bthomeAdvData (btName : List UInt8) (payload : BthomePayload) : List UInt8 :=
  btData 0x01 [0x06] ++ btData 0x09 btName ++ btData 0x16 payload.bytes

/-! ### State -/

/-- `enum adv_state`. -/
inductive AdvState where
  | idle
  | eventBurst
  | configWindow
  | connected
  deriving DecidableEq

/-- What a `bt_le_adv_start` puts on the air: the burst's payload, or the connectable config
    advert. -/
inductive AdvKind where
  | event (payload : BthomePayload)
  | config
  deriving DecidableEq

/-- One broadcast; `id` counts successful `bt_le_adv_start` calls. -/
structure Broadcast where
  id : ℕ
  kind : AdvKind
  deriving DecidableEq

/-- One arming of a work item: the broadcast it belongs to and its delay. -/
structure Arming where
  owner : ℕ
  delayMs : ℕ
  deriving DecidableEq

/-- The BLE link. In `up` and `lost` the field is `none` until `bt_connected` has run, and then the
    number of broadcasts started by that time. -/
inductive Link where
  | down
  | up (since : Option ℕ)
  | lost (since : Option ℕ)
  deriving DecidableEq

/-- Broadcasts started when `bt_connected` ran for this link. -/
def Link.since : Link → Option ℕ
  | .down => none
  | .up since => since
  | .lost since => since

structure Ble where
  advState : AdvState
  bthomePid : UInt8
  payload : BthomePayload
  burstDone : Work Arming
  configTimeout : Work Arming
  radio : Option Broadcast
  starts : ℕ
  link : Link
  deriving DecidableEq

/-- Static storage after a reset. -/
def Ble.reset : Ble where
  advState := .idle
  bthomePid := 0
  payload := ⟨0, 0, 0, 0, 0, 0, 0⟩
  burstDone := .idle
  configTimeout := .idle
  radio := none
  starts := 0
  link := .down

/-! ### Bodies under `adv_mutex` -/

/-- `fill_bthome_payload`. -/
def fillBthomePayload (moving : UInt8) (m : Ble) : Ble :=
  { m with bthomePid := m.bthomePid + 1, payload := bthomePayload (m.bthomePid + 1) moving }

/-- `stop_advertising`; the stop takes effect. -/
def stopAdvertising (m : Ble) : Ble := { m with radio := none }

/-- `bt_le_adv_start` with return code `rc`. -/
def btLeAdvStart (kind : AdvKind) (rc : ℤ) (m : Ble) : Ble :=
  if rc = 0 then { m with radio := some ⟨m.starts + 1, kind⟩, starts := m.starts + 1 } else m

/-- `k_work_cancel_delayable` on both timeouts. -/
def cancelTimeouts (m : Ble) : Ble :=
  { m with configTimeout := m.configTimeout.cancel, burstDone := m.burstDone.cancel }

/-- `start_bthome_burst`: its return value and the new state. -/
def startBthomeBurst (moving : UInt8) (durationMs : ℕ) (rc : ℤ) (m : Ble) : ℤ × Ble :=
  if m.advState = .connected then (-ealready, m)
  else
    let m := cancelTimeouts m
    let m := fillBthomePayload moving m
    let m := stopAdvertising m
    let m := btLeAdvStart (.event m.payload) rc m
    if rc ≠ 0 then (rc, { m with advState := .idle })
    else (0, { m with
      advState := .eventBurst
      burstDone := m.burstDone.schedule ⟨m.starts, durationMs⟩ })

/-- `enter_config_window`. -/
def enterConfigWindow (rc : ℤ) (m : Ble) : ℤ × Ble :=
  if m.advState = .connected then (0, m)
  else
    let m := cancelTimeouts m
    let m := stopAdvertising m
    let m := btLeAdvStart .config rc m
    if rc ≠ 0 then (rc, { m with advState := .idle })
    else (0, { m with
      advState := .configWindow
      configTimeout := m.configTimeout.schedule ⟨m.starts, configWindowMs⟩ })

/-- `enter_idle`. -/
def enterIdle (m : Ble) : Ble :=
  let m := cancelTimeouts m
  let m := stopAdvertising m
  { m with advState := .idle }

/-- `burst_done_handler`. -/
def burstDoneHandler (rc : ℤ) (m : Ble) : Ble := (enterConfigWindow rc m).2

/-- `config_timeout_handler`. -/
def configTimeoutHandler (m : Ble) : Ble := enterIdle m

/-- `bt_connected`. -/
def btConnected (err : UInt8) (m : Ble) : Ble :=
  if err ≠ 0 then m
  else { cancelTimeouts m with advState := .connected }

/-- `bt_disconnected`. -/
def btDisconnected (m : Ble) : Ble := enterIdle m

/-! ### What each body does -/

section Bodies
variable (m : Ble)

/-- `start_bthome_burst` while connected changes nothing. -/
theorem startBthomeBurst_connected (moving : UInt8) (durationMs : ℕ) (rc : ℤ)
    (h : m.advState = .connected) :
    startBthomeBurst moving durationMs rc m = (-ealready, m) := if_pos h

theorem startBthomeBurst_ok (moving : UInt8) (durationMs : ℕ) (h : m.advState ≠ .connected) :
    startBthomeBurst moving durationMs 0 m = (0, {
      advState := .eventBurst
      bthomePid := m.bthomePid + 1
      payload := bthomePayload (m.bthomePid + 1) moving
      burstDone := m.burstDone.cancel.schedule ⟨m.starts + 1, durationMs⟩
      configTimeout := m.configTimeout.cancel
      radio := some ⟨m.starts + 1, .event (bthomePayload (m.bthomePid + 1) moving)⟩
      starts := m.starts + 1
      link := m.link }) := by
  rw [startBthomeBurst, if_neg h]; rfl

theorem startBthomeBurst_failed (moving : UInt8) (durationMs : ℕ) {rc : ℤ} (hrc : rc ≠ 0)
    (h : m.advState ≠ .connected) :
    startBthomeBurst moving durationMs rc m = (rc, {
      advState := .idle
      bthomePid := m.bthomePid + 1
      payload := bthomePayload (m.bthomePid + 1) moving
      burstDone := m.burstDone.cancel
      configTimeout := m.configTimeout.cancel
      radio := none
      starts := m.starts
      link := m.link }) := by
  rw [startBthomeBurst, if_neg h]
  simp only [btLeAdvStart, if_neg hrc]
  rw [if_pos hrc]; rfl

theorem enterConfigWindow_connected (rc : ℤ) (h : m.advState = .connected) :
    enterConfigWindow rc m = (0, m) := if_pos h

theorem enterConfigWindow_ok (h : m.advState ≠ .connected) :
    enterConfigWindow 0 m = (0, { m with
      advState := .configWindow
      burstDone := m.burstDone.cancel
      configTimeout := m.configTimeout.cancel.schedule ⟨m.starts + 1, configWindowMs⟩
      radio := some ⟨m.starts + 1, .config⟩
      starts := m.starts + 1 }) := by
  rw [enterConfigWindow, if_neg h]; rfl

theorem enterConfigWindow_failed {rc : ℤ} (hrc : rc ≠ 0) (h : m.advState ≠ .connected) :
    enterConfigWindow rc m = (rc, { m with
      advState := .idle
      burstDone := m.burstDone.cancel
      configTimeout := m.configTimeout.cancel
      radio := none }) := by
  rw [enterConfigWindow, if_neg h]
  simp only [btLeAdvStart, if_neg hrc]
  rw [if_pos hrc]; rfl

end Bodies

end SeeedMote.Mote
