import SeeedMote.Gateway.WifiMgr

/-! The Wi-Fi driver under `wifi_mgr.c`, any that does what is documented. A call may fail; an attempt or
    a link ends with STA_DISCONNECTED; an address is announced with GOT_IP, and nothing the gateway
    listens to tells that it is lost:

        esp_wifi_start ─▶ STA_START    esp_wifi_connect ─▶ attempt ─▶ link ─▶ GOT_IP .. GOT_IP
                                                              └─────────┴──────────────┴─▶ STA_DISCONNECTED -/

namespace SeeedMote.Gateway
open Lib

/-! ### Events -/

structure Ipv4 where
  a : UInt8
  b : UInt8
  c : UInt8
  d : UInt8
  deriving DecidableEq

/-- `IPSTR` of `IP2STR`. -/
def Ipv4.text (ip : Ipv4) : CStr :=
  fmtUnsigned ip.a.toNat ++ lit "." ++ fmtUnsigned ip.b.toNat ++ lit "." ++
    fmtUnsigned ip.c.toNat ++ lit "." ++ fmtUnsigned ip.d.toNat

/-- The events `event_handler` tells apart; the rest is `other`. -/
inductive WifiEvent where
  | staStart
  | staDisconnected
  | apStaConnected
  | gotIp (ip : Ipv4)
  | other
  deriving DecidableEq

/-- An event after which the timer runs. -/
def WifiEvent.StartsTimer (e : WifiEvent) : Prop := e = .staStart ∨ e = .staDisconnected

/-- What an event tells of the link: its address, or that it has ended. -/
def WifiEvent.tells : WifiEvent → Option (Option Ipv4)
  | .staDisconnected => some none
  | .gotIp ip => some (some ip)
  | _ => none

/-- The last that events tell of the link. -/
def news (evs : List WifiEvent) : Option (Option Ipv4) := (evs.filterMap WifiEvent.tells).getLast?

theorem news_append (evs evs' : List WifiEvent) : news (evs ++ evs') = (news evs').or (news evs) := by
  rw [news, List.filterMap_append, List.getLast?_append, news, news]

/-! ### Drivers -/

/-- A call's error code, the driver after it, and the events it has posted by then. -/
structure Reply (D : Type) where
  rc : ℤ
  next : D
  posted : List WifiEvent

/-- A Wi-Fi driver with states `D`. What it does without a call of the manager, on air or in a scan, are
    the moves `O`. `apsta`: `esp_wifi_get_mode` finds WIFI_MODE_APSTA. The station is `configured` with
    an SSID, it is `busy` while an attempt or a link lasts, and on the link it may have an address. -/
structure StaDriver (D O : Type) where
  call : D → WifiCall → Reply D
  own : D → O → Option (D × List WifiEvent)
  apsta : D → Bool
  configured : D → Bool
  busy : D → Bool
  linked : D → Bool
  address : D → Option Ipv4

namespace StaDriver
variable {D O : Type}

/-- A move of the driver, and the events it posts. -/
structure Moves (w : StaDriver D O) (d d' : D) (evs : List WifiEvent) : Prop where
  /-- STA_DISCONNECTED when an attempt or a link ends, whoever ends it. -/
  ended : w.busy d = true → w.busy d' = true ∨ .staDisconnected ∈ evs
  /-- GOT_IP with every new address. -/
  announced : ∀ ip, w.address d' = some ip →
    news evs = some (some ip) ∨ news evs = none ∧ w.address d = some ip
  /-- No address after the end of its link. -/
  unlinked : w.linked d' = false → news evs = some none ∨ news evs = none ∧ w.linked d = false

/-- What the documentation of the driver says of it. -/
structure Documented (w : StaDriver D O) : Prop where
  call_moves : ∀ d c, w.Moves d (w.call d c).next (w.call d c).posted
  own_moves : ∀ d o d' evs, w.own d o = some (d', evs) → w.Moves d d' evs
  /-- Only `esp_wifi_set_config` sets an SSID. -/
  call_configured : ∀ d c, (∀ cfg, c ≠ .setConfigSta cfg) →
    w.configured (w.call d c).next = true → w.configured d = true
  own_configured : ∀ d o d' evs, w.own d o = some (d', evs) →
    w.configured d' = true → w.configured d = true
  /-- `esp_wifi_connect` starts an attempt, `esp_wifi_start` the station. -/
  connect_ok : ∀ d, (w.call d .connect).rc = 0 →
    w.busy (w.call d .connect).next = true ∨ .staDisconnected ∈ (w.call d .connect).posted
  start_ok : ∀ d, (w.call d .start).rc = 0 → .staStart ∈ (w.call d .start).posted

/-- The station is busy, has no SSID, or takes `esp_wifi_connect`. -/
def Accepts (w : StaDriver D O) (d : D) : Prop :=
  w.busy d = false → w.configured d = true → (w.call d .connect).rc = 0

instance (w : StaDriver D O) (d : D) : Decidable (w.Accepts d) := by
  unfold Accepts
  infer_instance

/-- Before `esp_wifi_start`; an SSID can be left from before the boot. -/
structure Down (w : StaDriver D O) (d : D) : Prop where
  linked : w.linked d = false
  address : w.address d = none

end StaDriver

/-! ### A station -/

inductive StaPhase where
  | idle
  | connecting
  | associated (ip : Option Ipv4)
  deriving DecidableEq

/-- A station that does one thing at a time. -/
structure Station where
  config : Option StaConfig
  phase : StaPhase
  deriving DecidableEq

/-- It reaches the network, gets an address, loses it, or loses the network; a client joins the access
    point. -/
inductive StationMove where
  | associated
  | gotIp (ip : Ipv4)
  | lostIp
  | dropped
  | apClient

namespace Station

def configured (d : Station) : Bool := d.config.any fun cfg => fieldText cfg.ssid ≠ []

def linked (d : Station) : Bool :=
  match d.phase with
  | .associated _ => true
  | _ => false

def address (d : Station) : Option Ipv4 :=
  match d.phase with
  | .associated ip => ip
  | _ => none

/-- The end of what there is. -/
def drop (d : Station) : Station := { d with phase := .idle }

/-- The codes are ESP_ERR_WIFI_STATE, ESP_ERR_WIFI_CONN and ESP_ERR_WIFI_SSID, in this order. -/
def call (d : Station) : WifiCall → Reply Station
  | .disconnect => if d.phase = .idle then ⟨0, d, []⟩ else ⟨0, d.drop, [.staDisconnected]⟩
  | .setModeApsta => ⟨0, d, []⟩
  | .setConfigAp _ => ⟨0, d, []⟩
  | .setConfigSta cfg =>
    if d.phase = .connecting then ⟨0x3006, d, []⟩ else ⟨0, { d with config := some cfg }, []⟩
  | .start => ⟨0, d, [.staStart, .other]⟩
  | .connect =>
    if d.phase = .connecting then ⟨0x3007, d, []⟩
    else if d.configured = false then ⟨0x300A, d, []⟩
    else if d.phase = .idle then ⟨0, { d with phase := .connecting }, []⟩
    else ⟨0, d, []⟩

def own (d : Station) : StationMove → Option (Station × List WifiEvent)
  | .associated =>
    if d.phase = .connecting then some ({ d with phase := .associated none }, [.other]) else none
  | .gotIp ip =>
    if d.linked then some ({ d with phase := .associated (some ip) }, [.gotIp ip]) else none
  | .lostIp =>
    if d.address = none then none else some ({ d with phase := .associated none }, [.other])
  | .dropped => if d.phase = .idle then none else some (d.drop, [.staDisconnected])
  | .apClient => some (d, [.apStaConnected])

/-- The driver of such a station. -/
def driver : StaDriver Station StationMove where
  call := call
  own := own
  apsta _ := true
  configured := configured
  busy d := d.phase ≠ .idle
  linked := linked
  address := address

/-- A move that leaves the link as it is. -/
theorem moves_quiet {d d' : Station} {evs : List WifiEvent} (hphase : d'.phase = d.phase)
    (hnews : news evs = none) : driver.Moves d d' evs where
  ended hbusy := .inl (by simpa [driver, hphase] using hbusy)
  announced ip hip := .inr ⟨hnews, by simpa [driver, address, hphase] using hip⟩
  unlinked hlink := .inr ⟨hnews, by simpa [driver, linked, hphase] using hlink⟩

theorem moves_drop (d : Station) : driver.Moves d d.drop [.staDisconnected] where
  ended _ := .inr (List.mem_singleton_self _)
  announced ip hip := by simp [driver, drop, address] at hip
  unlinked _ := .inl rfl

/-- A link that has no address yet, or no longer, or a new attempt. -/
theorem moves_phase {d : Station} {phase : StaPhase} {evs : List WifiEvent} (hnews : news evs = none)
    (hbusy : phase ≠ .idle) (haddress : ∀ ip, phase ≠ .associated (some ip))
    (hlink : phase = .connecting → d.linked = false) : driver.Moves d { d with phase } evs where
  ended _ := .inl (by simpa [driver] using hbusy)
  announced ip hip := by
    cases phase with
    | idle => simp [driver, address] at hip
    | connecting => simp [driver, address] at hip
    | associated ip' =>
      obtain rfl : ip' = some ip := hip
      exact absurd rfl (haddress ip)
  unlinked hun := by
    refine .inr ⟨hnews, ?_⟩
    cases phase with
    | idle => exact absurd rfl hbusy
    | connecting => exact hlink rfl
    | associated ip => simp [driver, linked] at hun

theorem moves_gotIp {d : Station} (ip : Ipv4) :
    driver.Moves d { d with phase := .associated (some ip) } [.gotIp ip] where
  ended _ := .inl rfl
  announced ip' hip := .inl (congrArg some hip)
  unlinked hun := by simp [driver, linked] at hun

theorem call_moves (d : Station) (c : WifiCall) :
    driver.Moves d (d.call c).next (d.call c).posted := by
  cases c with
  | disconnect =>
    rw [call]
    split
    · exact moves_quiet rfl rfl
    · exact moves_drop d
  | setConfigSta cfg =>
    rw [call]
    split <;> exact moves_quiet rfl rfl
  | connect =>
    rw [call]
    split
    · exact moves_quiet rfl rfl
    · split
      · exact moves_quiet rfl rfl
      · split
        · next hidle => exact moves_phase rfl nofun nofun fun _ => by rw [linked, hidle]
        · exact moves_quiet rfl rfl
  | setModeApsta => exact moves_quiet rfl rfl
  | setConfigAp cfg => exact moves_quiet rfl rfl
  | start => exact moves_quiet rfl rfl

theorem own_moves {d d' : Station} {o : StationMove} {evs : List WifiEvent}
    (h : d.own o = some (d', evs)) : driver.Moves d d' evs ∧ d'.config = d.config := by
  cases o with
  | associated =>
    rw [own, Option.ite_none_right_eq_some] at h
    obtain ⟨-, h⟩ := h
    obtain ⟨rfl, rfl⟩ := Prod.mk.inj (Option.some.inj h)
    exact ⟨moves_phase rfl nofun nofun nofun, rfl⟩
  | gotIp ip =>
    rw [own, Option.ite_none_right_eq_some] at h
    obtain ⟨-, h⟩ := h
    obtain ⟨rfl, rfl⟩ := Prod.mk.inj (Option.some.inj h)
    exact ⟨moves_gotIp ip, rfl⟩
  | lostIp =>
    rw [own, Option.ite_none_left_eq_some] at h
    obtain ⟨-, h⟩ := h
    obtain ⟨rfl, rfl⟩ := Prod.mk.inj (Option.some.inj h)
    exact ⟨moves_phase rfl nofun nofun nofun, rfl⟩
  | dropped =>
    rw [own, Option.ite_none_left_eq_some] at h
    obtain ⟨-, h⟩ := h
    obtain ⟨rfl, rfl⟩ := Prod.mk.inj (Option.some.inj h)
    exact ⟨moves_drop d, rfl⟩
  | apClient =>
    obtain ⟨rfl, rfl⟩ := Prod.mk.inj (Option.some.inj h)
    exact ⟨moves_quiet rfl rfl, rfl⟩

theorem driver_documented : driver.Documented where
  call_moves := call_moves
  own_moves d o d' evs h := (own_moves h).1
  call_configured d c hc hcfg := by
    cases c with
    | setConfigSta cfg => exact absurd rfl (hc cfg)
    | disconnect =>
      simp only [driver, call] at hcfg
      split at hcfg <;> exact hcfg
    | connect =>
      simp only [driver, call] at hcfg
      split at hcfg
      · exact hcfg
      · split at hcfg
        · exact hcfg
        · split at hcfg <;> exact hcfg
    | setModeApsta => exact hcfg
    | setConfigAp cfg => exact hcfg
    | start => exact hcfg
  own_configured d o d' evs h hcfg := by
    simpa only [driver, configured, (own_moves h).2] using hcfg
  connect_ok d hrc := by
    simp only [driver, call] at hrc ⊢
    split at hrc
    · simp at hrc
    · split at hrc
      · simp at hrc
      · next hphase hcfg =>
        rw [if_neg hphase, if_neg hcfg]
        by_cases hidle : d.phase = .idle <;> simp [hidle]
  start_ok _ _ := List.mem_cons_self ..

/-- Just initialised, with nothing stored. -/
def off : Station := ⟨none, .idle⟩

theorem down_off : driver.Down off := ⟨rfl, rfl⟩

end Station

end SeeedMote.Gateway
