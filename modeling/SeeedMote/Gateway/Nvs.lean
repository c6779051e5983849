import SeeedMote.Lib.CBytes

/-! The gateway's stored configuration, `nvs_config.c`: five keys of the NVS namespace `gw_cfg`,
    written one after the other by the save functions and read into `struct gw_config` at boot. -/

namespace SeeedMote.Gateway
open Lib

/-! ### The key store -/

/-- The keys of `gw_cfg`; `none` is a key never written. -/
structure Nvs where
  wifiSsid : Option CStr
  wifiPass : Option CStr
  mqttBroker : Option CStr
  mqttPort : Option UInt16
  mqttPass : Option CStr
  deriving DecidableEq

/-- One key write. -/
inductive NvsWrite where
  | wifiSsid (v : CStr)
  | wifiPass (v : CStr)
  | mqttBroker (v : CStr)
  | mqttPort (v : UInt16)
  | mqttPass (v : CStr)
  deriving DecidableEq

def Nvs.write (nvs : Nvs) : NvsWrite → Nvs
  | .wifiSsid v => { nvs with wifiSsid := some v }
  | .wifiPass v => { nvs with wifiPass := some v }
  | .mqttBroker v => { nvs with mqttBroker := some v }
  | .mqttPort v => { nvs with mqttPort := some v }
  | .mqttPass v => { nvs with mqttPass := some v }

/-- `nvs_get_str` into a buffer of `size` bytes; `none` is an error, the buffer untouched. -/
def nvsGetStr (stored : Option CStr) (size : ℕ) : Option CStr :=
  stored.filter fun v => v.length + 1 ≤ size

theorem nvsGetStr_of_lt {v : CStr} {size : ℕ} (h : v.length < size) :
    nvsGetStr (some v) size = some v := by
  rw [nvsGetStr, Option.filter_some, if_pos (by simpa using h)]

/-! ### Saving -/

/-- The key writes of `nvs_config_save_wifi`, in order; `pass` may be NULL. -/
def saveWifiWrites (ssid : CStr) (pass : Option CStr) : List NvsWrite :=
  [.wifiSsid ssid, .wifiPass (pass.getD [])]

/-- The key writes of `nvs_config_save_mqtt`, in order; `pass` may be NULL. -/
def saveMqttWrites (broker : CStr) (port : UInt16) (pass : Option CStr) : List NvsWrite :=
  [.mqttBroker broker, .mqttPort port, .mqttPass (pass.getD [])]

/-- `nvs_config_save_wifi`. -/
def nvsConfigSaveWifi (nvs : Nvs) (ssid : CStr) (pass : Option CStr) : Nvs :=
  (saveWifiWrites ssid pass).foldl Nvs.write nvs

/-- `nvs_config_save_mqtt`. -/
def nvsConfigSaveMqtt (nvs : Nvs) (broker : CStr) (port : UInt16) (pass : Option CStr) : Nvs :=
  (saveMqttWrites broker port pass).foldl Nvs.write nvs

/-! ### Loading -/

def defaultMqttPort : UInt16 := 1883

/-- `struct gw_config`. -/
structure GwConfig where
  wifiSsid : CStr
  wifiPass : CStr
  mqttBroker : CStr
  mqttPort : UInt16
  mqttPass : CStr
  hasWifi : Bool
  hasMqtt : Bool
  deriving DecidableEq

/-- The port `nvs_config_load` takes: a stored one above 0, else the default. -/
def loadPort (stored : Option UInt16) : UInt16 :=
  match stored with
  | some port => if 0 < port then port else defaultMqttPort
  | none => defaultMqttPort

/-- `nvs_config_load`. -/
def nvsConfigLoad (nvs : Nvs) : GwConfig :=
  let ssid := (nvsGetStr nvs.wifiSsid 33).getD []
  let broker := (nvsGetStr nvs.mqttBroker 65).getD []
  let hasWifi := decide (ssid ≠ [])
  let hasMqtt := decide (broker ≠ [])
  { wifiSsid := ssid
    wifiPass := if hasWifi then (nvsGetStr nvs.wifiPass 65).getD [] else []
    mqttBroker := broker
    mqttPort := if hasMqtt then loadPort nvs.mqttPort else defaultMqttPort
    mqttPass := if hasMqtt then (nvsGetStr nvs.mqttPass 65).getD [] else []
    hasWifi := hasWifi
    hasMqtt := hasMqtt }

/-- The boot read returns the saved Wi-Fi credentials when they fit its buffers. -/
theorem load_saved_wifi (nvs : Nvs) {ssid : CStr} (pass : Option CStr) (hne : ssid ≠ [])
    (hs : ssid.length ≤ 32) (hp : (pass.getD []).length ≤ 64) :
    (nvsConfigLoad (nvsConfigSaveWifi nvs ssid pass)).hasWifi = true ∧
      (nvsConfigLoad (nvsConfigSaveWifi nvs ssid pass)).wifiSsid = ssid ∧
      (nvsConfigLoad (nvsConfigSaveWifi nvs ssid pass)).wifiPass = pass.getD [] := by
  have hssid : nvsGetStr (some ssid) 33 = some ssid := nvsGetStr_of_lt (Nat.lt_succ_of_le hs)
  have hpass : nvsGetStr (some (pass.getD [])) 65 = some (pass.getD []) :=
    nvsGetStr_of_lt (Nat.lt_succ_of_le hp)
  simp [nvsConfigLoad, nvsConfigSaveWifi, saveWifiWrites, Nvs.write, hssid, hpass, hne]

/-! ### The groups of settings -/

/-- What one save of the Wi-Fi credentials passes. -/
structure WifiSettings where
  ssid : CStr
  pass : CStr
  deriving DecidableEq

/-- The credentials of a loaded configuration. -/
def GwConfig.wifi? (cfg : GwConfig) : Option WifiSettings :=
  if cfg.hasWifi then some ⟨cfg.wifiSsid, cfg.wifiPass⟩ else none

/-- What one save of the MQTT settings passes. -/
structure MqttSettings where
  broker : CStr
  port : UInt16
  pass : CStr
  deriving DecidableEq

/-- The settings the keys hold, whatever their length; a key never written has its default. -/
def Nvs.mqttSaved (nvs : Nvs) : Option MqttSettings :=
  match nvs.mqttBroker with
  | none => none
  | some broker => if broker = [] then none
    else some ⟨broker, nvs.mqttPort.getD defaultMqttPort, nvs.mqttPass.getD []⟩

/-- The settings of a loaded configuration. -/
def GwConfig.mqtt? (cfg : GwConfig) : Option MqttSettings :=
  if cfg.hasMqtt then some ⟨cfg.mqttBroker, cfg.mqttPort, cfg.mqttPass⟩ else none

/-- Saving replaces the settings as a whole. -/
theorem mqttSaved_save (nvs : Nvs) (broker : CStr) (port : UInt16) (pass : Option CStr) :
    (nvsConfigSaveMqtt nvs broker port pass).mqttSaved =
      if broker = [] then none else some ⟨broker, port, pass.getD []⟩ := rfl

/-- The boot read returns the saved settings when no value is too long for its buffer and the port
    is not 0. -/
theorem load_mqtt_of_fits {nvs : Nvs} {m : MqttSettings} (hm : nvs.mqttSaved = some m)
    (hb : m.broker.length ≤ 64) (hp : m.pass.length ≤ 64) (hport : 0 < m.port) :
    (nvsConfigLoad nvs).mqtt? = some m := by
  obtain ⟨ssid, wpass, broker, port, pass⟩ := nvs
  cases broker with
  | none => simp [Nvs.mqttSaved] at hm
  | some broker =>
    by_cases hne : broker = []
    · simp [Nvs.mqttSaved, hne] at hm
    · obtain rfl : _ = m := by simpa [Nvs.mqttSaved, hne] using hm
      have hbroker : nvsGetStr (some broker) 65 = some broker :=
        nvsGetStr_of_lt (Nat.lt_succ_of_le hb)
      have hpass : (nvsGetStr pass 65).getD [] = pass.getD [] := by
        cases pass with
        | none => rfl
        | some p =>
          have hlt : p.length < 65 := Nat.lt_succ_of_le hp
          rw [nvsGetStr_of_lt hlt]
      have hport' : loadPort port = port.getD defaultMqttPort := by
        cases port with
        | none => rfl
        | some p => exact if_pos hport
      simp [GwConfig.mqtt?, nvsConfigLoad, hbroker, hne, hpass, hport']

theorem length_getD_nvsGetStr (stored : Option CStr) {size : ℕ} (h : 0 < size) :
    ((nvsGetStr stored size).getD []).length < size := by
  cases hget : nvsGetStr stored size with
  | none => exact h
  | some v => simpa using (Option.filter_eq_some_iff.mp hget).2

theorem loadPort_pos (stored : Option UInt16) : 0 < loadPort stored := by
  cases stored with
  | none => decide
  | some port =>
    rw [loadPort]
    split
    · assumption
    · decide

/-- What the boot read returns is within the sizes of its buffers. -/
theorem load_mqtt_bounds {nvs : Nvs} {m : MqttSettings} (h : (nvsConfigLoad nvs).mqtt? = some m) :
    m.broker ≠ [] ∧ m.broker.length ≤ 64 ∧ 0 < m.port ∧ m.pass.length ≤ 64 := by
  obtain ⟨hhas, rfl⟩ := Option.ite_some_none_eq_some.mp h
  have hne : (nvsGetStr nvs.mqttBroker 65).getD [] ≠ [] := of_decide_eq_true hhas
  have hbroker := length_getD_nvsGetStr nvs.mqttBroker (show 0 < 65 by norm_num)
  have hpass := length_getD_nvsGetStr nvs.mqttPass (show 0 < 65 by norm_num)
  have hport := loadPort_pos nvs.mqttPort
  simp only [nvsConfigLoad, hne, ne_eq, not_false_eq_true, decide_true, if_true]
  exact ⟨trivial, Nat.le_of_lt_succ hbroker, hport, Nat.le_of_lt_succ hpass⟩

theorem length_load_broker (nvs : Nvs) : (nvsConfigLoad nvs).mqttBroker.length ≤ 64 :=
  Nat.le_of_lt_succ (length_getD_nvsGetStr nvs.mqttBroker (by norm_num))

theorem load_hasMqtt_iff (nvs : Nvs) :
    (nvsConfigLoad nvs).hasMqtt = true ↔ (nvsConfigLoad nvs).mqttBroker ≠ [] :=
  decide_eq_true_iff

end SeeedMote.Gateway
