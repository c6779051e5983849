import SeeedMote.Gateway.Nvs

/-! The gateway's Wi-Fi manager, `wifi_mgr.c`: the driver calls of `wifi_mgr_connect` (credentials
    just saved) and of `wifi_mgr_init` (credentials read at boot). A `wifi_config_t` has fields of a
    fixed size, zeroed and then filled by `strncpy` with one byte less than the size. -/

namespace SeeedMote.Gateway
open Lib

/-! ### Driver calls -/

/-- The station half of `wifi_config_t`. -/
structure StaConfig where
  ssid : Vector UInt8 32
  password : Vector UInt8 64
  deriving DecidableEq

inductive WifiAuthMode where | openNet | secured
  deriving DecidableEq

/-- The access point half of `wifi_config_t`. -/
structure ApConfig where
  ssid : Vector UInt8 32
  ssidLen : UInt8
  maxConnection : UInt8
  authmode : WifiAuthMode
  deriving DecidableEq

/-- The `esp_wifi` calls, with the configuration they pass. -/
inductive WifiCall where
  | disconnect
  | setModeApsta
  | setConfigAp (cfg : ApConfig)
  | setConfigSta (cfg : StaConfig)
  | start
  | connect
  deriving DecidableEq

/-- The station configurations passed to `esp_wifi_set_config`. -/
def staPassed (calls : List WifiCall) : List StaConfig :=
  calls.filterMap fun | .setConfigSta cfg => some cfg | _ => none

/-- The SSID and the passphrase the driver reads from a station configuration. -/
def StaConfig.Denotes (cfg : StaConfig) (ssid pass : CStr) : Prop :=
  fieldText cfg.ssid = ssid ∧ fieldText cfg.password = pass

instance (cfg : StaConfig) (ssid pass : CStr) : Decidable (cfg.Denotes ssid pass) :=
  inferInstanceAs (Decidable (_ ∧ _))

/-! ### The two callers -/

/-- `sta_cfg`, as `wifi_mgr_init` and `wifi_mgr_connect` both fill it in; `pass` may be NULL. -/
def staConfig (ssid : CStr) (pass : Option CStr) : StaConfig where
  ssid := strncpy (.replicate 32 0) ssid (32 - 1)
  password :=
    match pass with
    | some p => if p = [] then .replicate 64 0 else strncpy (.replicate 64 0) p (64 - 1)
    | none => .replicate 64 0

/-- `ap_cfg` of `wifi_mgr_init`; `ssid_len` is a byte. -/
def apConfig (apName : CStr) : ApConfig where
  ssid := strncpy (.replicate 32 0) apName (32 - 1)
  ssidLen := apName.length.toUInt8
  maxConnection := 4
  authmode := .openNet

/-- `wifi_mgr_init`; `ssid` and `pass` may be NULL. -/
def wifiMgrInit (apName : CStr) (ssid pass : Option CStr) : List WifiCall :=
  [.setModeApsta, .setConfigAp (apConfig apName)] ++
    (match ssid with
      | some s => if s = [] then [] else [.setConfigSta (staConfig s pass)]
      | none => []) ++
    [.start]

/-- `wifi_mgr_connect`. -/
def wifiMgrConnect (ssid : CStr) (pass : Option CStr) : List WifiCall :=
  [.disconnect, .setConfigSta (staConfig ssid pass), .connect]

/-- The call of `wifi_mgr_init` in `app_main`, after `nvs_config_load`. -/
def bootWifi (gwId : CStr) (nvs : Nvs) : List WifiCall :=
  let savedCfg := nvsConfigLoad nvs
  wifiMgrInit gwId (if savedCfg.hasWifi then some savedCfg.wifiSsid else none)
    (if savedCfg.hasWifi then some savedCfg.wifiPass else none)

/-! ### What reaches the driver -/

/-- NULL and the empty passphrase leave the field zeroed. -/
theorem staConfig_getD (ssid : CStr) (pass : Option CStr) :
    staConfig ssid pass = staConfig ssid (some (pass.getD [])) := by
  cases pass <;> rfl

/-- The driver reads at most 31 bytes of the SSID and at most 63 of the passphrase. -/
theorem staConfig_denotes {ssid pass : CStr} (hs : 0 ∉ ssid) (hp : 0 ∉ pass) :
    (staConfig ssid (some pass)).Denotes (ssid.take 31) (pass.take 63) := by
  refine ⟨fieldText_strncpy (by norm_num) hs, ?_⟩
  have hcopy := @fieldText_strncpy 64 63 (by norm_num) pass hp
  by_cases hnil : pass = []
  · rw [staConfig, hnil]
    rfl
  · simpa only [staConfig, if_neg hnil] using hcopy

/-- So it reads the credentials themselves exactly when neither is cut. -/
theorem staConfig_denotes_iff {ssid pass : CStr} (hs : 0 ∉ ssid) (hp : 0 ∉ pass)
    (hlen : pass.length ≤ 63) :
    (staConfig ssid (some pass)).Denotes ssid pass ↔ ssid.length ≤ 31 := by
  obtain ⟨hssid, hpass⟩ := staConfig_denotes hs hp
  rw [StaConfig.Denotes, hssid, hpass, List.take_eq_self_iff, List.take_eq_self_iff]
  exact and_iff_left hlen

theorem staPassed_connect (ssid : CStr) (pass : Option CStr) :
    staPassed (wifiMgrConnect ssid pass) = [staConfig ssid pass] := rfl

/-- Boot passes what was saved, as long as the load buffers hold it. -/
theorem staPassed_boot (gwId : CStr) (nvs : Nvs) {ssid : CStr} (pass : Option CStr)
    (hne : ssid ≠ []) (hs : ssid.length ≤ 32) (hp : (pass.getD []).length ≤ 64) :
    staPassed (bootWifi gwId (nvsConfigSaveWifi nvs ssid pass)) = [staConfig ssid pass] := by
  obtain ⟨hhas, hssid, hpass⟩ := load_saved_wifi nvs pass hne hs hp
  rw [staConfig_getD, bootWifi]
  simp [hhas, hssid, hpass, wifiMgrInit, hne, staPassed]

end SeeedMote.Gateway
