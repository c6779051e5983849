import SeeedMote.Lib.Run
import SeeedMote.Gateway.Nvs

/-! Saves that are cut short. A save of `nvs_config.c` writes the keys of its group one by one and
    looks at no error code: a write may fail on its own, and a power loss keeps the writes before it.

        nvs_config_save_wifi    wifi_ssid ──▶ wifi_pass
        nvs_config_save_mqtt    mqtt_broker ──▶ mqtt_port ──▶ mqtt_pass

    What the next boot loads was passed together in one call as long as every call leaves its group
    whole, untouched or without a readable name. -/

namespace SeeedMote.Gateway.TornSaves
open Lib

/-! ### Calls and their writes -/

/-- A call of a save function; a password may be NULL. -/
inductive SaveCall where
  | wifi (ssid : CStr) (pass : Option CStr)
  | mqtt (broker : CStr) (port : UInt16) (pass : Option CStr)
  deriving DecidableEq

def SaveCall.writes : SaveCall → List NvsWrite
  | .wifi ssid pass => saveWifiWrites ssid pass
  | .mqtt broker port pass => saveMqttWrites broker port pass

/-- A call with the fate of its key writes, in order: `false` is a write that fails, and a list too
    short is one where the power is lost, or `nvs_open` fails, before the rest. -/
structure SaveEvent where
  call : SaveCall
  fate : List Bool

/-- The writes that take place. -/
def carriedOut : List NvsWrite → List Bool → List NvsWrite
  | w :: ws, b :: fate => if b then w :: carriedOut ws fate else carriedOut ws fate
  | _, _ => []

/-- The keys, and the calls made so far. -/
structure SaveLog where
  nvs : Nvs
  calls : List SaveCall

/-- A gateway never configured. -/
def SaveLog.start : SaveLog := ⟨⟨none, none, none, none, none⟩, []⟩

def saveStep (s : SaveLog) (e : SaveEvent) : Option SaveLog :=
  some ⟨(carriedOut e.call.writes e.fate).foldl Nvs.write s.nvs, s.calls ++ [e.call]⟩

/-! ### The groups as passed -/

/-- The credentials a call passes. -/
def SaveCall.wifi? : SaveCall → Option WifiSettings
  | .wifi ssid pass => some ⟨ssid, pass.getD []⟩
  | .mqtt .. => none

/-- The MQTT settings a call passes. -/
def SaveCall.mqtt? : SaveCall → Option MqttSettings
  | .wifi .. => none
  | .mqtt broker port pass => some ⟨broker, port, pass.getD []⟩

/-- What the boot read returns of a group was passed together in one call. -/
structure NotMixed (s : SaveLog) : Prop where
  wifi : ∀ m, (nvsConfigLoad s.nvs).wifi? = some m → ∃ c ∈ s.calls, c.wifi? = some m
  mqtt : ∀ m, (nvsConfigLoad s.nvs).mqtt? = some m → ∃ c ∈ s.calls, c.mqtt? = some m

/-! ### Calls that keep the groups whole -/

/-- A buffer of zeros after `nvs_get_str`. -/
def readStr (stored : Option CStr) (size : ℕ) : CStr := (nvsGetStr stored size).getD []

/-- Whether the write number `i` of a call takes place. -/
def took (fate : List Bool) (i : ℕ) : Bool := fate.getD i false

/-- What a key holds after a write of `v` that takes place or not. -/
def leftIn {α : Type} (written : Bool) (v : α) (stored : Option α) : Option α :=
  if written then some v else stored

/-- Calls of `nvs_config_save_wifi` that do not mix, by the writes that take place. -/
inductive SafeWifi (nvs : Nvs) (ssid pass : CStr) (fate : List Bool) : Prop where
  /-- Each key is written with a value that can be read back, or reads as passed already. -/
  | whole (hssid : took fate 0 = true ∨ nvs.wifiSsid = some ssid)
      (hpass : if took fate 1 then pass.length ≤ 64 else readStr nvs.wifiPass 65 = pass)
  /-- No write changes what its key reads as. -/
  | idle (hssid : took fate 0 = true → readStr nvs.wifiSsid 33 = readStr (some ssid) 33)
      (hpass : took fate 1 = true → readStr nvs.wifiPass 65 = readStr (some pass) 65)
  /-- The SSID is left unreadable. -/
  | unset (hssid : readStr (leftIn (took fate 0) ssid nvs.wifiSsid) 33 = [])

/-- Calls of `nvs_config_save_mqtt` that do not mix, by the writes that take place. -/
inductive SafeMqtt (nvs : Nvs) (broker : CStr) (port : UInt16) (pass : CStr) (fate : List Bool) :
    Prop where
  /-- Each key is written with a value that can be read back, or reads as passed already. -/
  | whole (hbroker : took fate 0 = true ∨ nvs.mqttBroker = some broker)
      (hport : if took fate 1 then 0 < port else loadPort nvs.mqttPort = port)
      (hpass : if took fate 2 then pass.length ≤ 64 else readStr nvs.mqttPass 65 = pass)
  /-- No write changes what its key reads as. -/
  | idle (hbroker : took fate 0 = true → readStr nvs.mqttBroker 65 = readStr (some broker) 65)
      (hport : took fate 1 = true → loadPort nvs.mqttPort = loadPort (some port))
      (hpass : took fate 2 = true → readStr nvs.mqttPass 65 = readStr (some pass) 65)
  /-- The broker is left unreadable. -/
  | unset (hbroker : readStr (leftIn (took fate 0) broker nvs.mqttBroker) 65 = [])

def SafeSave (s : SaveLog) (e : SaveEvent) : Prop :=
  match e.call with
  | .wifi ssid pass => SafeWifi s.nvs ssid (pass.getD []) e.fate
  | .mqtt broker port pass => SafeMqtt s.nvs broker port (pass.getD []) e.fate

/-! ### What a call leaves in the keys -/

theorem wifi_writes (nvs : Nvs) (ssid : CStr) (pass : Option CStr) (fate : List Bool) :
    (carriedOut (saveWifiWrites ssid pass) fate).foldl Nvs.write nvs =
      { nvs with
        wifiSsid := leftIn (took fate 0) ssid nvs.wifiSsid
        wifiPass := leftIn (took fate 1) (pass.getD []) nvs.wifiPass } := by
  rcases fate with _ | ⟨_ | _, _ | ⟨_ | _, fate⟩⟩
  all_goals rfl

theorem mqtt_writes (nvs : Nvs) (broker : CStr) (port : UInt16) (pass : Option CStr)
    (fate : List Bool) :
    (carriedOut (saveMqttWrites broker port pass) fate).foldl Nvs.write nvs =
      { nvs with
        mqttBroker := leftIn (took fate 0) broker nvs.mqttBroker
        mqttPort := leftIn (took fate 1) port nvs.mqttPort
        mqttPass := leftIn (took fate 2) (pass.getD []) nvs.mqttPass } := by
  rcases fate with _ | ⟨_ | _, _ | ⟨_ | _, _ | ⟨_ | _, fate⟩⟩⟩
  all_goals rfl

/-! ### What the boot read makes of it -/

/-- What is read of a key is its value or nothing. -/
theorem readStr_eq_or (stored : Option CStr) (size : ℕ) :
    stored = some (readStr stored size) ∨ readStr stored size = [] := by
  rw [readStr, nvsGetStr]
  cases stored with
  | none => exact .inr rfl
  | some v =>
    rw [Option.filter_some]
    split
    · exact .inl rfl
    · exact .inr rfl

/-- A value is read back when it leaves room for the NUL. -/
theorem readStr_some_iff {v : CStr} {size : ℕ} (hsize : 0 < size) :
    readStr (some v) size = v ↔ v.length < size := by
  constructor
  · intro h
    rw [← h]
    exact length_getD_nvsGetStr (some v) hsize
  · intro h
    rw [readStr, nvsGetStr_of_lt h, Option.getD_some]

theorem loadPort_some_iff (port : UInt16) : loadPort (some port) = port ↔ 0 < port := by
  constructor
  · intro h
    rw [← h]
    exact loadPort_pos (some port)
  · intro h
    exact if_pos h

/-- A write that takes place or not leaves what is read of its key as it was. -/
theorem read_leftIn_same {α β : Type} (f : Option α → β) {written : Bool} {v : α} {stored : Option α} :
    f (leftIn written v stored) = f stored ↔ (written = true → f stored = f (some v)) := by
  cases written with
  | false => simp [leftIn]
  | true => simpa [leftIn] using eq_comm

theorem load_wifi (nvs : Nvs) : (nvsConfigLoad nvs).wifi? =
    if readStr nvs.wifiSsid 33 = [] then none
    else some ⟨readStr nvs.wifiSsid 33, readStr nvs.wifiPass 65⟩ := by
  by_cases h : readStr nvs.wifiSsid 33 = []
  · have hssid : (nvsGetStr nvs.wifiSsid 33).getD [] = [] := h
    simp [GwConfig.wifi?, nvsConfigLoad, hssid, h]
  · have hssid : (nvsGetStr nvs.wifiSsid 33).getD [] ≠ [] := h
    simp [GwConfig.wifi?, nvsConfigLoad, hssid, readStr]

theorem load_mqtt (nvs : Nvs) : (nvsConfigLoad nvs).mqtt? =
    if readStr nvs.mqttBroker 65 = [] then none
    else some ⟨readStr nvs.mqttBroker 65, loadPort nvs.mqttPort, readStr nvs.mqttPass 65⟩ := by
  by_cases h : readStr nvs.mqttBroker 65 = []
  · have hbroker : (nvsGetStr nvs.mqttBroker 65).getD [] = [] := h
    simp [GwConfig.mqtt?, nvsConfigLoad, hbroker, h]
  · have hbroker : (nvsGetStr nvs.mqttBroker 65).getD [] ≠ [] := h
    simp [GwConfig.mqtt?, nvsConfigLoad, hbroker, readStr]

/-- The first key of a group, where it can be read, reads as the name passed. -/
theorem name_reads_iff {written : Bool} {v : CStr} {stored : Option CStr} {size : ℕ}
    (hne : readStr (leftIn written v stored) size ≠ []) :
    written = true ∨ stored = some v ↔ readStr (leftIn written v stored) size = v := by
  have hread := (readStr_eq_or (leftIn written v stored) size).resolve_right hne
  constructor
  · intro h
    have hleft : leftIn written v stored = some v := by
      rcases h with rfl | rfl
      · rfl
      · cases written <;> rfl
    exact (Option.some.inj (hleft.symm.trans hread)).symm
  · intro h
    cases written with
    | true => exact .inl rfl
    | false =>
      rw [h] at hread
      exact .inr hread

theorem pass_reads_iff {written : Bool} {v : CStr} {stored : Option CStr} :
    (if written then v.length ≤ 64 else readStr stored 65 = v) ↔
      readStr (leftIn written v stored) 65 = v := by
  cases written with
  | false => rfl
  | true => exact Nat.lt_succ_iff.symm.trans (readStr_some_iff (by norm_num)).symm

theorem port_reads_iff {written : Bool} {port : UInt16} {stored : Option UInt16} :
    (if written then 0 < port else loadPort stored = port) ↔
      loadPort (leftIn written port stored) = port := by
  cases written with
  | false => rfl
  | true => exact (loadPort_some_iff port).symm

/-- What is loaded of a group with name `n` and other values `r`, `mk` making its settings, against
    what was passed (`v`, `w`) and what was loaded before (`n₀`, `r₀`). -/
theorem group_iff {β γ : Type} {mk : CStr → β → γ}
    (hmk : ∀ {n r v w}, mk n r = mk v w → n = v ∧ r = w) (n v n₀ : CStr) (r w r₀ : β) :
    (∀ m, (n ≠ [] ∧ some (mk n r) = some m) → m = mk v w ∨ (n₀ ≠ [] ∧ some (mk n₀ r₀) = some m)) ↔
      (n ≠ [] → (n = v ∧ r = w) ∨ (n = n₀ ∧ r = r₀)) := by
  constructor
  · intro h hne
    rcases h _ ⟨hne, rfl⟩ with hpassed | ⟨-, hbefore⟩
    · exact .inl (hmk hpassed)
    · obtain ⟨hn, hr⟩ := hmk (Option.some.inj hbefore)
      exact .inr ⟨hn.symm, hr.symm⟩
  · rintro h m ⟨hne, hm⟩
    obtain rfl := Option.some.inj hm
    rcases h hne with ⟨rfl, rfl⟩ | ⟨rfl, rfl⟩
    · exact .inl rfl
    · exact .inr ⟨hne, rfl⟩

/-- A call is safe exactly if what is loaded after it was passed by it or loaded before. -/
theorem safeWifi_iff {nvs : Nvs} {ssid : CStr} {pass : Option CStr} {fate : List Bool} :
    SafeWifi nvs ssid (pass.getD []) fate ↔ ∀ m,
      (nvsConfigLoad ((carriedOut (saveWifiWrites ssid pass) fate).foldl Nvs.write nvs)).wifi?
        = some m → m = ⟨ssid, pass.getD []⟩ ∨ (nvsConfigLoad nvs).wifi? = some m := by
  rw [wifi_writes]
  simp only [load_wifi, Option.ite_none_left_eq_some]
  rw [@group_iff _ _ WifiSettings.mk WifiSettings.mk.inj]
  constructor
  · rintro h hne
    cases h with
    | whole hssid hpass => exact .inl ⟨(name_reads_iff hne).mp hssid, pass_reads_iff.mp hpass⟩
    | idle hssid hpass =>
      exact .inr ⟨(read_leftIn_same (readStr · 33)).mpr hssid,
        (read_leftIn_same (readStr · 65)).mpr hpass⟩
    | unset hssid => exact absurd hssid hne
  · intro h
    by_cases hne : readStr (leftIn (took fate 0) ssid nvs.wifiSsid) 33 = []
    · exact .unset hne
    · rcases h hne with ⟨hssid, hpass⟩ | ⟨hssid, hpass⟩
      · exact .whole ((name_reads_iff hne).mpr hssid) (pass_reads_iff.mpr hpass)
      · exact .idle ((read_leftIn_same (readStr · 33)).mp hssid)
          ((read_leftIn_same (readStr · 65)).mp hpass)

theorem mqttSettings_inj {n v : CStr} {r w : UInt16 × CStr}
    (h : MqttSettings.mk n r.1 r.2 = ⟨v, w.1, w.2⟩) : n = v ∧ r = w := by
  obtain ⟨hn, hport, hpass⟩ := MqttSettings.mk.inj h
  exact ⟨hn, Prod.ext hport hpass⟩

/-- A call is safe exactly if what is loaded after it was passed by it or loaded before. -/
theorem safeMqtt_iff {nvs : Nvs} {broker : CStr} {port : UInt16} {pass : Option CStr}
    {fate : List Bool} : SafeMqtt nvs broker port (pass.getD []) fate ↔ ∀ m,
      (nvsConfigLoad ((carriedOut (saveMqttWrites broker port pass) fate).foldl Nvs.write nvs)).mqtt?
        = some m → m = ⟨broker, port, pass.getD []⟩ ∨ (nvsConfigLoad nvs).mqtt? = some m := by
  rw [mqtt_writes]
  simp only [load_mqtt, Option.ite_none_left_eq_some]
  refine Iff.trans ?_ (group_iff mqttSettings_inj _ broker _ (_, _) (port, _) (_, _)).symm
  constructor
  · rintro h hne
    cases h with
    | whole hbroker hport hpass =>
      exact .inl ⟨(name_reads_iff hne).mp hbroker,
        Prod.ext (port_reads_iff.mp hport) (pass_reads_iff.mp hpass)⟩
    | idle hbroker hport hpass =>
      exact .inr ⟨(read_leftIn_same (readStr · 65)).mpr hbroker,
        Prod.ext ((read_leftIn_same loadPort).mpr hport) ((read_leftIn_same (readStr · 65)).mpr hpass)⟩
    | unset hbroker => exact absurd hbroker hne
  · intro h
    by_cases hne : readStr (leftIn (took fate 0) broker nvs.mqttBroker) 65 = []
    · exact .unset hne
    · rcases h hne with ⟨hbroker, hrest⟩ | ⟨hbroker, hrest⟩
      · obtain ⟨hport, hpass⟩ := Prod.ext_iff.mp hrest
        exact .whole ((name_reads_iff hne).mpr hbroker) (port_reads_iff.mpr hport)
          (pass_reads_iff.mpr hpass)
      · obtain ⟨hport, hpass⟩ := Prod.ext_iff.mp hrest
        exact .idle ((read_leftIn_same (readStr · 65)).mp hbroker)
          ((read_leftIn_same loadPort).mp hport) ((read_leftIn_same (readStr · 65)).mp hpass)

/-! ### Runs of saves -/

theorem notMixed_start : NotMixed .start :=
  ⟨fun m hm => by simp [SaveLog.start, load_wifi, readStr, nvsGetStr] at hm,
    fun m hm => by simp [SaveLog.start, load_mqtt, readStr, nvsGetStr] at hm⟩

/-- What was passed stays passed. -/
theorem passed_mono {α : Type} {passes : SaveCall → Option α} {calls : List SaveCall} {m : α}
    (c : SaveCall) (h : ∃ c ∈ calls, passes c = some m) : ∃ c' ∈ calls ++ [c], passes c' = some m := by
  obtain ⟨c', hmem, hpasses⟩ := h
  exact ⟨c', List.mem_append_left _ hmem, hpasses⟩

theorem notMixed_step {s s' : SaveLog} {e : SaveEvent} (hinv : NotMixed s) (hsafe : SafeSave s e)
    (hstep : saveStep s e = some s') : NotMixed s' := by
  obtain rfl := Option.some.inj hstep
  obtain ⟨call, fate⟩ := e
  have hlast : call ∈ s.calls ++ [call] := List.mem_append_right _ (List.mem_singleton_self _)
  cases call with
  | wifi ssid pass =>
    refine ⟨?_, ?_⟩
    · intro m hm
      rcases safeWifi_iff.mp hsafe m hm with rfl | hbefore
      · exact ⟨_, hlast, rfl⟩
      · exact passed_mono _ (hinv.wifi m hbefore)
    · -- the keys of the other group are not written
      intro m hm
      have hbefore : (nvsConfigLoad s.nvs).mqtt? = some m := by
        simpa only [SaveCall.writes, wifi_writes, load_mqtt] using hm
      exact passed_mono _ (hinv.mqtt m hbefore)
  | mqtt broker port pass =>
    refine ⟨?_, ?_⟩
    · intro m hm
      have hbefore : (nvsConfigLoad s.nvs).wifi? = some m := by
        simpa only [SaveCall.writes, mqtt_writes, load_wifi] using hm
      exact passed_mono _ (hinv.wifi m hbefore)
    · intro m hm
      rcases safeMqtt_iff.mp hsafe m hm with rfl | hbefore
      · exact ⟨_, hlast, rfl⟩
      · exact passed_mono _ (hinv.mqtt m hbefore)

/-- In every run of saves, cut short anywhere, what is loaded of a group was passed together in one
    call, if each call leaves its group whole, untouched or without a readable name. -/
theorem settings_never_mixed {s : SaveLog} (h : Reach saveStep SafeSave .start s) : NotMixed s :=
  h.invariant notMixed_start fun _ _ _ => notMixed_step

def cafeSave (pass : CStr) : SaveCall := .wifi (lit "cafe") (some pass)

def brokerSave : SaveCall := .mqtt (lit "10.0.0.2") 1883 none

/-- The broker's write fails; then the power is lost after the SSID was written once more. -/
theorem settings_never_mixed_cafe :
    NotMixed ⟨⟨some (lit "cafe"), some (lit "espresso"), none, some 1883, some []⟩,
      [cafeSave (lit "espresso"), brokerSave, cafeSave (lit "ristretto")]⟩ := by
  have h1 : Reach saveStep SafeSave .start ⟨⟨some (lit "cafe"), some (lit "espresso"), none, none,
      none⟩, [cafeSave (lit "espresso")]⟩ :=
    .next (e := ⟨cafeSave (lit "espresso"), [true, true]⟩) .start
      (.whole (.inl rfl) (by decide)) rfl
  have h2 : Reach saveStep SafeSave .start ⟨⟨some (lit "cafe"), some (lit "espresso"), none, some 1883,
      some []⟩, [cafeSave (lit "espresso"), brokerSave]⟩ :=
    .next (e := ⟨brokerSave, [false, true, true]⟩) h1 (.unset rfl) rfl
  exact settings_never_mixed (.next (e := ⟨cafeSave (lit "ristretto"), [true]⟩) h2
    (.idle (fun _ => rfl) (fun h => absurd h (by decide))) rfl)

/-- Power lost between the two writes of new credentials: the next boot has the new SSID with the old
    password. -/
theorem torn_save_mixes : ¬∀ s, Reach saveStep anyStep .start s → NotMixed s := by
  intro h
  have h1 : Reach saveStep anyStep .start ⟨⟨some (lit "cafe"), some (lit "espresso"), none, none,
      none⟩, [cafeSave (lit "espresso")]⟩ :=
    .next (e := ⟨cafeSave (lit "espresso"), [true, true]⟩) .start trivial rfl
  have h2 : Reach saveStep anyStep .start ⟨⟨some (lit "bar"), some (lit "espresso"), none, none,
      none⟩, [cafeSave (lit "espresso"), .wifi (lit "bar") (some (lit "grappa"))]⟩ :=
    .next (e := ⟨.wifi (lit "bar") (some (lit "grappa")), [true]⟩) h1 trivial rfl
  obtain ⟨c, hc, hpassed⟩ := (h _ h2).wifi ⟨lit "bar", lit "espresso"⟩ (by decide)
  simp only [List.mem_cons, List.not_mem_nil, or_false] at hc
  rcases hc with rfl | rfl
  · exact absurd hpassed (by decide)
  · exact absurd hpassed (by decide)

end SeeedMote.Gateway.TornSaves
