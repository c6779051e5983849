import SeeedMote.Lib.Run
import SeeedMote.Gateway.MqttMgr
import SeeedMote.Gateway.Nvs

/-! A gateway from boot on: `main.c` with the Wi-Fi event handler and the two handlers that change
    the MQTT settings. The client is started from two places,

        first got-IP ──▶ on_wifi_connected ──▶ mqtt_mgr_start        (settings read at boot)
        POST /api/mqtt, CLI mqtt_connect  ──▶ mqtt_mgr_reconfigure   (settings just saved)

    and only the second destroys the client before it. -/

namespace SeeedMote.Gateway
open Lib

/-- `on_connect_cb` is armed or NULL; `saved_cfg` is what boot read. -/
structure Session where
  gwId : CStr
  nvs : Nvs
  savedCfg : GwConfig
  onConnect : Bool
  wifiConnected : Bool
  mqtt : MqttMgr
  deriving DecidableEq

/-- `app_main` on a device with stored keys `nvs`. -/
def appMain (gwId : CStr) (nvs : Nvs) : Session where
  gwId := gwId
  nvs := nvs
  savedCfg := nvsConfigLoad nvs
  onConnect := (nvsConfigLoad nvs).hasWifi
  wifiConnected := false
  mqtt := .boot

/-! ### Handlers -/

/-- `on_wifi_connected`, as far as the MQTT client is concerned. -/
def onWifiConnected (initOk : Bool) (s : Session) : Session :=
  if s.savedCfg.hasMqtt then
    { s with
      mqtt := mqttMgrStart s.savedCfg.mqttBroker s.savedCfg.mqttPort s.gwId s.savedCfg.mqttPass
        initOk s.mqtt }
  else s

/-- `event_handler` on `IP_EVENT_STA_GOT_IP`. -/
def gotIpHandler (initOk : Bool) (s : Session) : Session :=
  let s := { s with wifiConnected := true }
  if s.onConnect then { onWifiConnected initOk s with onConnect := false } else s

/-- `nvs_config_save_mqtt` followed by `mqtt_mgr_reconfigure`, as both handlers do. -/
def applyMqtt (broker : CStr) (port : UInt16) (pass : Option CStr) (initOk : Bool) (s : Session) :
    Session :=
  { s with
    nvs := nvsConfigSaveMqtt s.nvs broker port pass
    mqtt := mqttMgrReconfigure broker port s.gwId (pass.getD []) initOk s.mqtt }

/-- `handle_mqtt_post` on a parsed body; without a broker it answers 400. -/
def handleMqttPost (broker : Option CStr) (port : UInt16) (pass : Option CStr) (initOk : Bool)
    (s : Session) : Session :=
  match broker with
  | none => s
  | some broker => if broker = [] then s else applyMqtt broker port pass initOk s

/-- `cmd_mqtt_connect` with at least the broker argument. -/
def cmdMqttConnect (broker : CStr) (port : Option UInt16) (pass : Option CStr) (initOk : Bool)
    (s : Session) : Session :=
  applyMqtt broker (port.getD 1883) (some (pass.getD [])) initOk s

/-- `handle_wifi_post` on a parsed body; without an SSID it answers 400. -/
def handleWifiPost (ssid : Option CStr) (pass : Option CStr) (s : Session) : Session :=
  match ssid with
  | none => s
  | some ssid => if ssid = [] then s else { s with nvs := nvsConfigSaveWifi s.nvs ssid pass }

/-! ### Runs -/

inductive GwEvent where
  | gotIp (initOk : Bool)
  | staDisconnected
  | wifiPost (ssid pass : Option CStr)
  | mqttPost (broker : Option CStr) (port : UInt16) (pass : Option CStr) (initOk : Bool)
  | mqttConnect (broker : CStr) (port : Option UInt16) (pass : Option CStr) (initOk : Bool)
  /-- `MQTT_EVENT_CONNECTED` or `MQTT_EVENT_DISCONNECTED` of any client alive. -/
  | mqttLink (up : Bool)
  deriving DecidableEq

def sessionStep (s : Session) : GwEvent → Session
  | .gotIp initOk => gotIpHandler initOk s
  | .staDisconnected => { s with wifiConnected := false }
  | .wifiPost ssid pass => handleWifiPost ssid pass s
  | .mqttPost broker port pass initOk => handleMqttPost broker port pass initOk s
  | .mqttConnect broker port pass initOk => cmdMqttConnect broker port pass initOk s
  | .mqttLink up => { s with mqtt := { s.mqtt with connected := up } }

/-- Every event can happen at any time. -/
def sessionNext (s : Session) (e : GwEvent) : Option Session := some (sessionStep s e)

/-- `c` targets the broker, port and password `m`. -/
def MqttClient.Targets (c : MqttClient) (m : MqttSettings) : Prop :=
  c.uri = brokerUri m.broker m.port ∧ c.password = authPassword m.pass

instance (c : MqttClient) (m : MqttSettings) : Decidable (c.Targets m) :=
  inferInstanceAs (Decidable (_ ∧ _))

/-- At most one client is alive, the handle refers to it, and it targets the settings saved last. -/
structure OneCurrentClient (s : Session) : Prop where
  atMostOne : s.mqtt.alive.length ≤ 1
  handle : ∀ c ∈ s.mqtt.alive, s.mqtt.client = some c.id
  current : ∀ c ∈ s.mqtt.alive, ∃ m, s.nvs.mqttSaved = some m ∧ c.Targets m

/-- What the step must not do: start from the got-IP path while a client exists or with settings
    other than the saved ones, or start with a URI too long for its buffer. -/
def startsClear (s : Session) : GwEvent → Prop
  | .gotIp initOk => s.onConnect = true → s.savedCfg.hasMqtt = true →
      s.mqtt.client = none ∧ (initOk = true → s.savedCfg.mqtt? = s.nvs.mqttSaved)
  | .mqttPost broker port _ initOk => initOk = true →
      ∀ b ∈ broker, (brokerUri b port).length < uriSize
  | .mqttConnect broker port _ initOk => initOk = true →
      (brokerUri broker (port.getD 1883)).length < uriSize
  | _ => True

instance (s : Session) (e : GwEvent) : Decidable (startsClear s e) := by
  cases e <;> unfold startsClear <;> infer_instance

/-! ### One client operation -/

/-- When the handle refers to every client alive, `mqtt_mgr_stop` leaves none. -/
theorem mqttMgrStop_clears {m : MqttMgr} (h : ∀ c ∈ m.alive, m.client = some c.id) :
    (mqttMgrStop m).alive = [] ∧ (mqttMgrStop m).client = none := by
  rw [mqttMgrStop]
  cases hc : m.client with
  | none =>
    refine ⟨List.eq_nil_iff_forall_not_mem.mpr ?_, hc⟩
    intro c hmem
    exact absurd (hc.symm.trans (h c hmem)) (by simp)
  | some id =>
    refine ⟨List.filter_eq_nil_iff.mpr ?_, rfl⟩
    intro c hmem
    have : id = c.id := Option.some.inj (hc.symm.trans (h c hmem))
    simp [this]

/-- A start next to the clients `m.alive`. -/
theorem mqttMgrStart_alive {broker : CStr} (hb : broker ≠ []) (port : UInt16)
    (username password : CStr) (initOk : Bool) (m : MqttMgr) :
    (mqttMgrStart broker port username password initOk m).client
        = (if initOk then some m.created else none) ∧
      (mqttMgrStart broker port username password initOk m).alive
        = (if initOk then [⟨m.created, snprintf uriSize (brokerUri broker port), username,
            authPassword password⟩] else []) ++ m.alive := by
  rw [mqttMgrStart]
  rw [if_neg hb]
  cases initOk <;> exact ⟨rfl, rfl⟩

/-! ### Invariant of the runs -/

/-- At most one client, on the settings saved last, and what the handlers rely on. -/
structure SessionInv (s : Session) : Prop extends OneCurrentClient s where
  noClient : s.mqtt.alive = [] → s.mqtt.client = none
  readAtBoot : ∃ nvs, s.savedCfg = nvsConfigLoad nvs

theorem sessionInv_boot (gwId : CStr) (nvs : Nvs) : SessionInv (appMain gwId nvs) where
  atMostOne := Nat.zero_le _
  handle := by simp [appMain, MqttMgr.boot]
  current := by simp [appMain, MqttMgr.boot]
  noClient _ := rfl
  readAtBoot := ⟨nvs, rfl⟩

/-- No client alive and no handle: nothing to check. -/
theorem sessionInv_of_none {s s' : Session} (h : SessionInv s) (hcfg : s'.savedCfg = s.savedCfg)
    (halive : s'.mqtt.alive = []) (hclient : s'.mqtt.client = none) : SessionInv s' where
  atMostOne := by rw [halive]; exact Nat.zero_le _
  handle := by simp [halive]
  current := by simp [halive]
  noClient _ := hclient
  readAtBoot := hcfg ▸ h.readAtBoot

/-- One client alive, just started: the invariant is that it targets the saved settings. -/
theorem sessionInv_of_started {s : Session} (h : SessionInv s) (s' : Session)
    (hcfg : s'.savedCfg = s.savedCfg) {c : MqttClient} (halive : s'.mqtt.alive = [c])
    (hclient : s'.mqtt.client = some c.id) :
    (OneCurrentClient s' ↔ ∃ m, s'.nvs.mqttSaved = some m ∧ c.Targets m) ∧
      (OneCurrentClient s' → SessionInv s') := by
  refine ⟨⟨fun h' => h'.current c (by simp [halive]), fun hm => ⟨?_, ?_, ?_⟩⟩, fun h' => ?_⟩
  · rw [halive]; exact le_rfl
  · intro c' hc'
    rw [halive, List.mem_singleton] at hc'
    rw [hclient, hc']
  · intro c' hc'
    rw [halive, List.mem_singleton] at hc'
    rwa [hc']
  · exact { h' with
      noClient := by simp [halive]
      readAtBoot := hcfg ▸ h.readAtBoot }

/-- Saving settings and reconfiguring is right exactly when the URI fits its buffer. -/
theorem applyMqtt_spec {s : Session} (h : SessionInv s) (broker : CStr) (port : UInt16)
    (pass : Option CStr) (initOk : Bool) :
    (OneCurrentClient (applyMqtt broker port pass initOk s) ↔
        (initOk = true → (brokerUri broker port).length < uriSize)) ∧
      (OneCurrentClient (applyMqtt broker port pass initOk s) →
        SessionInv (applyMqtt broker port pass initOk s)) := by
  obtain ⟨hempty, hnone⟩ := mqttMgrStop_clears h.handle
  by_cases hb : broker = []
  · have hfits : (brokerUri broker port).length < uriSize :=
      (length_brokerUri_le broker port).trans_lt (by simp [hb, uriSize])
    have hstart : (applyMqtt broker port pass initOk s).mqtt = mqttMgrStop s.mqtt := by
      simp [applyMqtt, mqttMgrReconfigure, mqttMgrStart, hb]
    have hinv : SessionInv (applyMqtt broker port pass initOk s) :=
      sessionInv_of_none h rfl (by rw [hstart, hempty]) (by rw [hstart, hnone])
    exact ⟨⟨fun _ _ => hfits, fun _ => hinv.toOneCurrentClient⟩, fun _ => hinv⟩
  · obtain ⟨hclient, halive⟩ := mqttMgrStart_alive hb port s.gwId (pass.getD []) initOk
      (mqttMgrStop s.mqtt)
    rw [hempty, List.append_nil] at halive
    cases initOk with
    | false =>
      have hinv : SessionInv (applyMqtt broker port pass false s) :=
        sessionInv_of_none h rfl halive hclient
      exact ⟨⟨fun _ => by simp, fun _ => hinv.toOneCurrentClient⟩, fun _ => hinv⟩
    | true =>
      obtain ⟨hiff, hinv⟩ := sessionInv_of_started h
        (applyMqtt broker port pass true s) rfl halive hclient
      refine ⟨hiff.trans ⟨?_, ?_⟩, hinv⟩
      · rintro ⟨m, hm, huri, -⟩ -
        rw [applyMqtt, mqttSaved_save, if_neg hb] at hm
        obtain rfl := Option.some.inj hm
        exact (snprintf_uri_eq_iff _).mp huri
      · intro hfits
        refine ⟨⟨broker, port, pass.getD []⟩, ?_, (snprintf_uri_eq_iff _).mpr (hfits rfl), rfl⟩
        rw [applyMqtt, mqttSaved_save, if_neg hb]

/-- A start next to a client alive leaves two, or one without a handle. -/
theorem not_oneCurrent_of_alive {broker : CStr} (hb : broker ≠ []) (port : UInt16)
    (username password : CStr) (initOk : Bool) {m : MqttMgr} (halive : m.alive ≠ []) {s' : Session}
    (hs' : s'.mqtt = mqttMgrStart broker port username password initOk m) :
    ¬OneCurrentClient s' := by
  obtain ⟨hclient, hall⟩ := mqttMgrStart_alive hb port username password initOk m
  rw [← hs'] at hclient hall
  intro h
  cases initOk with
  | false =>
    obtain ⟨c, hc⟩ := List.exists_mem_of_ne_nil _ halive
    have hhandle := h.handle c (by rw [hall]; simpa using hc)
    rw [hclient] at hhandle
    simp at hhandle
  | true =>
    have hone := h.atMostOne
    rw [hall] at hone
    exact halive (List.length_eq_zero_iff.mp (by simpa using hone))

/-- The got-IP handler when it starts a client. -/
theorem gotIp_starts {s : Session} (hon : s.onConnect = true) (hmqtt : s.savedCfg.hasMqtt = true)
    (initOk : Bool) :
    (gotIpHandler initOk s).mqtt = mqttMgrStart s.savedCfg.mqttBroker s.savedCfg.mqttPort s.gwId
        s.savedCfg.mqttPass initOk s.mqtt ∧
      (gotIpHandler initOk s).nvs = s.nvs ∧ (gotIpHandler initOk s).savedCfg = s.savedCfg := by
  simp [gotIpHandler, onWifiConnected, hon, hmqtt]

/-- The got-IP handler when it does not. -/
theorem gotIp_quiet {s : Session} (h : ¬(s.onConnect = true ∧ s.savedCfg.hasMqtt = true))
    (initOk : Bool) :
    ∃ w o, gotIpHandler initOk s = { s with wifiConnected := w, onConnect := o } := by
  rw [gotIpHandler, onWifiConnected]
  by_cases ho : s.onConnect = true
  · have hm : s.savedCfg.hasMqtt = false := by simpa [ho] using h
    exact ⟨true, false, by simp [ho, hm]⟩
  · exact ⟨true, s.onConnect, by simp [ho]⟩

theorem SessionInv.broker_ne_nil {s : Session} (h : SessionInv s)
    (hmqtt : s.savedCfg.hasMqtt = true) : s.savedCfg.mqttBroker ≠ [] := by
  obtain ⟨nvs, hcfg⟩ := h.readAtBoot
  rw [hcfg] at hmqtt ⊢
  exact (load_hasMqtt_iff nvs).mp hmqtt

/-- The start at got-IP with no client alive: right exactly when the boot settings are the saved
    ones. -/
theorem gotIp_first {s : Session} (h : SessionInv s) (hon : s.onConnect = true)
    (hmqtt : s.savedCfg.hasMqtt = true) (hnil : s.mqtt.alive = []) (initOk : Bool) :
    (OneCurrentClient (gotIpHandler initOk s) ↔
        (initOk = true → s.savedCfg.mqtt? = s.nvs.mqttSaved)) ∧
      (OneCurrentClient (gotIpHandler initOk s) → SessionInv (gotIpHandler initOk s)) := by
  obtain ⟨hmgr, hnvs, hcfg'⟩ := gotIp_starts hon hmqtt initOk
  have hb := h.broker_ne_nil hmqtt
  obtain ⟨nvs, hcfg⟩ := h.readAtBoot
  have hfits : (brokerUri s.savedCfg.mqttBroker s.savedCfg.mqttPort).length < uriSize := by
    have hlen : s.savedCfg.mqttBroker.length ≤ 64 := hcfg ▸ length_load_broker nvs
    exact (length_brokerUri_le _ _).trans_lt (by simp [uriSize]; omega)
  have hget : s.savedCfg.mqtt?
      = some ⟨s.savedCfg.mqttBroker, s.savedCfg.mqttPort, s.savedCfg.mqttPass⟩ := if_pos hmqtt
  obtain ⟨hclient, halive⟩ := mqttMgrStart_alive hb s.savedCfg.mqttPort s.gwId
    s.savedCfg.mqttPass initOk s.mqtt
  rw [← hmgr] at hclient halive
  rw [hnil, List.append_nil] at halive
  cases initOk with
  | false =>
    have hinv := sessionInv_of_none h hcfg' halive hclient
    exact ⟨⟨fun _ => by simp, fun _ => hinv.toOneCurrentClient⟩, fun _ => hinv⟩
  | true =>
    obtain ⟨hiff, hinv⟩ := sessionInv_of_started h _ hcfg' halive hclient
    refine ⟨hiff.trans ⟨?_, ?_⟩, hinv⟩
    · rintro ⟨m, hm, huri, hpass⟩ -
      rw [hnvs] at hm
      obtain ⟨hbroker, hport⟩ := brokerUri_inj (((snprintf_uri_eq_iff _).mpr hfits).symm.trans huri)
      rw [hget, hm, hbroker, hport, authPassword_inj hpass]
    · intro heq
      exact ⟨_, by rw [hnvs, ← heq rfl, hget], (snprintf_uri_eq_iff _).mpr hfits, rfl⟩

/-- The one-shot start is right exactly when no client exists and the settings read at boot are
    still the saved ones. -/
theorem gotIp_spec {s : Session} (h : SessionInv s) (initOk : Bool) :
    (OneCurrentClient (gotIpHandler initOk s) ↔ startsClear s (.gotIp initOk)) ∧
      (OneCurrentClient (gotIpHandler initOk s) → SessionInv (gotIpHandler initOk s)) := by
  by_cases hon : s.onConnect = true ∧ s.savedCfg.hasMqtt = true
  · obtain ⟨hon, hmqtt⟩ := hon
    have hclear : startsClear s (.gotIp initOk) ↔ s.mqtt.client = none ∧
        (initOk = true → s.savedCfg.mqtt? = s.nvs.mqttSaved) :=
      ⟨fun hc => hc hon hmqtt, fun hc _ _ => hc⟩
    rw [hclear]
    by_cases hnil : s.mqtt.alive = []
    · obtain ⟨hiff, hinv⟩ := gotIp_first h hon hmqtt hnil initOk
      exact ⟨hiff.trans (and_iff_right (h.noClient hnil)).symm, hinv⟩
    · have hbad : ¬OneCurrentClient (gotIpHandler initOk s) :=
        not_oneCurrent_of_alive (h.broker_ne_nil hmqtt) _ _ _ initOk hnil
          (gotIp_starts hon hmqtt initOk).1
      obtain ⟨c, hc⟩ := List.exists_mem_of_ne_nil _ hnil
      refine ⟨⟨fun h' => absurd h' hbad, ?_⟩, fun h' => absurd h' hbad⟩
      intro hn
      exact absurd ((h.handle c hc).symm.trans hn.1) (by simp)
  · obtain ⟨w, o, hsame⟩ := gotIp_quiet hon initOk
    have hinv : SessionInv (gotIpHandler initOk s) := by
      rw [hsame]
      exact ⟨⟨h.atMostOne, h.handle, h.current⟩, h.noClient, h.readAtBoot⟩
    exact ⟨⟨fun _ h1 h2 => absurd ⟨h1, h2⟩ hon, fun _ => hinv.toOneCurrentClient⟩, fun _ => hinv⟩

/-- One event keeps the property exactly when it starts no client it should not. -/
theorem sessionStep_spec {s : Session} (h : SessionInv s) (e : GwEvent) :
    (OneCurrentClient (sessionStep s e) ↔ startsClear s e) ∧
      (OneCurrentClient (sessionStep s e) → SessionInv (sessionStep s e)) := by
  have hkeep : ∀ {s' : Session}, SessionInv s' →
      (OneCurrentClient s' ↔ True) ∧ (OneCurrentClient s' → SessionInv s') := fun h' =>
    ⟨iff_true_intro h'.toOneCurrentClient, fun _ => h'⟩
  cases e with
  | gotIp initOk => exact gotIp_spec h initOk
  | staDisconnected =>
    exact hkeep ⟨⟨h.atMostOne, h.handle, h.current⟩, h.noClient, h.readAtBoot⟩
  | mqttLink up => exact hkeep ⟨⟨h.atMostOne, h.handle, h.current⟩, h.noClient, h.readAtBoot⟩
  | wifiPost ssid pass =>
    refine hkeep ?_
    simp only [sessionStep, handleWifiPost]
    split
    · exact h
    · split
      · exact h
      · exact ⟨⟨h.atMostOne, h.handle, h.current⟩, h.noClient, h.readAtBoot⟩
  | mqttPost broker port pass initOk =>
    cases broker with
    | none => simpa [sessionStep, handleMqttPost, startsClear] using hkeep h
    | some b =>
      by_cases hb : b = []
      · have hfits : (brokerUri b port).length < uriSize :=
          (length_brokerUri_le b port).trans_lt (by simp [hb, uriSize])
        simpa [sessionStep, handleMqttPost, startsClear, hb, hb ▸ hfits] using hkeep h
      · simpa [sessionStep, handleMqttPost, startsClear, hb] using applyMqtt_spec h b port pass initOk
  | mqttConnect broker port pass initOk => exact applyMqtt_spec h broker _ _ initOk

/-- In every run whose starts are clear there is at most one client, the handle's, and it targets the
    settings saved last; the first start that is not clear breaks this. -/
theorem one_current_client (gwId : CStr) (nvs : Nvs) {s : Session}
    (h : Reach sessionNext startsClear (appMain gwId nvs) s) :
    OneCurrentClient s ∧ ∀ e, OneCurrentClient (sessionStep s e) ↔ startsClear s e := by
  have hinv : SessionInv s := by
    refine h.invariant (sessionInv_boot gwId nvs) ?_
    intro s e s' hs hok hstep
    obtain rfl := Option.some.inj hstep
    obtain ⟨hiff, hinv⟩ := sessionStep_spec hs e
    exact hinv (hiff.mpr hok)
  exact ⟨hinv.toOneCurrentClient, fun e => (sessionStep_spec hinv e).1⟩

/-- A gateway in a shop, set up once. -/
def shopNvs : Nvs where
  wifiSsid := some (lit "shop")
  wifiPass := some (lit "secret")
  mqttBroker := some (lit "10.0.0.2")
  mqttPort := some 1883
  mqttPass := none

/-- Boot, got-IP, then a new broker from the web page. -/
def movedBroker : List GwEvent :=
  [.gotIp true, .mqttLink true, .mqttPost (some (lit "10.0.0.9")) 1884 (some (lit "pw")) true,
    .staDisconnected, .gotIp true]

theorem one_client_after_move :
    ∃ s, exec (guarded startsClear sessionNext) (appMain (gwIdOf 1 2 3) shopNvs) movedBroker = some s ∧
      OneCurrentClient s := by
  have hsome : (exec (guarded startsClear sessionNext) (appMain (gwIdOf 1 2 3) shopNvs)
      movedBroker).isSome := by decide +kernel
  obtain ⟨s, hs⟩ := Option.isSome_iff_exists.mp hsome
  exact ⟨s, hs, (one_current_client _ _ (.of_exec movedBroker .start hs)).1⟩

/-- The same two events in the other order: the web page is quicker than the access point. -/
def earlyPost : List GwEvent :=
  [.mqttPost (some (lit "10.0.0.9")) 1884 (some (lit "pw")) true, .gotIp true]

/-- Two clients stay alive, and the handle is the old broker's. -/
theorem two_clients_alive :
    ¬∀ (gwId : CStr) (nvs : Nvs) (s : Session), Reach sessionNext anyStep (appMain gwId nvs) s →
      OneCurrentClient s := by
  intro h
  have hsome : (exec (guarded anyStep sessionNext) (appMain (gwIdOf 1 2 3) shopNvs)
      earlyPost).isSome := by decide +kernel
  obtain ⟨s, hs⟩ := Option.isSome_iff_exists.mp hsome
  have htwo : (exec (guarded anyStep sessionNext) (appMain (gwIdOf 1 2 3) shopNvs) earlyPost).map
      (fun s => s.mqtt.alive.length) = some 2 := by decide +kernel
  have hone := (h _ _ s (.of_exec earlyPost .start hs)).atMostOne
  rw [hs, Option.map_some, Option.some.injEq] at htwo
  omega

end SeeedMote.Gateway
