import Mathlib.Algebra.Order.Floor.Semiring
import Mathlib.Data.Rat.Floor
import SeeedMote.Gateway.Session
import SeeedMote.Gateway.WifiMgr

/-! Where the gateway's settings come in: the two POST handlers of `web_server.c` and the two
    commands of `cli.c`. Each saves what it was given and applies it at once, so that a setting is
    used twice, now and after the next boot:

        POST /api/wifi, wifi_connect ──▶ nvs_config_save_wifi ──▶ wifi_mgr_connect
        POST /api/mqtt, mqtt_connect ──▶ nvs_config_save_mqtt ──▶ mqtt_mgr_reconfigure

    No handler compares a length or a range with what the other end can hold. -/

namespace SeeedMote.Gateway.Settings
open Lib

/-! ### Requests -/

/-- A POST request as `read_body` meets it: the declared length, whether `malloc` succeeds, and the
    bytes `httpd_req_recv` delivers (none: it reports an error). -/
structure HttpRequest where
  contentLen : UInt32
  mallocOk : Bool
  recv : List UInt8
  recv_le : recv.length ≤ contentLen.toNat

/-- `read_body`, as the string the caller reads from the buffer. -/
def readBody (req : HttpRequest) : Option CStr :=
  let len := req.contentLen.toInt32
  if len ≤ 0 ∨ 512 < len then none
  else if req.mallocOk = false ∨ req.recv = [] then none
  else some (req.recv.takeWhile (· ≠ 0))

/-- The functions of `cJSON` the handlers call. A number is its value, `none` an infinity. -/
structure CJson where
  Item : Type
  parse : CStr → Option Item
  getObjectItem : Item → CStr → Option Item
  getStringValue : Item → Option CStr
  isNumber : Item → Bool
  valueDouble : Item → Option ℚ

/-- `cJSON_GetStringValue(cJSON_GetObjectItem(j, name))`. -/
def CJson.textOf (api : CJson) (j : api.Item) (name : CStr) : Option CStr :=
  (api.getObjectItem j name).bind api.getStringValue

/-- What a handler answers: a JSON body, or status 400 with a text. -/
inductive HttpReply where
  | json (body : CStr)
  | badRequest (text : CStr)
  deriving DecidableEq

def okReply : HttpReply := .json (lit "\x7b\"ok\":true\x7d")

/-- How both handlers begin: the parsed body, or the text of the refusal. -/
def parseBody (api : CJson) (req : HttpRequest) : Except CStr api.Item :=
  match readBody req with
  | none => .error (lit "Bad request")
  | some body =>
    match api.parse body with
    | none => .error (lit "Invalid JSON")
    | some j => .ok j

/-- What a command returns and prints. -/
structure CmdResult where
  ret : ℤ
  out : CStr
  deriving DecidableEq

/-! ### Wi-Fi credentials -/

/-- `handle_wifi_post`. -/
def handleWifiPost (api : CJson) (req : HttpRequest) (nvs : Nvs) :
    HttpReply × Nvs × List WifiCall :=
  match parseBody api req with
  | .error text => (.badRequest text, nvs, [])
  | .ok j =>
    let pass := api.textOf j (lit "password")
    match api.textOf j (lit "ssid") with
    | none => (.badRequest (lit "SSID required"), nvs, [])
    | some ssid =>
      if ssid = [] then (.badRequest (lit "SSID required"), nvs, [])
      else (okReply, nvsConfigSaveWifi nvs ssid pass, wifiMgrConnect ssid pass)

/-- `cmd_wifi_connect`. -/
def cmdWifiConnect (argv : List CStr) (nvs : Nvs) : CmdResult × Nvs × List WifiCall :=
  match argv with
  | _ :: ssid :: rest =>
    let pass := rest[0]?.getD []
    (⟨0, lit "Connecting to " ++ ssid ++ lit "...\n"⟩, nvsConfigSaveWifi nvs ssid (some pass),
      wifiMgrConnect ssid (some pass))
  | _ => (⟨1, lit "Usage: wifi_connect <ssid> [password]\n"⟩, nvs, [])

/-! ### MQTT settings -/

/-- `(uint16_t)` of an `int`. -/
def castInt (z : ℤ) : UInt16 := (z % 65536).toNat.toUInt16

/-- The port of `handle_mqtt_post`; `castDouble` is the conversion of a `double` to `uint16_t`. -/
def bodyPort (api : CJson) (castDouble : Option ℚ → UInt16) (j : api.Item) : UInt16 :=
  match api.getObjectItem j (lit "port") with
  | some item => if api.isNumber item then castDouble (api.valueDouble item) else 1883
  | none => 1883

/-- `handle_mqtt_post`. -/
def handleMqttPost (api : CJson) (castDouble : Option ℚ → UInt16) (req : HttpRequest)
    (initOk : Bool) (s : Session) : HttpReply × Session :=
  match parseBody api req with
  | .error text => (.badRequest text, s)
  | .ok j =>
    let pass := api.textOf j (lit "password")
    match api.textOf j (lit "broker") with
    | none => (.badRequest (lit "Broker required"), s)
    | some broker =>
      if broker = [] then (.badRequest (lit "Broker required"), s)
      else (okReply, applyMqtt broker (bodyPort api castDouble j) pass initOk s)

/-- `cmd_mqtt_connect`. -/
def cmdMqttConnect (argv : List CStr) (initOk : Bool) (s : Session) : CmdResult × Session :=
  match argv with
  | _ :: broker :: rest =>
    let port := (rest[0]?.map fun text => castInt (atoi text)).getD 1883
    let pass := rest[1]?.getD []
    (⟨0, lit "MQTT -> " ++ broker ++ lit ":" ++ fmtUnsigned port.toNat ++ lit "\n"⟩,
      applyMqtt broker port (some pass) initOk s)
  | _ => (⟨1, lit "Usage: mqtt_connect <broker> [port] [password]\n"⟩, s)

/-! ### Submissions -/

/-- A request, or a command line with the command's name in front. -/
inductive Submission where
  | post (req : HttpRequest)
  | console (argv : List CStr)

/-- Whether the credentials are accepted, and what is done with them. -/
def submitWifi (api : CJson) (nvs : Nvs) : Submission → Bool × Nvs × List WifiCall
  | .post req =>
    let r := handleWifiPost api req nvs
    (r.1 = okReply, r.2)
  | .console argv =>
    let r := cmdWifiConnect argv nvs
    (r.1.ret = 0, r.2)

/-- Whether the settings are accepted, and the session after them. -/
def submitMqtt (api : CJson) (castDouble : Option ℚ → UInt16) (initOk : Bool) (s : Session) :
    Submission → Bool × Session
  | .post req =>
    let r := handleMqttPost api castDouble req initOk s
    (r.1 = okReply, r.2)
  | .console argv =>
    let r := cmdMqttConnect argv initOk s
    (r.1.ret = 0, r.2)

/-- A request whose body is not read is refused, and nothing else happens. -/
theorem submitWifi_of_unread (api : CJson) (nvs : Nvs) {req : HttpRequest} (h : readBody req = none) :
    submitWifi api nvs (.post req) = (false, nvs, []) := by
  have hreply : HttpReply.badRequest (lit "Bad request") ≠ okReply := nofun
  simp [submitWifi, handleWifiPost, parseBody, h, hreply]

theorem submitMqtt_of_unread (api : CJson) (castDouble : Option ℚ → UInt16) (initOk : Bool) (s : Session)
    {req : HttpRequest} (h : readBody req = none) :
    submitMqtt api castDouble initOk s (.post req) = (false, s) := by
  have hreply : HttpReply.badRequest (lit "Bad request") ≠ okReply := nofun
  simp [submitMqtt, handleMqttPost, parseBody, h, hreply]

/-- The body has the password `pass`; a body without the field has the empty one. -/
def BodyPass (api : CJson) (j : api.Item) (pass : CStr) : Prop :=
  match api.getObjectItem j (lit "password") with
  | some item => api.getStringValue item = some pass
  | none => pass = []

/-- The body has the port `port`; a body without the field has the default. -/
def BodyPort (api : CJson) (j : api.Item) (port : UInt16) : Prop :=
  match api.getObjectItem j (lit "port") with
  | some item => api.isNumber item = true ∧ api.valueDouble item = some (port.toNat : ℚ)
  | none => port = 1883

/-- The argument is a numeral of `port`; without one it is the default. -/
def ArgPort (arg : Option CStr) (port : UInt16) : Prop :=
  match arg with
  | some text => decimal? text = some (port.toNat : ℤ)
  | none => port = 1883

/-- The credentials `ssid` and `pass` are submitted. -/
def SubmitsWifi (api : CJson) (ssid pass : CStr) : Submission → Prop
  | .post req => ∃ j, parseBody api req = .ok j ∧ api.textOf j (lit "ssid") = some ssid ∧
      BodyPass api j pass
  | .console argv => argv[1]? = some ssid ∧ argv[2]?.getD [] = pass

/-- The settings `m` are submitted. -/
def SubmitsMqtt (api : CJson) (m : MqttSettings) : Submission → Prop
  | .post req => ∃ j, parseBody api req = .ok j ∧ api.textOf j (lit "broker") = some m.broker ∧
      BodyPort api j m.port ∧ BodyPass api j m.pass
  | .console argv => argv[1]? = some m.broker ∧ ArgPort argv[2]? m.port ∧ argv[3]?.getD [] = m.pass

theorem BodyPass.getD_textOf {api : CJson} {j : api.Item} {pass : CStr}
    (h : BodyPass api j pass) : (api.textOf j (lit "password")).getD [] = pass := by
  rw [BodyPass] at h
  rw [CJson.textOf]
  split at h
  · next item hitem => rw [hitem, Option.bind_some, h, Option.getD_some]
  · next hnone => rw [hnone, h]; rfl

/-! ### Credentials on their way to the driver -/

/-- The configuration passed to the driver by the handler, and the one passed by the next boot, both
    denote `ssid` and `pass`. -/
def CredentialsReach (gwId : CStr) (nvs : Nvs) (calls : List WifiCall) (ssid pass : CStr) : Prop :=
  (∃ cfg, staPassed calls = [cfg] ∧ cfg.Denotes ssid pass) ∧
    ∃ cfg, staPassed (bootWifi gwId nvs) = [cfg] ∧ cfg.Denotes ssid pass

/-- A command line with a first argument. -/
theorem exists_of_getElem?_one {argv : List CStr} {arg : CStr} (h : argv[1]? = some arg) :
    ∃ cmd rest, argv = cmd :: arg :: rest := by
  rcases argv with _ | ⟨cmd, _ | ⟨first, rest⟩⟩
  · simp at h
  · simp at h
  · obtain rfl : first = arg := by simpa using h
    exact ⟨cmd, rest, rfl⟩

/-- Credentials with an SSID are saved and applied; a missing passphrase counts as the empty one. -/
theorem submitWifi_of_submits (api : CJson) (nvs : Nvs) {sub : Submission} {ssid pass : CStr}
    (hsub : SubmitsWifi api ssid pass sub) (hne : ssid ≠ []) :
    ∃ p : Option CStr, p.getD [] = pass ∧ submitWifi api nvs sub =
      (true, nvsConfigSaveWifi nvs ssid p, wifiMgrConnect ssid p) := by
  cases sub with
  | post req =>
    obtain ⟨j, hj, hssid, hpass⟩ := hsub
    exact ⟨_, hpass.getD_textOf, by simp [submitWifi, handleWifiPost, hj, hssid, hne]⟩
  | console argv =>
    obtain ⟨hssid, hpass⟩ := hsub
    obtain ⟨cmd, rest, rfl⟩ := exists_of_getElem?_one hssid
    have hrest : rest[0]?.getD [] = pass := by simpa using hpass
    exact ⟨some pass, rfl, by simp [submitWifi, cmdWifiConnect, hrest]⟩

/-- Submitted credentials within the limits of Wi-Fi reach the driver, now and at the next boot,
    exactly when the SSID is not of the greatest length. -/
theorem wifi_credentials_iff (api : CJson) (gwId : CStr) (nvs nvs' : Nvs) (calls : List WifiCall)
    {sub : Submission} {ssid pass : CStr} (hsub : SubmitsWifi api ssid pass sub)
    (hacc : submitWifi api nvs sub = (true, nvs', calls)) (hne : 1 ≤ ssid.length)
    (hssid : ssid.length ≤ 32) (hpass : pass.length ≤ 63) (hs : 0 ∉ ssid) (hp : 0 ∉ pass) :
    CredentialsReach gwId nvs' calls ssid pass ↔ ssid.length ≤ 31 := by
  have hnil : ssid ≠ [] := List.ne_nil_of_length_pos hne
  obtain ⟨p, rfl, hrun⟩ := submitWifi_of_submits api nvs hsub hnil
  obtain ⟨rfl, rfl⟩ : nvsConfigSaveWifi nvs ssid p = nvs' ∧ wifiMgrConnect ssid p = calls := by
    simpa using hrun.symm.trans hacc
  have hiff := staConfig_denotes_iff hs hp hpass
  rw [← staConfig_getD] at hiff
  rw [CredentialsReach, staPassed_connect, staPassed_boot gwId nvs p hnil hssid (by omega)]
  simpa using hiff

/-- The items of a body without nested objects. -/
inductive FlatItem where
  | number (q : ℚ)
  | string (s : CStr)
  | object (members : List (CStr × FlatItem))

/-- `cJSON`, on the bodies listed. -/
def flatJson (bodies : List (CStr × FlatItem)) : CJson where
  Item := FlatItem
  parse text := (bodies.find? fun b => b.1 = text).map (·.2)
  getObjectItem
    | .object members, name => (members.find? fun m => m.1 = name).map (·.2)
    | _, _ => none
  getStringValue
    | .string s => some s
    | _ => none
  isNumber
    | .number _ => true
    | _ => false
  valueDouble
    | .number q => some q
    | _ => none

/-- A request that arrives in one piece. -/
def HttpRequest.ofBody (body : CStr) (h : body.length ≤ body.length.toUInt32.toNat) : HttpRequest where
  contentLen := body.length.toUInt32
  mallocOk := true
  recv := body
  recv_le := h

def emptyNvs : Nvs := ⟨none, none, none, none, none⟩

def cafeBody : CStr := lit "\x7b\"ssid\":\"cafe\",\"password\":\"espresso\"\x7d"

def cafePost : Submission := .post (.ofBody cafeBody (by decide))

def cafeJson : CJson := flatJson [(cafeBody, .object
  [(lit "ssid", .string (lit "cafe")), (lit "password", .string (lit "espresso"))])]

theorem wifi_credentials_cafe :
    CredentialsReach (gwIdOf 1 2 3) (nvsConfigSaveWifi emptyNvs (lit "cafe") (some (lit "espresso")))
      (wifiMgrConnect (lit "cafe") (some (lit "espresso"))) (lit "cafe") (lit "espresso") := by
  have hacc : submitWifi cafeJson emptyNvs cafePost = (true, nvsConfigSaveWifi emptyNvs (lit "cafe")
      (some (lit "espresso")), wifiMgrConnect (lit "cafe") (some (lit "espresso"))) := by
    decide +kernel
  have hsub : SubmitsWifi cafeJson (lit "cafe") (lit "espresso") cafePost := ⟨_, rfl, rfl, rfl⟩
  exact (wifi_credentials_iff cafeJson (gwIdOf 1 2 3) emptyNvs _ _ hsub hacc (by decide) (by decide)
    (by decide) (by decide) (by decide)).mpr (by decide)

/-- A network name of 32 bytes. -/
def showroom : CStr := lit "SeeedMote-Showroom-Upper-Floor-1"

def showroomBody : CStr := lit "\x7b\"ssid\":\"" ++ showroom ++ lit "\",\"password\":\"\"\x7d"

def showroomPost : Submission := .post (.ofBody showroomBody (by decide))

def showroomJson : CJson := flatJson [(showroomBody, .object
  [(lit "ssid", .string showroom), (lit "password", .string [])])]

theorem longest_ssid_is_cut :
    ¬∀ (api : CJson) (gwId : CStr) (nvs nvs' : Nvs) (calls : List WifiCall) (sub : Submission)
      (ssid pass : CStr), SubmitsWifi api ssid pass sub →
      submitWifi api nvs sub = (true, nvs', calls) → 1 ≤ ssid.length → ssid.length ≤ 32 →
      pass.length ≤ 63 → 0 ∉ ssid → 0 ∉ pass → CredentialsReach gwId nvs' calls ssid pass := by
  intro h
  have hacc : submitWifi showroomJson emptyNvs showroomPost = (true, nvsConfigSaveWifi emptyNvs showroom
      (some []), wifiMgrConnect showroom (some [])) := by
    decide +kernel
  have hsub : SubmitsWifi showroomJson showroom [] showroomPost := ⟨_, rfl, rfl, rfl⟩
  obtain ⟨⟨cfg, hcfg, hdenotes⟩, -⟩ := h _ (gwIdOf 1 2 3) _ _ _ _ _ _ hsub hacc (by decide) (by decide)
    (by decide) (by decide +kernel) (by decide)
  obtain rfl : staConfig showroom (some []) = cfg := by simpa [staPassed_connect] using hcfg
  revert hdenotes
  decide +kernel

/-! ### MQTT settings on their way to the broker -/

/-- The client the handle refers to targets `m`, and the next boot loads `m`. -/
structure ExactlyKept (s : Session) (m : MqttSettings) : Prop where
  live : ∃ c ∈ s.mqtt.alive, s.mqtt.client = some c.id ∧ c.Targets m
  reboot : (nvsConfigLoad s.nvs).mqtt? = some m

/-- What the buffers and the port check of `nvs_config_load` let through. -/
structure Keepable (m : MqttSettings) : Prop where
  broker_ne_nil : m.broker ≠ []
  broker_le : m.broker.length ≤ 64
  port_pos : 0 < m.port
  pass_le : m.pass.length ≤ 64

/-- The conversion of a `double` drops the fraction; out of range it is undefined. -/
def DropsFraction (castDouble : Option ℚ → UInt16) : Prop :=
  ∀ q : ℚ, -1 < q → q < 65536 → (castDouble (some q)).toNat = ⌊q⌋₊

theorem castInt_toNat (port : UInt16) : castInt port.toNat = port := by
  have hlt := port.toNat_lt
  rw [castInt, Int.emod_eq_of_lt (by omega) (by omega), Int.toNat_natCast]
  exact UInt16.ofNat_toNat

theorem BodyPort.bodyPort_eq {api : CJson} {castDouble : Option ℚ → UInt16}
    (hcast : DropsFraction castDouble) {j : api.Item} {port : UInt16} (h : BodyPort api j port) :
    bodyPort api castDouble j = port := by
  rw [BodyPort] at h
  rw [bodyPort]
  split at h
  · next item hitem =>
    obtain ⟨hnum, hval⟩ := h
    have hlt : (port.toNat : ℚ) < 65536 := by exact_mod_cast port.toNat_lt
    have hneg : (-1 : ℚ) < port.toNat := lt_of_lt_of_le (by norm_num) (Nat.cast_nonneg _)
    rw [if_pos hnum, hval]
    refine UInt16.toNat_inj.mp ?_
    rw [hcast _ hneg hlt, Nat.floor_natCast]
  · exact h.symm

theorem ArgPort.castInt_eq {arg : Option CStr} {port : UInt16} (h : ArgPort arg port) :
    (arg.map fun text => castInt (atoi text)).getD 1883 = port := by
  cases arg with
  | none => exact (h : port = 1883).symm
  | some text =>
    have hlt := port.toNat_lt
    have hatoi : atoi text = port.toNat := atoi_of_decimal h (by omega) (by omega)
    rw [Option.map_some, Option.getD_some, hatoi, castInt_toNat]

/-- Accepted settings are saved and the client restarted with them. -/
theorem submitMqtt_accepted {api : CJson} {castDouble : Option ℚ → UInt16} {initOk : Bool}
    {s s' : Session} {sub : Submission} (hacc : submitMqtt api castDouble initOk s sub = (true, s')) :
    ∃ broker port pass, s' = applyMqtt broker port pass initOk s := by
  cases sub with
  | post req =>
    cases hj : parseBody api req with
    | error text => simp [submitMqtt, handleMqttPost, hj, okReply] at hacc
    | ok j =>
      cases hbroker : api.textOf j (lit "broker") with
      | none => simp [submitMqtt, handleMqttPost, hj, hbroker, okReply] at hacc
      | some broker =>
        by_cases hne : broker = []
        · simp [submitMqtt, handleMqttPost, hj, hbroker, hne, okReply] at hacc
        · simp only [submitMqtt, handleMqttPost, hj, hbroker, hne, if_false] at hacc
          exact ⟨_, _, _, (congrArg Prod.snd hacc).symm⟩
  | console argv =>
    rcases argv with _ | ⟨cmd, _ | ⟨broker, rest⟩⟩
    · simp [submitMqtt, cmdMqttConnect] at hacc
    · simp [submitMqtt, cmdMqttConnect] at hacc
    · exact ⟨_, _, _, (congrArg Prod.snd hacc).symm⟩

/-- Submitted settings with a broker are the ones saved and applied. -/
theorem submitMqtt_of_submits {api : CJson} {castDouble : Option ℚ → UInt16}
    (hcast : DropsFraction castDouble) (initOk : Bool) (s : Session) {sub : Submission}
    {m : MqttSettings} (hsub : SubmitsMqtt api m sub) (hne : m.broker ≠ []) :
    ∃ pass : Option CStr, pass.getD [] = m.pass ∧
      submitMqtt api castDouble initOk s sub = (true, applyMqtt m.broker m.port pass initOk s) := by
  cases sub with
  | post req =>
    obtain ⟨j, hj, hbroker, hport, hpass⟩ := hsub
    refine ⟨_, hpass.getD_textOf, ?_⟩
    simp [submitMqtt, handleMqttPost, hj, hbroker, hne, hport.bodyPort_eq hcast]
  | console argv =>
    obtain ⟨hbroker, hport, hpass⟩ := hsub
    obtain ⟨cmd, rest, rfl⟩ := exists_of_getElem?_one hbroker
    have hport' : (rest[0]?.map fun text => castInt (atoi text)).getD 1883 = m.port :=
      ArgPort.castInt_eq (by simpa using hport)
    have hpass' : rest[1]?.getD [] = m.pass := by simpa using hpass
    refine ⟨some m.pass, rfl, ?_⟩
    simp only [submitMqtt, cmdMqttConnect, hport', hpass']
    rfl

/-- A client is started exactly when there is a broker and `esp_mqtt_client_init` succeeds. -/
theorem applyMqtt_client_isSome (broker : CStr) (port : UInt16) (pass : Option CStr) (initOk : Bool)
    (s : Session) : (applyMqtt broker port pass initOk s).mqtt.client.isSome ↔
      broker ≠ [] ∧ initOk = true := by
  have hstop : (mqttMgrStop s.mqtt).client = none := by
    rw [mqttMgrStop]
    split
    · rfl
    · assumption
  by_cases hb : broker = []
  · simp [applyMqtt, mqttMgrReconfigure, mqttMgrStart, hb, hstop]
  · obtain ⟨hclient, -⟩ := mqttMgrStart_alive hb port s.gwId (pass.getD []) initOk (mqttMgrStop s.mqtt)
    have happly : (applyMqtt broker port pass initOk s).mqtt.client =
        if initOk then some (mqttMgrStop s.mqtt).created else none := hclient
    rw [happly]
    cases initOk <;> simp [hb]

/-- Settings that can be kept are kept, and the client just started targets them. -/
theorem applyMqtt_exactlyKept {m : MqttSettings} (h : Keepable m) {pass : Option CStr}
    (hpass : pass.getD [] = m.pass) (s : Session) :
    ExactlyKept (applyMqtt m.broker m.port pass true s) m := by
  have hfits : (brokerUri m.broker m.port).length < uriSize := by
    have hle := length_brokerUri_le m.broker m.port
    have hbroker := h.broker_le
    have huri : uriSize = 128 := rfl
    omega
  obtain ⟨hclient, halive⟩ := mqttMgrStart_alive h.broker_ne_nil m.port s.gwId (pass.getD []) true
    (mqttMgrStop s.mqtt)
  refine ⟨⟨⟨(mqttMgrStop s.mqtt).created, snprintf uriSize (brokerUri m.broker m.port), s.gwId,
    authPassword (pass.getD [])⟩, ?_, hclient, (snprintf_uri_eq_iff _).mpr hfits,
    congrArg authPassword hpass⟩, ?_⟩
  · have hmem : (applyMqtt m.broker m.port pass true s).mqtt.alive = _ := halive
    rw [hmem]
    exact List.mem_cons_self ..
  · have hsaved : (applyMqtt m.broker m.port pass true s).nvs.mqttSaved = some m := by
      rw [applyMqtt, mqttSaved_save, if_neg h.broker_ne_nil, hpass]
    exact load_mqtt_of_fits hsaved h.broker_le h.pass_le h.port_pos

/-- A conversion that wraps what is out of range. -/
def wrapDouble : Option ℚ → UInt16
  | some q => ⌊q⌋₊.toUInt16
  | none => 0

theorem wrapDouble_dropsFraction : DropsFraction wrapDouble := by
  intro q _ hq
  have hlt : ⌊q⌋₊ < 65536 := (Nat.floor_lt' (by norm_num)).mpr (by exact_mod_cast hq)
  rw [wrapDouble]
  exact UInt16.toNat_ofNat_of_lt' hlt

def brokerBody (port : ℕ) : CStr :=
  lit "\x7b\"broker\":\"10.0.0.2\",\"port\":" ++ fmtUnsigned port ++ lit ",\"password\":\"pw\"\x7d"

def brokerJson (port : ℕ) : CJson := flatJson [(brokerBody port, .object
  [(lit "broker", .string (lit "10.0.0.2")), (lit "port", .number port),
    (lit "password", .string (lit "pw"))])]

def brokerPost (port : ℕ) (h : (brokerBody port).length ≤ (brokerBody port).length.toUInt32.toNat) :
    Submission := .post (.ofBody (brokerBody port) h)

end SeeedMote.Gateway.Settings
