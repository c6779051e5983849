import SeeedMote.Gateway.BodyPieces
import SeeedMote.Lib.JsText

/-! The form of the configuration page, `web_ui.html`: the five inputs, all but the port a single line of
    text, what `loadStatus` puts there and what `saveAll` posts. On the way to the gateway a text becomes bytes twice over,

        inputs ─ trim, parseInt ─▶ object ─ JSON.stringify, UTF-8 ─▶ body ─ cJSON ─▶ C strings ─▶ keys
        inputs ◀─ `||`-like checks ─ object ◀─────────── JSON ─────────── C strings ◀── load ── keys

    and what fits the fields of the gateway comes back as it was. -/

namespace SeeedMote.Gateway.WebUi
open Lib Settings

/-! ### The form -/

/-- No line break. -/
def OneLine (s : PyStr) : Prop := 10 ∉ s ∧ 13 ∉ s

instance (s : PyStr) : Decidable (OneLine s) := inferInstanceAs (Decidable (_ ∧ _))

theorem OneLine.sublist {s t : PyStr} (h : OneLine t) (hsub : s.Sublist t) : OneLine s :=
  ⟨fun hmem => h.1 (hsub.subset hmem), fun hmem => h.2 (hsub.subset hmem)⟩

/-- A text without its line breaks. -/
def stripNewlines (s : PyStr) : PyStr := s.filter fun c => c ≠ 10 ∧ c ≠ 13

theorem oneLine_stripNewlines (s : PyStr) : OneLine (stripNewlines s) := by
  simp [OneLine, stripNewlines]

theorem stripNewlines_sublist (s : PyStr) : (stripNewlines s).Sublist s := List.filter_sublist

theorem stripNewlines_eq {s : PyStr} (h : OneLine s) : stripNewlines s = s :=
  List.filter_eq_self.mpr fun c hc => by
    have hlf : c ≠ 10 := fun heq => h.1 (heq ▸ hc)
    have hcr : c ≠ 13 := fun heq => h.2 (heq ▸ hc)
    simp [hlf, hcr]

/-- The `value` of an input of type `text` or `password`. -/
@[ext] structure InputText where
  text : PyStr
  oneLine : OneLine text
  deriving DecidableEq

namespace InputText

instance : Coe InputText PyStr := ⟨text⟩

/-- `input.value=s`: the input strips what it cannot hold. -/
def set (s : PyStr) : InputText := ⟨stripNewlines s, oneLine_stripNewlines s⟩

@[simp] theorem set_text (t : InputText) : set t.text = t := InputText.ext (stripNewlines_eq t.oneLine)

/-- `input.value.trim()`. -/
def trim (t : InputText) : InputText := ⟨jsTrim t.text, t.oneLine.sublist (jsTrim_sublist t.text)⟩

theorem trim_eq {t : InputText} (h : jsTrim t.text = t.text) : t.trim = t := InputText.ext h

end InputText

/-- The inputs, by their `value`. -/
structure Form where
  ssid : InputText
  wpass : InputText
  broker : InputText
  mport : PyStr
  mpass : InputText
  deriving DecidableEq

/-- The inputs of a page just opened. -/
def Form.fresh : Form := ⟨.set [], .set [], .set [], py "1883", .set []⟩

/-- The members of the reply to `GET /api/status` that are inputs of the page. -/
def handleStatus (nvs : Nvs) : GwConfig := nvsConfigLoad nvs

/-- `if(text)input.value=text`. -/
def showText (text : PyStr) (shown : InputText) : InputText :=
  if text = [] then shown else .set text

/-- The inputs after `loadStatus`; `decode` is what a string of the reply is on the page. -/
def Form.load (decode : CStr → PyStr) (cfg : GwConfig) (f : Form) : Form where
  ssid := showText (decode cfg.wifiSsid) f.ssid
  wpass := showText (decode cfg.wifiPass) f.wpass
  broker := showText (decode cfg.mqttBroker) f.broker
  mport := if cfg.mqttPort = 0 then f.mport else jsNumber cfg.mqttPort.toNat
  mpass := showText (decode cfg.mqttPass) f.mpass

/-! ### The two posts -/

/-- The object posted to `/api/wifi`. -/
structure WifiBody where
  ssid : InputText
  password : InputText
  deriving DecidableEq

/-- The object posted to `/api/mqtt`. -/
structure MqttBody where
  broker : InputText
  port : ℤ
  password : InputText
  deriving DecidableEq

def WifiBody.bytes (b : WifiBody) : CStr :=
  utf8Encode (stringify [(py "ssid", .str b.ssid), (py "password", .str b.password)])

def MqttBody.bytes (b : MqttBody) : CStr :=
  utf8Encode (stringify
    [(py "broker", .str b.broker), (py "port", .int b.port), (py "password", .str b.password)])

/-- `parseInt($('mport').value)||1883`. -/
def Form.port (f : Form) : ℤ :=
  match parseInt f.mport with
  | some port => if port = 0 then 1883 else port
  | none => 1883

/-- The bodies of a save, the port and its password read when the second is sent. -/
def Form.wifiBody (f : Form) : WifiBody := ⟨f.ssid.trim, f.wpass⟩
def Form.mqttBody (broker : InputText) (f : Form) : MqttBody := ⟨broker, f.port, f.mpass⟩

/-- What a save sends, in all. -/
structure Sent where
  wifi : WifiBody
  mqtt : MqttBody
  deriving DecidableEq

/-- What `saveAll` sends of a form left alone meanwhile; without a name or an address it sends nothing. -/
def Form.sent (f : Form) : Option Sent :=
  if jsTrim f.ssid = [] ∨ jsTrim f.broker = [] then none
  else some ⟨f.wifiBody, f.mqttBody f.broker.trim⟩

/-- The form that shows what was sent. -/
def Sent.form (m : Sent) : Form :=
  ⟨m.wifi.ssid, m.wifi.password, m.mqtt.broker, jsNumber m.mqtt.port.toNat, m.mqtt.password⟩

/-! ### What fits the gateway -/

/-- Text for a buffer of `size` bytes. -/
structure FitsText (size : ℕ) (s : PyStr) : Prop where
  scalar : Scalar s
  noNul : 0 ∉ s
  fits : (utf8Encode s).length < size

instance (size : ℕ) (s : PyStr) : Decidable (FitsText size s) :=
  decidable_of_iff (Scalar s ∧ 0 ∉ s ∧ (utf8Encode s).length < size)
    ⟨fun ⟨h1, h2, h3⟩ => ⟨h1, h2, h3⟩, fun h => ⟨h.scalar, h.noNul, h.fits⟩⟩

structure WifiBody.Fits (b : WifiBody) : Prop where
  ssid : FitsText 33 b.ssid
  password : FitsText 65 b.password
  length_le : b.bytes.length ≤ 512

instance (b : WifiBody) : Decidable b.Fits :=
  decidable_of_iff (FitsText 33 b.ssid ∧ FitsText 65 b.password ∧ b.bytes.length ≤ 512)
    ⟨fun ⟨h1, h2, h3⟩ => ⟨h1, h2, h3⟩, fun h => ⟨h.ssid, h.password, h.length_le⟩⟩

structure MqttBody.Fits (b : MqttBody) : Prop where
  broker : FitsText 65 b.broker
  password : FitsText 65 b.password
  port_pos : 0 < b.port
  port_lt : b.port < 65536
  length_le : b.bytes.length ≤ 512

instance (b : MqttBody) : Decidable b.Fits :=
  decidable_of_iff (FitsText 65 b.broker ∧ FitsText 65 b.password ∧ 0 < b.port ∧ b.port < 65536 ∧
      b.bytes.length ≤ 512)
    ⟨fun ⟨h1, h2, h3, h4, h5⟩ => ⟨h1, h2, h3, h4, h5⟩,
      fun h => ⟨h.broker, h.password, h.port_pos, h.port_lt, h.length_le⟩⟩

/-- The settings of a body, as C strings. -/
def WifiBody.settings (b : WifiBody) : WifiSettings := ⟨utf8Encode b.ssid, utf8Encode b.password⟩

def MqttBody.settings (b : MqttBody) : MqttSettings :=
  ⟨utf8Encode b.broker, b.port.toNat.toUInt16, utf8Encode b.password⟩

/-- `cJSON` reads the two bodies, of texts without NUL, as `JSON.stringify` writes them. -/
structure ReadsBodies (api : CJson) : Prop where
  wifi : ∀ b : WifiBody, Scalar b.ssid → 0 ∉ b.ssid.text → Scalar b.password →
    0 ∉ b.password.text →
    ∃ j, api.parse b.bytes = some j ∧ api.textOf j (lit "ssid") = some (utf8Encode b.ssid) ∧
      ∃ item, api.getObjectItem j (lit "password") = some item ∧
        api.getStringValue item = some (utf8Encode b.password)
  mqtt : ∀ b : MqttBody, Scalar b.broker → 0 ∉ b.broker.text → Scalar b.password →
    0 ∉ b.password.text → 0 < b.port → b.port < 65536 →
    ∃ j, api.parse b.bytes = some j ∧ api.textOf j (lit "broker") = some (utf8Encode b.broker) ∧
      (∃ item, api.getObjectItem j (lit "port") = some item ∧ api.isNumber item = true ∧
        api.valueDouble item = some (b.port : ℚ)) ∧
      ∃ item, api.getObjectItem j (lit "password") = some item ∧
        api.getStringValue item = some (utf8Encode b.password)

/-- The page decodes UTF-8. -/
def DecodesUtf8 (decode : CStr → PyStr) : Prop := ∀ s, Scalar s → decode (utf8Encode s) = s

/-! ### Bodies on their way -/

/-- The request that brings a body, of which `n` bytes have come when it is read. -/
def postOf (body : CStr) (mallocOk : Bool) (n : ℕ) : HttpRequest where
  contentLen := body.length.toUInt32
  mallocOk := mallocOk
  recv := body.take (min n body.length.toUInt32.toNat)
  recv_le := by
    rw [List.length_take]
    omega

/-- Encoded text has a NUL only where the text has one. -/
theorem zero_notMem_utf8Encode {s : PyStr} (hs : ∀ c ∈ s, c < 0x110000) (h0 : 0 ∉ s) :
    0 ∉ utf8Encode s := by
  have hself : s.takeWhile (· ≠ 0) = s := List.takeWhile_eq_self_iff.mpr fun c hc => by
    simpa using fun hzero : c = 0 => h0 (hzero ▸ hc)
  have hall := takeWhile_utf8Encode hs
  rw [hself, List.takeWhile_eq_self_iff] at hall
  exact fun hmem => absurd (hall 0 hmem) (by simp)

/-- A body that has come as a whole is read as it is. -/
theorem readBody_postOf {body : CStr} (hpos : 1 ≤ body.length) (hle : body.length ≤ 512) (h0 : 0 ∉ body)
    {n : ℕ} (hn : body.length ≤ n) : readBody (postOf body true n) = some body := by
  let a : Arrival :=
    { pieces := [body]
      nonempty := fun p hp => List.mem_singleton.mp hp ▸ List.ne_nil_of_length_pos hpos
      length_pos := by rwa [List.flatten_singleton]
      length_le := by rwa [List.flatten_singleton] }
  have hbody : a.body = body := List.flatten_singleton
  have hrecv : body.take (min n body.length.toUInt32.toNat) = body := by
    have hlen := a.toNat_length
    rw [hbody] at hlen
    exact List.take_of_length_le (by omega)
  have hreq : postOf body true n = a.request true := by
    simp only [postOf, Arrival.request, hbody, hrecv, HttpRequest.mk.injEq, true_and]
    exact (List.take_length (l := body)).symm
  have hself : body.takeWhile (· ≠ 0) = body := List.takeWhile_eq_self_iff.mpr fun b hb => by
    simpa using fun hzero : b = 0 => h0 (hzero ▸ hb)
  rw [hreq, readBody_eq, bodyBuffer_request, if_pos rfl, Option.map_some, takeWhile_nul]
  exact congrArg some hself

/-- The body of an object, which `read_body` takes whole. -/
theorem readBody_stringify {ms : List (PyStr × JsValue)} (h : ∀ m ∈ ms, Scalar m.1 ∧ m.2.IsScalar)
    (hle : (utf8Encode (stringify ms)).length ≤ 512) {n : ℕ}
    (hn : (utf8Encode (stringify ms)).length ≤ n) :
    readBody (postOf (utf8Encode (stringify ms)) true n) = some (utf8Encode (stringify ms)) := by
  have hchars := stringify_textChar h
  have hpos : 1 ≤ (utf8Encode (stringify ms)).length := by
    rw [stringify, objectText, List.cons_append]
    exact Nat.succ_pos _
  refine readBody_postOf hpos hle ?_ hn
  exact zero_notMem_utf8Encode (fun c hc => (hchars c hc).2) fun hzero => absurd (hchars 0 hzero).1 (by simp)

theorem MqttBody.Fits.toNat_port {b : MqttBody} (h : b.Fits) :
    b.settings.port.toNat = b.port.toNat := by
  have hlt := h.port_lt
  refine UInt16.toNat_ofNat_of_lt' ?_
  simp only [UInt16.size]
  omega

section Posts
variable {api : CJson} {n : ℕ}

/-- A Wi-Fi body that fits is submitted as the texts it is made of. -/
theorem WifiBody.Fits.submits {b : WifiBody} (h : b.Fits) (hapi : ReadsBodies api)
    (hn : b.bytes.length ≤ n) :
    SubmitsWifi api b.settings.ssid b.settings.pass (.post (postOf b.bytes true n)) := by
  obtain ⟨j, hj, hssid, item, hitem, hpass⟩ :=
    hapi.wifi b h.ssid.scalar h.ssid.noNul h.password.scalar h.password.noNul
  have hread : readBody (postOf b.bytes true n) = some b.bytes := by
    refine readBody_stringify ?_ h.length_le hn
    intro m hm
    simp only [List.mem_cons, List.not_mem_nil, or_false] at hm
    rcases hm with rfl | rfl
    · exact ⟨(by decide : Scalar (py "ssid")), h.ssid.scalar⟩
    · exact ⟨(by decide : Scalar (py "password")), h.password.scalar⟩
  refine ⟨j, ?_, hssid, ?_⟩
  · rw [parseBody, hread]
    simp only [hj]
  · rw [BodyPass, hitem]
    exact hpass

/-- So is an MQTT body. -/
theorem MqttBody.Fits.submits {b : MqttBody} (h : b.Fits) (hapi : ReadsBodies api)
    (hn : b.bytes.length ≤ n) : SubmitsMqtt api b.settings (.post (postOf b.bytes true n)) := by
  obtain ⟨j, hj, hbroker, ⟨port, hport, hnum, hval⟩, item, hitem, hpass⟩ := hapi.mqtt b
    h.broker.scalar h.broker.noNul h.password.scalar h.password.noNul h.port_pos h.port_lt
  have hread : readBody (postOf b.bytes true n) = some b.bytes := by
    refine readBody_stringify ?_ h.length_le hn
    intro m hm
    simp only [List.mem_cons, List.not_mem_nil, or_false] at hm
    rcases hm with rfl | rfl | rfl
    · exact ⟨(by decide : Scalar (py "broker")), h.broker.scalar⟩
    · exact ⟨(by decide : Scalar (py "port")), trivial⟩
    · exact ⟨(by decide : Scalar (py "password")), h.password.scalar⟩
  refine ⟨j, ?_, hbroker, ?_, ?_⟩
  · rw [parseBody, hread]
    simp only [hj]
  · rw [BodyPort, hport]
    refine ⟨hnum, hval.trans (congrArg some ?_)⟩
    rw [h.toNat_port]
    exact_mod_cast (Int.toNat_of_nonneg h.port_pos.le).symm
  · rw [BodyPass, hitem]
    exact hpass

end Posts

/-! ### There and back -/

/-- A name or an address as `saveAll` sends it. -/
def Trimmed (s : PyStr) : Prop := s ≠ [] ∧ jsTrim s = s

instance (s : PyStr) : Decidable (Trimmed s) := inferInstanceAs (Decidable (_ ∧ _))

theorem trimmed_jsTrim {s : PyStr} (h : jsTrim s ≠ []) : Trimmed (jsTrim s) := ⟨h, jsTrim_jsTrim s⟩

/-- The keys hold what was sent. -/
structure Holds (nvs : Nvs) (m : Sent) : Prop where
  wifi : (nvsConfigLoad nvs).wifi? = some m.wifi.settings
  mqtt : (nvsConfigLoad nvs).mqtt? = some m.mqtt.settings

/-- What a save can send of a form that fits. -/
structure Sent.Fits (m : Sent) : Prop where
  ssid : Trimmed m.wifi.ssid
  broker : Trimmed m.mqtt.broker
  wifi : m.wifi.Fits
  mqtt : m.mqtt.Fits

theorem FitsText.encode_ne_nil {size : ℕ} {s : PyStr} (h : FitsText size s) (hne : s ≠ []) :
    utf8Encode s ≠ [] := by
  rw [Ne, utf8Encode_eq_iff (fun c hc => (h.scalar c hc).1) (by simp)]
  exact hne

/-- Accepted credentials are what the next boot reads. -/
theorem WifiBody.Fits.load {b : WifiBody} (h : b.Fits) (hne : b.ssid.text ≠ []) (nvs : Nvs) {pass : Option CStr}
    (hpass : pass.getD [] = b.settings.pass) :
    (nvsConfigLoad (nvsConfigSaveWifi nvs b.settings.ssid pass)).wifi? = some b.settings := by
  have hfits : (pass.getD []).length ≤ 64 := hpass ▸ Nat.le_of_lt_succ h.password.fits
  have hssid : b.settings.ssid ≠ [] := h.ssid.encode_ne_nil hne
  obtain ⟨hhas, hload, hwpass⟩ := load_saved_wifi nvs pass hssid (Nat.le_of_lt_succ h.ssid.fits) hfits
  rw [GwConfig.wifi?, if_pos hhas, hload, hwpass, hpass]

/-- So are accepted MQTT settings. -/
theorem MqttBody.Fits.load {b : MqttBody} (h : b.Fits) (hne : b.broker.text ≠ []) (nvs : Nvs)
    {pass : Option CStr} (hpass : pass.getD [] = b.settings.pass) :
    (nvsConfigLoad (nvsConfigSaveMqtt nvs b.settings.broker b.settings.port pass)).mqtt?
      = some b.settings := by
  have hport : 0 < b.settings.port := by
    have hpos := h.port_pos
    rw [UInt16.lt_iff_toNat_lt, h.toNat_port]
    exact Int.lt_toNat.mpr hpos
  have hbroker : b.settings.broker ≠ [] := h.broker.encode_ne_nil hne
  refine load_mqtt_of_fits ?_ (Nat.le_of_lt_succ h.broker.fits) (Nat.le_of_lt_succ h.password.fits) hport
  rw [mqttSaved_save, if_neg hbroker, hpass]

theorem showText_fresh (t : InputText) : showText t (.set []) = t := by
  rw [showText]
  split
  · next hnil => rw [← hnil, InputText.set_text]
  · exact t.set_text

/-- A page just opened shows what was sent. -/
theorem Holds.fresh_load {nvs : Nvs} {m : Sent} (h : Holds nvs m) (hm : m.Fits) {decode : CStr → PyStr}
    (hdecode : DecodesUtf8 decode) : Form.fresh.load decode (handleStatus nvs) = m.form := by
  obtain ⟨-, hwifi⟩ := Option.ite_some_none_eq_some.mp h.wifi
  obtain ⟨-, hmqtt⟩ := Option.ite_some_none_eq_some.mp h.mqtt
  have hssid : (nvsConfigLoad nvs).wifiSsid = utf8Encode m.wifi.ssid := congrArg WifiSettings.ssid hwifi
  have hwpass : (nvsConfigLoad nvs).wifiPass = utf8Encode m.wifi.password :=
    congrArg WifiSettings.pass hwifi
  have hbroker : (nvsConfigLoad nvs).mqttBroker = utf8Encode m.mqtt.broker :=
    congrArg MqttSettings.broker hmqtt
  have hport : (nvsConfigLoad nvs).mqttPort.toNat = m.mqtt.port.toNat :=
    (congrArg (fun s => s.port.toNat) hmqtt).trans hm.mqtt.toNat_port
  have hmpass : (nvsConfigLoad nvs).mqttPass = utf8Encode m.mqtt.password :=
    congrArg MqttSettings.pass hmqtt
  have hzero : (nvsConfigLoad nvs).mqttPort ≠ 0 := by
    have hpos := hm.mqtt.port_pos
    rw [Ne, ← UInt16.toNat_inj, hport, UInt16.toNat_zero]
    omega
  rw [Form.load, Sent.form]
  simp only [handleStatus, if_neg hzero, hssid, hwpass, hbroker, hport, hmpass, Form.fresh, showText_fresh,
    hdecode _ hm.wifi.ssid.scalar, hdecode _ hm.wifi.password.scalar, hdecode _ hm.mqtt.broker.scalar,
    hdecode _ hm.mqtt.password.scalar]

/-- Saving what is shown sends the same again. -/
theorem Sent.Fits.resend {m : Sent} (hm : m.Fits) : m.form.sent = some m := by
  have hpos := hm.mqtt.port_pos
  have hport : m.form.port = m.mqtt.port := by
    have hback : ((m.mqtt.port.toNat : ℕ) : ℤ) = m.mqtt.port := Int.toNat_of_nonneg hpos.le
    rw [Form.port, Sent.form, parseInt_jsNumber]
    simp only [hback]
    exact if_neg hpos.ne'
  have hnone : ¬(jsTrim m.form.ssid = [] ∨ jsTrim m.form.broker = []) := by
    rw [Sent.form, hm.ssid.2, hm.broker.2]
    exact not_or.mpr ⟨hm.ssid.1, hm.broker.1⟩
  rw [Form.sent, if_neg hnone, Form.wifiBody, Form.mqttBody, hport]
  rw [Sent.form, InputText.trim_eq hm.ssid.2, InputText.trim_eq hm.broker.2]

end SeeedMote.Gateway.WebUi
