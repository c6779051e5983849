import SeeedMote.Gateway.Scanner

/-! The gateway's MQTT manager, `mqtt_mgr.c`: one static handle for clients that `esp_mqtt` keeps
    alive until they are destroyed, and the three publish functions. A client gets an id when it is
    created, so that the handle and the clients alive can be compared. -/

namespace SeeedMote.Gateway
open Lib

/-! ### Clients -/

/-- A client of `esp_mqtt_client_init`, with its copy of the configuration. -/
structure MqttClient where
  id : ℕ
  uri : CStr
  username : CStr
  password : Option CStr
  deriving DecidableEq

/-- `client` and `connected`, and the clients initialised and not yet destroyed. -/
structure MqttMgr where
  client : Option ℕ
  connected : Bool
  alive : List MqttClient
  created : ℕ
  deriving DecidableEq

def MqttMgr.boot : MqttMgr := ⟨none, false, [], 0⟩

/-- The text the `uri` buffer is printed from. -/
def brokerUri (broker : CStr) (port : UInt16) : CStr :=
  lit "mqtt://" ++ broker ++ lit ":" ++ fmtUnsigned port.toNat

def uriSize : ℕ := 128

/-- An empty password is passed as NULL. -/
def authPassword (password : CStr) : Option CStr := if password = [] then none else some password

/-- `mqtt_mgr_start`; `initOk`: whether `esp_mqtt_client_init` returns a client. -/
def mqttMgrStart (broker : CStr) (port : UInt16) (username password : CStr) (initOk : Bool)
    (m : MqttMgr) : MqttMgr :=
  if broker = [] then m
  else if initOk then
    let c : MqttClient :=
      ⟨m.created, snprintf uriSize (brokerUri broker port), username, authPassword password⟩
    { m with client := some c.id, alive := c :: m.alive, created := m.created + 1 }
  else { m with client := none }

/-- `mqtt_mgr_stop`. -/
def mqttMgrStop (m : MqttMgr) : MqttMgr :=
  match m.client with
  | some id =>
    { m with client := none, connected := false, alive := m.alive.filter fun c => c.id ≠ id }
  | none => m

/-- `mqtt_mgr_reconfigure`. -/
def mqttMgrReconfigure (broker : CStr) (port : UInt16) (username password : CStr) (initOk : Bool)
    (m : MqttMgr) : MqttMgr :=
  mqttMgrStart broker port username password initOk (mqttMgrStop m)

/-! ### What a client targets -/

theorem authPassword_inj {p q : CStr} (h : authPassword p = authPassword q) : p = q := by
  simp only [authPassword] at h
  split at h <;> split at h <;> simp_all

/-- A list is cut in one way only at the first occurrence of `a`. -/
theorem split_at_first {A : Type} {a : A} : ∀ {x x' z z' : List A}, a ∉ x → a ∉ x' →
    x ++ a :: z = x' ++ a :: z' → x = x' ∧ z = z'
  | [], [], _, _, _, _, h => ⟨rfl, (List.cons.inj h).2⟩
  | [], b :: x', _, _, _, h', h => absurd (List.mem_cons.mpr (.inl (List.cons.inj h).1)) h'
  | b :: x, [], _, _, h, _, he => absurd (List.mem_cons.mpr (.inl (List.cons.inj he).1.symm)) h
  | b :: x, b' :: x', _, _, h, h', he => by
      obtain ⟨rfl, htl⟩ := List.cons.inj he
      obtain ⟨rfl, hz⟩ := split_at_first (fun hm => h (List.mem_cons_of_mem _ hm))
        (fun hm => h' (List.mem_cons_of_mem _ hm)) htl
      exact ⟨rfl, hz⟩

/-- The last colon of the URI separates the broker from the digits of the port. -/
theorem brokerUri_inj {b b' : CStr} {p p' : UInt16} (h : brokerUri b p = brokerUri b' p') :
    b = b' ∧ p = p' := by
  have hcolon : ∀ q : UInt16, (58 : UInt8) ∉ (fmtUnsigned q.toNat).reverse := fun q hq => by
    have := mem_fmtUnsigned (List.mem_reverse.mp hq)
    simp at this
  have hrev := congrArg List.reverse h
  simp only [brokerUri, show lit ":" = [58] from rfl, List.reverse_append, List.reverse_cons,
    List.append_assoc, List.cons_append] at hrev
  obtain ⟨hport, hbroker⟩ := split_at_first (hcolon p) (hcolon p') hrev
  refine ⟨?_, ?_⟩
  · exact List.reverse_injective (List.append_cancel_right hbroker)
  · exact UInt16.toNat_inj.mp (fmtUnsigned_inj (List.reverse_injective hport))

theorem length_brokerUri_le (b : CStr) (p : UInt16) : (brokerUri b p).length ≤ b.length + 13 := by
  have hport : (fmtUnsigned p.toNat).length ≤ 5 :=
    length_fmtUnsigned_le (by norm_num) (p.toNat_lt.trans (by norm_num))
  simp only [brokerUri, List.length_append, show (lit "mqtt://").length = 7 from rfl,
    show (lit ":").length = 1 from rfl]
  omega

/-- The buffer holds the whole URI exactly when it is shorter than the buffer. -/
theorem snprintf_uri_eq_iff (text : CStr) :
    snprintf uriSize text = text ↔ text.length < uriSize := by
  rw [snprintf, List.take_eq_self_iff]
  simp [uriSize]; omega

/-! ### Publishing -/

/-- The arguments of `esp_mqtt_client_publish`. -/
structure MqttMessage where
  topic : CStr
  payload : CStr
  retain : Bool
  deriving DecidableEq

/-- `if (!client || !connected) return;`. -/
def MqttMgr.publish (m : MqttMgr) (msg : MqttMessage) : Option MqttMessage :=
  if m.client.isSome ∧ m.connected then some msg else none

/-- `mqtt_mgr_publish_event`. -/
def mqttMgrPublishEvent (gwId mac : CStr) (packetId : UInt8) (rssi : ℤ) (m : MqttMgr) :
    Option MqttMessage :=
  m.publish ⟨snprintf 64 (lit "seeedmote/mote/" ++ mac ++ lit "/event"),
    snprintf 128 (lit "\x7b\"packet_id\":" ++ fmtUnsigned packetId.toNat ++ lit ",\"rssi\":" ++
      fmtSigned rssi ++ lit ",\"gw\":\"" ++ gwId ++ lit "\"\x7d"), false⟩

/-- `mqtt_mgr_publish_seen`. -/
def mqttMgrPublishSeen (gwId mac : CStr) (rssi : ℤ) (m : MqttMgr) : Option MqttMessage :=
  m.publish ⟨snprintf 64 (lit "seeedmote/mote/" ++ mac ++ lit "/seen"),
    snprintf 128 (lit "\x7b\"rssi\":" ++ fmtSigned rssi ++ lit ",\"gw\":\"" ++ gwId ++
      lit "\",\"reason\":\"boot\"\x7d"), false⟩

/-- `mqtt_mgr_publish_status`; `version` is `GATEWAY_FW_VERSION`. -/
def mqttMgrPublishStatus (gwId version : CStr) (m : MqttMgr) : Option MqttMessage :=
  m.publish ⟨snprintf 80 (lit "seeedmote/gateway/" ++ gwId ++ lit "/status"),
    snprintf 128 (lit "\x7b\"gw\":\"" ++ gwId ++ lit "\",\"version\":\"" ++ version ++
      lit "\"\x7d"), true⟩

/-- The link events of `mqtt_event_handler`. Incoming data concerns the LED only. -/
inductive MqttEvent where | connected | disconnected
  deriving DecidableEq

/-- `mqtt_event_handler`, with the status message it hands over. -/
def mqttEventHandler (gwId version : CStr) (m : MqttMgr) : MqttEvent → MqttMgr × Option MqttMessage
  | .connected =>
    let m := { m with connected := true }
    (m, mqttMgrPublishStatus gwId version m)
  | .disconnected => ({ m with connected := false }, none)

/-- A publish call of the scanner. -/
def PublishCall.run (gwId : CStr) (m : MqttMgr) : PublishCall → Option MqttMessage
  | .event macKey packetId rssi => mqttMgrPublishEvent gwId macKey packetId rssi m
  | .seen macKey rssi => mqttMgrPublishSeen gwId macKey rssi m

/-- `gw_id`, from the last three bytes of the device's MAC address. -/
def gwIdOf (m3 m4 m5 : UInt8) : CStr :=
  snprintf 32 (lit "seeedmote-gw-" ++ fmtHex2 m3 ++ fmtHex2 m4 ++ fmtHex2 m5)

end SeeedMote.Gateway
