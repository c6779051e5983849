import SeeedMote.Gateway.MqttMgr
import SeeedMote.Gateway.OneMote

/-! Scanner and MQTT link together: what the gateway hands over for a mote while its link comes and
    goes. The five repeats of a burst are there so that one of them gets through, but the dedup step
    records the id before the publish functions look at the link. The burst is lost with its first
    advert.

        advert ──▶ dedup step ──▶ mqtt_mgr_publish_* ──▶ esp_mqtt_client_publish
                   (records id)   (returns when down) -/

namespace SeeedMote.Gateway
open Lib

/-! ### The gateway between two link events -/

/-- The dedup table and the MQTT manager. -/
structure Relay where
  table : DedupTable
  mqtt : MqttMgr
  deriving DecidableEq

inductive RelayEvent where
  | report (r : Report)
  | mqtt (e : MqttEvent)
  deriving DecidableEq

/-- One event, with what it hands to `esp_mqtt_client_publish`. -/
def relayStep (gwId version : CStr) (g : Relay) : RelayEvent → Relay × List MqttMessage
  | .report r =>
    match gapEventCb g.table r.addr r.rssi r.data with
    | .ok (table, calls) => ({ g with table }, calls.filterMap (PublishCall.run gwId g.mqtt))
    | .error _ => (g, [])
  | .mqtt e =>
    let (mqtt, msg) := mqttEventHandler gwId version g.mqtt e
    ({ g with mqtt }, msg.toList)

/-- The gateway after a run that started with an empty table. -/
def relayAfter (gwId version : CStr) (m : MqttMgr) (es : List RelayEvent) : Relay :=
  finalState (relayStep gwId version) ⟨bootTable, m⟩ es

def eventTopic (mac : CStr) : CStr := lit "seeedmote/mote/" ++ mac ++ lit "/event"

def seenTopic (mac : CStr) : CStr := lit "seeedmote/mote/" ++ mac ++ lit "/seen"

/-- A message on a topic of the mote `addr`. -/
def MqttMessage.isFor (addr : BleAddr) (msg : MqttMessage) : Bool :=
  msg.topic = eventTopic (macKey addr) ∨ msg.topic = seenTopic (macKey addr)

/-- The messages for `addr` that a run from `g` hands over. -/
def messagesFor (gwId version : CStr) (addr : BleAddr) (g : Relay) (es : List RelayEvent) :
    List MqttMessage :=
  (outputs (relayStep gwId version) g es).filter (MqttMessage.isFor addr)

/-- The valid adverts of `addr` in an event. -/
def RelayEvent.adverts (addr : BleAddr) : RelayEvent → List Heard
  | .report r => r.heard.filter (·.addr = addr)
  | .mqtt _ => []

/-- The publish functions go on. -/
def MqttMgr.up (m : MqttMgr) : Bool := m.client.isSome ∧ m.connected

/-- For each valid advert of `addr` in a run, whether the link is up when it is received. -/
def receivedUp (gwId version : CStr) (addr : BleAddr) : MqttMgr → List RelayEvent → List Bool
  | _, [] => []
  | m, .report r :: es =>
    ((RelayEvent.report r).adverts addr).map (fun _ => m.up) ++ receivedUp gwId version addr m es
  | m, .mqtt e :: es => receivedUp gwId version addr (mqttEventHandler gwId version m e).1 es

/-- A slot holds `packetId` for `addr`. -/
def DedupTable.Holds (t : DedupTable) (addr : BleAddr) (packetId : UInt8) : Prop :=
  ⟨addr, packetId, true⟩ ∈ t.slots

instance (t : DedupTable) (addr : BleAddr) (packetId : UInt8) : Decidable (t.Holds addr packetId) :=
  inferInstanceAs (Decidable (_ ∈ t.slots))

/-! ### Topics -/

theorem eventTopic_inj {a b : BleAddr} (h : eventTopic (macKey a) = eventTopic (macKey b)) :
    a = b :=
  macKey_inj (List.append_cancel_left (List.append_cancel_right h))

theorem seenTopic_inj {a b : BleAddr} (h : seenTopic (macKey a) = seenTopic (macKey b)) : a = b :=
  macKey_inj (List.append_cancel_left (List.append_cancel_right h))

theorem eventTopic_ne_seenTopic (a b : BleAddr) :
    eventTopic (macKey a) ≠ seenTopic (macKey b) := fun h =>
  absurd (congrArg List.length h) (by decide : 33 ≠ 32)

/-- A message passes only while the link is up. -/
theorem publish_eq_some_iff (m : MqttMgr) (msg msg' : MqttMessage) :
    m.publish msg = some msg' ↔ m.up = true ∧ msg = msg' := by
  rw [MqttMgr.publish, MqttMgr.up]
  simp

theorem isSome_run (gwId : CStr) (m : MqttMgr) (c : PublishCall) :
    (c.run gwId m).isSome = m.up := by
  have hpublish : ∀ msg, (m.publish msg).isSome = m.up := by
    intro msg
    rw [MqttMgr.publish, MqttMgr.up]
    split
    · next h => simp [h]
    · next h => simp [h]
  cases c with
  | event mac packetId rssi => exact hpublish _
  | seen mac rssi => exact hpublish _

theorem topic_of_run {gwId : CStr} {m : MqttMgr} {x : Heard} {msg : MqttMessage}
    (h : x.call.run gwId m = some msg) :
    msg.topic = eventTopic (macKey x.addr) ∨ msg.topic = seenTopic (macKey x.addr) := by
  rw [Heard.call, publishCall] at h
  split at h
  · obtain ⟨-, rfl⟩ := (publish_eq_some_iff ..).mp h
    exact .inl (snprintf_of_lt (by decide : 33 < 64))
  · obtain ⟨-, rfl⟩ := (publish_eq_some_iff ..).mp h
    exact .inr (snprintf_of_lt (by decide : 32 < 64))

/-- The message of a call is for the mote of its advert. -/
theorem isFor_of_run {gwId : CStr} {m : MqttMgr} {x : Heard} {msg : MqttMessage}
    (h : x.call.run gwId m = some msg) (addr : BleAddr) :
    msg.isFor addr = decide (x.addr = addr) := by
  have htopic := topic_of_run h
  rw [MqttMessage.isFor]
  refine decide_eq_decide.mpr ⟨?_, ?_⟩
  · rintro (h' | h')
    · rcases htopic with h | h
      · exact eventTopic_inj (h.symm.trans h')
      · exact absurd (h'.symm.trans h) (eventTopic_ne_seenTopic addr x.addr)
    · rcases htopic with h | h
      · exact absurd (h.symm.trans h') (eventTopic_ne_seenTopic x.addr addr)
      · exact seenTopic_inj (h.symm.trans h')
  · rintro rfl
    exact htopic

/-- The status of the gateway is for no mote. -/
theorem isFor_status {gwId version : CStr} {m : MqttMgr} {e : MqttEvent} {msg : MqttMessage}
    (h : (mqttEventHandler gwId version m e).2 = some msg) (addr : BleAddr) :
    msg.isFor addr = false := by
  cases e with
  | disconnected => simp [mqttEventHandler] at h
  | connected =>
    obtain ⟨-, rfl⟩ := (publish_eq_some_iff ..).mp h
    -- the topics part at the eleventh byte
    have hgateway : ∀ rest : CStr, (snprintf 80 (lit "seeedmote/gateway/" ++ rest))[10]? = some 103 :=
      fun _ => rfl
    have hmote : ∀ rest : CStr, (lit "seeedmote/mote/" ++ rest)[10]? = some 109 := fun _ => rfl
    rw [MqttMessage.isFor]
    refine decide_eq_false ?_
    rintro (h | h)
    · have := congrArg (·[10]?) h
      simp only [eventTopic, List.append_assoc, hgateway, hmote] at this
      exact absurd this (by decide)
    · have := congrArg (·[10]?) h
      simp only [seenTopic, List.append_assoc, hgateway, hmote] at this
      exact absurd this (by decide)

/-! ### One event -/

theorem mem_outputs_heardStep {hs : List Heard} {t : DedupTable} {c : PublishCall}
    (h : c ∈ outputs heardStep t hs) : ∃ x ∈ hs, c = x.call := by
  obtain ⟨pre, x, post, rfl, hc⟩ := (mem_outputs_iff heardStep).mp h
  rcases heardStep_out (finalState heardStep t pre) x with hout | hout
  · simp [hout] at hc
  · rw [hout, List.mem_singleton] at hc
    exact ⟨x, by simp, hc⟩

section Runs
variable (gwId version : CStr) {addr : BleAddr}

/-- The messages for a mote come from the calls for it. -/
theorem filter_messages (m : MqttMgr) {calls : List PublishCall}
    (hcalls : ∀ c ∈ calls, ∃ x : Heard, c = x.call) :
    (calls.filterMap (PublishCall.run gwId m)).filter (MqttMessage.isFor addr)
      = (calls.filter (PublishCall.isFor addr)).filterMap (PublishCall.run gwId m) := by
  rw [List.filter_filterMap, List.filterMap_filter]
  refine List.filterMap_congr ?_
  intro c hc
  obtain ⟨x, rfl⟩ := hcalls c hc
  cases hrun : x.call.run gwId m with
  | none => simp
  | some msg =>
    have hfor := isFor_of_run hrun addr
    rw [isFor_call]
    by_cases hx : x.addr = addr
    · simp [hx, hfor]
    · simp [hx, hfor]

/-- A report, seen by a mote with an entry: its own adverts go through its own filter. -/
theorem report_spec {g : Relay} {last : Unit → Option UInt8} (h : Remembers addr g.table last)
    (r : Report) :
    (relayStep gwId version g (.report r)).2.filter (MqttMessage.isFor addr)
        = ((outputs aloneStep last ((RelayEvent.report r).adverts addr)).map Heard.call).filterMap
            (PublishCall.run gwId g.mqtt) ∧
      Remembers addr (relayStep gwId version g (.report r)).1.table
        (finalState aloneStep last ((RelayEvent.report r).adverts addr)) ∧
      (relayStep gwId version g (.report r)).1.mqtt = g.mqtt := by
  obtain ⟨hcalls, hnext⟩ := calls_of_remembers h r.heard
  have hstep : relayStep gwId version g (.report r)
      = (⟨finalState heardStep g.table r.heard, g.mqtt⟩,
          (outputs heardStep g.table r.heard).filterMap (PublishCall.run gwId g.mqtt)) := by
    rw [relayStep, gapEventCb_eq]
  rw [hstep]
  refine ⟨?_, hnext, rfl⟩
  rw [filter_messages gwId g.mqtt fun c hc => ?_, hcalls]
  · rfl
  · obtain ⟨x, -, hc⟩ := mem_outputs_heardStep hc
    exact ⟨x, hc⟩

/-- A link event hands over nothing for a mote. -/
theorem mqtt_spec (g : Relay) (e : MqttEvent) :
    (relayStep gwId version g (.mqtt e)).2.filter (MqttMessage.isFor addr) = [] := by
  rw [relayStep]
  cases hmsg : (mqttEventHandler gwId version g.mqtt e).2 with
  | none => simp [hmsg]
  | some msg => simp [hmsg, isFor_status hmsg addr]

theorem messagesFor_mqtt (g : Relay) (e : MqttEvent) (es : List RelayEvent) :
    messagesFor gwId version addr g (.mqtt e :: es)
      = messagesFor gwId version addr (relayStep gwId version g (.mqtt e)).1 es := by
  rw [messagesFor, outputs, List.filter_append, mqtt_spec]
  rfl

/-! ### One new packet id -/

/-- Repeats of the recorded id are silent, link or no link. -/
theorem messages_of_recorded {packetId : UInt8} : ∀ (es : List RelayEvent) {g : Relay}
    {last : Unit → Option UInt8}, Remembers addr g.table last → last () = some packetId →
      (∀ x ∈ es.flatMap (RelayEvent.adverts addr), x.packetId = packetId) →
      messagesFor gwId version addr g es = [] := by
  intro es
  induction es with
  | nil =>
    intro g last _ _ _
    rfl
  | cons e es ih =>
    intro g last h hlast hids
    rw [List.flatMap_cons] at hids
    have hrest : ∀ x ∈ es.flatMap (RelayEvent.adverts addr), x.packetId = packetId :=
      fun x hx => hids x (List.mem_append_right _ hx)
    cases e with
    | mqtt e =>
      rw [messagesFor_mqtt]
      exact ih h hlast hrest
    | report r =>
      obtain ⟨hout, hnext, -⟩ := report_spec gwId version h r
      obtain ⟨hsilent, hsame⟩ := outputs_change_repeat (fun _ => ()) Heard.packetId hlast
        ((RelayEvent.report r).adverts addr)
        fun x hx => ⟨rfl, hids x (List.mem_append_left _ hx)⟩
      rw [aloneStep, hsame] at hnext
      rw [messagesFor, outputs, List.filter_append, hout, aloneStep, hsilent]
      exact ih hnext hlast hrest

/-- Of a new id one message is handed over if its first advert finds the link up, and none
    otherwise. -/
theorem messages_of_new {packetId : UInt8} : ∀ (es : List RelayEvent) {g : Relay}
    {last : Unit → Option UInt8}, Remembers addr g.table last → last () ≠ some packetId →
      (∀ x ∈ es.flatMap (RelayEvent.adverts addr), x.packetId = packetId) →
      (messagesFor gwId version addr g es).length
        = if (receivedUp gwId version addr g.mqtt es).head? = some true then 1 else 0 := by
  intro es
  induction es with
  | nil =>
    intro g last _ _ _
    rfl
  | cons e es ih =>
    intro g last h hlast hids
    rw [List.flatMap_cons] at hids
    have hrest : ∀ x ∈ es.flatMap (RelayEvent.adverts addr), x.packetId = packetId :=
      fun x hx => hids x (List.mem_append_right _ hx)
    cases e with
    | mqtt e =>
      rw [messagesFor_mqtt]
      exact ih h hlast hrest
    | report r =>
      obtain ⟨hout, hnext, hmqtt⟩ := report_spec gwId version h r
      rw [messagesFor, outputs, List.filter_append, hout, receivedUp]
      cases hown : (RelayEvent.report r).adverts addr with
      | nil =>
        rw [hown] at hnext
        have hlater := ih hnext hlast hrest
        rw [hmqtt] at hlater
        exact hlater
      | cons x xs =>
        rw [hown] at hnext hids
        obtain ⟨hone, hrecorded⟩ := outputs_change_block (fun _ => ()) Heard.packetId hlast
          fun y hy => ⟨rfl, hids y (List.mem_append_left _ hy)⟩
        rw [aloneStep, hrecorded] at hnext
        have hnone := messages_of_recorded gwId version es hnext (remember_self last () packetId)
          hrest
        rw [messagesFor] at hnone
        have hup := isSome_run gwId g.mqtt x.call
        rw [aloneStep, hone, hnone]
        cases hrun : x.call.run gwId g.mqtt with
        | none => simp [hrun, ← hup]
        | some msg => simp [hrun, ← hup]

/-- The table of a relay that started empty, through the entry of a mote. -/
theorem remembers_of_holds {m : MqttMgr} {past : List RelayEvent} {packetId : UInt8}
    (h : (relayAfter gwId version m past).table.Holds addr packetId) :
    Remembers addr (relayAfter gwId version m past).table fun _ => some packetId := by
  have hrep : ∃ d, Rep (relayAfter gwId version m past).table d := by
    refine finalState_invariant (fun g : Relay => ∃ d, Rep g.table d) ?_ past ⟨_, rep_boot⟩
    rintro g e ⟨d, hrep⟩
    cases e with
    | mqtt e => exact ⟨d, hrep⟩
    | report r =>
      rw [relayStep, gapEventCb_eq]
      exact rep_of_run r.heard hrep
  obtain ⟨d, hrep⟩ := hrep
  exact ⟨d, packetId, hrep, get?_of_slot hrep h rfl, rfl⟩

/-- What a gateway that knows a mote makes of a run in which all adverts of the mote carry one new
    packet id, whatever its link does: one message is handed over exactly when the first of these
    adverts is received while the link is up, and otherwise none, however many follow. -/
theorem one_message_iff (m : MqttMgr) {past es : List RelayEvent} {last packetId : UInt8}
    (hlast : (relayAfter gwId version m past).table.Holds addr last) (hnew : last ≠ packetId)
    (hids : ∀ x ∈ es.flatMap (RelayEvent.adverts addr), x.packetId = packetId) :
    let g := relayAfter gwId version m past
    ((messagesFor gwId version addr g es).length = 1 ↔
      (receivedUp gwId version addr g.mqtt es).head? = some true) ∧
    ((receivedUp gwId version addr g.mqtt es).head? ≠ some true →
      messagesFor gwId version addr g es = []) := by
  have hcount := messages_of_new gwId version es (remembers_of_holds gwId version hlast)
    (fun h => hnew (Option.some.inj h)) hids
  refine ⟨?_, ?_⟩
  · rw [hcount]
    split <;> simp_all
  · intro hdown
    rw [if_neg hdown] at hcount
    exact List.length_eq_zero_iff.mp hcount

end Runs

/-! The link is down when a burst starts and comes up before it ends. -/

def sampleGwId : CStr := lit "seeedmote-gw-a0b1c2"

def sampleVersion : CStr := lit "2026.06.08"

def sampleMqtt : MqttMgr := ⟨some 0, true, [], 1⟩

/-- Packet id 1 is known. -/
def heardOnce : List RelayEvent := [.report (pickupReport thisMote 1)]

theorem one_message_iff_kept :
    (messagesFor sampleGwId sampleVersion thisMote
      (relayAfter sampleGwId sampleVersion sampleMqtt heardOnce)
      [.report (pickupReport thisMote 2), .mqtt .disconnected, .report (pickupReport thisMote 2),
        .mqtt .connected, .report (pickupReport thisMote 2)]).length = 1 :=
  (one_message_iff sampleGwId sampleVersion sampleMqtt
    (by decide +kernel : (relayAfter _ _ _ heardOnce).table.Holds thisMote 1)
    (by decide : (1 : UInt8) ≠ 2) (by decide +kernel)).1.mpr (by decide +kernel)

/-- The first repeat meets a link that is down, the other four a link that is up. -/
theorem dropped_publish_consumes_id :
    ¬∀ (gwId version : CStr) (addr : BleAddr) (m : MqttMgr) (past es : List RelayEvent)
      (last packetId : UInt8), (relayAfter gwId version m past).table.Holds addr last →
      last ≠ packetId → (∀ x ∈ es.flatMap (RelayEvent.adverts addr), x.packetId = packetId) →
      true ∈ receivedUp gwId version addr (relayAfter gwId version m past).mqtt es →
      (messagesFor gwId version addr (relayAfter gwId version m past) es).length = 1 := by
  intro h
  have := h sampleGwId sampleVersion thisMote sampleMqtt heardOnce
    ([.mqtt .disconnected, .report (pickupReport thisMote 2), .mqtt .connected] ++
      List.replicate 4 (.report (pickupReport thisMote 2))) 1 2
    (by decide +kernel) (by decide) (by decide +kernel) (by decide +kernel)
  exact absurd this (by decide +kernel)

end SeeedMote.Gateway
