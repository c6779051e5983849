import SeeedMote.App.MqttClient
import SeeedMote.Gateway.MqttMgr
import SeeedMote.Lib.JsonText

/-! The link from a gateway to the backend: the messages of a mote, printed into fixed buffers by
    `mqtt_mgr_publish_event` and `mqtt_mgr_publish_seen` on one side, read by `_on_message` on the
    other.

        publish call ──snprintf──▶ topic, payload ──split, json.loads──▶ frame ──▶ store call -/

namespace SeeedMote.EndToEnd
open Lib Gateway App

/-! ### What is sent -/

/-- The decoded topic, as paho hands it to `_on_message`. -/
def topicText (topic : CStr) : PyStr := (utf8Decode topic).getD []

theorem topicText_ascii {topic : CStr} (h : ∀ c ∈ topic, c.toNat < 128) :
    topicText topic = asciiText topic := by
  rw [topicText, utf8Decode_ascii fun c hc => UInt8.lt_iff_toNat_lt.mpr (h c hc)]
  rfl

/-- A character of `%02x`. -/
theorem mem_fmtHex2 {b c : UInt8} (h : c ∈ fmtHex2 b) :
    (48 ≤ c.toNat ∧ c.toNat ≤ 57) ∨ (97 ≤ c.toNat ∧ c.toNat ≤ 102) := by
  have hdigit : ∀ d : Fin 16, (48 ≤ (digitByte d).toNat ∧ (digitByte d).toNat ≤ 57) ∨
      (97 ≤ (digitByte d).toNat ∧ (digitByte d).toNat ≤ 102) := by decide
  have hb := b.toNat_lt
  simp only [fmtHex2, List.mem_cons, List.not_mem_nil, or_false] at h
  rcases h with rfl | rfl
  · exact hdigit ⟨b.toNat / 16, by omega⟩
  · exact hdigit ⟨b.toNat % 16, by omega⟩

/-- A key of twelve hex digits. -/
theorem macKey_spec (addr : BleAddr) : (macKey addr).length = 12 ∧
    ∀ c ∈ macKey addr, (48 ≤ c.toNat ∧ c.toNat ≤ 57) ∨ (97 ≤ c.toNat ∧ c.toNat ≤ 102) := by
  refine ⟨rfl, ?_⟩
  intro c hc
  rw [macKey_eq] at hc
  obtain ⟨b, -, hc⟩ := List.mem_flatMap.mp hc
  exact mem_fmtHex2 hc

/-- `gw_id` is not cut off and can stand in a JSON string. -/
theorem gwIdOf_spec (m3 m4 m5 : UInt8) : (gwIdOf m3 m4 m5).length = 19 ∧ Plain (gwIdOf m3 m4 m5) := by
  have hall : gwIdOf m3 m4 m5
      = lit "seeedmote-gw-" ++ fmtHex2 m3 ++ fmtHex2 m4 ++ fmtHex2 m5 :=
    snprintf_of_lt (by decide : 19 < 32)
  rw [hall]
  refine ⟨rfl, ?_⟩
  intro c hc
  have hhex : ∀ b, c ∈ fmtHex2 b → 32 ≤ c.toNat ∧ c.toNat < 128 ∧ c ≠ 34 ∧ c ≠ 92 := by
    intro b hb
    have := mem_fmtHex2 hb
    refine ⟨by omega, by omega, ?_, ?_⟩
    · rintro rfl
      simp at this
    · rintro rfl
      simp at this
  have hlit : Plain (lit "seeedmote-gw-") := by decide
  simp only [List.mem_append] at hc
  rcases hc with ((hc | hc) | hc) | hc
  · exact hlit c hc
  · exact hhex m3 hc
  · exact hhex m4 hc
  · exact hhex m5 hc

/-- The members of an event message. -/
def eventMembers (gwId : CStr) (packetId : UInt8) (rssi : ℤ) : List (CStr × Field) :=
  [(lit "packet_id", .int packetId.toNat), (lit "rssi", .int rssi), (lit "gw", .str gwId)]

theorem fmtSigned_natCast (n : ℕ) : fmtSigned n = fmtUnsigned n := by
  rw [fmtSigned, if_neg (by omega), Int.natAbs_natCast]

/-- A received signal strength is printed in at most four characters. -/
theorem length_rssi_le (rssi : Int8) : (fmtUnsigned rssi.toInt.natAbs).length ≤ 3 ∧
    (fmtSigned rssi.toInt).length ≤ 4 := by
  have hlo := rssi.le_toInt
  have hhi := rssi.toInt_lt
  have hdigits : (fmtUnsigned rssi.toInt.natAbs).length ≤ 3 :=
    length_fmtUnsigned_le (by decide) (by omega)
  refine ⟨hdigits, ?_⟩
  rw [fmtSigned]
  split
  · rw [List.length_append, show (lit "-").length = 1 from rfl]
    omega
  · omega

/-- What `mqtt_mgr_publish_event` sends, its two buffers being large enough. -/
theorem publishEvent_eq {gwId : CStr} (hgw : gwId.length = 19) (addr : BleAddr) (packetId : UInt8)
    (rssi : Int8) {m : MqttMgr} (hup : m.client.isSome ∧ m.connected = true) :
    mqttMgrPublishEvent gwId (macKey addr) packetId rssi.toInt m
      = some ⟨lit "seeedmote/mote/" ++ macKey addr ++ lit "/event",
          printObject (eventMembers gwId packetId rssi.toInt), false⟩ := by
  have hid : (fmtUnsigned packetId.toNat).length ≤ 3 :=
    length_fmtUnsigned_le (by decide) (packetId.toNat_lt.trans (by decide))
  have hrssi := (length_rssi_le rssi).2
  have hmac := (macKey_spec addr).1
  have hopen : lit "\x7b\"packet_id\":" = 123 :: 34 :: (lit "packet_id" ++ [34, 58]) := by decide
  have hmid : lit ",\"rssi\":" = 44 :: 34 :: (lit "rssi" ++ [34, 58]) := by decide
  have hgwKey : lit ",\"gw\":\"" = 44 :: 34 :: (lit "gw" ++ [34, 58, 34]) := by decide
  have hclose : lit "\"\x7d" = [34, 125] := by decide
  have htopic : (lit "seeedmote/mote/" ++ macKey addr ++ lit "/event").length < 64 := by
    rw [List.length_append, List.length_append, hmac]
    decide
  have hpayload : lit "\x7b\"packet_id\":" ++ fmtUnsigned packetId.toNat ++ lit ",\"rssi\":" ++
      fmtSigned rssi.toInt ++ lit ",\"gw\":\"" ++ gwId ++ lit "\"\x7d"
        = printObject (eventMembers gwId packetId rssi.toInt) := by
    rw [hopen, hmid, hgwKey, hclose]
    simp [printObject, printMembers, printMember, eventMembers, Field.print, fmtSigned_natCast]
  have hlength : (printObject (eventMembers gwId packetId rssi.toInt)).length < 128 := by
    rw [← hpayload, hopen, hmid, hgwKey, hclose]
    simp only [List.length_append, List.length_cons, List.length_nil, hgw,
      show (lit "packet_id").length = 9 from rfl, show (lit "rssi").length = 4 from rfl,
      show (lit "gw").length = 2 from rfl]
    omega
  rw [mqttMgrPublishEvent, hpayload, snprintf_of_lt htopic, snprintf_of_lt hlength,
    MqttMgr.publish, if_pos hup]

/-- The members of a seen message. -/
def seenMembers (gwId : CStr) (rssi : ℤ) : List (CStr × Field) :=
  [(lit "rssi", .int rssi), (lit "gw", .str gwId), (lit "reason", .str (lit "boot"))]

/-- What `mqtt_mgr_publish_seen` sends, its two buffers being large enough. -/
theorem publishSeen_eq {gwId : CStr} (hgw : gwId.length = 19) (addr : BleAddr) (rssi : Int8)
    {m : MqttMgr} (hup : m.client.isSome ∧ m.connected = true) :
    mqttMgrPublishSeen gwId (macKey addr) rssi.toInt m
      = some ⟨lit "seeedmote/mote/" ++ macKey addr ++ lit "/seen",
          printObject (seenMembers gwId rssi.toInt), false⟩ := by
  have hrssi := (length_rssi_le rssi).2
  have hmac := (macKey_spec addr).1
  have hopen : lit "\x7b\"rssi\":" = 123 :: 34 :: (lit "rssi" ++ [34, 58]) := by decide
  have hgwKey : lit ",\"gw\":\"" = 44 :: 34 :: (lit "gw" ++ [34, 58, 34]) := by decide
  have hclose : lit "\",\"reason\":\"boot\"\x7d"
      = 34 :: 44 :: 34 :: (lit "reason" ++ 34 :: 58 :: 34 :: (lit "boot" ++ [34, 125])) := by decide
  have htopic : (lit "seeedmote/mote/" ++ macKey addr ++ lit "/seen").length < 64 := by
    rw [List.length_append, List.length_append, hmac]
    decide
  have hpayload : lit "\x7b\"rssi\":" ++ fmtSigned rssi.toInt ++ lit ",\"gw\":\"" ++ gwId ++
      lit "\",\"reason\":\"boot\"\x7d" = printObject (seenMembers gwId rssi.toInt) := by
    rw [hopen, hgwKey, hclose]
    simp [printObject, printMembers, printMember, seenMembers, Field.print]
  have hlength : (printObject (seenMembers gwId rssi.toInt)).length < 128 := by
    rw [← hpayload, hopen, hgwKey, hclose]
    simp only [List.length_append, List.length_cons, List.length_nil, hgw,
      show (lit "rssi").length = 4 from rfl, show (lit "gw").length = 2 from rfl,
      show (lit "reason").length = 6 from rfl, show (lit "boot").length = 4 from rfl]
    omega
  rw [mqttMgrPublishSeen, hpayload, snprintf_of_lt htopic, snprintf_of_lt hlength,
    MqttMgr.publish, if_pos hup]

/-! ### How it is read -/

theorem tooManyDigits_false {rt : PyRuntime} (hrt : rt.Standard) {n : ℕ} (hn : n ≤ 640) :
    tooManyDigits rt n = false := by
  rcases hrt.digits with h | h
  · simp [tooManyDigits, h]
  · simp only [tooManyDigits, Bool.and_eq_false_iff, decide_eq_false_iff_not]
    omega

theorem eventMembers_read {rt : PyRuntime} (hrt : rt.Standard) {gwId : CStr} (hgw : Plain gwId)
    (packetId : UInt8) (rssi : Int8) :
    ∀ m ∈ eventMembers gwId packetId rssi.toInt, MemberReads rt m := by
  have hid : (fmtUnsigned packetId.toNat).length ≤ 3 :=
    length_fmtUnsigned_le (by decide) (packetId.toNat_lt.trans (by decide))
  have hrssi := (length_rssi_le rssi).1
  intro m hm
  simp only [eventMembers, List.mem_cons, List.not_mem_nil, or_false] at hm
  rcases hm with rfl | rfl | rfl
  · refine ⟨show Plain (lit "packet_id") by decide, tooManyDigits_false hrt ?_⟩
    rw [Int.natAbs_natCast]
    omega
  · exact ⟨show Plain (lit "rssi") by decide, tooManyDigits_false hrt (by omega)⟩
  · exact ⟨show Plain (lit "gw") by decide, hgw⟩

theorem seenMembers_read {rt : PyRuntime} (hrt : rt.Standard) {gwId : CStr} (hgw : Plain gwId)
    (rssi : Int8) : ∀ m ∈ seenMembers gwId rssi.toInt, MemberReads rt m := by
  have hrssi := (length_rssi_le rssi).1
  intro m hm
  simp only [seenMembers, List.mem_cons, List.not_mem_nil, or_false] at hm
  rcases hm with rfl | rfl | rfl
  · exact ⟨show Plain (lit "rssi") by decide, tooManyDigits_false hrt (by omega)⟩
  · exact ⟨show Plain (lit "gw") by decide, hgw⟩
  · exact ⟨show Plain (lit "reason") by decide, show Plain (lit "boot") by decide⟩

/-- The three fields of an event payload. -/
theorem assignAll_eventMembers (gwId : CStr) (packetId : UInt8) (rssi : ℤ) :
    assignAll [] (eventMembers gwId packetId rssi)
      = [(py "packet_id", .int packetId.toNat), (py "rssi", .int rssi),
          (py "gw", .str (asciiText gwId))] := rfl

/-- Topic parts of a mote's topic. -/
theorem splitOn_moteTopic (addr : BleAddr) {kind suffix : CStr} (hsuffix : suffix = 47 :: kind)
    (hplain : Plain kind) (hkind : 47 ∉ asciiText kind) :
    (topicText (lit "seeedmote/mote/" ++ macKey addr ++ suffix)).splitOn 47
      = [py "seeedmote", py "mote", asciiText (macKey addr), asciiText kind] := by
  have hmac := (macKey_spec addr).2
  have hascii : ∀ c ∈ lit "seeedmote/mote/" ++ macKey addr ++ suffix, c.toNat < 128 := by
    intro c hc
    simp only [hsuffix, List.mem_append, List.mem_cons] at hc
    rcases hc with (hc | hc) | rfl | hc
    · exact ((by decide : Plain (lit "seeedmote/mote/")) c hc).2.1
    · have := hmac c hc
      omega
    · decide
    · exact (hplain c hc).2.1
  have hslash : 47 ∉ asciiText (macKey addr) := by
    intro h
    obtain ⟨c, hc, hval⟩ := List.mem_map.mp h
    have := hmac c hc
    omega
  have htext : asciiText (lit "seeedmote/mote/" ++ macKey addr ++ suffix)
      = py "seeedmote" ++ 47 :: (py "mote" ++ 47 :: (asciiText (macKey addr) ++
          47 :: asciiText kind)) := by
    have hpre : asciiText (lit "seeedmote/mote/") = py "seeedmote" ++ 47 :: (py "mote" ++ [47]) := by
      decide
    rw [asciiText_append, asciiText_append, hpre, hsuffix, asciiText_cons]
    simp
  rw [topicText_ascii hascii, htext, List.splitOn_append_cons_self_of_not_mem (by decide),
    List.splitOn_append_cons_self_of_not_mem (by decide),
    List.splitOn_append_cons_self_of_not_mem hslash, List.splitOn_eq_singleton hkind]

/-- Lower-case hex digits are lower case. -/
theorem lower_macKey {rt : PyRuntime} (hrt : rt.Standard) (addr : BleAddr) :
    rt.lower (asciiText (macKey addr)) = asciiText (macKey addr) := by
  have hmac := (macKey_spec addr).2
  rw [hrt.lower_ascii]
  · rw [asciiText, List.map_map]
    refine List.map_congr_left fun c hc => if_neg ?_
    have := hmac c hc
    omega
  · intro c hc
    obtain ⟨b, hb, rfl⟩ := List.mem_map.mp hc
    have := hmac b hb
    omega

/-- A gateway id read from a payload. -/
theorem strField_gw (rt : PyRuntime) {gwId : CStr} (hne : gwId ≠ []) (data : PyVal)
    (hget : data.get (py "gw") = .ok (some (.str (asciiText gwId)))) :
    strField rt data (py "gw") (py "unknown") = .ok (asciiText gwId) := by
  have htruthy : asciiText gwId ≠ [] := by
    rw [asciiText, Ne, List.map_eq_nil_iff]
    exact hne
  rw [strField, hget]
  simp [PyVal.truthy, htruthy, pyStr]

/-- The message is read as the frame of its event. -/
theorem readFrame_event {rt : PyRuntime} (hrt : rt.Standard) {gwId : CStr} (hgw : Plain gwId)
    (hne : gwId ≠ []) (addr : BleAddr) (packetId : UInt8) (rssi : Int8) :
    readFrame rt (topicText (lit "seeedmote/mote/" ++ macKey addr ++ lit "/event"))
        (printObject (eventMembers gwId packetId rssi.toInt))
      = .ok (some (.event (asciiText (macKey addr)) (asciiText gwId) packetId.toNat rssi.toInt)) := by
  have hloads := loads_printObject hrt.depth (by simp [eventMembers])
    (eventMembers_read hrt hgw packetId rssi)
  rw [assignAll_eventMembers] at hloads
  set data : PyVal := .dict [(py "packet_id", .int packetId.toNat), (py "rssi", .int rssi.toInt),
    (py "gw", .str (asciiText gwId))] with hdata
  have hgwField := strField_gw rt hne data rfl
  have hrssi : intField rt data (py "rssi") = .ok rssi.toInt := rfl
  have hid : intField rt data (py "packet_id") = .ok (packetId.toNat : ℤ) := rfl
  have hmote : moteFrame rt (asciiText (macKey addr)) (py "event") data
      = .ok (some (.event (asciiText (macKey addr)) (asciiText gwId) packetId.toNat rssi.toInt)) := by
    rw [moteFrame, hgwField, hrssi, hid, lower_macKey hrt]
    rfl
  rw [readFrame, readPayload, hloads]
  simp only [pyOk_bind, frameOf, splitOn_moteTopic addr
    (show lit "/event" = 47 :: lit "event" from rfl) (by decide) (by decide)]
  rw [if_neg (by decide), if_neg (by decide)]
  exact hmote

/-- The message is read as a sighting by its gateway. -/
theorem readFrame_seen {rt : PyRuntime} (hrt : rt.Standard) {gwId : CStr} (hgw : Plain gwId)
    (hne : gwId ≠ []) (addr : BleAddr) (rssi : Int8) :
    readFrame rt (topicText (lit "seeedmote/mote/" ++ macKey addr ++ lit "/seen"))
        (printObject (seenMembers gwId rssi.toInt))
      = .ok (some (.seen (asciiText gwId) rssi.toInt)) := by
  have hloads := loads_printObject hrt.depth (by simp [seenMembers]) (seenMembers_read hrt hgw rssi)
  have hfields : assignAll [] (seenMembers gwId rssi.toInt)
      = [(py "rssi", .int rssi.toInt), (py "gw", .str (asciiText gwId)),
          (py "reason", .str (py "boot"))] := rfl
  rw [hfields] at hloads
  set data : PyVal := .dict [(py "rssi", .int rssi.toInt), (py "gw", .str (asciiText gwId)),
    (py "reason", .str (py "boot"))] with hdata
  have hgwField := strField_gw rt hne data rfl
  have hrssi : intField rt data (py "rssi") = .ok rssi.toInt := rfl
  have hmote : moteFrame rt (asciiText (macKey addr)) (py "seen") data
      = .ok (some (.seen (asciiText gwId) rssi.toInt)) := by
    rw [moteFrame, hgwField, hrssi]
    rfl
  rw [readFrame, readPayload, hloads]
  simp only [pyOk_bind, frameOf, splitOn_moteTopic addr
    (show lit "/seen" = 47 :: lit "seen" from rfl) (by decide) (by decide)]
  rw [if_neg (by decide), if_neg (by decide)]
  exact hmote

/-! ### Round trip of a message -/

/-- A byte as two lower-case hex digits. -/
def hexText (b : UInt8) : PyStr :=
  [b.toNat / 16, b.toNat % 16].map fun d => (py "0123456789abcdef").getD d 0

/-- An address in lower-case hex, most significant byte first. -/
def addrText (addr : BleAddr) : PyStr := addr.toList.reverse.flatMap hexText

/-- The gateway's id. -/
def gatewayText (m3 m4 m5 : UInt8) : PyStr :=
  py "seeedmote-gw-" ++ hexText m3 ++ hexText m4 ++ hexText m5

theorem asciiText_fmtHex2 (b : UInt8) : asciiText (fmtHex2 b) = hexText b := by
  have hdigit : ∀ d : Fin 16, (digitByte d).toNat = (py "0123456789abcdef").getD d 0 := by decide
  have hb := b.toNat_lt
  have hhi := hdigit ⟨b.toNat / 16, by omega⟩
  have hlo := hdigit ⟨b.toNat % 16, by omega⟩
  simp only at hhi hlo
  rw [hexText, asciiText, fmtHex2, List.map_cons, List.map_cons, List.map_cons, List.map_cons, hhi,
    hlo]
  rfl

theorem asciiText_macKey (addr : BleAddr) : asciiText (macKey addr) = addrText addr := by
  rw [macKey_eq, addrText, asciiText, List.map_flatMap]
  exact List.flatMap_congr fun b _ => asciiText_fmtHex2 b

theorem asciiText_gwIdOf (m3 m4 m5 : UInt8) : asciiText (gwIdOf m3 m4 m5) = gatewayText m3 m4 m5 := by
  have hall : gwIdOf m3 m4 m5
      = lit "seeedmote-gw-" ++ fmtHex2 m3 ++ fmtHex2 m4 ++ fmtHex2 m5 :=
    snprintf_of_lt (by decide : 19 < 32)
  have hlit : asciiText (lit "seeedmote-gw-") = py "seeedmote-gw-" := by decide
  simp only [hall, asciiText_append, asciiText_fmtHex2, hlit, gatewayText]

/-- The backend's decoding undoes the gateway's encoding: an event message makes `_on_message` call
    `add_event` with the address, the gateway, the packet id and the signal strength of the publish
    call; a seen message makes it touch that gateway with that signal strength and store no event. -/
theorem message_round_trip {rt : PyRuntime} (hrt : rt.Standard) (addr : BleAddr)
    (packetId moving : UInt8) (rssi : Int8) (m3 m4 m5 : UInt8) {m : MqttMgr}
    (hup : m.client.isSome ∧ m.connected = true) (t : Readings) (s : EventStore) :
    let gwId := gatewayText m3 m4 m5
    ∃ msg, PublishCall.run (gwIdOf m3 m4 m5) m (publishCall addr rssi packetId moving) = some msg ∧
      (moving = 1 → onMessage rt t (topicText msg.topic) msg.payload s =
        match s.addEvent t.now t.nowTouch (addrText addr) gwId packetId.toNat rssi.toInt with
        | (s', none) => ⟨.ok (), s', []⟩
        | (s', some stored) =>
          ⟨.ok (), (s'.touchGateway t.nowAgain gwId (some rssi.toInt) none).1,
            [.event stored, .gateway gwId]⟩) ∧
      (moving ≠ 1 →
        onMessage rt t (topicText msg.topic) msg.payload s =
          ⟨.ok (), (s.touchGateway t.nowAgain gwId (some rssi.toInt) none).1, [.gateway gwId]⟩ ∧
        (onMessage rt t (topicText msg.topic) msg.payload s).store.events = s.events) := by
  intro gwId
  obtain ⟨hlen, hplain⟩ := gwIdOf_spec m3 m4 m5
  have hne : gwIdOf m3 m4 m5 ≠ [] := List.ne_nil_of_length_pos (by omega)
  rw [publishCall]
  split
  · next hmoving =>
    refine ⟨_, publishEvent_eq hlen addr packetId rssi hup, ?_, fun h => absurd hmoving h⟩
    intro _
    rw [onMessage, readFrame_event hrt hplain hne addr packetId rssi, asciiText_macKey,
      asciiText_gwIdOf]
    simp only [Frame.handle]
    cases s.addEvent t.now t.nowTouch (addrText addr) gwId packetId.toNat rssi.toInt with
    | mk s' stored =>
      cases stored with
      | none => rfl
      | some stored => rfl
  · next hmoving =>
    refine ⟨_, publishSeen_eq hlen addr rssi hup, fun h => absurd h hmoving, ?_⟩
    intro _
    rw [onMessage, readFrame_seen hrt hplain hne addr rssi, asciiText_gwIdOf]
    exact ⟨rfl, rfl⟩

/-- Address `F0:E3:91:2C:EC:19`, packet id 255 and the weakest signal. -/
theorem message_round_trip_weakest :
    ∃ msg, PublishCall.run (gwIdOf 0xA1 0xB2 0xC3) ⟨some 0, true, [], 1⟩
        (publishCall #v[0x19, 0xEC, 0x2C, 0x91, 0xE3, 0xF0] (-128) 0xFF 1) = some msg ∧
      (onMessage asciiRuntime ⟨10, 10, 10⟩ (topicText msg.topic) msg.payload
        (.init 500)).store.events.items
          = [⟨py "f0e3912cec19", py "seeedmote-gw-a1b2c3", -128, 255, 10⟩] := by
  obtain ⟨msg, hrun, hevent, -⟩ := message_round_trip asciiRuntime_standard
    #v[0x19, 0xEC, 0x2C, 0x91, 0xE3, 0xF0] 0xFF 1 (-128) 0xA1 0xB2 0xC3 (m := ⟨some 0, true, [], 1⟩)
    ⟨rfl, rfl⟩ ⟨10, 10, 10⟩ (.init 500)
  refine ⟨msg, hrun, ?_⟩
  rw [hevent rfl]
  decide +kernel

end SeeedMote.EndToEnd
