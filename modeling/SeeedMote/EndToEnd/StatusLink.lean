import SeeedMote.App.GatewayLog
import SeeedMote.App.Liveness
import SeeedMote.EndToEnd.MessageLink

/-! A gateway's own message: its status, printed by `mqtt_mgr_publish_status` at every connection and
    by `status_timer_cb` once a minute, read by `_on_message`.

        status_timer_cb ──60 s──▶ {"gw": …, "version": …} ──▶ touch_gateway(gw, version)
        _gateway_reaper ──30 s──▶ reap_gateways: offline after 120 s without a touch

    The payload buffer cuts a long version, and a cut payload is ignored; a minute is half the time a
    gateway may stay silent, so a gateway with a working link is never shown offline, whatever becomes
    of its motes' events. -/

namespace SeeedMote.EndToEnd
open Lib Gateway App

/-! ### Round trip of a status message -/

/-- The members of a status message. -/
def statusMembers (gwId version : CStr) : List (CStr × Field) :=
  [(lit "gw", .str gwId), (lit "version", .str version)]

/-- The longest version whose message fits the payload buffer. -/
def versionMax : ℕ := 86

/-- What is printed into the payload buffer. -/
theorem statusText_eq (gwId version : CStr) :
    lit "\x7b\"gw\":\"" ++ gwId ++ lit "\",\"version\":\"" ++ version ++ lit "\"\x7d"
      = 123 :: (printMembers [(lit "gw", .str gwId)] ++
          44 :: 34 :: (lit "version" ++ 34 :: 58 :: 34 :: (version ++ [34, 125]))) := by
  have hopen : lit "\x7b\"gw\":\"" = 123 :: 34 :: (lit "gw" ++ [34, 58, 34]) := by decide
  have hmid : lit "\",\"version\":\"" = 34 :: 44 :: 34 :: (lit "version" ++ [34, 58, 34]) := by decide
  have hclose : lit "\"\x7d" = [34, 125] := by decide
  rw [hopen, hmid, hclose]
  simp [printMembers, printMember, Field.print]

theorem printObject_statusMembers (gwId version : CStr) :
    printObject (statusMembers gwId version)
      = 123 :: (printMembers [(lit "gw", .str gwId)] ++
          44 :: 34 :: (lit "version" ++ 34 :: 58 :: 34 :: (version ++ [34, 125]))) := by
  simp [printObject, statusMembers, printMembers, printMember, Field.print]

/-- What `mqtt_mgr_publish_status` sends: the whole object, or the object cut off in the version. -/
theorem publishStatus_eq {gwId : CStr} (hgw : gwId.length = 19) (version : CStr) {m : MqttMgr}
    (hup : m.client.isSome ∧ m.connected = true) :
    ∃ payload, mqttMgrPublishStatus gwId version m
        = some ⟨lit "seeedmote/gateway/" ++ gwId ++ lit "/status", payload, true⟩ ∧
      (version.length ≤ versionMax → payload = printObject (statusMembers gwId version)) ∧
      (versionMax < version.length → ∃ rest, (rest = [] ∨ rest = [34]) ∧
        payload = 123 :: (printMembers [(lit "gw", .str gwId)] ++
          44 :: 34 :: (lit "version" ++ 34 :: 58 :: 34 :: (version.take 88 ++ rest)))) := by
  have htopic : (lit "seeedmote/gateway/" ++ gwId ++ lit "/status").length < 80 := by
    rw [List.length_append, List.length_append, hgw]
    decide
  refine ⟨_, by rw [mqttMgrPublishStatus, MqttMgr.publish, if_pos hup, snprintf_of_lt htopic], ?_, ?_⟩
  · intro hv
    rw [statusText_eq, ← printObject_statusMembers]
    refine snprintf_of_lt ?_
    rw [printObject_statusMembers]
    simp only [printMembers, printMember, Field.print, List.length_append, List.length_cons,
      List.length_nil, hgw, show (lit "gw").length = 2 from rfl,
      show (lit "version").length = 7 from rfl]
    rw [versionMax] at hv
    omega
  · intro hv
    rw [versionMax] at hv
    -- the first 39 bytes are those in front of the version
    have hcut : ∀ tail : CStr, (123 :: (printMembers [(lit "gw", .str gwId)] ++
        44 :: 34 :: (lit "version" ++ 34 :: 58 :: 34 :: tail))).take 127
          = 123 :: (printMembers [(lit "gw", .str gwId)] ++
              44 :: 34 :: (lit "version" ++ 34 :: 58 :: 34 :: tail.take 88)) := by
      intro tail
      set front : CStr := 123 :: (printMembers [(lit "gw", .str gwId)] ++
        44 :: 34 :: (lit "version" ++ [34, 58, 34])) with hfront
      have happend : ∀ t : CStr, 123 :: (printMembers [(lit "gw", .str gwId)] ++
          44 :: 34 :: (lit "version" ++ 34 :: 58 :: 34 :: t)) = front ++ t := by
        intro t
        simp [hfront]
      have hlen : front.length = 39 := by
        simp only [hfront, printMembers, printMember, Field.print, List.length_append,
          List.length_cons, List.length_nil, hgw, show (lit "gw").length = 2 from rfl,
          show (lit "version").length = 7 from rfl]
      rw [happend, happend, List.take_append, hlen, List.take_of_length_le (by omega)]
    rcases (show version.length = 87 ∨ 88 ≤ version.length by omega) with hlen | hlen
    · refine ⟨[34], .inr rfl, ?_⟩
      rw [statusText_eq, snprintf, hcut, List.take_append, hlen, List.take_of_length_le (by omega)]
      rfl
    · refine ⟨[], .inl rfl, ?_⟩
      rw [statusText_eq, snprintf, hcut, List.take_append_of_le_length hlen, List.append_nil]

/-- Topic parts of a gateway's status topic. -/
theorem splitOn_statusTopic {gwId : CStr} (hgw : Plain gwId) (hslash : 47 ∉ asciiText gwId) :
    (topicText (lit "seeedmote/gateway/" ++ gwId ++ lit "/status")).splitOn 47
      = [py "seeedmote", py "gateway", asciiText gwId, py "status"] := by
  have hascii : ∀ c ∈ lit "seeedmote/gateway/" ++ gwId ++ lit "/status", c.toNat < 128 := by
    intro c hc
    simp only [List.mem_append] at hc
    rcases hc with (hc | hc) | hc
    · exact ((by decide : Plain (lit "seeedmote/gateway/")) c hc).2.1
    · exact (hgw c hc).2.1
    · exact ((by decide : Plain (lit "/status")) c hc).2.1
  have htext : asciiText (lit "seeedmote/gateway/" ++ gwId ++ lit "/status")
      = py "seeedmote" ++ 47 :: (py "gateway" ++ 47 :: (asciiText gwId ++ 47 :: py "status")) := by
    have hpre : asciiText (lit "seeedmote/gateway/")
        = py "seeedmote" ++ 47 :: (py "gateway" ++ [47]) := by decide
    have hpost : asciiText (lit "/status") = 47 :: py "status" := by decide
    rw [asciiText_append, asciiText_append, hpre, hpost]
    simp
  rw [topicText_ascii hascii, htext, List.splitOn_append_cons_self_of_not_mem (by decide),
    List.splitOn_append_cons_self_of_not_mem (by decide),
    List.splitOn_append_cons_self_of_not_mem hslash, List.splitOn_eq_singleton (by decide)]

/-- No slash in a gateway's id. -/
theorem slash_not_mem_gwIdOf (m3 m4 m5 : UInt8) : 47 ∉ asciiText (gwIdOf m3 m4 m5) := by
  have hhex : ∀ b, (47 : ℕ) ∉ asciiText (fmtHex2 b) := by
    intro b h
    obtain ⟨c, hc, hval⟩ := List.mem_map.mp h
    have := mem_fmtHex2 hc
    omega
  have hall : gwIdOf m3 m4 m5
      = lit "seeedmote-gw-" ++ fmtHex2 m3 ++ fmtHex2 m4 ++ fmtHex2 m5 :=
    snprintf_of_lt (by decide : 19 < 32)
  have hlit : (47 : ℕ) ∉ asciiText (lit "seeedmote-gw-") := by decide
  rw [hall]
  simp only [asciiText_append, List.mem_append, not_or]
  exact ⟨⟨⟨hlit, hhex m3⟩, hhex m4⟩, hhex m5⟩

/-- A whole status message is read as the status of its gateway. -/
theorem readFrame_status {rt : PyRuntime} (hrt : rt.Standard) {gwId version : CStr}
    (hgw : Plain gwId) (hslash : 47 ∉ asciiText gwId) (hversion : Plain version) :
    readFrame rt (topicText (lit "seeedmote/gateway/" ++ gwId ++ lit "/status"))
        (printObject (statusMembers gwId version))
      = .ok (some (.status (asciiText gwId)
          (if version = [] then none else some (asciiText version)))) := by
  have hread : ∀ m ∈ statusMembers gwId version, MemberReads rt m := by
    intro m hm
    simp only [statusMembers, List.mem_cons, List.not_mem_nil, or_false] at hm
    rcases hm with rfl | rfl
    · exact ⟨show Plain (lit "gw") by decide, hgw⟩
    · exact ⟨show Plain (lit "version") by decide, hversion⟩
  have hloads := loads_printObject hrt.depth (by simp [statusMembers]) hread
  have hfields : assignAll [] (statusMembers gwId version)
      = [(py "gw", .str (asciiText gwId)), (py "version", .str (asciiText version))] := rfl
  rw [hfields] at hloads
  have hgwField : (strField rt (.dict [(py "gw", .str (asciiText gwId)),
      (py "version", .str (asciiText version))]) (py "gw") []).isOk = true := by
    cases gwId <;> rfl
  obtain ⟨payloadGw, hgwField⟩ := exists_of_isOk hgwField
  have hversionField : strField rt (.dict [(py "gw", .str (asciiText gwId)),
      (py "version", .str (asciiText version))]) (py "version") [] = .ok (asciiText version) := by
    cases version <;> rfl
  have hempty : (asciiText version = []) = (version = []) := by
    rw [asciiText, List.map_eq_nil_iff]
  rw [readFrame, readPayload, hloads]
  simp only [pyOk_bind, frameOf, splitOn_statusTopic hgw hslash]
  rw [if_pos ⟨trivial, trivial, trivial⟩, statusFrame, hgwField, hversionField]
  simp only [pyOk_bind, hempty]
  rfl

/-- The backend's decoding of a gateway's status. With a version of at most 86 plain characters the
    message makes `_on_message` touch exactly that gateway with exactly that version; with a longer one
    the payload is cut off and the message changes nothing. -/
theorem status_round_trip {rt : PyRuntime} (hrt : rt.Standard) (m3 m4 m5 : UInt8) {version : CStr}
    (hversion : Plain version) {m : MqttMgr} (hup : m.client.isSome ∧ m.connected = true)
    (t : Readings) (s : EventStore) :
    let gwId := gatewayText m3 m4 m5
    ∃ msg, mqttMgrPublishStatus (gwIdOf m3 m4 m5) version m = some msg ∧
      (version.length ≤ versionMax → onMessage rt t (topicText msg.topic) msg.payload s
        = ⟨.ok (), (s.touchGateway t.nowAgain gwId none
            (if version = [] then none else some (asciiText version))).1, [.gateway gwId]⟩) ∧
      (versionMax < version.length →
        onMessage rt t (topicText msg.topic) msg.payload s = ⟨.ok (), s, []⟩) := by
  intro gwId
  obtain ⟨hlen, hplain⟩ := gwIdOf_spec m3 m4 m5
  obtain ⟨payload, hpublish, hwhole, hcut⟩ := publishStatus_eq hlen version hup
  refine ⟨_, hpublish, ?_, ?_⟩
  · intro hv
    rw [hwhole hv, onMessage, readFrame_status hrt hplain (slash_not_mem_gwIdOf m3 m4 m5) hversion,
      asciiText_gwIdOf]
    rfl
  · intro hv
    obtain ⟨rest, hrest, rfl⟩ := hcut hv
    have hloads := loads_cut hrt.depth (by simp : [(lit "gw", Field.str (gwIdOf m3 m4 m5))] ≠ [])
      (fun m hm => by
        rw [List.mem_singleton.mp hm]
        exact ⟨show Plain (lit "gw") by decide, hplain⟩)
      (show Plain (lit "version") by decide)
      (fun c hc => hversion c (List.mem_of_mem_take hc) : Plain (version.take 88)) hrest
    have hread : readFrame rt (topicText (lit "seeedmote/gateway/" ++ gwIdOf m3 m4 m5 ++ lit "/status"))
        (123 :: (printMembers [(lit "gw", .str (gwIdOf m3 m4 m5))] ++
          44 :: 34 :: (lit "version" ++ 34 :: 58 :: 34 :: (version.take 88 ++ rest)))) = .ok none := by
      rw [readFrame, readPayload, hloads]
      rfl
    rw [onMessage, hread]

/-- Version `2026.06.08` on a gateway with MAC suffix `A1:B2:C3`. -/
theorem status_round_trip_dated :
    ∃ msg, mqttMgrPublishStatus (gwIdOf 0xA1 0xB2 0xC3) (lit "2026.06.08") ⟨some 0, true, [], 1⟩
        = some msg ∧
      ((onMessage asciiRuntime ⟨10, 10, 10⟩ (topicText msg.topic) msg.payload
        (.init 500)).store.gw.get? (py "seeedmote-gw-a1b2c3")).bind GatewayStatus.version
          = some (py "2026.06.08") := by
  obtain ⟨msg, hpublish, hwhole, -⟩ := status_round_trip asciiRuntime_standard 0xA1 0xB2 0xC3
    (by decide : Plain (lit "2026.06.08")) (m := ⟨some 0, true, [], 1⟩) ⟨rfl, rfl⟩ ⟨10, 10, 10⟩
    (.init 500)
  refine ⟨msg, hpublish, ?_⟩
  rw [hwhole (by decide)]
  decide +kernel

/-! ### The status timer -/

/-- `status_timer_cb`. -/
def statusTimerCb (gwId version : CStr) (m : MqttMgr) : Option Gateway.MqttMessage :=
  mqttMgrPublishStatus gwId version m

/-- The period of the `status` timer: `60ULL * 1000000` microseconds. -/
def statusPeriodS : ℚ := 60

/-- The clock reading of a backend operation that the online flag depends on. -/
def clockOf : BackendOp → ℚ
  | .message m => m.readings.nowAgain
  | .reap now => now

/-- A gateway with a link: its id, the version it runs, and its MQTT manager at each tick of the
    timer, the first at `start`. -/
structure Heartbeat where
  m3 : UInt8
  m4 : UInt8
  m5 : UInt8
  version : CStr
  start : ℚ
  manager : ℕ → MqttMgr

namespace Heartbeat
variable (g : Heartbeat)

/-- The backend handles what `status_timer_cb` published at tick `k`. -/
def Beat (k : ℕ) (m : App.MqttMessage) : Prop :=
  ∃ msg, statusTimerCb (gwIdOf g.m3 g.m4 g.m5) g.version (g.manager k) = some msg ∧
    m.topic = topicText msg.topic ∧ m.payload = msg.payload ∧
    g.start + k * statusPeriodS ≤ m.readings.nowAgain

/-- The message of each tick is delivered before the tick after it. -/
def Delivers (ops : List BackendOp) : Prop :=
  ∀ pre now post, ops = pre ++ .reap now :: post → ∀ k : ℕ,
    g.start + (k + 1) * statusPeriodS ≤ now → ∃ m, .message m ∈ pre ∧ g.Beat k m

variable {g} {rt : PyRuntime}

/-- A beat is read as a frame of its gateway. -/
theorem Beat.read (hrt : rt.Standard) (hversion : Plain g.version)
    (hfits : g.version.length ≤ versionMax) {k : ℕ} {m : App.MqttMessage} (h : g.Beat k m) :
    readFrame rt m.topic m.payload = .ok (some (.status (gatewayText g.m3 g.m4 g.m5)
      (if g.version = [] then none else some (asciiText g.version)))) := by
  obtain ⟨msg, hmsg, htopic, hpayload, -⟩ := h
  obtain ⟨hlen, hplain⟩ := gwIdOf_spec g.m3 g.m4 g.m5
  have hup : (g.manager k).client.isSome ∧ (g.manager k).connected = true := by
    by_contra hdown
    rw [statusTimerCb, mqttMgrPublishStatus, MqttMgr.publish, if_neg hdown] at hmsg
    exact Option.some_ne_none _ hmsg.symm
  obtain ⟨payload, hpublish, hwhole, -⟩ := publishStatus_eq hlen g.version hup
  obtain rfl := Option.some.inj (hpublish.symm.trans hmsg)
  rw [htopic, hpayload, hwhole hfits, readFrame_status hrt hplain
    (slash_not_mem_gwIdOf g.m3 g.m4 g.m5) hversion, asciiText_gwIdOf]

/-- Handling it leaves the gateway online, seen just now. -/
theorem Beat.liveAt (hrt : rt.Standard) (hversion : Plain g.version)
    (hfits : g.version.length ≤ versionMax) {k : ℕ} {m : App.MqttMessage} (h : g.Beat k m)
    (s : EventStore) :
    (backendStep rt s (.message m)).1.LiveAt (gatewayText g.m3 g.m4 g.m5) m.readings.nowAgain :=
  (liveAt_iff (h.read hrt hversion hfits) trivial m.readings s).mpr (.inl rfl)

end Heartbeat

/-- The gateway is online, and was seen at `c` or later. -/
def SeenSince (s : EventStore) (gwId : PyStr) (c : ℚ) : Prop :=
  ∃ e, s.gw.get? gwId = some e ∧ e.online = true ∧ c ≤ e.lastSeen

/-- A message handled at `c` or later does not undo that, whatever it says. -/
theorem SeenSince.message {rt : PyRuntime} {s : EventStore} {gwId : PyStr} {c : ℚ}
    (h : SeenSince s gwId c) {m : App.MqttMessage} (hlate : c ≤ m.readings.nowAgain) :
    SeenSince (backendStep rt s (.message m)).1 gwId c := by
  rw [backendStep, onMessage]
  rcases readFrame rt m.topic m.payload with e | _ | f
  · exact h
  · exact h
  · dsimp only
    rcases handle_spec f m.readings s with ⟨-, hsame⟩ | ⟨-, -, e, honline, hseen, hgw⟩
    · rwa [hsame]
    · by_cases hid : gwId = f.gateway
      · refine ⟨e, ?_, honline, hseen ▸ hlate⟩
        rw [hgw, hid, Dict.get?_set_self]
      · obtain ⟨e', he', honline', hseen'⟩ := h
        refine ⟨e', ?_, honline', hseen'⟩
        rw [hgw, Dict.get?_set, if_neg hid, he']

/-- A sweep within the TTL leaves it alone and does not report it. -/
theorem SeenSince.reap {s : EventStore} {gwId : PyStr} {c now : ℚ} (h : SeenSince s gwId c)
    (hfresh : ∃ c', SeenSince s gwId c' ∧ now - c' ≤ gatewayOnlineTtlS) :
    SeenSince (s.reapGateways now).1 gwId c ∧ gwId ∉ (s.reapGateways now).2 := by
  obtain ⟨e, he, honline, hseen⟩ := h
  obtain ⟨c', ⟨e', he', -, hseen'⟩, hage⟩ := hfresh
  obtain rfl := Option.some.inj (he.symm.trans he')
  have hkeep : flips now e = false := by
    rw [flips, Bool.and_eq_false_iff]
    exact .inl (decide_eq_false (by linarith))
  refine ⟨⟨e, ?_, honline, hseen⟩, ?_⟩
  · rw [get?_reapGateways, he, Option.map_some, sweptEntry, hkeep]
    rfl
  · intro hmem
    obtain ⟨e', he', hflip⟩ := (mem_reapGateways s now gwId).mp hmem
    obtain rfl := Option.some.inj (he.symm.trans he')
    exact absurd hflip (by simp [hkeep])

section Run
variable {rt : PyRuntime} {g : Heartbeat} {maxEvents : ℕ}

/-- At a sweep, the tick before the last one is at most two periods old. -/
theorem exists_tick (start now : ℚ) (h : start + statusPeriodS ≤ now) :
    ∃ k : ℕ, start + (k + 1) * statusPeriodS ≤ now ∧ now < start + (k + 2) * statusPeriodS := by
  have hperiod : (0 : ℚ) < statusPeriodS := by norm_num [statusPeriodS]
  set n : ℕ := ⌊(now - start) / statusPeriodS⌋₊ with hn
  have hpos : (1 : ℚ) ≤ (now - start) / statusPeriodS := by
    rw [le_div_iff₀ hperiod]
    linarith
  have hone : 1 ≤ n := Nat.le_floor (by exact_mod_cast hpos)
  obtain ⟨k, hk⟩ := Nat.exists_eq_add_of_le' hone
  have hlo : ((n : ℕ) : ℚ) * statusPeriodS ≤ now - start :=
    (le_div_iff₀ hperiod).mp (Nat.floor_le (by linarith))
  have hhi : now - start < ((n : ℕ) + 1 : ℚ) * statusPeriodS :=
    (div_lt_iff₀ hperiod).mp (Nat.lt_floor_add_one _)
  refine ⟨k, ?_, ?_⟩
  · rw [hk] at hlo
    push_cast at hlo
    linarith
  · rw [hk] at hhi
    push_cast at hhi
    linarith

/-- Every beat handled so far is remembered. -/
theorem seenSince_of_beat (hrt : rt.Standard) (hversion : Plain g.version)
    (hfits : g.version.length ≤ versionMax) {ops : List BackendOp}
    (hclock : (ops.map clockOf).Pairwise (· ≤ ·)) (hdelivers : g.Delivers ops) :
    ∀ k m, .message m ∈ ops → g.Beat k m →
      SeenSince (storeAfter rt maxEvents ops) (gatewayText g.m3 g.m4 g.m5) (clockOf (.message m)) := by
  induction ops using List.reverseRecOn with
  | nil => exact fun _ _ h => absurd h List.not_mem_nil
  | append_singleton ops op ih =>
    intro k m hm hbeat
    have ih := ih (List.pairwise_append.mp (List.map_append ▸ hclock)).1
      (fun pre now post h => hdelivers pre now (post ++ [op]) (by rw [h, List.append_assoc]; rfl))
    have hlate : ∀ o ∈ ops, clockOf o ≤ clockOf op := by
      rw [List.map_append] at hclock
      intro o ho
      exact (List.pairwise_append.mp hclock).2.2 _ (List.mem_map_of_mem ho) _
        (by rw [List.map_singleton]; exact List.mem_singleton_self _)
    rw [storeAfter_concat]
    rcases List.mem_append.mp hm with hold | hnew
    · have hseen := ih k m hold hbeat
      cases op with
      | message m' => exact hseen.message (hlate _ hold)
      | reap now =>
        refine (hseen.reap ?_).1
        by_cases hfirst : g.start + statusPeriodS ≤ now
        · -- the latest tick that must have arrived
          obtain ⟨j, hj, hnext⟩ := exists_tick g.start now hfirst
          obtain ⟨m', hm', hbeat'⟩ := hdelivers ops now [] rfl j hj
          refine ⟨_, ih j m' hm' hbeat', ?_⟩
          obtain ⟨-, -, -, -, harrived⟩ := hbeat'
          rw [clockOf, gatewayOnlineTtlS]
          rw [statusPeriodS] at harrived hnext
          linarith
        · refine ⟨_, hseen, ?_⟩
          obtain ⟨-, -, -, -, harrived⟩ := hbeat
          have hk : (0 : ℚ) ≤ (k : ℚ) := Nat.cast_nonneg k
          rw [clockOf, gatewayOnlineTtlS]
          rw [statusPeriodS] at harrived hfirst
          linarith
    · obtain rfl := List.mem_singleton.mp hnew
      obtain ⟨e, he, honline, hseen⟩ := hbeat.liveAt hrt hversion hfits (storeAfter rt maxEvents ops)
      exact ⟨e, he, honline, hseen.ge⟩

/-- The status timer keeps its gateway online. Where the backend's clock does not go back and each
    tick's message arrives before the next tick, the gateway is online after any of its ticks, whatever
    else arrives, and no sweep from one period after the first tick on reports it, also where the
    gateway loses the race for every event it forwards. -/
theorem heartbeat_keeps_online (hrt : rt.Standard) (hversion : Plain g.version)
    (hfits : g.version.length ≤ versionMax) {ops : List BackendOp}
    (hclock : (ops.map clockOf).Pairwise (· ≤ ·)) (hdelivers : g.Delivers ops) :
    let gwId := gatewayText g.m3 g.m4 g.m5
    (∀ pre post k m, ops = pre ++ post → .message m ∈ pre → g.Beat k m →
      (storeAfter rt maxEvents pre).Online gwId) ∧
    ∀ pre now post, ops = pre ++ .reap now :: post → g.start + statusPeriodS ≤ now →
      (storeAfter rt maxEvents (pre ++ [.reap now])).Online gwId ∧
      gwId ∉ ((storeAfter rt maxEvents pre).reapGateways now).2 := by
  intro gwId
  have honline : ∀ pre post k m, ops = pre ++ post → .message m ∈ pre → g.Beat k m →
      SeenSince (storeAfter rt maxEvents pre) gwId (clockOf (.message m)) := by
    intro pre post k m hops hm hbeat
    refine seenSince_of_beat hrt hversion hfits ?_ ?_ k m hm hbeat
    · rw [hops, List.map_append] at hclock
      exact (List.pairwise_append.mp hclock).1
    · intro pre' now post' h
      exact hdelivers pre' now (post' ++ post) (by rw [hops, h, List.append_assoc]; rfl)
  refine ⟨?_, ?_⟩
  · intro pre post k m hops hm hbeat
    obtain ⟨e, he, hon, -⟩ := honline pre post k m hops hm hbeat
    exact ⟨e, he, hon⟩
  · intro pre now post hops hfirst
    obtain ⟨k, hk, hnext⟩ := exists_tick g.start now hfirst
    obtain ⟨m, hm, hbeat⟩ := hdelivers pre now post hops k hk
    obtain ⟨e, he, hon, -⟩ := honline (pre ++ [.reap now]) post k m
      (by rw [hops, List.append_assoc]; rfl) (List.mem_append_left _ hm) hbeat
    have hseen := honline pre (.reap now :: post) k m hops hm hbeat
    refine ⟨⟨e, he, hon⟩, (hseen.reap ⟨_, hseen, ?_⟩).2⟩
    obtain ⟨-, -, -, -, harrived⟩ := hbeat
    rw [clockOf, gatewayOnlineTtlS]
    rw [statusPeriodS] at harrived hnext
    linarith

end Run

/-- `gw-b` of the race above, with its status timer. -/
def racer : Heartbeat where
  m3 := 0xA1
  m4 := 0xB2
  m5 := 0xC3
  version := lit "2026.06.08"
  start := 10
  manager _ := ⟨some 0, true, [], 1⟩

/-- The status message of `racer`, handled at `now`. -/
def racerStatus (now : ℚ) : BackendOp :=
  .message ⟨py "seeedmote/gateway/seeedmote-gw-a1b2c3/status",
    (py "\x7b\"gw\":\"seeedmote-gw-a1b2c3\",\"version\":\"2026.06.08\"\x7d").map Nat.toUInt8,
    ⟨now, now, now⟩⟩

theorem racer_beat {k : ℕ} (now : ℚ) (h : 10 + k * statusPeriodS ≤ now) {m : App.MqttMessage}
    (hm : racerStatus now = .message m) : racer.Beat k m := by
  obtain rfl := BackendOp.message.inj hm
  refine ⟨_, rfl, ?_, ?_, h⟩
  · dsimp only
    decide +kernel
  · dsimp only
    decide +kernel

/-- It forwards an event a moment after `gw-a` and is silent but for its ticks; two of them come
    before the sweep at 130 s. -/
theorem heartbeat_keeps_online_racer :
    py "seeedmote-gw-a1b2c3" ∉ ((storeAfter asciiRuntime 500
      [racerStatus 11, eventFrom (py "gw-a") (py "2") 60,
        eventFrom (py "seeedmote-gw-a1b2c3") (py "2") 60, racerStatus 75]).reapGateways 130).2 := by
  have hid : gatewayText racer.m3 racer.m4 racer.m5 = py "seeedmote-gw-a1b2c3" := by decide
  rw [← hid]
  have hclock : (([racerStatus 11, eventFrom (py "gw-a") (py "2") 60,
      eventFrom (py "seeedmote-gw-a1b2c3") (py "2") 60, racerStatus 75] ++ [BackendOp.reap 130]).map
        clockOf).Pairwise (· ≤ ·) := by
    simp [racerStatus, eventFrom, clockOf]
    norm_num
  refine ((heartbeat_keeps_online (g := racer) asciiRuntime_standard (by decide) (by decide) hclock
    ?_).2 _ 130 [] rfl ?_).2
  · intro pre now post h k hk
    obtain ⟨rfl, rfl⟩ := one_sweep (by simp [racerStatus, eventFrom]) h
    have hk1 : (k : ℚ) < 2 := by
      norm_num [racer, statusPeriodS] at hk
      linarith
    have hk1 : k < 2 := by exact_mod_cast hk1
    interval_cases k
    · exact ⟨_, List.mem_cons_self .., racer_beat 11 (by norm_num [statusPeriodS]) rfl⟩
    · refine ⟨_, ?_, racer_beat 75 (by norm_num [statusPeriodS]) rfl⟩
      simp [racerStatus]
  · norm_num [racer, statusPeriodS]

end SeeedMote.EndToEnd
