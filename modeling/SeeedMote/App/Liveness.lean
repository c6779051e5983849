import Mathlib.Data.List.Induction
import SeeedMote.App.MqttClient

/-! Which gateways are taken for alive. A frame proves that its gateway is alive, but the store touches
    the gateway of an event behind the duplicate check: of two gateways that hear the same motes the
    slower one is touched only by the frames it wins.

        gw-a  event 7 ──▶ add_event: accepted ──▶ gw-a online, last_seen = now
        gw-b  event 7 ──▶ add_event: duplicate ─▶ nothing

    The sweep then reports it offline while its frames keep coming. -/

namespace SeeedMote.App
open Lib

/-! ### Frames -/

/-- The gateway a frame names. -/
def Frame.gateway : Frame → PyStr
  | .status gwId _ => gwId
  | .event _ gwId _ _ => gwId
  | .seen gwId _ => gwId

/-- An event names its mote. -/
def Frame.HasMac : Frame → Prop
  | .event moteMac _ _ _ => moteMac ≠ []
  | _ => True

instance : DecidablePred Frame.HasMac
  | .event moteMac _ _ _ => inferInstanceAs (Decidable (moteMac ≠ []))
  | .status _ _ => inferInstanceAs (Decidable True)
  | .seen _ _ => inferInstanceAs (Decidable True)

/-- `add_event` will take the frame for a copy of an event it has. -/
def Frame.rejected (t : Readings) (s : EventStore) : Frame → Bool
  | .event moteMac _ packetId _ => s.isDuplicate t.now (moteMac, packetId)
  | _ => false

/-- The gateway is online, last seen at `now`. -/
def EventStore.LiveAt (s : EventStore) (gwId : PyStr) (now : ℚ) : Prop :=
  ∃ e, s.gw.get? gwId = some e ∧ e.online = true ∧ e.lastSeen = now

/-- A frame does nothing, or it leaves its gateway online, seen just now, and touches no other. -/
theorem handle_spec (f : Frame) (t : Readings) (s : EventStore) :
    ((f.HasMac → f.rejected t s = true) ∧ (f.handle t s).1 = s) ∨
    (f.HasMac ∧ f.rejected t s = false ∧ ∃ e, e.online = true ∧ e.lastSeen = t.nowAgain ∧
      (f.handle t s).1.gw = s.gw.set f.gateway e) := by
  cases f with
  | status gwId version => exact .inr ⟨trivial, rfl, _, rfl, rfl, rfl⟩
  | seen gwId rssi => exact .inr ⟨trivial, rfl, _, rfl, rfl, rfl⟩
  | event moteMac gwId packetId rssi =>
    simp only [Frame.HasMac, Frame.rejected, Frame.handle, EventStore.addEvent]
    by_cases hmac : moteMac = []
    · exact .inl ⟨fun h => absurd hmac h, by rw [if_pos hmac]⟩
    · rw [if_neg hmac]
      cases hdup : s.isDuplicate t.now (moteMac, packetId) with
      | true => exact .inl ⟨fun _ => rfl, rfl⟩
      | false => exact .inr ⟨hmac, rfl, _, rfl, rfl, Dict.set_set ..⟩

/-- Handling a frame leaves its gateway live exactly if the frame is not rejected, unless the gateway
    was live at that time already. -/
theorem liveAt_iff {rt : PyRuntime} {topic : PyStr} {payload : List UInt8} {f : Frame}
    (hread : readFrame rt topic payload = .ok (some f)) (hmac : f.HasMac) (t : Readings)
    (s : EventStore) :
    (onMessage rt t topic payload s).store.LiveAt f.gateway t.nowAgain ↔
      f.rejected t s = false ∨ s.LiveAt f.gateway t.nowAgain := by
  have hstore : (onMessage rt t topic payload s).store = (f.handle t s).1 := by
    rw [onMessage, hread]
  rw [hstore]
  rcases handle_spec f t s with ⟨hrej, hsame⟩ | ⟨-, hrej, e, honline, hseen, hgw⟩
  · simp [hrej hmac, hsame]
  · refine ⟨fun _ => .inl hrej, fun _ => ⟨e, ?_, honline, hseen⟩⟩
    rw [hgw, Dict.get?_set_self]

/-! ### Runs -/

/-- What changes the store: the messages, and the sweeps of the reaper. -/
inductive BackendOp where
  | message (m : MqttMessage)
  | reap (now : ℚ)

/-- One step; the output is what `reap_gateways` returns. -/
def backendStep (rt : PyRuntime) (s : EventStore) : BackendOp → EventStore × List PyStr
  | .message m => ((onMessage rt m.readings m.topic m.payload s).store, [])
  | .reap now => s.reapGateways now

section Runs
variable (rt : PyRuntime) (maxEvents : ℕ) (gwId : PyStr)

/-- The store after a run. -/
def storeAfter (ops : List BackendOp) : EventStore :=
  finalState (backendStep rt) (.init maxEvents) ops

/-- The gateways that the sweeps of a run report. -/
def reported (ops : List BackendOp) : List PyStr := outputs (backendStep rt) (.init maxEvents) ops

/-- The time of a frame that names `gwId`. -/
def BackendOp.heardFrom : BackendOp → Option ℚ
  | .message m =>
    match readFrame rt m.topic m.payload with
    | .ok (some f) => if f.gateway = gwId ∧ f.HasMac then some m.readings.nowAgain else none
    | _ => none
  | .reap _ => none

/-- The time of the latest frame that names `gwId`. -/
def lastHeard (ops : List BackendOp) : Option ℚ :=
  (ops.filterMap (BackendOp.heardFrom rt gwId)).getLast?

/-- At every sweep the latest frame of `gwId` is not older than the TTL. -/
def KeepsDelivering (ops : List BackendOp) : Prop :=
  ∀ pre now post, ops = pre ++ .reap now :: post → ∀ t, lastHeard rt gwId pre = some t →
    now - t < gatewayOnlineTtlS

/-- No event of `gwId` comes within the dedup window of its first copy. -/
def NeverRejected (ops : List BackendOp) : Prop :=
  ∀ pre m post f, ops = pre ++ .message m :: post → readFrame rt m.topic m.payload = .ok (some f) →
    f.gateway = gwId → f.rejected m.readings (storeAfter rt maxEvents pre) = false

/-! ### A gateway whose frames are never rejected -/

theorem storeAfter_concat (ops : List BackendOp) (op : BackendOp) :
    storeAfter rt maxEvents (ops ++ [op]) = (backendStep rt (storeAfter rt maxEvents ops) op).1 :=
  finalState_concat (backendStep rt) (.init maxEvents) ops op

theorem reported_concat (ops : List BackendOp) (op : BackendOp) :
    reported rt maxEvents (ops ++ [op])
      = reported rt maxEvents ops ++ (backendStep rt (storeAfter rt maxEvents ops) op).2 :=
  outputs_concat (backendStep rt) (.init maxEvents) ops op

theorem lastHeard_concat (ops : List BackendOp) (op : BackendOp) :
    lastHeard rt gwId (ops ++ [op]) = (op.heardFrom rt gwId).or (lastHeard rt gwId ops) := by
  rw [lastHeard, lastHeard, List.filterMap_append, List.getLast?_append]
  cases h : op.heardFrom rt gwId with
  | none => rw [List.filterMap_cons_none h]; rfl
  | some t => rw [List.filterMap_cons_some h]; rfl

/-- A message moves `last_seen` of a gateway to the time of its frame, if it is not rejected. -/
theorem lastSeen_message (s : EventStore) (m : MqttMessage)
    (hfree : ∀ f, readFrame rt m.topic m.payload = .ok (some f) → f.gateway = gwId →
      f.rejected m.readings s = false) :
    (((backendStep rt s (.message m)).1.gw.get? gwId).map GatewayStatus.lastSeen)
      = ((BackendOp.message m).heardFrom rt gwId).or
          ((s.gw.get? gwId).map GatewayStatus.lastSeen) := by
  rw [backendStep, onMessage, BackendOp.heardFrom]
  rcases hread : readFrame rt m.topic m.payload with e | _ | f
  · rfl
  · rfl
  · dsimp only
    rcases handle_spec f m.readings s with ⟨hrej, hsame⟩ | ⟨hmac, -, e, -, hseen, hgw⟩
    · -- then the frame is another gateway's, or it names no mote
      have hother : ¬(f.gateway = gwId ∧ f.HasMac) := by
        rintro ⟨hgw, hmac⟩
        simp [hfree f hread hgw] at hrej
        exact hrej hmac
      rw [if_neg hother, hsame]
      rfl
    · rw [hgw, Dict.get?_set]
      by_cases hid : gwId = f.gateway
      · rw [if_pos hid, if_pos ⟨hid.symm, hmac⟩, Option.map_some, hseen]
        rfl
      · rw [if_neg hid, if_neg fun h => hid h.1.symm]
        rfl

/-- A sweep leaves `last_seen` alone and reports only gateways not seen for longer than the TTL. -/
theorem reap_spec (s : EventStore) (now : ℚ) :
    (((s.reapGateways now).1.gw.get? gwId).map GatewayStatus.lastSeen)
        = (s.gw.get? gwId).map GatewayStatus.lastSeen ∧
      (gwId ∈ (s.reapGateways now).2 →
        ∃ t, (s.gw.get? gwId).map GatewayStatus.lastSeen = some t ∧ now - t > gatewayOnlineTtlS) := by
  refine ⟨?_, ?_⟩
  · rw [get?_reapGateways, Option.map_map]
    exact congrArg (Option.map · _) (funext (lastSeen_sweptEntry now))
  · intro h
    obtain ⟨e, he, hflip⟩ := (mem_reapGateways s now gwId).mp h
    rw [flips, Bool.and_eq_true, decide_eq_true_eq] at hflip
    exact ⟨e.lastSeen, by rw [he]; rfl, hflip.1⟩

/-- In a run that keeps delivering without rejection the store knows the time of the latest frame, and
    no sweep reports the gateway. -/
theorem not_reported {ops : List BackendOp} (hkeeps : KeepsDelivering rt gwId ops)
    (hnever : NeverRejected rt maxEvents gwId ops) :
    ((storeAfter rt maxEvents ops).gw.get? gwId).map GatewayStatus.lastSeen = lastHeard rt gwId ops ∧
      gwId ∉ reported rt maxEvents ops := by
  induction ops using List.reverseRecOn with
  | nil => exact ⟨rfl, List.not_mem_nil⟩
  | append_singleton ops op ih =>
    obtain ⟨hseen, hout⟩ := ih
      (fun pre now post h => hkeeps pre now (post ++ [op]) (by rw [h, List.append_assoc]; rfl))
      (fun pre m post f h => hnever pre m (post ++ [op]) f (by rw [h, List.append_assoc]; rfl))
    rw [storeAfter_concat, reported_concat, lastHeard_concat, ← hseen]
    cases op with
    | message m =>
      refine ⟨lastSeen_message rt gwId _ m ?_, ?_⟩
      · intro f hread hgw
        exact hnever ops m [] f rfl hread hgw
      · rw [List.mem_append]
        rintro (h | h)
        · exact hout h
        · exact absurd h List.not_mem_nil
    | reap now =>
      obtain ⟨hsame, hflip⟩ := reap_spec gwId (storeAfter rt maxEvents ops) now
      refine ⟨hsame, ?_⟩
      rw [List.mem_append]
      rintro (h | h)
      · exact hout h
      · obtain ⟨t, ht, hold⟩ := hflip h
        exact absurd (hkeeps ops now [] rfl t (hseen ▸ ht)) (not_lt.mpr hold.le)

end Runs

/-! ### Tagged frames -/

/-- A well-formed frame on `seeedmote/mote/<mac>/event` or `seeedmote/mote/<mac>/seen`, tagged
    `gwId`: an object whose fields convert. -/
structure Tagged (rt : PyRuntime) (topic : PyStr) (payload : List UInt8) (gwId : PyStr) : Prop where
  mote : ∃ mac kind, topic.splitOn 47 = [py "seeedmote", py "mote", mac, kind] ∧ mac ≠ [] ∧
    (kind = py "event" ∨ kind = py "seen")
  object : ∃ entries, loads rt payload = .ok (.dict entries) ∧ Converts rt topic (.dict entries) ∧
    strField rt (.dict entries) (py "gw") (py "unknown") = .ok gwId

theorem exists_of_isOk {α : Type} {r : Except PyExc α} (h : r.isOk = true) : ∃ a, r = .ok a := by
  cases r with
  | ok a => exact ⟨a, rfl⟩
  | error e => simp at h

/-- It is read as a frame of its gateway. -/
theorem readFrame_tagged {rt : PyRuntime} (hlower : ∀ s, s ≠ [] → rt.lower s ≠ []) {topic : PyStr}
    {payload : List UInt8} {gwId : PyStr} (h : Tagged rt topic payload gwId) :
    ∃ f, readFrame rt topic payload = .ok (some f) ∧ f.gateway = gwId ∧ f.HasMac := by
  obtain ⟨⟨mac, kind, hsplit, hmac, hkind⟩, entries, hloads, hconv, hgw⟩ := h
  have hmote : isMoteTopic topic = true := by rw [isMoteTopic, hsplit]; rfl
  obtain ⟨-, hrssi, hpid⟩ := hconv.2 hmote
  obtain ⟨rssi, hrssi⟩ := exists_of_isOk hrssi
  have hread : readFrame rt topic payload = moteFrame rt mac kind (.dict entries) := by
    rw [readFrame, readPayload, hloads]
    simp only [pyOk_bind]
    rw [frameOf, hsplit]
    rfl
  rw [hread, moteFrame, hgw, hrssi]
  simp only [pyOk_bind]
  rcases hkind with rfl | rfl
  · have hevent : isEventTopic topic = true := by rw [isEventTopic, hsplit]; rfl
    obtain ⟨packetId, hpid⟩ := exists_of_isOk (hpid hevent)
    rw [hpid]
    exact ⟨_, rfl, rfl, hlower mac hmac⟩
  · exact ⟨_, rfl, rfl, trivial⟩

/-- What frames prove. Handling a well-formed frame tagged with a gateway leaves the gateway online and
    seen just now exactly if the store does not reject the frame as a duplicate (or if it was so
    before); and in every run in which a gateway keeps delivering frames, none of them rejected, no
    sweep reports it. -/
theorem frames_prove_liveness {rt : PyRuntime} (hlower : ∀ s, s ≠ [] → rt.lower s ≠ []) :
    (∀ topic payload gwId, Tagged rt topic payload gwId →
      ∃ f, readFrame rt topic payload = .ok (some f) ∧ ∀ t s,
        ((onMessage rt t topic payload s).store.LiveAt gwId t.nowAgain ↔
          f.rejected t s = false ∨ s.LiveAt gwId t.nowAgain)) ∧
    ∀ maxEvents gwId ops, KeepsDelivering rt gwId ops → NeverRejected rt maxEvents gwId ops →
      gwId ∉ reported rt maxEvents ops := by
  refine ⟨?_, ?_⟩
  · intro topic payload gwId h
    obtain ⟨f, hread, rfl, hmac⟩ := readFrame_tagged hlower h
    exact ⟨f, hread, liveAt_iff hread hmac⟩
  · intro maxEvents gwId ops hkeeps hnever
    exact (not_reported rt maxEvents gwId hkeeps hnever).2

/-! Two gateways that hear the same mote, `gw-a` a moment before `gw-b`. -/

def moteEventTopic : PyStr := py "seeedmote/mote/F0E3912CEC19/event"

def eventPayload (gwId packetId : PyStr) : List UInt8 :=
  (py "\x7b\"packet_id\":" ++ packetId ++ py ",\"gw\":\"" ++ gwId ++ py "\"\x7d").map Nat.toUInt8

/-- An event of the mote, from a gateway. -/
def eventFrom (gwId packetId : PyStr) (now : ℚ) : BackendOp :=
  .message ⟨moteEventTopic, eventPayload gwId packetId, ⟨now, now, now⟩⟩

/-- The frame of `gw-b` is well formed. -/
theorem tagged_eventPayload :
    Tagged asciiRuntime moteEventTopic (eventPayload (py "gw-b") (py "2")) (py "gw-b") := by
  have hgw : (loads asciiRuntime (eventPayload (py "gw-b") (py "2")) >>= fun data =>
      strField asciiRuntime data (py "gw") (py "unknown")) = .ok (py "gw-b") := by decide +kernel
  have hframe : (loads asciiRuntime (eventPayload (py "gw-b") (py "2")) >>= fun data =>
      frameOf asciiRuntime moteEventTopic data).isOk = true := by decide +kernel
  cases hdata : loads asciiRuntime (eventPayload (py "gw-b") (py "2")) with
  | error e => simp [hdata] at hgw
  | ok data =>
    rw [hdata, pyOk_bind] at hgw hframe
    obtain ⟨entries, rfl⟩ := strField_dict (congrArg Except.isOk hgw)
    exact ⟨⟨py "F0E3912CEC19", py "event", by decide +kernel, by decide, .inl rfl⟩,
      entries, hdata, (frameOf_isOk_iff _ _ _).mp hframe, hgw⟩

/-- Where messages end and one sweep follows, that is the only sweep. -/
theorem one_sweep {frames pre post : List BackendOp} {last now : ℚ}
    (hframes : ∀ t, .reap t ∉ frames) (h : frames ++ [.reap last] = pre ++ .reap now :: post) :
    pre = frames ∧ now = last := by
  rcases List.eq_nil_or_concat post with rfl | ⟨post, op, rfl⟩
  · obtain ⟨hpre, hnow⟩ := List.append_inj' h rfl
    exact ⟨hpre.symm, by simpa using hnow.symm⟩
  · rw [List.concat_eq_append, ← List.cons_append, ← List.append_assoc] at h
    obtain ⟨hmem, -⟩ := List.append_inj' h rfl
    exact absurd (hmem ▸ List.mem_append_right pre (List.mem_cons_self ..)) (hframes now)

theorem asciiRuntime_lower (s : PyStr) (h : s ≠ []) : asciiRuntime.lower s ≠ [] :=
  fun hnil => h (List.map_eq_nil_iff.mp hnil)

theorem frames_prove_liveness_alone :
    py "gw-b" ∉ reported asciiRuntime 500 ([eventFrom (py "gw-b") (py "1") 60] ++ [.reap 100]) := by
  refine (frames_prove_liveness asciiRuntime_lower).2 500 (py "gw-b") _ ?_ ?_
  · intro pre now post h t ht
    obtain ⟨rfl, rfl⟩ := one_sweep (by simp [eventFrom]) h
    have hlast : lastHeard asciiRuntime (py "gw-b") [eventFrom (py "gw-b") (py "1") 60] = some 60 := by
      decide +kernel
    obtain rfl := Option.some.inj (hlast.symm.trans ht)
    norm_num [gatewayOnlineTtlS]
  · intro pre m post f h _ _
    rcases pre with _ | ⟨_, _ | ⟨_, pre⟩⟩
    · cases f <;> rfl
    · simp at h
    · simp at h

/-- A gateway that loses every race is not touched, and is reported offline between its frames. -/
theorem losing_gateway_reported :
    (¬∀ (rt : PyRuntime) (topic : PyStr) (payload : List UInt8) (gwId : PyStr) (t : Readings)
      (s : EventStore), Tagged rt topic payload gwId →
        (onMessage rt t topic payload s).store.LiveAt gwId t.nowAgain) ∧
    ¬∀ (rt : PyRuntime) (maxEvents : ℕ) (gwId : PyStr) (ops : List BackendOp),
      KeepsDelivering rt gwId ops → gwId ∉ reported rt maxEvents ops := by
  refine ⟨?_, ?_⟩
  · intro h
    obtain ⟨e, he, -⟩ := h _ _ _ _ ⟨60, 60, 60⟩
      (storeAfter asciiRuntime 500 [eventFrom (py "gw-a") (py "2") 60]) tagged_eventPayload
    have hnone : (onMessage asciiRuntime ⟨60, 60, 60⟩ moteEventTopic
        (eventPayload (py "gw-b") (py "2")) (storeAfter asciiRuntime 500
          [eventFrom (py "gw-a") (py "2") 60])).store.gw.get? (py "gw-b") = none := by
      decide +kernel
    exact absurd (hnone.symm.trans he) (by simp)
  · intro h
    refine h asciiRuntime 500 (py "gw-b") ([eventFrom (py "gw-b") (py "1") 0,
      eventFrom (py "gw-a") (py "2") 60, eventFrom (py "gw-b") (py "2") 60,
      eventFrom (py "gw-a") (py "3") 115, eventFrom (py "gw-b") (py "3") 116] ++ [.reap 130]) ?_ ?_
    · intro pre now post hops t ht
      obtain ⟨rfl, rfl⟩ := one_sweep (by simp [eventFrom]) hops
      have hlast : lastHeard asciiRuntime (py "gw-b") [eventFrom (py "gw-b") (py "1") 0,
          eventFrom (py "gw-a") (py "2") 60, eventFrom (py "gw-b") (py "2") 60,
          eventFrom (py "gw-a") (py "3") 115, eventFrom (py "gw-b") (py "3") 116] = some 116 := by
        decide +kernel
      obtain rfl := Option.some.inj (hlast.symm.trans ht)
      norm_num [gatewayOnlineTtlS]
    · decide +kernel

end SeeedMote.App
