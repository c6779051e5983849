import SeeedMote.App.Store
import SeeedMote.Lib.PyJson

/-! `MqttClient._on_message` of `mqtt_client.py`. All reading of the payload comes before the first
    store call, so a message is a frame or nothing, or an exception with the store untouched; the
    caller, paho's network thread, ends at the first exception. -/

namespace SeeedMote.App
open Lib

/-! ### Reading a message -/

/-- `json.loads(msg.payload)` under the two `except` classes; `none` is the early `return`. -/
def readPayload (rt : PyRuntime) (payload : List UInt8) : Except PyExc (Option PyVal) :=
  match loads rt payload with
  | .ok data => .ok (some data)
  | .error .jsonDecodeError => .ok none
  | .error .unicodeDecodeError => .ok none
  | .error e => .error e

/-- `str(data.get(key) or default)`. -/
def strField (rt : PyRuntime) (data : PyVal) (key default : PyStr) : Except PyExc PyStr := do
  match ← data.get key with
  | some v => if v.truthy then pyStr rt v else return default
  | none => return default

/-- `int(data.get(key, 0))`. -/
def intField (rt : PyRuntime) (data : PyVal) (key : PyStr) : Except PyExc ℤ := do
  match ← data.get key with
  | some v => pyInt rt v
  | none => return 0

/-- What a message asks of the store. -/
inductive Frame where
  | status (gwId : PyStr) (version : Option PyStr)
  | event (moteMac gwId : PyStr) (packetId rssi : ℤ)
  | seen (gwId : PyStr) (rssi : ℤ)
  deriving DecidableEq

/-- The branch of a gateway status topic. -/
def statusFrame (rt : PyRuntime) (gwId : PyStr) (data : PyVal) : Except PyExc (Option Frame) := do
  -- compared with the topic's id for a log line only
  let _payloadGw ← strField rt data (py "gw") []
  let version ← strField rt data (py "version") []
  return some (.status gwId (if version = [] then none else some version))

/-- The branch of a mote topic. -/
def moteFrame (rt : PyRuntime) (mac kind : PyStr) (data : PyVal) : Except PyExc (Option Frame) := do
  let gwId ← strField rt data (py "gw") (py "unknown")
  let rssi ← intField rt data (py "rssi")
  if kind = py "event" then
    let packetId ← intField rt data (py "packet_id")
    return some (.event (rt.lower mac) gwId packetId rssi)
  else if kind = py "seen" then return some (.seen gwId rssi)
  else return none

/-- `_on_message` from the topic on, up to the store calls. -/
def frameOf (rt : PyRuntime) (topic : PyStr) (data : PyVal) : Except PyExc (Option Frame) :=
  match topic.splitOn 47 with
  | [p0, p1, p2, p3] =>
    if p0 = py "seeedmote" ∧ p1 = py "gateway" ∧ p3 = py "status" then statusFrame rt p2 data
    else if p0 ≠ py "seeedmote" ∨ p1 ≠ py "mote" then .ok none
    else moteFrame rt p2 p3 data
  | _ => .ok none

def readFrame (rt : PyRuntime) (topic : PyStr) (payload : List UInt8) :
    Except PyExc (Option Frame) := do
  match ← readPayload rt payload with
  | some data => frameOf rt topic data
  | none => return none

/-! ### Handling a message -/

/-- A coroutine handed to the event loop; `_emit_gateway` gets the live entry of `gwId`. -/
inductive Emission where
  | event (ev : MotionEvent)
  | gateway (gwId : PyStr)
  | transport (connected : Bool)
  deriving DecidableEq

/-- The clock readings one message can make: in `add_event`, by its `_touch_gateway_locked`, and by
    `touch_gateway`. -/
structure Readings where
  now : ℚ
  nowTouch : ℚ
  nowAgain : ℚ
  deriving DecidableEq

/-- The store calls and the scheduled coroutines of a frame. -/
def Frame.handle (t : Readings) (s : EventStore) : Frame → EventStore × List Emission
  | .status gwId version => ((s.touchGateway t.nowAgain gwId none version).1, [.gateway gwId])
  | .event moteMac gwId packetId rssi =>
    match s.addEvent t.now t.nowTouch moteMac gwId packetId rssi with
    | (s, none) => (s, [])
    | (s, some stored) =>
      ((s.touchGateway t.nowAgain gwId (some rssi) none).1, [.event stored, .gateway gwId])
  | .seen gwId rssi => ((s.touchGateway t.nowAgain gwId (some rssi) none).1, [.gateway gwId])

/-- How `_on_message` ends, the store it leaves and the coroutines it schedules. -/
structure Handled where
  result : Except PyExc Unit
  store : EventStore
  scheduled : List Emission

/-- `_on_message`. -/
def onMessage (rt : PyRuntime) (t : Readings) (topic : PyStr) (payload : List UInt8)
    (s : EventStore) : Handled :=
  match readFrame rt topic payload with
  | .error e => ⟨.error e, s, []⟩
  | .ok none => ⟨.ok (), s, []⟩
  | .ok (some f) => ⟨.ok (), (f.handle t s).1, (f.handle t s).2⟩

structure MqttMessage where
  topic : PyStr
  payload : List UInt8
  readings : Readings

/-- paho's network thread: `_on_message` for each message, until one raises. The last component
    tells whether the thread is alive. -/
def networkThread (rt : PyRuntime) : EventStore → List MqttMessage →
    EventStore × List Emission × Bool
  | s, [] => (s, [], true)
  | s, m :: ms =>
    let h := onMessage rt m.readings m.topic m.payload s
    match h.result with
    | .error _ => (h.store, h.scheduled, false)
    | .ok () =>
      let (s', es, alive) := networkThread rt h.store ms
      (s', h.scheduled ++ es, alive)

/-! ### Which messages raise -/

def isStatusTopic (topic : PyStr) : Bool :=
  match topic.splitOn 47 with
  | [p0, p1, _, p3] => p0 = py "seeedmote" && p1 = py "gateway" && p3 = py "status"
  | _ => false

def isMoteTopic (topic : PyStr) : Bool :=
  match topic.splitOn 47 with
  | [p0, p1, _, _] => p0 = py "seeedmote" && p1 = py "mote"
  | _ => false

def isEventTopic (topic : PyStr) : Bool :=
  match topic.splitOn 47 with
  | [p0, p1, _, p3] => p0 = py "seeedmote" && p1 = py "mote" && p3 = py "event"
  | _ => false

/-- The message says nothing: no JSON object, or no integer where the topic needs one. -/
def unusable (rt : PyRuntime) (topic : PyStr) (payload : List UInt8) : Bool :=
  match loads rt payload with
  | .ok (.dict entries) =>
    (isMoteTopic topic && !(intField rt (.dict entries) (py "rssi")).isOk) ||
      (isEventTopic topic && !(intField rt (.dict entries) (py "packet_id")).isOk)
  | _ => true

/-- The fields the topic reads convert. -/
def Converts (rt : PyRuntime) (topic : PyStr) (data : PyVal) : Prop :=
  (isStatusTopic topic = true → (strField rt data (py "gw") []).isOk ∧
    (strField rt data (py "version") []).isOk) ∧
  (isMoteTopic topic = true → (strField rt data (py "gw") (py "unknown")).isOk ∧
    (intField rt data (py "rssi")).isOk ∧
    (isEventTopic topic = true → (intField rt data (py "packet_id")).isOk))

/-- The payload is refused as no JSON text, or concerns no known topic, or is an object whose fields
    convert. -/
def Readable (rt : PyRuntime) (topic : PyStr) (payload : List UInt8) : Prop :=
  (∀ e, loads rt payload = .error e → e = .jsonDecodeError ∨ e = .unicodeDecodeError) ∧
    ∀ data, loads rt payload = .ok data → (isStatusTopic topic || isMoteTopic topic) = true →
      (∃ entries, data = .dict entries) ∧ Converts rt topic data

/-! ### Exactly the readable messages return -/

@[simp] theorem isOk_ok {α : Type} (a : α) : (Except.ok a : Except PyExc α).isOk = true := rfl

@[simp] theorem isOk_error {α : Type} (e : PyExc) :
    (Except.error e : Except PyExc α).isOk = false := rfl

@[simp] theorem pyOk_bind {α β : Type} (a : α) (f : α → Except PyExc β) :
    ((Except.ok a : Except PyExc α) >>= f) = f a := rfl

@[simp] theorem pyError_bind {α β : Type} (e : PyExc) (f : α → Except PyExc β) :
    ((Except.error e : Except PyExc α) >>= f) = .error e := rfl

/-- Without a `get` attribute no field converts. -/
theorem strField_dict {rt : PyRuntime} {data : PyVal} {key default : PyStr}
    (h : (strField rt data key default).isOk = true) : ∃ entries, data = .dict entries := by
  cases data with
  | dict entries => exact ⟨entries, rfl⟩
  | _ => simp [strField, PyVal.get] at h

theorem statusFrame_isOk_iff (rt : PyRuntime) (gwId : PyStr) (data : PyVal) :
    (statusFrame rt gwId data).isOk = true ↔ (strField rt data (py "gw") []).isOk = true ∧
      (strField rt data (py "version") []).isOk = true := by
  rw [statusFrame]
  cases strField rt data (py "gw") [] with
  | error e => simp
  | ok gw =>
    cases strField rt data (py "version") [] with
    | error e => simp
    | ok version => simp [pure, Except.pure]

theorem moteFrame_isOk_iff (rt : PyRuntime) (mac kind : PyStr) (data : PyVal) :
    (moteFrame rt mac kind data).isOk = true ↔
      (strField rt data (py "gw") (py "unknown")).isOk = true ∧
        (intField rt data (py "rssi")).isOk = true ∧
        (kind = py "event" → (intField rt data (py "packet_id")).isOk = true) := by
  rw [moteFrame]
  cases strField rt data (py "gw") (py "unknown") with
  | error e => simp
  | ok gw =>
    cases intField rt data (py "rssi") with
    | error e => simp
    | ok rssi =>
      by_cases he : kind = py "event"
      · cases intField rt data (py "packet_id") <;> simp [he, pure, Except.pure]
      · by_cases hk : kind = py "seen"
        · have hne : py "seen" ≠ py "event" := by decide
          simp [hk, hne, pure, Except.pure]
        · simp [he, hk, pure, Except.pure]

theorem frameOf_isOk_iff (rt : PyRuntime) (topic : PyStr) (data : PyVal) :
    (frameOf rt topic data).isOk = true ↔ Converts rt topic data := by
  have hne : py "gateway" ≠ py "mote" := by decide
  rw [frameOf, Converts, isStatusTopic, isMoteTopic, isEventTopic]
  split
  · next p0 p1 p2 p3 _ =>
    by_cases hs : p0 = py "seeedmote" ∧ p1 = py "gateway" ∧ p3 = py "status"
    · rw [if_pos hs, statusFrame_isOk_iff]
      obtain ⟨rfl, rfl, rfl⟩ := hs
      simp [hne]
    · rw [if_neg hs]
      by_cases hm : p0 = py "seeedmote" ∧ p1 = py "mote"
      · rw [if_neg (by simp [hm]), moteFrame_isOk_iff]
        obtain ⟨rfl, rfl⟩ := hm
        simp [hne.symm]
      · have hor : p0 ≠ py "seeedmote" ∨ p1 ≠ py "mote" := not_and_or.mp hm
        rw [if_pos hor]
        have hs' : ¬((p0 = py "seeedmote" ∧ p1 = py "gateway") ∧ p3 = py "status") :=
          fun h => hs ⟨h.1.1, h.1.2, h.2⟩
        simp [hs', hm]
  · simp

/-- A known topic is needed for a field to be read at all. -/
theorem converts_of_other {rt : PyRuntime} {topic : PyStr} (data : PyVal)
    (h : (isStatusTopic topic || isMoteTopic topic) = false) : Converts rt topic data := by
  rw [Bool.or_eq_false_iff] at h
  exact ⟨fun hs => by simp [h.1] at hs, fun hm => by simp [h.2] at hm⟩

theorem readFrame_isOk_iff (rt : PyRuntime) (topic : PyStr) (payload : List UInt8) :
    (readFrame rt topic payload).isOk = true ↔ Readable rt topic payload := by
  rw [readFrame, readPayload, Readable]
  cases loads rt payload with
  | error e => cases e <;> simp [pure, Except.pure]
  | ok data =>
    simp only [pyOk_bind, frameOf_isOk_iff, reduceCtorEq, false_implies, implies_true, true_and,
      Except.ok.injEq, forall_eq']
    refine ⟨fun h hknown => ⟨?_, h⟩, ?_⟩
    · rcases Bool.or_eq_true_iff.mp hknown with hs | hm
      · exact strField_dict (h.1 hs).1
      · exact strField_dict (h.2 hm).1
    · intro h
      cases hk : isStatusTopic topic || isMoteTopic topic with
      | true => exact (h hk).2
      | false => exact converts_of_other data hk

/-- Only a usable message on a known topic makes a frame. -/
theorem usable_of_frame {rt : PyRuntime} {topic : PyStr} {payload : List UInt8} {f : Frame}
    (h : readFrame rt topic payload = .ok (some f)) : unusable rt topic payload = false := by
  have hread : Readable rt topic payload := (readFrame_isOk_iff _ _ _).mp (by rw [h]; rfl)
  have hevent : isEventTopic topic = true → isMoteTopic topic = true := by
    rw [isEventTopic, isMoteTopic]
    split
    · simp only [Bool.and_eq_true]; exact fun h => h.1
    · simp
  rw [readFrame, readPayload] at h
  rw [unusable]
  cases hl : loads rt payload with
  | error e =>
    rw [hl] at h
    rcases hread.1 e hl with rfl | rfl <;> simp [pure, Except.pure] at h
  | ok data =>
    rw [hl] at h
    simp only [pyOk_bind] at h
    have hknown : (isStatusTopic topic || isMoteTopic topic) = true := by
      rw [frameOf] at h
      rw [isStatusTopic, isMoteTopic]
      split at h
      · next p0 p1 p2 p3 _ =>
        by_cases hs : p0 = py "seeedmote" ∧ p1 = py "gateway" ∧ p3 = py "status"
        · simp [hs]
        · rw [if_neg hs] at h
          split at h
          · simp at h
          · next hm =>
            have hm' : p0 = py "seeedmote" ∧ p1 = py "mote" := by simpa [not_or] using hm
            simp [hm']
      · simp at h
    obtain ⟨⟨entries, rfl⟩, hconv⟩ := hread.2 data hl hknown
    cases hm : isMoteTopic topic with
    | false =>
      have he : isEventTopic topic = false := by
        cases he : isEventTopic topic with
        | false => rfl
        | true => rw [hevent he] at hm; exact hm
      simp [he]
    | true =>
      obtain ⟨-, hrssi, hpid⟩ := hconv.2 hm
      cases he : isEventTopic topic with
      | false => simp [hrssi]
      | true => simp [hrssi, hpid he]

/-- An unusable message leaves the store and the event loop alone, raising or not. -/
theorem unusable_keeps {rt : PyRuntime} {topic : PyStr} {payload : List UInt8}
    (h : unusable rt topic payload = true) (t : Readings) (s : EventStore) :
    (onMessage rt t topic payload s).store = s ∧ (onMessage rt t topic payload s).scheduled = [] := by
  rw [onMessage]
  cases hf : readFrame rt topic payload with
  | error e => exact ⟨rfl, rfl⟩
  | ok o =>
    cases o with
    | none => exact ⟨rfl, rfl⟩
    | some f => rw [usable_of_frame hf] at h; exact absurd h (by simp)

theorem onMessage_isOk_iff (rt : PyRuntime) (t : Readings) (topic : PyStr) (payload : List UInt8)
    (s : EventStore) :
    (onMessage rt t topic payload s).result = .ok () ↔ Readable rt topic payload := by
  rw [← readFrame_isOk_iff]
  rw [onMessage]
  cases readFrame rt topic payload with
  | error e => simp
  | ok o => cases o <;> simp

/-! ### The network thread -/

theorem networkThread_cons (rt : PyRuntime) (s : EventStore) (m : MqttMessage)
    (ms : List MqttMessage) (h : Readable rt m.topic m.payload) :
    networkThread rt s (m :: ms) =
      let r := onMessage rt m.readings m.topic m.payload s
      let rest := networkThread rt r.store ms
      (rest.1, r.scheduled ++ rest.2.1, rest.2.2) := by
  rw [networkThread, (onMessage_isOk_iff rt m.readings m.topic m.payload s).mpr h]

/-- The thread is alive after exactly the messages that are all readable. -/
theorem networkThread_alive_iff (rt : PyRuntime) (s : EventStore) (ms : List MqttMessage) :
    (networkThread rt s ms).2.2 = true ↔ ∀ m ∈ ms, Readable rt m.topic m.payload := by
  induction ms generalizing s with
  | nil => simp [networkThread]
  | cons m ms ih =>
    rw [List.forall_mem_cons]
    by_cases h : Readable rt m.topic m.payload
    · rw [networkThread_cons rt s m ms h, and_iff_right h]
      exact ih _
    · have herr := (onMessage_isOk_iff rt m.readings m.topic m.payload s).not.mpr h
      rw [networkThread]
      cases hr : (onMessage rt m.readings m.topic m.payload s).result with
      | ok u => exact absurd hr herr
      | error e => simp [h]

/-- While it lives, unusable messages might as well not have been sent. -/
theorem networkThread_skips (rt : PyRuntime) (s : EventStore) (ms : List MqttMessage)
    (h : ∀ m ∈ ms, Readable rt m.topic m.payload) :
    networkThread rt s ms
      = networkThread rt s (ms.filter fun m => !unusable rt m.topic m.payload) := by
  induction ms generalizing s with
  | nil => rfl
  | cons m ms ih =>
    obtain ⟨hm, hms⟩ := List.forall_mem_cons.mp h
    cases hu : unusable rt m.topic m.payload with
    | true =>
      obtain ⟨hstore, hsched⟩ := unusable_keeps hu m.readings s
      rw [List.filter_cons_of_neg (by simp [hu]), networkThread_cons rt s m ms hm]
      simp only [hstore, hsched, List.nil_append]
      exact ih s hms
    | false =>
      rw [List.filter_cons_of_pos (by simp [hu]), networkThread_cons rt s m _ hm,
        networkThread_cons rt s m _ hm]
      simp only [ih _ hms]

/-- `_on_message` returns, and an unusable message leaves no trace. -/
def Survives (rt : PyRuntime) (t : Readings) (topic : PyStr) (payload : List UInt8)
    (s : EventStore) : Prop :=
  (onMessage rt t topic payload s).result = .ok () ∧
    (unusable rt topic payload = true →
      (onMessage rt t topic payload s).store = s ∧ (onMessage rt t topic payload s).scheduled = [])

/-- Ingestion survives exactly the readable messages; then the following messages are processed as if
    the unusable ones had not been sent. -/
theorem ingestion_survives_iff (rt : PyRuntime) :
    (∀ t topic payload s, Survives rt t topic payload s ↔ Readable rt topic payload) ∧
      ∀ s ms, ((networkThread rt s ms).2.2 = true ↔ ∀ m ∈ ms, Readable rt m.topic m.payload) ∧
        ((∀ m ∈ ms, Readable rt m.topic m.payload) →
          networkThread rt s ms
            = networkThread rt s (ms.filter fun m => !unusable rt m.topic m.payload)) := by
  refine ⟨?_, ?_⟩
  · intro t topic payload s
    rw [Survives, onMessage_isOk_iff]
    exact and_iff_left fun hu => unusable_keeps hu t s
  · intro s ms
    exact ⟨networkThread_alive_iff rt s ms, networkThread_skips rt s ms⟩

/-- An interpreter that knows ASCII only. -/
def asciiRuntime : PyRuntime where
  isSpace _ := false
  decimal _ := none
  lower s := s.map asciiLower
  strOf _ := .error .typeError
  floatOf _ := .nan
  intMaxStrDigits := 4300
  jsonDepth := 990

theorem asciiRuntime_standard : asciiRuntime.Standard where
  lower_ascii _ _ := rfl
  digits := by decide
  depth := by decide

def eventTopic : PyStr := py "seeedmote/mote/F0E3912CEC19/event"

/-- `{"packet_id":7,"rssi":"-60"}`. -/
def goodPayload : List UInt8 :=
  (py "\x7b\"packet_id\":7,\"rssi\":\"-60\"\x7d").map Nat.toUInt8

theorem good_message_survives :
    Survives asciiRuntime ⟨10, 10, 10⟩ eventTopic goodPayload (.init 500) := by
  refine ((ingestion_survives_iff asciiRuntime).1 _ _ _ _).mpr ?_
  exact (readFrame_isOk_iff _ _ _).mp (by decide +kernel)

/-- The payload `[]` on an event topic ends the network thread with an `AttributeError`. -/
theorem array_payload_raises :
    ¬∀ (rt : PyRuntime) (t : Readings) (topic : PyStr) (payload : List UInt8) (s : EventStore),
      Survives rt t topic payload s := by
  intro h
  have hok := (h asciiRuntime ⟨10, 10, 10⟩ eventTopic [0x5B, 0x5D] (.init 500)).1
  have herr : (onMessage asciiRuntime ⟨10, 10, 10⟩ eventTopic [0x5B, 0x5D]
      (.init 500)).result.isOk = false := by decide +kernel
  rw [hok] at herr
  simp at herr

end SeeedMote.App
