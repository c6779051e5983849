import SeeedMote.App.Store

/-! The store over whole runs of its methods. Against the list of all accepted events, the earliest
    first: the deque is its latest end turned round, the counter is its length, and every event in it
    left its gateway with an entry that was not seen earlier. -/

namespace SeeedMote.App
open Lib

/-- Clock readings of a call, in order. A rejected `add_event` makes the first only. -/
def StoreOp.times : StoreOp → List ℚ
  | .addEvent now nowTouch _ _ _ _ => [now, nowTouch]
  | .touchGateway now _ _ _ => [now]
  | .reapGateways now => [now]
  | .snapshot => []

/-- The store after a run. -/
def afterOps (maxEvents : ℕ) (ops : List StoreOp) : EventStore :=
  finalState storeStep (.init maxEvents) ops

/-- The events `add_event` accepts in a run. -/
def acceptedEvents (maxEvents : ℕ) (ops : List StoreOp) : List MotionEvent :=
  (outputs storeStep (.init maxEvents) ops).filterMap id

/-! ### The invariant -/

/-- The gateway of `ev` is known and was not seen for the last time before `ev` came. -/
def Seen (gw : Dict PyStr GatewayStatus) (ev : MotionEvent) : Prop :=
  ∃ e, gw.get? ev.gwId = some e ∧ ev.receivedAt ≤ e.lastSeen

/-- The store after `accepted` events; `times` are the readings so far. -/
structure History (maxEvents : ℕ) (s : EventStore) (accepted : List MotionEvent)
    (times : List ℚ) : Prop where
  maxlen : s.events.maxlen = maxEvents
  items : s.events.items = accepted.reverse.take maxEvents
  total : s.total = accepted.length
  read : ∀ ev ∈ accepted, ev.receivedAt ∈ times
  ordered : accepted.Pairwise fun ev ev' => ev.receivedAt ≤ ev'.receivedAt
  seen : ∀ ev ∈ accepted, Seen s.gw ev

theorem history_init (maxEvents : ℕ) : History maxEvents (.init maxEvents) [] [] where
  maxlen := rfl
  items := by rw [List.reverse_nil, List.take_nil]; rfl
  total := rfl
  read _ h := absurd h List.not_mem_nil
  ordered := .nil
  seen _ h := absurd h List.not_mem_nil

/-- An entry touched after the event. -/
theorem Seen.touch {gw : Dict PyStr GatewayStatus} {ev : MotionEvent} (h : Seen gw ev)
    {gwId : PyStr} {e : GatewayStatus} (hlater : ev.receivedAt ≤ e.lastSeen) :
    Seen (gw.set gwId e) ev := by
  rw [Seen, Dict.get?_set]
  split
  · exact ⟨e, rfl, hlater⟩
  · exact h

section Steps
variable {maxEvents : ℕ} {s : EventStore} {accepted : List MotionEvent} {times : List ℚ}

/-- A step that accepts nothing and keeps what every event is due. -/
theorem History.frame {s' : EventStore} (h : History maxEvents s accepted times)
    (hevents : s'.events = s.events) (htotal : s'.total = s.total)
    (hseen : ∀ ev ∈ accepted, Seen s.gw ev → Seen s'.gw ev) (more : List ℚ) :
    History maxEvents s' accepted (times ++ more) where
  maxlen := by rw [hevents]; exact h.maxlen
  items := by rw [hevents]; exact h.items
  total := by rw [htotal]; exact h.total
  read ev hev := List.mem_append_left _ (h.read ev hev)
  ordered := h.ordered
  seen ev hev := hseen ev hev (h.seen ev hev)

/-- An event is accepted at `now`, and its gateway touched at `nowTouch`. -/
theorem History.accept {s' : EventStore} (h : History maxEvents s accepted times)
    {ev : MotionEvent} {nowTouch : ℚ} {e : GatewayStatus}
    (hevents : s'.events = s.events.appendleft ev) (htotal : s'.total = s.total + 1)
    (hgw : s'.gw = s.gw.set ev.gwId e) (hlast : e.lastSeen = nowTouch)
    (hnow : ∀ t ∈ times, t ≤ ev.receivedAt) (htouch : ev.receivedAt ≤ nowTouch) :
    History maxEvents s' (accepted ++ [ev]) (times ++ [ev.receivedAt, nowTouch]) where
  maxlen := by rw [hevents]; exact h.maxlen
  items := by
    rw [hevents, Deque.items_appendleft, h.maxlen, h.items, Deque.take_cons_take,
      List.reverse_append]
    rfl
  total := by
    rw [htotal, h.total, List.length_append]
    rfl
  read ev' hev' := by
    rcases List.mem_append.mp hev' with hev' | hev'
    · exact List.mem_append_left _ (h.read ev' hev')
    · rw [List.mem_singleton.mp hev']
      exact List.mem_append_right _ (List.mem_cons_self ..)
  ordered := by
    refine List.pairwise_append.mpr ⟨h.ordered, List.pairwise_singleton _ _, ?_⟩
    intro ev' hev' d hd
    rw [List.mem_singleton.mp hd]
    exact hnow _ (h.read ev' hev')
  seen ev' hev' := by
    rw [hgw]
    rcases List.mem_append.mp hev' with hev' | hev'
    · refine (h.seen ev' hev').touch ?_
      rw [hlast]
      exact (hnow _ (h.read ev' hev')).trans htouch
    · rw [List.mem_singleton.mp hev']
      exact ⟨e, Dict.get?_set_self .., hlast ▸ htouch⟩

/-- One method call. -/
theorem history_step (h : History maxEvents s accepted times) (op : StoreOp)
    (hlater : ∀ t ∈ times, ∀ u ∈ op.times, t ≤ u) (hord : op.times.Pairwise (· ≤ ·)) :
    History maxEvents (storeStep s op).1 (accepted ++ (storeStep s op).2.filterMap id)
      (times ++ op.times) := by
  cases op with
  | addEvent now nowTouch moteMac gwId packetId rssi =>
    rw [storeStep]
    rcases addEvent_cases s now nowTouch moteMac gwId packetId rssi with
      hadd | ⟨store, stored, hadd, rfl, hevents, htotal, hgw⟩
    · simp only [hadd, List.filterMap_cons, id, List.filterMap_nil, List.append_nil]
      exact h.frame rfl rfl (fun _ _ hs => hs) [now, nowTouch]
    · rw [hadd]
      refine h.accept hevents htotal hgw rfl (fun t ht => hlater t ht _ ?_) ?_
      · exact List.mem_cons_self ..
      · simpa [StoreOp.times] using hord
  | touchGateway now gwId rssi version =>
    have hnow : ∀ t ∈ times, t ≤ now := fun t ht => hlater t ht now (List.mem_singleton_self _)
    simp only [storeStep, List.filterMap_nil, List.append_nil]
    refine h.frame ?_ ?_ (fun ev hev hs => hs.touch (hnow _ (h.read ev hev))) [now]
    · rfl
    · rfl
  | reapGateways now =>
    simp only [storeStep, List.filterMap_nil, List.append_nil]
    refine h.frame ?_ ?_ ?_ [now]
    · rfl
    · rfl
    · rintro ev _ ⟨e, he, hle⟩
      refine ⟨sweptEntry now e, by rw [get?_reapGateways, he]; rfl, ?_⟩
      rw [lastSeen_sweptEntry]
      exact hle
  | snapshot =>
    simp only [storeStep, List.filterMap_nil, List.append_nil]
    exact h.frame rfl rfl (fun _ _ hs => hs) []

/-- A run of method calls. -/
theorem history_run : ∀ (ops : List StoreOp) {s : EventStore} {accepted : List MotionEvent}
    {times : List ℚ}, History maxEvents s accepted times →
      (times ++ ops.flatMap StoreOp.times).Pairwise (· ≤ ·) →
      History maxEvents (finalState storeStep s ops)
        (accepted ++ (outputs storeStep s ops).filterMap id)
        (times ++ ops.flatMap StoreOp.times) := by
  intro ops
  induction ops with
  | nil =>
    intro s accepted times h _
    simpa [finalState, outputs] using h
  | cons op ops ih =>
    intro s accepted times h hord
    rw [List.flatMap_cons, ← List.append_assoc] at hord ⊢
    obtain ⟨hop, -, -⟩ := List.pairwise_append.mp hord
    obtain ⟨-, hself, hlater⟩ := List.pairwise_append.mp hop
    rw [finalState, outputs, List.filterMap_append, ← List.append_assoc]
    exact ih (history_step h op hlater hself) hord

end Steps

/-- In every run on a clock that does not go back, `snapshot` returns the number of accepted events and
    the latest of them, as many as the deque holds, the latest first and in the order of their times;
    every event's gateway has an entry last seen no earlier than the event; and an `add_event` that
    returns nothing changes nothing. -/
theorem store_history (maxEvents : ℕ) {ops : List StoreOp}
    (hclock : (ops.flatMap StoreOp.times).Pairwise (· ≤ ·)) :
    let s := afterOps maxEvents ops
    let accepted := acceptedEvents maxEvents ops
    let (events, gateways, total) := s.snapshot
    total = accepted.length ∧
    events = accepted.reverse.take (min total maxEvents) ∧
    events.Pairwise (fun ev ev' => ev'.receivedAt ≤ ev.receivedAt) ∧
    (∀ ev ∈ accepted, ∃ e, gateways.get? ev.gwId = some e ∧ ev.receivedAt ≤ e.lastSeen) ∧
    ∀ now nowTouch moteMac gwId packetId rssi,
      (s.addEvent now nowTouch moteMac gwId packetId rssi).2 = none →
        (s.addEvent now nowTouch moteMac gwId packetId rssi).1 = s := by
  have h := history_run ops (history_init maxEvents) (by simpa using hclock)
  rw [List.nil_append] at h
  have hitems : (afterOps maxEvents ops).events.items
      = (acceptedEvents maxEvents ops).reverse.take maxEvents := h.items
  have htotal : (afterOps maxEvents ops).total = (acceptedEvents maxEvents ops).length := h.total
  refine ⟨htotal, ?_, ?_, h.seen, ?_⟩
  · rw [hitems, List.take_eq_take_min, htotal, List.length_reverse, Nat.min_comm]
  · rw [hitems]
    exact (List.pairwise_reverse.mpr h.ordered).sublist (List.take_sublist _ _)
  · intro now nowTouch moteMac gwId packetId rssi hnone
    rcases addEvent_cases (afterOps maxEvents ops) now nowTouch moteMac gwId packetId rssi with
      hadd | ⟨store, stored, hadd, -⟩
    · rw [hadd]
    · simp [hadd] at hnone

/-- Two gateways forward one pickup; a second pickup follows, and a sweep. -/
def sampleOps : List StoreOp :=
  [.touchGateway 0 (py "gw-a") none (some (py "1.0")),
    .addEvent 10 10 (py "f0e3912cec19") (py "gw-a") 7 (-60),
    .addEvent 11 11 (py "f0e3912cec19") (py "gw-b") 7 (-71),
    .addEvent 20 21 (py "f0e3912cec19") (py "gw-b") 8 (-70), .reapGateways 135]

theorem store_history_sample :
    (afterOps 1 sampleOps).snapshot.1 = [⟨py "f0e3912cec19", py "gw-b", -70, 8, 20⟩] ∧
      (afterOps 1 sampleOps).snapshot.2.2 = 2 := by
  obtain ⟨htotal, hitems, -⟩ := store_history 1
    (by decide +kernel : (sampleOps.flatMap StoreOp.times).Pairwise (· ≤ ·))
  refine ⟨hitems.trans ?_, htotal.trans ?_⟩
  · decide +kernel
  · decide +kernel

end SeeedMote.App
