import Mathlib.Algebra.Order.Ring.Rat
import SeeedMote.Lib.Dict
import SeeedMote.Lib.PyText
import SeeedMote.Lib.Window

/-! `EventStore` of `store.py`: the recent events, the dedup keys with the time each was accepted,
    and the gateways. A method takes the clock readings it makes as arguments, in the order it makes
    them; one call is one step, as `self._lock` makes it one.

    The dedup decision is that of the ideal window filter, whatever the garbage collection of the
    key table removes. -/

namespace SeeedMote.App
open Lib

def gatewayOnlineTtlS : ℚ := 120
def dedupTtlS : ℚ := 2

/-- Size of the key table above which it is pruned. -/
def seenGcSize : ℕ := 4096

structure MotionEvent where
  moteMac : PyStr
  gwId : PyStr
  rssi : ℤ
  packetId : ℤ
  receivedAt : ℚ
  deriving DecidableEq

/-- A gateway entry; `version` is missing until a status message brings one. -/
structure GatewayStatus where
  gwId : PyStr
  lastRssi : Option ℤ
  lastSeen : ℚ
  online : Bool
  version : Option PyStr
  deriving DecidableEq

structure EventStore where
  events : Deque MotionEvent
  seen : Dict (PyStr × ℤ) ℚ
  gw : Dict PyStr GatewayStatus
  total : ℕ
  deriving DecidableEq

/-- `EventStore(max_events)`. -/
def EventStore.init (maxEvents : ℕ) : EventStore := ⟨.empty maxEvents, .empty, .empty, 0⟩

/-! ### The methods -/

/-- The entry `_touch_gateway_locked` leaves for `gwId`, from the entry before. -/
def touchedEntry (gwId : PyStr) (rssi : Option ℤ) (version : Option PyStr) (now : ℚ)
    (entry : Option GatewayStatus) : GatewayStatus where
  gwId := (entry.map GatewayStatus.gwId).getD gwId
  lastRssi := rssi.or (entry.bind GatewayStatus.lastRssi)
  lastSeen := now
  online := true
  version := version.or (entry.bind GatewayStatus.version)

/-- `_touch_gateway_locked`. -/
def EventStore.touchGatewayLocked (s : EventStore) (now : ℚ) (gwId : PyStr) (rssi : Option ℤ)
    (version : Option PyStr) : EventStore × GatewayStatus :=
  let entry := touchedEntry gwId rssi version now (s.gw.get? gwId)
  ({ s with gw := s.gw.set gwId entry }, entry)

/-- `touch_gateway`. -/
def EventStore.touchGateway (s : EventStore) (now : ℚ) (gwId : PyStr) (rssi : Option ℤ)
    (version : Option PyStr) : EventStore × GatewayStatus :=
  s.touchGatewayLocked now gwId rssi version

/-- `{k: t for k, t in self._seen.items() if now - t < DEDUP_TTL_S}`. -/
def dropStale (now : ℚ) (seen : Dict (PyStr × ℤ) ℚ) : Dict (PyStr × ℤ) ℚ :=
  seen.filter fun _ t => now - t < dedupTtlS

/-- The opportunistic garbage collection of `add_event`. -/
def gcSeen (now : ℚ) (seen : Dict (PyStr × ℤ) ℚ) : Dict (PyStr × ℤ) ℚ :=
  if seen.size > seenGcSize then dropStale now seen else seen

/-- `prev is not None and now - prev < DEDUP_TTL_S`. -/
def EventStore.isDuplicate (s : EventStore) (now : ℚ) (key : PyStr × ℤ) : Bool :=
  match s.seen.get? key with
  | some prev => now - prev < dedupTtlS
  | none => false

/-- `add_event`; `nowTouch` is the reading made by `_touch_gateway_locked`. -/
def EventStore.addEvent (s : EventStore) (now nowTouch : ℚ) (moteMac gwId : PyStr)
    (packetId rssi : ℤ) : EventStore × Option MotionEvent :=
  if moteMac = [] then (s, none)
  else
    let key := (moteMac, packetId)
    if s.isDuplicate now key then (s, none)
    else
      let stored : MotionEvent := ⟨moteMac, gwId, rssi, packetId, now⟩
      let s := { s with
        seen := gcSeen now (s.seen.set key now)
        events := s.events.appendleft stored
        total := s.total + 1 }
      ((s.touchGatewayLocked nowTouch gwId (some rssi) none).1, some stored)

/-- `add_event` changes nothing, or it puts one event in front, counts it and touches the gateway. -/
theorem addEvent_cases (s : EventStore) (now nowTouch : ℚ) (moteMac gwId : PyStr)
    (packetId rssi : ℤ) :
    s.addEvent now nowTouch moteMac gwId packetId rssi = (s, none) ∨
      ∃ store stored, s.addEvent now nowTouch moteMac gwId packetId rssi = (store, some stored) ∧
        stored = ⟨moteMac, gwId, rssi, packetId, now⟩ ∧
        store.events = s.events.appendleft stored ∧ store.total = s.total + 1 ∧
        store.gw = s.gw.set gwId (touchedEntry gwId (some rssi) none nowTouch (s.gw.get? gwId)) := by
  simp only [EventStore.addEvent]
  by_cases hmac : moteMac = []
  · rw [if_pos hmac]; exact .inl rfl
  · rw [if_neg hmac]
    by_cases hdup : s.isDuplicate now (moteMac, packetId) = true
    · rw [if_pos hdup]; exact .inl rfl
    · rw [if_neg hdup]; exact .inr ⟨_, _, rfl, rfl, rfl, rfl, rfl⟩

/-- `stale and entry.get("online", True)`. -/
def flips (now : ℚ) (entry : GatewayStatus) : Bool :=
  now - entry.lastSeen > gatewayOnlineTtlS && entry.online

/-- `reap_gateways`. -/
def EventStore.reapGateways (s : EventStore) (now : ℚ) : EventStore × List PyStr :=
  ({ s with gw := s.gw.mapVals fun _ e => if flips now e then { e with online := false } else e },
    (s.gw.entries.filter fun e => flips now e.2).map Prod.fst)

/-- An entry after a sweep. -/
def sweptEntry (now : ℚ) (e : GatewayStatus) : GatewayStatus :=
  if flips now e then { e with online := false } else e

@[simp] theorem lastSeen_sweptEntry (now : ℚ) (e : GatewayStatus) :
    (sweptEntry now e).lastSeen = e.lastSeen := by
  rw [sweptEntry]
  split <;> rfl

theorem get?_reapGateways (s : EventStore) (now : ℚ) (gwId : PyStr) :
    (s.reapGateways now).1.gw.get? gwId = (s.gw.get? gwId).map (sweptEntry now) :=
  Dict.get?_mapVals _ s.gw gwId

/-- A sweep reports exactly the entries it flips. -/
theorem mem_reapGateways (s : EventStore) (now : ℚ) (gwId : PyStr) :
    gwId ∈ (s.reapGateways now).2 ↔ ∃ e, s.gw.get? gwId = some e ∧ flips now e = true := by
  constructor
  · intro h
    obtain ⟨e, he, rfl⟩ := List.mem_map.mp h
    obtain ⟨hmem, hflip⟩ := List.mem_filter.mp he
    exact ⟨e.2, (Dict.mem_entries_iff s.gw e.1 e.2).mp hmem, hflip⟩
  · rintro ⟨e, he, hflip⟩
    exact List.mem_map.mpr ⟨(gwId, e), List.mem_filter.mpr
      ⟨(Dict.mem_entries_iff s.gw gwId e).mpr he, hflip⟩, rfl⟩

/-- `snapshot`. -/
def EventStore.snapshot (s : EventStore) : List MotionEvent × Dict PyStr GatewayStatus × ℕ :=
  (s.events.items, s.gw, s.total)

/-! ### Runs of the store -/

/-- A method call with its clock readings. -/
inductive StoreOp where
  | addEvent (now nowTouch : ℚ) (moteMac gwId : PyStr) (packetId rssi : ℤ)
  | touchGateway (now : ℚ) (gwId : PyStr) (rssi : Option ℤ) (version : Option PyStr)
  | reapGateways (now : ℚ)
  | snapshot
  deriving DecidableEq

/-- One method call; the output is what `add_event` returns. -/
def storeStep (s : EventStore) : StoreOp → EventStore × List (Option MotionEvent)
  | .addEvent now nowTouch moteMac gwId packetId rssi =>
    let (s', r) := s.addEvent now nowTouch moteMac gwId packetId rssi
    (s', [r])
  | .touchGateway now gwId rssi version => ((s.touchGateway now gwId rssi version).1, [])
  | .reapGateways now => ((s.reapGateways now).1, [])
  | .snapshot => (s, [])

/-- What the decision of an `add_event` call depends on: its key and its clock reading. -/
def StoreOp.call? : StoreOp → Option ((PyStr × ℤ) × ℚ)
  | .addEvent now _ moteMac _ packetId _ => some ((moteMac, packetId), now)
  | _ => none

/-- Which calls of `add_event` accept, in their order. -/
def decisions (s : EventStore) (ops : List StoreOp) : List Bool :=
  (outputs storeStep s ops).map Option.isSome

/-! ### One call against the ideal filter -/

/-- The ideal filter of the `add_event` calls; the other methods do not concern it. -/
def idealStep (hist : List ((PyStr × ℤ) × ℚ)) (op : StoreOp) :
    List ((PyStr × ℤ) × ℚ) × List Bool :=
  match op.call? with
  | some call => windowStep dedupTtlS hist call
  | none => (hist, [])

/-- What the garbage collection leaves is small or fresh. -/
def SmallOrFresh (hist : List ((PyStr × ℤ) × ℚ)) (now : ℚ) (seen : Dict (PyStr × ℤ) ℚ) : Prop :=
  seen.size ≤ seenGcSize ∨ ∀ k ∈ seen.keys, Recent dedupTtlS hist k now

theorem isDuplicate_iff (s : EventStore) (now : ℚ) (key : PyStr × ℤ) :
    s.isDuplicate now key = true ↔ ∃ t, s.seen.get? key = some t ∧ now - t < dedupTtlS := by
  rw [EventStore.isDuplicate]
  cases s.seen.get? key <;> simp

/-- Pruning forgets expired keys only. -/
theorem covers_dropStale {hist : List ((PyStr × ℤ) × ℚ)} {now : ℚ} {seen : Dict (PyStr × ℤ) ℚ}
    (h : Covers dedupTtlS now hist seen.get?) :
    Covers dedupTtlS now hist (dropStale now seen).get? :=
  h.prune fun k t => by rw [dropStale, Dict.get?_filter_eq_some_iff, decide_eq_true_eq]

theorem covers_gcSeen {hist : List ((PyStr × ℤ) × ℚ)} {now : ℚ} {seen : Dict (PyStr × ℤ) ℚ}
    (h : Covers dedupTtlS now hist seen.get?) :
    Covers dedupTtlS now hist (gcSeen now seen).get? := by
  rw [gcSeen]
  split
  · exact covers_dropStale h
  · exact h

theorem gcSeen_smallOrFresh {hist : List ((PyStr × ℤ) × ℚ)} {now : ℚ} {seen : Dict (PyStr × ℤ) ℚ}
    (h : Covers dedupTtlS now hist seen.get?) : SmallOrFresh hist now (gcSeen now seen) := by
  rw [gcSeen]
  split
  · refine Or.inr ?_
    intro k hk
    obtain ⟨⟨_, t⟩, hm, rfl⟩ := List.mem_map.mp hk
    obtain ⟨ht, hlt⟩ := (Dict.get?_filter_eq_some_iff _ _ _ _).mp ((Dict.mem_entries_iff _ _ _).mp hm)
    exact ⟨_, h.sound _ t ht, rfl, of_decide_eq_true hlt⟩
  · next hsize => exact Or.inl (Nat.le_of_not_lt hsize)

/-- One `add_event` call on a key table that covers the history. -/
theorem addEvent_spec {s : EventStore} {hist : List ((PyStr × ℤ) × ℚ)} {now : ℚ}
    (h : Covers dedupTtlS now hist s.seen.get?) (nowTouch : ℚ) {moteMac : PyStr}
    (hmac : moteMac ≠ []) (gwId : PyStr) (packetId rssi : ℤ) :
    let call := ((moteMac, packetId), now)
    let r := s.addEvent now nowTouch moteMac gwId packetId rssi
    (windowStep dedupTtlS hist call).2 = [r.2.isSome] ∧
      Covers dedupTtlS now (windowStep dedupTtlS hist call).1 r.1.seen.get? ∧
      (r.2.isSome → SmallOrFresh (windowStep dedupTtlS hist call).1 now r.1.seen) := by
  have hdup := (isDuplicate_iff s now (moteMac, packetId)).trans (h.decides _)
  simp only [EventStore.addEvent, if_neg hmac, windowStep]
  by_cases hr : Recent dedupTtlS hist (moteMac, packetId) now
  · rw [if_pos (hdup.mpr hr), if_pos hr]
    exact ⟨rfl, h, by simp⟩
  · have hacc := h.accept (moteMac, packetId)
      fun k' => Dict.get?_set s.seen (moteMac, packetId) k' now
    rw [if_neg (fun hd => hr (hdup.mp hd)), if_neg hr]
    exact ⟨rfl, covers_gcSeen hacc, fun _ => gcSeen_smallOrFresh hacc⟩

/-- An operation that is no `add_event` call leaves the key table alone and decides nothing. -/
theorem storeStep_of_no_call (s : EventStore) {op : StoreOp} (h : op.call? = none) :
    (storeStep s op).2 = [] ∧ (storeStep s op).1.seen = s.seen := by
  cases op with
  | addEvent => simp [StoreOp.call?] at h
  | touchGateway => exact ⟨rfl, rfl⟩
  | reapGateways => exact ⟨rfl, rfl⟩
  | snapshot => exact ⟨rfl, rfl⟩

/-! ### Runs against the ideal filter -/

/-- Clock readings of the `add_event` calls. -/
def callTimes (ops : List StoreOp) : List ℚ := (ops.filterMap StoreOp.call?).map Prod.snd

theorem callTimes_cons_call {op : StoreOp} {call : (PyStr × ℤ) × ℚ} (h : op.call? = some call)
    (ops : List StoreOp) : callTimes (op :: ops) = call.2 :: callTimes ops := by
  simp [callTimes, h]

theorem callTimes_cons_no_call {op : StoreOp} (h : op.call? = none) (ops : List StoreOp) :
    callTimes (op :: ops) = callTimes ops := by
  simp [callTimes, h]

/-- Every `add_event` call names a mote. -/
def MacsNonempty (ops : List StoreOp) : Prop :=
  ∀ call ∈ ops.filterMap StoreOp.call?, call.1.1 ≠ []

instance (ops : List StoreOp) : Decidable (MacsNonempty ops) :=
  inferInstanceAs (Decidable (∀ call ∈ ops.filterMap StoreOp.call?, call.1.1 ≠ []))

theorem MacsNonempty.of_append {pre post : List StoreOp} (h : MacsNonempty (pre ++ post)) :
    MacsNonempty pre ∧ MacsNonempty post := by
  simp only [MacsNonempty, List.filterMap_append, List.mem_append] at h
  exact ⟨fun c hc => h c (.inl hc), fun c hc => h c (.inr hc)⟩

theorem exists_of_call {op : StoreOp} {call : (PyStr × ℤ) × ℚ} (h : op.call? = some call) :
    ∃ nowTouch gwId rssi, op = .addEvent call.2 nowTouch call.1.1 gwId call.1.2 rssi := by
  cases op with
  | addEvent now nowTouch moteMac gwId packetId rssi =>
    obtain rfl := Option.some.inj h
    exact ⟨nowTouch, gwId, rssi, rfl⟩
  | touchGateway => simp [StoreOp.call?] at h
  | reapGateways => simp [StoreOp.call?] at h
  | snapshot => simp [StoreOp.call?] at h

/-- A run decides like the full history, and its key table covers that history at every later
    time. -/
theorem run_covers : ∀ (ops : List StoreOp) {s : EventStore} {hist : List ((PyStr × ℤ) × ℚ)}
    {clock : ℚ}, Covers dedupTtlS clock hist s.seen.get? → MacsNonempty ops →
      (clock :: callTimes ops).Pairwise (· ≤ ·) →
      decisions s ops = outputs idealStep hist ops ∧
        ∀ now, (∀ t ∈ clock :: callTimes ops, t ≤ now) →
          Covers dedupTtlS now (finalState idealStep hist ops)
            (finalState storeStep s ops).seen.get? := by
  intro ops
  induction ops with
  | nil =>
    intro s hist clock h _ _
    exact ⟨rfl, fun now hnow => h.later (hnow clock (List.mem_cons_self ..))⟩
  | cons op ops ih =>
    intro s hist clock h hmac hclock
    have hmac' := (@MacsNonempty.of_append [op] ops hmac).2
    rw [decisions, outputs, outputs, finalState, finalState, List.map_append, idealStep]
    cases hc : op.call? with
    | none =>
      obtain ⟨hout, hseen⟩ := storeStep_of_no_call s hc
      rw [callTimes_cons_no_call hc] at hclock ⊢
      rw [hout]
      exact ih (hseen ▸ h) hmac' hclock
    | some call =>
      obtain ⟨nowTouch, gwId, rssi, rfl⟩ := exists_of_call hc
      rw [callTimes_cons_call hc] at hclock ⊢
      obtain ⟨hle, hclock'⟩ := List.pairwise_cons.mp hclock
      obtain ⟨hout, hcov, -⟩ := addEvent_spec (h.later (hle call.2 (by simp))) nowTouch
        (hmac call (by simp [StoreOp.call?])) gwId call.1.2 rssi
      obtain ⟨hdec, hlater⟩ := ih hcov hmac' hclock'
      refine ⟨?_, fun now hnow => hlater now fun t ht => hnow t (List.mem_cons_of_mem _ ht)⟩
      rw [hout, ← hdec]
      rfl

/-- A run from the empty store, at any time after it. -/
theorem run_covers_init (maxEvents : ℕ) (ops : List StoreOp) (hmac : MacsNonempty ops)
    (hclock : (callTimes ops).Pairwise (· ≤ ·)) :
    decisions (.init maxEvents) ops = outputs idealStep [] ops ∧
      ∀ now, (∀ t ∈ callTimes ops, t ≤ now) →
        Covers dedupTtlS now (finalState idealStep [] ops)
          (finalState storeStep (.init maxEvents) ops).seen.get? := by
  have hcov : ∀ clock, Covers dedupTtlS clock [] (EventStore.init maxEvents).seen.get? :=
    Covers.nil dedupTtlS
  cases hts : callTimes ops with
  | nil =>
    refine ⟨(run_covers ops (hcov 0) hmac (by simp [hts])).1, fun now _ => ?_⟩
    exact (run_covers ops (hcov now) hmac (by simp [hts])).2 now (by simp [hts])
  | cons t ts =>
    have hpair : (t :: callTimes ops).Pairwise (· ≤ ·) := by
      rw [hts] at hclock ⊢
      exact List.pairwise_cons.mpr
        ⟨fun u hu => (List.mem_cons.mp hu).elim (fun h => h.ge) (List.rel_of_pairwise_cons hclock),
          hclock⟩
    obtain ⟨hdec, hlater⟩ := run_covers ops (hcov t) hmac hpair
    exact ⟨hdec, fun now hnow => hlater now fun u hu => hnow u (by simpa [hts] using hu)⟩

/-- The store accepts exactly what a filter with unlimited memory accepts; after every accepted call
    its key table is small or holds fresh keys only; and pruning the table, at whatever moment, is
    invisible to every later decision. -/
theorem store_decides_ideally (maxEvents : ℕ) (ops : List StoreOp) (hmac : MacsNonempty ops)
    (hclock : (callTimes ops).Pairwise (· ≤ ·)) :
    decisions (.init maxEvents) ops = outputs idealStep [] ops ∧
      (∀ pre post now nowTouch moteMac gwId packetId rssi,
        ops = pre ++ .addEvent now nowTouch moteMac gwId packetId rssi :: post →
        let s := finalState storeStep (.init maxEvents) pre
        let r := s.addEvent now nowTouch moteMac gwId packetId rssi
        r.2.isSome → SmallOrFresh
          (idealStep (finalState idealStep [] pre)
            (.addEvent now nowTouch moteMac gwId packetId rssi)).1 now r.1.seen) ∧
      ∀ pre post now, ops = pre ++ post → (∀ t ∈ callTimes pre, t ≤ now) →
        (∀ t ∈ callTimes post, now ≤ t) →
        let s := finalState storeStep (.init maxEvents) pre
        decisions { s with seen := dropStale now s.seen } post = decisions s post := by
  have happend : ∀ pre post : List StoreOp, callTimes (pre ++ post) = callTimes pre ++ callTimes post :=
    fun pre post => by simp [callTimes]
  refine ⟨(run_covers_init maxEvents ops hmac hclock).1, ?_, ?_⟩
  · intro pre post now nowTouch moteMac gwId packetId rssi hops s r
    subst hops
    rw [happend] at hclock
    obtain ⟨hpre, -, hcross⟩ := List.pairwise_append.mp hclock
    have hcov := (run_covers_init maxEvents pre hmac.of_append.1 hpre).2 now
      fun t ht => hcross t ht now (by simp [callTimes, StoreOp.call?])
    exact (addEvent_spec hcov nowTouch (hmac ((moteMac, packetId), now) (by simp [StoreOp.call?])) gwId
      packetId rssi).2.2
  · intro pre post now hops hbefore hafter s
    subst hops
    rw [happend] at hclock
    obtain ⟨hpre, hpost, -⟩ := List.pairwise_append.mp hclock
    have hcov := (run_covers_init maxEvents pre hmac.of_append.1 hpre).2 now
      hbefore
    have hmac' := hmac.of_append.2
    have hpair := List.pairwise_cons.mpr ⟨hafter, hpost⟩
    rw [(run_covers post hcov hmac' hpair).1]
    exact (run_covers (s := { s with seen := dropStale now s.seen }) post (covers_dropStale hcov)
      hmac' hpair).1

/-- One pickup heard by two gateways, then the same packet id again after the window. -/
def twoGateways : List StoreOp :=
  [.addEvent 10 10 (py "f0e3912cec19") (py "gw-a") 7 (-60),
    .addEvent 11 11 (py "f0e3912cec19") (py "gw-b") 7 (-70),
    .addEvent 12 12 (py "f0e3912cec19") (py "gw-b") 7 (-70)]

theorem store_decides_two_gateways :
    decisions (.init 500) twoGateways = outputs idealStep [] twoGateways ∧
      decisions (.init 500) twoGateways = [true, false, true] := by
  exact ⟨(store_decides_ideally 500 twoGateways (by decide +kernel) (by decide +kernel)).1,
    by decide +kernel⟩

end SeeedMote.App
