import Mathlib.Data.List.Chain
import Mathlib.Data.List.Induction
import SeeedMote.App.History

/-! The gateways of the store over whole runs, against the log of what happened to them: a touch, with
    what it brings, or a report by a sweep. An entry is the digest of its gateway's part of the log, and
    with every sweep `online` is exact.

        touch ──▶ online ──sweep, > 120 s after the last touch──▶ reported, offline
                    ▲                                                │
                    └───────────────────── touch ────────────────────┘ -/

namespace SeeedMote.App
open Lib

/-- One call of `_touch_gateway_locked`: its clock reading, and what it supplies. -/
structure Touch where
  now : ℚ
  rssi : Option ℤ
  version : Option PyStr
  deriving DecidableEq

/-- What happens to a gateway. -/
inductive GatewayChange where
  | touched (gwId : PyStr) (touch : Touch)
  | reported (gwId : PyStr)
  deriving DecidableEq

namespace GatewayChange

def gwId : GatewayChange → PyStr
  | touched gwId _ => gwId
  | reported gwId => gwId

def touch? : GatewayChange → Option Touch
  | touched _ touch => some touch
  | reported _ => none

end GatewayChange

/-- One method call; the output is what it does to gateways. -/
def gatewayStep (s : EventStore) (op : StoreOp) : EventStore × List GatewayChange :=
  ((storeStep s op).1, match op with
    | .addEvent now nowTouch moteMac gwId packetId rssi =>
      if (s.addEvent now nowTouch moteMac gwId packetId rssi).2.isSome then
        [.touched gwId ⟨nowTouch, some rssi, none⟩]
      else []
    | .touchGateway now gwId rssi version => [.touched gwId ⟨now, rssi, version⟩]
    | .reapGateways now => (s.reapGateways now).2.map .reported
    | .snapshot => [])

/-- What happens to the gateways in a run. -/
def gatewayLog (maxEvents : ℕ) (ops : List StoreOp) : List GatewayChange :=
  outputs gatewayStep (.init maxEvents) ops

section Digest
variable (gwId : PyStr) (log : List GatewayChange)

/-- The part of the log about one gateway. -/
def changesOf : List GatewayChange := log.filter fun c => c.gwId = gwId

/-- The touches of one gateway, earliest first. -/
def touchesOf : List Touch := (changesOf gwId log).filterMap GatewayChange.touch?

/-- The latest change is a touch. -/
def touchedLast : Bool := (changesOf gwId log).getLast?.any fun c => c.touch?.isSome

/-- A gateway's entry: seen at its last touch, with the last signal strength and the last version that
    any touch supplied, and online unless it was reported since. -/
def entryOf : Option GatewayStatus :=
  (touchesOf gwId log).getLast?.map fun touch =>
    { gwId
      lastRssi := ((touchesOf gwId log).filterMap Touch.rssi).getLast?
      lastSeen := touch.now
      online := touchedLast gwId log
      version := ((touchesOf gwId log).filterMap Touch.version).getLast? }

end Digest

/-! ### The digest of a longer log -/

section Append
variable (gwId : PyStr) (log : List GatewayChange)

theorem changesOf_append (more : List GatewayChange) :
    changesOf gwId (log ++ more) = changesOf gwId log ++ changesOf gwId more := List.filter_append ..

theorem changesOf_touched (g : PyStr) (touch : Touch) :
    changesOf gwId [.touched g touch] = if g = gwId then [.touched g touch] else [] := by
  by_cases hg : g = gwId
  · simp [changesOf, GatewayChange.gwId, hg]
  · simp [changesOf, GatewayChange.gwId, hg]

theorem changesOf_reported {reports : List PyStr} (h : reports.Nodup) :
    changesOf gwId (reports.map .reported) = if gwId ∈ reports then [.reported gwId] else [] := by
  have hfilter : changesOf gwId (reports.map .reported)
      = (reports.filter (· = gwId)).map .reported := by
    rw [changesOf, List.filter_map]
    rfl
  rw [hfilter, List.filter_eq, h.count]
  split <;> rfl

/-- What the last touch to supply a value supplied. -/
theorem getLast?_filterMap_concat {B : Type} (f : Touch → Option B) (touches : List Touch)
    (touch : Touch) : ((touches ++ [touch]).filterMap f).getLast?
      = (f touch).or (touches.filterMap f).getLast? := by
  rw [List.filterMap_append, List.getLast?_append]
  cases hf : f touch with
  | none => simp [hf]
  | some b => simp [hf]

/-- A field of the digest that is there only with a touch. -/
theorem entryOf_bind {B : Type} (f : Touch → Option B) (field : GatewayStatus → Option B)
    (hfield : ∀ e, entryOf gwId log = some e →
      field e = ((touchesOf gwId log).filterMap f).getLast?) :
    (entryOf gwId log).bind field = ((touchesOf gwId log).filterMap f).getLast? := by
  cases he : entryOf gwId log with
  | some e => exact hfield e he
  | none =>
    rw [entryOf, Option.map_eq_none_iff, List.getLast?_eq_none_iff] at he
    rw [he]
    rfl

/-- A touch replaces the entry as `_touch_gateway_locked` does. -/
theorem entryOf_touched (touch : Touch) : entryOf gwId (log ++ [.touched gwId touch])
    = some (touchedEntry gwId touch.rssi touch.version touch.now (entryOf gwId log)) := by
  have htouches : touchesOf gwId (log ++ [.touched gwId touch]) = touchesOf gwId log ++ [touch] := by
    rw [touchesOf, changesOf_append, changesOf_touched, if_pos rfl, List.filterMap_append]
    rfl
  have hlast : touchedLast gwId (log ++ [.touched gwId touch]) = true := by
    rw [touchedLast, changesOf_append, changesOf_touched, if_pos rfl, List.getLast?_concat]
    rfl
  have hrssi := entryOf_bind gwId log Touch.rssi GatewayStatus.lastRssi fun e he => by
    obtain ⟨t, -, rfl⟩ := Option.map_eq_some_iff.mp he
    rfl
  have hversion := entryOf_bind gwId log Touch.version GatewayStatus.version fun e he => by
    obtain ⟨t, -, rfl⟩ := Option.map_eq_some_iff.mp he
    rfl
  have hid : ((entryOf gwId log).map GatewayStatus.gwId).getD gwId = gwId := by
    rw [entryOf, Option.map_map]
    cases (touchesOf gwId log).getLast? <;> rfl
  rw [touchedEntry, hrssi, hversion, hid, entryOf, htouches, hlast, List.getLast?_concat,
    getLast?_filterMap_concat, getLast?_filterMap_concat]
  rfl

theorem entryOf_touched_ne {g : PyStr} (hg : g ≠ gwId) (touch : Touch) :
    entryOf gwId (log ++ [.touched g touch]) = entryOf gwId log := by
  have hsame : changesOf gwId (log ++ [.touched g touch]) = changesOf gwId log := by
    rw [changesOf_append, changesOf_touched, if_neg hg, List.append_nil]
  rw [entryOf, entryOf, touchesOf, touchesOf, touchedLast, touchedLast, hsame]

/-- A report only marks the entry offline. -/
theorem entryOf_reported {reports : List PyStr} (h : reports.Nodup) :
    entryOf gwId (log ++ reports.map .reported) = (entryOf gwId log).map fun e =>
      if gwId ∈ reports then { e with online := false } else e := by
  by_cases hg : gwId ∈ reports
  · have htouches : touchesOf gwId (log ++ reports.map .reported) = touchesOf gwId log := by
      rw [touchesOf, changesOf_append, changesOf_reported gwId h, if_pos hg, List.filterMap_append]
      exact List.append_nil _
    have hlast : touchedLast gwId (log ++ reports.map .reported) = false := by
      rw [touchedLast, changesOf_append, changesOf_reported gwId h, if_pos hg, List.getLast?_concat]
      rfl
    rw [entryOf, entryOf, htouches, hlast, Option.map_map]
    simp only [if_pos hg]
    rfl
  · have hsame : changesOf gwId (log ++ reports.map .reported) = changesOf gwId log := by
      rw [changesOf_append, changesOf_reported gwId h, if_neg hg, List.append_nil]
    simp only [if_neg hg, Option.map_id']
    rw [entryOf, entryOf, touchesOf, touchesOf, touchedLast, touchedLast, hsame]

end Append

/-! ### The invariant -/

/-- Online, as the store has it. -/
def EventStore.Online (s : EventStore) (gwId : PyStr) : Prop :=
  ∃ e, s.gw.get? gwId = some e ∧ e.online = true

/-- The store after a run with this log; `times` are the readings so far. -/
structure Logged (s : EventStore) (log : List GatewayChange) (times : List ℚ) : Prop where
  entry : ∀ gwId, s.gw.get? gwId = entryOf gwId log
  stale : ∀ gwId e, s.gw.get? gwId = some e → e.online = false →
    ∃ t ∈ times, gatewayOnlineTtlS < t - e.lastSeen
  alternate : ∀ gwId, (changesOf gwId log).IsChain fun c c' => c.touch?.isSome ∨ c'.touch?.isSome

theorem logged_init (maxEvents : ℕ) : Logged (.init maxEvents) [] [] where
  entry _ := rfl
  stale _ _ h := nomatch h
  alternate _ := .nil

section Steps
variable {s : EventStore} {log : List GatewayChange} {times : List ℚ}

/-- A step that leaves the gateways alone. -/
theorem Logged.frame {s' : EventStore} (h : Logged s log times) (hgw : s'.gw = s.gw)
    (more : List ℚ) : Logged s' (log ++ []) (times ++ more) where
  entry gwId := by rw [hgw, List.append_nil]; exact h.entry gwId
  stale gwId e he hoff := by
    obtain ⟨t, ht, hlt⟩ := h.stale gwId e (hgw ▸ he) hoff
    exact ⟨t, List.mem_append_left _ ht, hlt⟩
  alternate gwId := by rw [List.append_nil]; exact h.alternate gwId

/-- A touch. -/
theorem Logged.touch {s' : EventStore} (h : Logged s log times) {gwId : PyStr} (touch : Touch)
    (hgw : s'.gw = s.gw.set gwId
      (touchedEntry gwId touch.rssi touch.version touch.now (s.gw.get? gwId))) (more : List ℚ) :
    Logged s' (log ++ [.touched gwId touch]) (times ++ more) where
  entry g := by
    rw [hgw, Dict.get?_set]
    split
    · next hg => rw [hg, h.entry, entryOf_touched]
    · next hg => rw [h.entry, entryOf_touched_ne g log (Ne.symm hg)]
  stale g e he hoff := by
    rw [hgw, Dict.get?_set] at he
    split at he
    · obtain rfl := Option.some.inj he
      exact absurd hoff (by simp [touchedEntry])
    · obtain ⟨t, ht, hlt⟩ := h.stale g e he hoff
      exact ⟨t, List.mem_append_left _ ht, hlt⟩
  alternate g := by
    rw [changesOf_append, changesOf_touched]
    split
    · refine List.isChain_append.mpr ⟨h.alternate g, .singleton _, fun c _ c' hc' => .inr ?_⟩
      obtain rfl : GatewayChange.touched gwId touch = c' := by simpa using hc'
      rfl
    · rw [List.append_nil]
      exact h.alternate g

/-- No gateway is reported twice by one sweep. -/
theorem nodup_reapGateways (s : EventStore) (now : ℚ) : (s.reapGateways now).2.Nodup :=
  s.gw.nodup.sublist (List.Sublist.map Prod.fst List.filter_sublist)

/-- A sweep. -/
theorem Logged.reap (h : Logged s log times) (now : ℚ) :
    Logged (s.reapGateways now).1 (log ++ (s.reapGateways now).2.map .reported)
      (times ++ [now]) where
  entry gwId := by
    rw [get?_reapGateways, entryOf_reported gwId log (nodup_reapGateways s now), ← h.entry]
    cases he : s.gw.get? gwId with
    | none => rfl
    | some e =>
      have hmem : gwId ∈ (s.reapGateways now).2 ↔ flips now e = true := by
        simp [mem_reapGateways, he]
      simp only [Option.map_some, sweptEntry, hmem]
  stale gwId e he hoff := by
    rw [get?_reapGateways] at he
    obtain ⟨e', he', rfl⟩ := Option.map_eq_some_iff.mp he
    rw [lastSeen_sweptEntry]
    by_cases hflip : flips now e' = true
    · rw [flips, Bool.and_eq_true, decide_eq_true_eq] at hflip
      exact ⟨now, by simp, hflip.1⟩
    · rw [sweptEntry, if_neg hflip] at hoff
      obtain ⟨t, ht, hlt⟩ := h.stale gwId e' he' hoff
      exact ⟨t, List.mem_append_left _ ht, hlt⟩
  alternate gwId := by
    rw [changesOf_append, changesOf_reported gwId (nodup_reapGateways s now)]
    split
    · next hmem =>
      refine List.isChain_append.mpr ⟨h.alternate gwId, .singleton _, fun c hc _ _ => .inl ?_⟩
      -- the sweep found it online, so its latest change is a touch
      obtain ⟨e, he, hflip⟩ := (mem_reapGateways s now gwId).mp hmem
      rw [flips, Bool.and_eq_true] at hflip
      rw [h.entry] at he
      obtain ⟨touch, -, rfl⟩ := Option.map_eq_some_iff.mp he
      have hlast : touchedLast gwId log = true := hflip.2
      rw [touchedLast, hc] at hlast
      exact hlast
    · rw [List.append_nil]
      exact h.alternate gwId

/-- One method call. -/
theorem logged_step (h : Logged s log times) (op : StoreOp) :
    Logged (gatewayStep s op).1 (log ++ (gatewayStep s op).2) (times ++ op.times) := by
  cases op with
  | addEvent now nowTouch moteMac gwId packetId rssi =>
    simp only [gatewayStep, storeStep]
    rcases addEvent_cases s now nowTouch moteMac gwId packetId rssi with
      hadd | ⟨store, stored, hadd, -, -, -, hgw⟩
    · rw [hadd]
      exact h.frame rfl _
    · rw [hadd]
      exact h.touch ⟨nowTouch, some rssi, none⟩ hgw _
  | touchGateway now gwId rssi version => exact h.touch ⟨now, rssi, version⟩ rfl _
  | reapGateways now => exact h.reap now
  | snapshot => exact h.frame rfl _

end Steps

/-! ### Runs -/

theorem finalState_gatewayStep (ops : List StoreOp) (s : EventStore) :
    finalState gatewayStep s ops = finalState storeStep s ops :=
  finalState_congr gatewayStep storeStep (fun _ _ => rfl) s ops

theorem afterOps_concat (maxEvents : ℕ) (ops : List StoreOp) (op : StoreOp) :
    afterOps maxEvents (ops ++ [op]) = (storeStep (afterOps maxEvents ops) op).1 :=
  finalState_concat storeStep (.init maxEvents) ops op

theorem gatewayLog_concat (maxEvents : ℕ) (ops : List StoreOp) (op : StoreOp) :
    gatewayLog maxEvents (ops ++ [op])
      = gatewayLog maxEvents ops ++ (gatewayStep (afterOps maxEvents ops) op).2 := by
  rw [gatewayLog, outputs_concat, finalState_gatewayStep]
  rfl

theorem logged_run (maxEvents : ℕ) (ops : List StoreOp) :
    Logged (afterOps maxEvents ops) (gatewayLog maxEvents ops) (ops.flatMap StoreOp.times) := by
  induction ops using List.reverseRecOn with
  | nil => exact logged_init maxEvents
  | append_singleton ops op ih =>
    rw [afterOps_concat, gatewayLog_concat, List.flatMap_append, List.flatMap_singleton]
    exact logged_step ih op

section Consequences
variable {s : EventStore} {log : List GatewayChange} {times : List ℚ}

theorem touchesOf_of_touchedLast {gwId : PyStr} {log : List GatewayChange}
    (h : touchedLast gwId log = true) : ∃ touch, (touchesOf gwId log).getLast? = some touch := by
  rw [touchedLast, Option.any_eq_true] at h
  obtain ⟨c, hlast, htouch⟩ := h
  obtain ⟨cs, hcs⟩ := List.getLast?_eq_some_iff.mp hlast
  obtain ⟨touch, hc⟩ := Option.isSome_iff_exists.mp htouch
  refine ⟨touch, ?_⟩
  rw [touchesOf, hcs, List.filterMap_append, List.filterMap_cons_some hc]
  exact List.getLast?_concat

/-- Touched, and not reported since. -/
theorem touchedLast_of_not_reported {gwId : PyStr} {touch : Touch} {pre post : List GatewayChange}
    (hlog : log = pre ++ .touched gwId touch :: post) (hpost : .reported gwId ∉ post) :
    touchedLast gwId log = true := by
  have hown : changesOf gwId log
      = changesOf gwId pre ++ .touched gwId touch :: changesOf gwId post := by
    simp [hlog, changesOf, GatewayChange.gwId]
  rw [touchedLast, hown, List.getLast?_append, List.getLast?_cons, Option.some_or, Option.any_some]
  cases hlast : (changesOf gwId post).getLast? with
  | none => rfl
  | some c =>
    obtain ⟨hmem, hid⟩ := List.mem_filter.mp (List.mem_of_getLast? hlast)
    cases c with
    | touched g touch => rfl
    | reported g =>
      obtain rfl : g = gwId := of_decide_eq_true hid
      exact absurd hmem hpost

/-- A gateway is online exactly when its latest change is a touch. -/
theorem Logged.online_iff (h : Logged s log times) (gwId : PyStr) :
    s.Online gwId ↔ touchedLast gwId log = true := by
  rw [EventStore.Online, h.entry]
  constructor
  · rintro ⟨e, he, hon⟩
    obtain ⟨touch, -, rfl⟩ := Option.map_eq_some_iff.mp he
    exact hon
  · intro hlast
    obtain ⟨touch, htouch⟩ := touchesOf_of_touchedLast hlast
    exact ⟨_, by rw [entryOf, htouch]; rfl, hlast⟩

/-- A sweep takes offline what it reports. -/
theorem online_reapGateways (s : EventStore) (now : ℚ) (gwId : PyStr) :
    (s.reapGateways now).1.Online gwId ↔
      ∃ e, s.gw.get? gwId = some e ∧ e.online = true ∧ now - e.lastSeen ≤ gatewayOnlineTtlS := by
  rw [EventStore.Online]
  simp only [get?_reapGateways, Option.map_eq_some_iff]
  constructor
  · rintro ⟨_, ⟨e, he, rfl⟩, hon⟩
    by_cases hflip : flips now e = true
    · rw [sweptEntry, if_pos hflip] at hon
      exact absurd hon Bool.false_ne_true
    · rw [sweptEntry, if_neg hflip] at hon
      refine ⟨e, he, hon, not_lt.mp fun hlt => hflip ?_⟩
      rw [flips, hon, Bool.and_true]
      exact decide_eq_true hlt
  · rintro ⟨e, he, hon, hle⟩
    have hflip : ¬flips now e = true := by
      rw [flips, Bool.and_eq_true, decide_eq_true_eq]
      exact fun hf => absurd hf.1 (not_lt.mpr hle)
    exact ⟨_, ⟨e, he, rfl⟩, by rw [sweptEntry, if_neg hflip]; exact hon⟩

/-- A sweep reports what it takes offline. -/
theorem mem_reapGateways_iff (s : EventStore) (now : ℚ) (gwId : PyStr) :
    gwId ∈ (s.reapGateways now).2 ↔ s.Online gwId ∧ ¬(s.reapGateways now).1.Online gwId := by
  rw [mem_reapGateways, online_reapGateways]
  constructor
  · rintro ⟨e, he, hflip⟩
    rw [flips, Bool.and_eq_true, decide_eq_true_eq] at hflip
    refine ⟨⟨e, he, hflip.2⟩, ?_⟩
    rintro ⟨e', he', -, hle⟩
    obtain rfl := Option.some.inj (he.symm.trans he')
    exact absurd hle (not_le.mpr hflip.1)
  · rintro ⟨⟨e, he, hon⟩, hoff⟩
    refine ⟨e, he, ?_⟩
    rw [flips, hon, Bool.and_true, decide_eq_true_eq]
    exact not_le.mp fun hle => hoff ⟨e, he, hon, hle⟩

/-- After a sweep a gateway is online exactly when its last touch is recent enough. -/
theorem Logged.online_reap_iff (h : Logged s log times) {now : ℚ} (hnow : ∀ t ∈ times, t ≤ now)
    (gwId : PyStr) : (s.reapGateways now).1.Online gwId ↔
      ∃ touch, (touchesOf gwId log).getLast? = some touch ∧ now - touch.now ≤ gatewayOnlineTtlS := by
  rw [online_reapGateways, h.entry]
  constructor
  · rintro ⟨e, he, -, hle⟩
    obtain ⟨touch, htouch, rfl⟩ := Option.map_eq_some_iff.mp he
    exact ⟨touch, htouch, hle⟩
  · rintro ⟨touch, htouch, hle⟩
    obtain ⟨e, he, hseen⟩ : ∃ e, entryOf gwId log = some e ∧ e.lastSeen = touch.now := by
      rw [entryOf, htouch]
      exact ⟨_, rfl, rfl⟩
    refine ⟨e, he, ?_, hseen ▸ hle⟩
    by_contra hoff
    -- an earlier sweep would have found the last touch too old already
    obtain ⟨t, ht, hlt⟩ := h.stale gwId e ((h.entry gwId).trans he) (Bool.eq_false_of_not_eq_true hoff)
    rw [hseen] at hlt
    have hlater : t - touch.now ≤ now - touch.now := by linarith [hnow t ht]
    exact absurd (hlt.trans_le hlater) (not_lt.mpr hle)

/-- Two reports of a gateway have a touch of it between them. -/
theorem Logged.touch_between (h : Logged s log times) {gwId : PyStr}
    {pre mid post : List GatewayChange}
    (hlog : log = pre ++ .reported gwId :: (mid ++ .reported gwId :: post)) :
    ∃ touch, .touched gwId touch ∈ mid := by
  have hown : changesOf gwId log = changesOf gwId pre ++ .reported gwId ::
      (changesOf gwId mid ++ .reported gwId :: changesOf gwId post) := by
    simp [hlog, changesOf, GatewayChange.gwId]
  have hchain := h.alternate gwId
  rw [hown] at hchain
  obtain ⟨-, hchain, -⟩ := List.isChain_append.mp hchain
  cases hmid : changesOf gwId mid with
  | nil =>
    rw [hmid, List.nil_append, List.isChain_cons_cons] at hchain
    exact absurd hchain.1 (by simp [GatewayChange.touch?])
  | cons c cs =>
    rw [hmid, List.cons_append, List.isChain_cons_cons] at hchain
    have hc : c ∈ changesOf gwId mid := by simp [hmid]
    obtain ⟨hmem, hid⟩ := List.mem_filter.mp hc
    cases c with
    | touched g touch =>
      obtain rfl : g = gwId := of_decide_eq_true hid
      exact ⟨touch, hmem⟩
    | reported g => exact absurd hchain.1 (by simp [GatewayChange.touch?])

end Consequences

/-- `e'` has the recorded fields of `e`, but for those that one of the touches supplies. -/
def KeepsFields (gwId : PyStr) (changes : List GatewayChange) (e e' : GatewayStatus) : Prop :=
  (e'.version = e.version ∨ ∃ touch, .touched gwId touch ∈ changes ∧ touch.version.isSome ∧
    e'.version = touch.version) ∧
  (e'.lastRssi = e.lastRssi ∨ ∃ touch, .touched gwId touch ∈ changes ∧ touch.rssi.isSome ∧
    e'.lastRssi = touch.rssi)

theorem keepsFields_touch (gw : Dict PyStr GatewayStatus) (g : PyStr) (touch : Touch) {gwId : PyStr}
    {e : GatewayStatus} (he : gw.get? gwId = some e) :
    ∃ e', (gw.set g (touchedEntry g touch.rssi touch.version touch.now (gw.get? g))).get? gwId
        = some e' ∧ KeepsFields gwId [.touched g touch] e e' := by
  rw [Dict.get?_set]
  split
  · next hg =>
    subst hg
    refine ⟨_, rfl, ?_, ?_⟩
    · rcases hv : touch.version with _ | v
      · exact .inl (by simp [touchedEntry, he])
      · exact .inr ⟨touch, by simp, by simp [hv], by simp [touchedEntry, hv]⟩
    · rcases hr : touch.rssi with _ | r
      · exact .inl (by simp [touchedEntry, he])
      · exact .inr ⟨touch, by simp, by simp [hr], by simp [touchedEntry, hr]⟩
  · exact ⟨e, he, .inl rfl, .inl rfl⟩

/-- No call erases a recorded version or signal strength without supplying a new one. -/
theorem fields_kept (s : EventStore) (op : StoreOp) {gwId : PyStr} {e : GatewayStatus}
    (he : s.gw.get? gwId = some e) : ∃ e', (storeStep s op).1.gw.get? gwId = some e' ∧
      KeepsFields gwId (gatewayStep s op).2 e e' := by
  cases op with
  | addEvent now nowTouch moteMac g packetId rssi =>
    simp only [gatewayStep, storeStep]
    rcases addEvent_cases s now nowTouch moteMac g packetId rssi with
      hadd | ⟨store, stored, hadd, -, -, -, hgw⟩
    · rw [hadd]
      exact ⟨e, he, .inl rfl, .inl rfl⟩
    · rw [hadd, hgw]
      exact keepsFields_touch s.gw g ⟨nowTouch, some rssi, none⟩ he
  | touchGateway now g rssi version => exact keepsFields_touch s.gw g ⟨now, rssi, version⟩ he
  | reapGateways now =>
    refine ⟨sweptEntry now e, ?_, ?_⟩
    · rw [storeStep, get?_reapGateways, he]
      rfl
    · rw [sweptEntry]
      split
      · exact ⟨.inl rfl, .inl rfl⟩
      · exact ⟨.inl rfl, .inl rfl⟩
  | snapshot => exact ⟨e, he, .inl rfl, .inl rfl⟩

/-- In every run on a clock that does not go back. Every entry is the digest of what happened to its
    gateway; each sweep leaves online exactly the gateways whose last touch is at most the TTL ago, and
    returns, once each, those it took offline; a gateway is online after a touch until it is reported,
    and it is not reported twice without a touch between; and no call erases a recorded version or
    signal strength without supplying a new one. -/
theorem gateway_online_exact (maxEvents : ℕ) {ops : List StoreOp}
    (hclock : (ops.flatMap StoreOp.times).Pairwise (· ≤ ·)) :
    let s := afterOps maxEvents ops
    let log := gatewayLog maxEvents ops
    (∀ gwId, s.gw.get? gwId = entryOf gwId log) ∧
    (∀ pre now post, ops = pre ++ .reapGateways now :: post →
      let before := afterOps maxEvents pre
      let (swept, flipped) := before.reapGateways now
      (∀ gwId, swept.Online gwId ↔
        ∃ touch, (touchesOf gwId (gatewayLog maxEvents pre)).getLast? = some touch ∧
          now - touch.now ≤ gatewayOnlineTtlS) ∧
      flipped.Nodup ∧ ∀ gwId, gwId ∈ flipped ↔ before.Online gwId ∧ ¬swept.Online gwId) ∧
    (∀ gwId touch pre post, log = pre ++ .touched gwId touch :: post → .reported gwId ∉ post →
      s.Online gwId) ∧
    (∀ gwId pre mid post, log = pre ++ .reported gwId :: (mid ++ .reported gwId :: post) →
      ∃ touch, .touched gwId touch ∈ mid) ∧
    ∀ op gwId e, s.gw.get? gwId = some e → ∃ e', (storeStep s op).1.gw.get? gwId = some e' ∧
      KeepsFields gwId (gatewayStep s op).2 e e' := by
  have hlogged := logged_run maxEvents ops
  refine ⟨hlogged.entry, ?_, ?_, ?_, ?_⟩
  · rintro pre now post rfl
    rw [List.flatMap_append, List.flatMap_cons] at hclock
    obtain ⟨-, -, hbefore⟩ := List.pairwise_append.mp hclock
    have hnow : ∀ t ∈ pre.flatMap StoreOp.times, t ≤ now := fun t ht =>
      hbefore t ht now (List.mem_append_left _ (List.mem_singleton_self _))
    exact ⟨(logged_run maxEvents pre).online_reap_iff hnow, nodup_reapGateways _ now,
      mem_reapGateways_iff _ now⟩
  · intro gwId touch pre post hlog hpost
    rw [hlogged.online_iff]
    exact touchedLast_of_not_reported hlog hpost
  · intro gwId pre mid post hlog
    exact hlogged.touch_between hlog
  · intro op gwId e he
    exact fields_kept _ op he

/-- A gateway with a version is heard, goes silent, is reported, and is heard again. -/
def silentThenBack : List StoreOp :=
  [.touchGateway 0 (py "gw-a") none (some (py "1.0")),
    .addEvent 10 10 (py "f0e3912cec19") (py "gw-a") 7 (-60), .reapGateways 130, .reapGateways 131,
    .touchGateway 200 (py "gw-a") (some (-70)) none]

theorem gateway_online_exact_back :
    gatewayLog 500 silentThenBack = [.touched (py "gw-a") ⟨0, none, some (py "1.0")⟩,
      .touched (py "gw-a") ⟨10, some (-60), none⟩, .reported (py "gw-a"),
      .touched (py "gw-a") ⟨200, some (-70), none⟩] ∧
    (afterOps 500 silentThenBack).gw.get? (py "gw-a")
      = some ⟨py "gw-a", some (-70), 200, true, some (py "1.0")⟩ := by
  obtain ⟨hentry, -⟩ := gateway_online_exact 500
    (by decide +kernel : (silentThenBack.flatMap StoreOp.times).Pairwise (· ≤ ·))
  refine ⟨by decide +kernel, (hentry _).trans ?_⟩
  decide +kernel

end SeeedMote.App
