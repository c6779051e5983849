import SeeedMote.App.Liveness
import SeeedMote.Lib.Rounds

/-! Mock mode: `_run_mock` of `main.py` plays a timeline over and over, in place of a gateway,

        touch ─▶ cycle: touch, then each entry at its delay: add_event ─▶ emit ─▶ touch ─▶ ..
                   ▲                                                                  │
                   ╰──────────────── 30 s after the cycle began ◀─────────────────────╯

    while `_gateway_reaper` sweeps now and then. The packet ids wrap as those of a mote do. The loop's
    clock and `time.time` are taken to run alike, so that one reading serves for both, and a sleep not
    to end early. -/

namespace SeeedMote.App
open Lib

/-! ### The timeline -/

def mockGw : PyStr := py "seeedmote-gw-a1b2c3"

def mockMacs : List PyStr := [py "f0e3912cec19", py "f0e3912cec20", py "f0e3912cec21"]

def mockTimeline : List (ℚ × ℕ) :=
  [(0, 0), (1 / 2, 0), (4, 0), (8, 1), (17 / 2, 1), (12, 2), (25 / 2, 2), (16, 1), (22, 2)]

def mockCycle : ℚ := 30

def mockRssi : List ℤ := [-58, -62, -70]

def mockBootRssi : ℤ := -50

/-- An entry of the timeline with the mote it stands for. -/
structure MockEntry where
  delay : ℚ
  mac : PyStr
  rssi : ℤ
  deriving DecidableEq

def mockEntries : List MockEntry :=
  mockTimeline.map fun (delay, i) => ⟨delay, mockMacs.getD i [], mockRssi.getD i 0⟩

/-! ### The task -/

/-- Where the task waits: before a cycle, for the next entry or the end of the cycle, or while the event
    just stored is sent to the browsers. -/
inductive MockPhase where
  | next
  | sleeping (rest : List MockEntry)
  | emitting (rssi : ℤ) (rest : List MockEntry)
  deriving DecidableEq

/-- `since` is when the phase began, `clock` the last reading, of the loop's clock or of `time.time`. -/
structure MockRun where
  store : EventStore
  pids : Dict PyStr ℤ
  cycleStart : ℚ
  phase : MockPhase
  since : ℚ
  clock : ℚ
  deriving DecidableEq

/-- Up to the loop. -/
def MockRun.start (t : ℚ) : MockRun where
  store := ((EventStore.init 500).touchGateway t mockGw (some mockBootRssi) none).1
  pids := .empty
  cycleStart := t
  phase := .next
  since := t
  clock := t

/-- `(pid_per_mac.get(mac, 0) + 1) & 0xFF`. -/
def nextPid (pids : Dict PyStr ℤ) (mac : PyStr) : ℤ := ((pids.get? mac).getD 0 + 1) % 256

inductive MockEvent where
  /-- A cycle begins at `t`. -/
  | cycle (t nowTouch : ℚ)
  /-- The task wakes for an entry. -/
  | wake (t nowTouch : ℚ)
  /-- The event has been sent. -/
  | touch (t : ℚ)
  | reap (t : ℚ)
  deriving DecidableEq

/-- A cycle can begin. -/
def MockRun.CycleOver (s : MockRun) (t : ℚ) : Prop :=
  s.phase = .next ∨ (s.phase = .sleeping [] ∧ s.cycleStart + mockCycle ≤ t)

instance (s : MockRun) (t : ℚ) : Decidable (s.CycleOver t) := inferInstanceAs (Decidable (_ ∨ _))

def mockStep (timeline : List MockEntry) (s : MockRun) : MockEvent → Option MockRun
  | .cycle t nowTouch =>
    if s.clock ≤ t ∧ t ≤ nowTouch ∧ s.CycleOver t then
      some { s with
        store := (s.store.touchGateway nowTouch mockGw (some mockBootRssi) none).1
        cycleStart := t
        phase := .sleeping timeline
        since := nowTouch
        clock := nowTouch }
    else none
  | .wake t nowTouch =>
    match s.phase with
    | .sleeping (e :: rest) =>
      if s.clock ≤ t ∧ t ≤ nowTouch ∧ s.cycleStart + e.delay ≤ t then
        let pid := nextPid s.pids e.mac
        let r := s.store.addEvent t nowTouch e.mac mockGw pid e.rssi
        some { s with
          store := r.1
          pids := s.pids.set e.mac pid
          phase := if r.2.isSome then .emitting e.rssi rest else .sleeping rest
          since := nowTouch
          clock := nowTouch }
      else none
    | _ => none
  | .touch t =>
    match s.phase with
    | .emitting rssi rest =>
      if s.clock ≤ t then
        some { s with
          store := (s.store.touchGateway t mockGw (some rssi) none).1
          phase := .sleeping rest
          since := t
          clock := t }
      else none
    | _ => none
  | .reap t =>
    if s.clock ≤ t then some { s with store := (s.store.reapGateways t).1, clock := t } else none

/-- When the task is to go on. -/
def MockRun.due (s : MockRun) : ℚ :=
  match s.phase with
  | .sleeping (e :: _) => max s.since (s.cycleStart + e.delay)
  | .sleeping [] => max s.since (s.cycleStart + mockCycle)
  | _ => s.since

def MockEvent.time : MockEvent → ℚ
  | .cycle _ nowTouch => nowTouch
  | .wake _ nowTouch => nowTouch
  | .touch t => t
  | .reap t => t

/-- The task is never late by more than `slack`, whatever else happens. -/
def Punctual (slack : ℚ) (s : MockRun) (e : MockEvent) : Prop := e.time ≤ s.due + slack

instance (slack : ℚ) (s : MockRun) (e : MockEvent) : Decidable (Punctual slack s e) :=
  inferInstanceAs (Decidable (_ ≤ _))

/-! ### Timelines that can be played -/

/-- From `d` on, no two entries are more than `gap` apart, nor the last and the next cycle. -/
def GapsFrom (gap : ℚ) : ℚ → List MockEntry → Prop
  | d, [] => mockCycle ≤ d + gap
  | d, e :: es => e.delay ≤ d + gap ∧ GapsFrom gap e.delay es

instance decidableGapsFrom (gap : ℚ) : ∀ (d : ℚ) (es : List MockEntry), Decidable (GapsFrom gap d es)
  | d, [] => inferInstanceAs (Decidable (mockCycle ≤ d + gap))
  | d, e :: es =>
    have := decidableGapsFrom gap e.delay es
    inferInstanceAs (Decidable (e.delay ≤ d + gap ∧ GapsFrom gap e.delay es))

structure Playable (timeline : List MockEntry) (gap : ℚ) : Prop where
  named : ∀ e ∈ timeline, e.mac ≠ []
  few : timeline.length ≤ 128
  gaps : GapsFrom gap 0 timeline
  gap_nonneg : 0 ≤ gap

theorem playable_mockEntries : Playable mockEntries 8 :=
  ⟨by decide +kernel, by decide, by decide +kernel, by norm_num⟩

/-! ### What is kept of the events -/

/-- What is left of the cycle. -/
def MockPhase.rest (timeline : List MockEntry) : MockPhase → List MockEntry
  | .next => timeline
  | .sleeping rest => rest
  | .emitting _ rest => rest

/-- The event an entry is stored as at `t`. -/
def MockRun.event (s : MockRun) (e : MockEntry) (t : ℚ) : MotionEvent :=
  ⟨e.mac, mockGw, e.rssi, nextPid s.pids e.mac, t⟩

@[simp] theorem moteMac_event (s : MockRun) (e : MockEntry) (t : ℚ) : (s.event e t).moteMac = e.mac := rfl

/-- The dedup key of an event, with its time. -/
def MotionEvent.call (e : MotionEvent) : (PyStr × ℤ) × ℚ := ((e.moteMac, e.packetId), e.receivedAt)

/-- `plays` are the events stored so far, the newest first. -/
structure MockInv (timeline : List MockEntry) (s : MockRun) (plays : List MotionEvent) : Prop where
  covers : Covers dedupTtlS s.clock (plays.map MotionEvent.call) s.store.seen.get?
  begun : s.cycleStart ≤ s.clock
  fresh : s.phase = .next → plays = []
  pids : ∀ mac, (s.pids.get? mac).getD 0 = (timesPlayed MotionEvent.moteMac plays mac % 256 : ℕ)
  numbered : Numbered MotionEvent.moteMac (fun e => e.packetId.toNat) 256 plays
  rounds : ∃ past, timeline = past ++ s.phase.rest timeline ∧
    Rounds MotionEvent.moteMac MotionEvent.receivedAt mockCycle 128 plays s.cycleStart
      (timesPlayed MockEntry.mac past)

theorem mockInv_start (timeline : List MockEntry) (t : ℚ) : MockInv timeline (.start t) [] where
  covers := Covers.nil dedupTtlS t
  begun := le_rfl
  fresh _ := rfl
  pids _ := rfl
  numbered := .nil
  rounds := ⟨[], rfl, .nil⟩

section Steps
variable {timeline : List MockEntry} {s : MockRun} {plays : List MotionEvent}

theorem MockInv.nextPid_eq (h : MockInv timeline s plays) (mac : PyStr) :
    nextPid s.pids mac = ((timesPlayed MotionEvent.moteMac plays mac + 1) % 256 : ℕ) := by
  rw [nextPid, h.pids]
  omega

theorem timesPlayed_le_length {E : Type*} (key : E → PyStr) (l : List E) (k : PyStr) :
    timesPlayed key l k ≤ l.length :=
  List.countP_le_length

/-- An entry is no duplicate: the packet id was last used in the cycle before the last. -/
theorem MockInv.not_recent (h : MockInv timeline s plays) (hfew : timeline.length ≤ 128)
    {e : MockEntry} {rest : List MockEntry} (hphase : s.phase = .sleeping (e :: rest)) {t : ℚ}
    (ht : s.clock ≤ t) :
    ¬Recent dedupTtlS (plays.map MotionEvent.call) (e.mac, nextPid s.pids e.mac) t := by
  rintro ⟨call, hcall, hkey, hlt⟩
  obtain ⟨ev, hev, rfl⟩ := List.mem_map.mp hcall
  obtain ⟨hmac, hpid⟩ := Prod.mk.inj hkey
  obtain ⟨past, hsplit, hrounds⟩ := h.rounds
  have hsame : ev.packetId.toNat = (timesPlayed MotionEvent.moteMac plays ev.moteMac + 1) % 256 := by
    rw [hpid, hmac, h.nextPid_eq, Int.toNat_natCast]
  have hpast : timesPlayed MockEntry.mac past ev.moteMac + 128 < 256 := by
    have hlen := congrArg List.length hsplit
    rw [hphase, MockPhase.rest, List.length_append, List.length_cons] at hlen
    have hle := timesPlayed_le_length MockEntry.mac past ev.moteMac
    omega
  have hold := h.numbered.apart hrounds hev hsame hpast
  have hbegun := h.begun
  rw [MotionEvent.call, dedupTtlS] at hlt
  rw [mockCycle] at hold
  linarith

/-- An entry is stored. -/
theorem MockInv.stores (h : MockInv timeline s plays) (hnamed : ∀ e ∈ timeline, e.mac ≠ [])
    (hfew : timeline.length ≤ 128) {e : MockEntry} {rest : List MockEntry}
    (hphase : s.phase = .sleeping (e :: rest)) {t : ℚ} (ht : s.clock ≤ t) (nowTouch : ℚ) :
    ∃ store, s.store.addEvent t nowTouch e.mac mockGw (nextPid s.pids e.mac) e.rssi
        = (store, some (s.event e t)) ∧
      store.events = s.store.events.appendleft (s.event e t) ∧ store.total = s.store.total + 1 ∧
      store.LiveAt mockGw nowTouch ∧
      Covers dedupTtlS t ((s.event e t :: plays).map MotionEvent.call) store.seen.get? := by
  have hmac : e.mac ≠ [] := by
    obtain ⟨past, hsplit, -⟩ := h.rounds
    refine hnamed e ?_
    rw [hsplit, hphase]
    exact List.mem_append_right _ (List.mem_cons_self ..)
  obtain ⟨hdec, hcov, -⟩ := addEvent_spec (h.covers.later ht) nowTouch hmac mockGw
    (nextPid s.pids e.mac) e.rssi
  rw [windowStep, if_neg (h.not_recent hfew hphase ht)] at hdec hcov
  rcases addEvent_cases s.store t nowTouch e.mac mockGw (nextPid s.pids e.mac) e.rssi with
    hdup | ⟨store, stored, hadd, rfl, hevents, htotal, hgw⟩
  · rw [hdup] at hdec
    simp at hdec
  · rw [hadd] at hcov
    have hentry := Dict.get?_set_self s.store.gw mockGw
      (touchedEntry mockGw (some e.rssi) none nowTouch (s.store.gw.get? mockGw))
    rw [← hgw] at hentry
    exact ⟨store, hadd, hevents, htotal, ⟨_, hentry, rfl, rfl⟩, hcov⟩

/-! ### What a step does -/

theorem cycle_cases {t nowTouch : ℚ} {s' : MockRun}
    (hs : mockStep timeline s (.cycle t nowTouch) = some s') :
    s.clock ≤ t ∧ t ≤ nowTouch ∧ s.CycleOver t ∧
      s' = { s with
        store := (s.store.touchGateway nowTouch mockGw (some mockBootRssi) none).1
        cycleStart := t
        phase := .sleeping timeline
        since := nowTouch
        clock := nowTouch } := by
  rw [mockStep] at hs
  split at hs
  · next hcond => exact ⟨hcond.1, hcond.2.1, hcond.2.2, (Option.some.inj hs).symm⟩
  · simp at hs

theorem touch_cases {t : ℚ} {s' : MockRun} (hs : mockStep timeline s (.touch t) = some s') :
    ∃ rssi rest, s.phase = .emitting rssi rest ∧ s.clock ≤ t ∧
      s' = { s with
        store := (s.store.touchGateway t mockGw (some rssi) none).1
        phase := .sleeping rest
        since := t
        clock := t } := by
  rw [mockStep] at hs
  split at hs
  · next rssi rest hphase =>
    split at hs
    · next hle => exact ⟨rssi, rest, hphase, hle, (Option.some.inj hs).symm⟩
    · simp at hs
  · simp at hs

theorem reap_cases {t : ℚ} {s' : MockRun} (hs : mockStep timeline s (.reap t) = some s') :
    s.clock ≤ t ∧ s' = { s with store := (s.store.reapGateways t).1, clock := t } := by
  rw [mockStep] at hs
  split at hs
  · next hle => exact ⟨hle, (Option.some.inj hs).symm⟩
  · simp at hs

/-- The task wakes, and the event is stored. -/
theorem MockInv.wake_cases (h : MockInv timeline s plays) (hnamed : ∀ e ∈ timeline, e.mac ≠ [])
    (hfew : timeline.length ≤ 128) {t nowTouch : ℚ} {s' : MockRun}
    (hs : mockStep timeline s (.wake t nowTouch) = some s') :
    ∃ e rest store, s.phase = .sleeping (e :: rest) ∧ s.clock ≤ t ∧ t ≤ nowTouch ∧
      s.cycleStart + e.delay ≤ t ∧
      s' = { s with
        store := store
        pids := s.pids.set e.mac (nextPid s.pids e.mac)
        phase := .emitting e.rssi rest
        since := nowTouch
        clock := nowTouch } ∧
      store.events = s.store.events.appendleft (s.event e t) ∧ store.total = s.store.total + 1 ∧
      store.LiveAt mockGw nowTouch ∧
      Covers dedupTtlS t ((s.event e t :: plays).map MotionEvent.call) store.seen.get? := by
  rw [mockStep] at hs
  split at hs
  · next e rest hphase =>
    split at hs
    · next hcond =>
      obtain ⟨hclock, hle, hdelay⟩ := hcond
      obtain ⟨store, hadd, hstored⟩ := h.stores hnamed hfew hphase hclock nowTouch
      dsimp only at hs
      rw [hadd] at hs
      exact ⟨e, rest, store, hphase, hclock, hle, hdelay, (Option.some.inj hs).symm, hstored⟩
    · simp at hs
  · simp at hs

/-- The next cycle begins 30 s later at least. -/
theorem MockInv.cycle (h : MockInv timeline s plays) (hfew : timeline.length ≤ 128) {t : ℚ}
    (ht : s.clock ≤ t) (hover : s.CycleOver t) :
    Rounds MotionEvent.moteMac MotionEvent.receivedAt mockCycle 128 plays t
      (timesPlayed MockEntry.mac []) := by
  rcases hover with hnext | ⟨hphase, hcycle⟩
  · rw [h.fresh hnext]
    exact .nil
  · obtain ⟨past, hsplit, hrounds⟩ := h.rounds
    refine hrounds.next ?_ hcycle ?_
    · intro k
      have hlen := congrArg List.length hsplit
      rw [List.length_append] at hlen
      have hle := timesPlayed_le_length MockEntry.mac past k
      omega
    · intro ev hev
      exact (h.covers.past _ _ (List.mem_map_of_mem hev)).trans ht

theorem mockInv_step (h : MockInv timeline s plays) (hnamed : ∀ e ∈ timeline, e.mac ≠ [])
    (hfew : timeline.length ≤ 128) {e : MockEvent} {s' : MockRun}
    (hs : mockStep timeline s e = some s') : ∃ plays', MockInv timeline s' plays' := by
  cases e with
  | cycle t nowTouch =>
    obtain ⟨ht, hle, hover, rfl⟩ := cycle_cases hs
    exact ⟨plays, {
      covers := h.covers.later (ht.trans hle)
      begun := hle
      fresh := by simp
      pids := h.pids
      numbered := h.numbered
      rounds := ⟨[], rfl, h.cycle hfew ht hover⟩ }⟩
  | wake t nowTouch =>
    obtain ⟨e, rest, store, hphase, ht, hle, -, rfl, -, -, -, hcov⟩ := h.wake_cases hnamed hfew hs
    have hpid := h.nextPid_eq e.mac
    obtain ⟨past, hsplit, hrounds⟩ := h.rounds
    refine ⟨s.event e t :: plays, {
      covers := hcov.later hle
      begun := h.begun.trans (ht.trans hle)
      fresh := by simp
      pids := ?_
      numbered := h.numbered.play (by rw [MockRun.event, hpid, Int.toNat_natCast])
      rounds := ⟨past ++ [e], ?_, hrounds.play _ ?_⟩ }⟩
    · intro mac
      rw [Dict.get?_set, timesPlayed_cons, moteMac_event]
      by_cases hmac : mac = e.mac
      · rw [if_pos hmac, if_pos hmac.symm, Option.getD_some, hpid, hmac]
      · rw [if_neg hmac, if_neg fun h => hmac h.symm]
        exact h.pids mac
    · rw [hphase] at hsplit
      rw [List.append_assoc]
      exact hsplit
    · intro mac
      rw [timesPlayed_append, timesPlayed_cons, timesPlayed_nil, Nat.zero_add, moteMac_event]
  | touch t =>
    obtain ⟨rssi, rest, hphase, ht, rfl⟩ := touch_cases hs
    obtain ⟨past, hsplit, hrounds⟩ := h.rounds
    rw [hphase] at hsplit
    exact ⟨plays, {
      covers := h.covers.later ht
      begun := h.begun.trans ht
      fresh := by simp
      pids := h.pids
      numbered := h.numbered
      rounds := ⟨past, hsplit, hrounds⟩ }⟩
  | reap t =>
    obtain ⟨ht, rfl⟩ := reap_cases hs
    exact ⟨plays, {
      covers := h.covers.later ht
      begun := h.begun.trans ht
      fresh := h.fresh
      pids := h.pids
      numbered := h.numbered
      rounds := h.rounds }⟩

/-! ### The gateway stays online -/

/-- The gateway was last seen when the phase began, and the next entry is not far. -/
structure AliveInv (timeline : List MockEntry) (gap : ℚ) (s : MockRun) : Prop where
  live : s.store.LiveAt mockGw s.since
  order : s.since ≤ s.clock
  near : s.phase = .next ∨ ∃ d, s.cycleStart + d ≤ s.since ∧ GapsFrom gap d (s.phase.rest timeline)

theorem liveAt_touchGateway (store : EventStore) (t : ℚ) (gwId : PyStr) (rssi : Option ℤ)
    (version : Option PyStr) : (store.touchGateway t gwId rssi version).1.LiveAt gwId t :=
  ⟨_, Dict.get?_set_self _ _ _, rfl, rfl⟩

/-- A sweep within the TTL leaves a gateway as it is. -/
theorem liveAt_reapGateways {store : EventStore} {gwId : PyStr} {seen t : ℚ}
    (h : store.LiveAt gwId seen) (ht : t ≤ seen + gatewayOnlineTtlS) :
    gwId ∉ (store.reapGateways t).2 ∧ (store.reapGateways t).1.LiveAt gwId seen := by
  obtain ⟨entry, hentry, honline, rfl⟩ := h
  have hstays : flips t entry = false := by
    have hfresh : ¬t - entry.lastSeen > gatewayOnlineTtlS := by linarith
    rw [flips, decide_eq_false hfresh, Bool.false_and]
  refine ⟨?_, entry, ?_, honline, rfl⟩
  · rw [mem_reapGateways]
    rintro ⟨entry', hentry', hflips⟩
    obtain rfl := Option.some.inj (hentry.symm.trans hentry')
    rw [hstays] at hflips
    simp at hflips
  · rw [get?_reapGateways, hentry, Option.map_some, sweptEntry, hstays]
    rfl

theorem aliveInv_start (timeline : List MockEntry) (gap t : ℚ) : AliveInv timeline gap (.start t) where
  live := liveAt_touchGateway _ _ _ _ _
  order := le_rfl
  near := .inl rfl

/-- The task goes on before the gap is over. -/
theorem AliveInv.due_le {gap : ℚ} (h : AliveInv timeline gap s) (hgap : 0 ≤ gap) :
    s.due ≤ s.since + gap := by
  rw [MockRun.due]
  rcases h.near with hnext | ⟨d, hd, hgaps⟩
  · rw [hnext]
    dsimp only
    linarith
  · cases hphase : s.phase with
    | next =>
      dsimp only
      linarith
    | emitting rssi rest =>
      dsimp only
      linarith
    | sleeping rest =>
      rw [hphase] at hgaps
      cases rest with
      | nil =>
        have hend : mockCycle ≤ d + gap := hgaps
        exact max_le (by linarith) (by linarith)
      | cons e rest =>
        have hnear : e.delay ≤ d + gap := hgaps.1
        exact max_le (by linarith) (by linarith)

theorem aliveInv_step {gap slack : ℚ} (hplay : Playable timeline gap)
    (hslack : gap + slack ≤ gatewayOnlineTtlS) (h : MockInv timeline s plays)
    (halive : AliveInv timeline gap s) {e : MockEvent} {s' : MockRun} (hok : Punctual slack s e)
    (hs : mockStep timeline s e = some s') : AliveInv timeline gap s' := by
  have horder := halive.order
  cases e with
  | cycle t nowTouch =>
    obtain ⟨ht, hle, -, rfl⟩ := cycle_cases hs
    exact ⟨liveAt_touchGateway _ _ _ _ _, le_rfl, .inr ⟨0, (add_zero t).trans_le hle, hplay.gaps⟩⟩
  | wake t nowTouch =>
    obtain ⟨e, rest, store, hphase, ht, hle, hdelay, rfl, -, -, hlive, -⟩ :=
      h.wake_cases hplay.named hplay.few hs
    refine ⟨hlive, le_rfl, .inr ⟨e.delay, hdelay.trans hle, ?_⟩⟩
    rcases halive.near with hnext | ⟨d, -, hgaps⟩
    · rw [hphase] at hnext
      simp at hnext
    · rw [hphase] at hgaps
      exact hgaps.2
  | touch t =>
    obtain ⟨rssi, rest, hphase, ht, rfl⟩ := touch_cases hs
    refine ⟨liveAt_touchGateway _ _ _ _ _, le_rfl, ?_⟩
    rcases halive.near with hnext | ⟨d, hd, hgaps⟩
    · rw [hphase] at hnext
      simp at hnext
    · rw [hphase] at hgaps
      exact .inr ⟨d, hd.trans (horder.trans ht), hgaps⟩
  | reap t =>
    obtain ⟨ht, rfl⟩ := reap_cases hs
    have hdue := halive.due_le hplay.gap_nonneg
    have htime : t ≤ s.due + slack := hok
    exact ⟨(liveAt_reapGateways halive.live (by linarith)).2, horder.trans ht, halive.near⟩

end Steps

/-! ### Every run -/

/-- Played over and over, whatever the delays, every entry is stored as a new event, although the packet
    ids come round; and if the task is late by no more than the TTL leaves over, the gateway is online at
    any time and no sweep reports it. -/
theorem mock_shows_everything {timeline : List MockEntry} {gap slack : ℚ}
    (hplay : Playable timeline gap) (hslack : gap + slack ≤ gatewayOnlineTtlS) (t0 : ℚ) :
    (∀ s t nowTouch s', Reach (mockStep timeline) anyStep (.start t0) s →
      mockStep timeline s (.wake t nowTouch) = some s' →
      ∃ e rest, s.phase = .sleeping (e :: rest) ∧ s'.phase = .emitting e.rssi rest ∧
        s'.store.events = s.store.events.appendleft (s.event e t) ∧
        s'.store.total = s.store.total + 1) ∧
    ∀ s t, Reach (mockStep timeline) (Punctual slack) (.start t0) s → t ≤ s.due + slack →
      s.store.LiveAt mockGw s.since ∧ mockGw ∉ (s.store.reapGateways t).2 := by
  have hstart := mockInv_start timeline t0
  refine ⟨?_, ?_⟩
  · intro s t nowTouch s' hreach hs
    have hinv : ∃ plays, MockInv timeline s plays := by
      apply hreach.invariant
      · exact ⟨[], hstart⟩
      · rintro s e s' ⟨plays, h⟩ - hs
        exact mockInv_step h hplay.named hplay.few hs
    obtain ⟨plays, h⟩ := hinv
    obtain ⟨e, rest, store, hphase, -, -, -, rfl, hevents, htotal, -⟩ :=
      h.wake_cases hplay.named hplay.few hs
    exact ⟨e, rest, hphase, rfl, hevents, htotal⟩
  · intro s t hreach ht
    have hinv : (∃ plays, MockInv timeline s plays) ∧ AliveInv timeline gap s := by
      apply hreach.invariant
      · exact ⟨⟨[], hstart⟩, aliveInv_start timeline gap t0⟩
      · rintro s e s' ⟨⟨plays, h⟩, halive⟩ hok hs
        exact ⟨mockInv_step h hplay.named hplay.few hs, aliveInv_step hplay hslack h halive hok hs⟩
    obtain ⟨-, halive⟩ := hinv
    have hdue := halive.due_le hplay.gap_nonneg
    exact ⟨halive.live, (liveAt_reapGateways halive.live (by linarith)).1⟩

/-- The first two entries of the mock timeline, the second one late, with a sweep after each. -/
def mockOpening : List MockEvent :=
  [.cycle 100 100, .wake 100 100, .touch 100, .reap 130, .wake 180 180, .reap 181, .touch 182]

theorem mock_shows_everything_opening :
    ∃ s, exec (guarded (Punctual 112) (mockStep mockEntries)) (.start 100) mockOpening = some s ∧
      s.store.total = 2 ∧ s.store.LiveAt mockGw 182 ∧ mockGw ∉ (s.store.reapGateways 290).2 ∧
      ∃ s', mockStep mockEntries s (.wake 291 292) = some s' ∧ s'.store.total = 3 := by
  have hrun : (exec (guarded (Punctual 112) (mockStep mockEntries)) (.start 100) mockOpening).map
      (fun s => (s.store.total, s.since, s.due, (mockStep mockEntries s (.wake 291 292)).isSome))
      = some (2, 182, 182, true) := by decide +kernel
  obtain ⟨s, hs, hrun⟩ := Option.map_eq_some_iff.mp hrun
  simp only [Prod.mk.injEq] at hrun
  obtain ⟨htotal, hsince, hdue, hwake⟩ := hrun
  have hreach : Reach (mockStep mockEntries) (Punctual 112) (.start 100) s := .of_exec mockOpening .start hs
  obtain ⟨hstores, hshown⟩ := mock_shows_everything playable_mockEntries
    (show (8 : ℚ) + 112 ≤ gatewayOnlineTtlS by decide +kernel) 100
  obtain ⟨hlive, hkept⟩ := hshown s 290 hreach (by rw [hdue]; norm_num)
  rw [hsince] at hlive
  obtain ⟨s', hs'⟩ := Option.isSome_iff_exists.mp hwake
  refine ⟨s, hs, htotal, hlive, hkept, s', hs', ?_⟩
  obtain ⟨e, rest, -, -, -, hcount⟩ := hstores s 291 292 s' hreach.forget hs'
  rw [hcount, htotal]

end SeeedMote.App
