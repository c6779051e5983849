import SeeedMote.App.Panels
import SeeedMote.EndToEnd.ExactlyOnce

/-! From the pickup to the screen. The copies of a mote's bursts reach the MQTT thread among everything
    else that goes on at the backend: messages of other motes and of gateways, broadcasts, sweeps,
    browsers that come and go.

        copies ──▶ MQTT thread ──▶ store ──▶ event loop ──▶ browser ──▶ Totals
        other motes ──┘

    However these interleave, the server holds one event for every motion burst some gateway heard,
    and the mote's row on a mirroring page counts the bursts. -/

namespace SeeedMote.EndToEnd
open Lib Mote Gateway App

/-! ### The backend with its traffic -/

/-- A copy of the mote's comes to the idle MQTT thread, or anything else happens. -/
inductive AppEvent where
  | arrival (a : Arrival)
  | other (e : DashEvent)

section Steps
variable {rt : PyRuntime} (c : Catalog rt)

/-- A copy is read, then `_on_message` begins on its frame; nothing follows an unreadable one. -/
def appStep (s : Server) : AppEvent → Option Server
  | .arrival a =>
    match readFrame rt (topicText a.copy.message.topic) a.copy.message.payload with
    | .ok (some f) => dashStep c s (.message f a.readings.now a.readings.nowTouch)
    | .ok none => if s.thread = .idle then some s else none
    | .error _ => none
  | .other e => dashStep c s e

def AppEvent.arrival? : AppEvent → Option Arrival
  | .arrival a => some a
  | .other _ => none

def arrivals (es : List AppEvent) : List Arrival := es.filterMap AppEvent.arrival?

/-- The clock reading `add_event` makes. -/
def AppEvent.reading? : AppEvent → Option ℚ
  | .arrival a => some a.readings.now
  | .other (.message _ now _) => some now
  | .other _ => none

/-- The address in an event frame that is no arrival's. -/
def AppEvent.moteMac? : AppEvent → Option PyStr
  | .other (.message (.event moteMac _ _ _) _ _) => some moteMac
  | _ => none

/-- It is not about the mote `mac`: such frames come from other motes. -/
def AppEvent.Foreign (rt : PyRuntime) (mac : PyStr) (e : AppEvent) : Prop :=
  ∀ moteMac ∈ e.moteMac?, rt.lower moteMac ≠ mac

instance (rt : PyRuntime) (mac : PyStr) (e : AppEvent) : Decidable (e.Foreign rt mac) :=
  inferInstanceAs (Decidable (∀ moteMac ∈ e.moteMac?, rt.lower moteMac ≠ mac))

/-- The event `add_event` stores for a copy, if it accepts. -/
def Arrival.stored (rt : PyRuntime) (a : Arrival) : Option MotionEvent :=
  match readFrame rt (topicText a.copy.message.topic) a.copy.message.payload with
  | .ok (some (.event moteMac gwId packetId rssi)) =>
    some ⟨moteMac, gwId, rssi, packetId, a.readings.now⟩
  | _ => none

/-- The mote's events, as the page tells motes apart. -/
def ofMote (rt : PyRuntime) (mac : PyStr) (ev : MotionEvent) : Bool := rt.lower ev.moteMac = mac

/-! ### One step -/

@[simp] theorem store_emitMessage (s : Server) (msg : Option WsMessage) :
    (s.emitMessage msg).store = s.store := by
  cases msg <;> rfl

@[simp] theorem accepted_emitMessage (s : Server) (msg : Option WsMessage) :
    (s.emitMessage msg).accepted = s.accepted := by
  cases msg <;> rfl

/-- A step of the dashboard is the start of a frame, or leaves the key table and the accepted events
    alone. -/
theorem dashStep_cases {s s' : Server} {e : DashEvent} (hstep : dashStep c s e = some s') :
    (∃ f now nowTouch, e = .message f now nowTouch ∧ s' = s.begin now nowTouch f) ∨
      s'.store.seen = s.store.seen ∧ s'.accepted = s.accepted := by
  cases e with
  | message f now nowTouch =>
    rw [dashStep] at hstep
    split at hstep
    · exact .inl ⟨f, now, nowTouch, rfl, (Option.some.inj hstep).symm⟩
    · simp at hstep
  | threadStep now =>
    cases ht : s.thread with
    | idle => simp [dashStep, ht] at hstep
    | added stored gwId rssi =>
      obtain rfl : _ = s' := by simpa [dashStep, ht] using hstep
      exact .inr ⟨rfl, rfl⟩
    | announced gwId rssi =>
      obtain rfl : _ = s' := by simpa [dashStep, ht] using hstep
      exact .inr ⟨rfl, rfl⟩
    | touched gwId =>
      obtain rfl : _ = s' := by simpa [dashStep, ht] using hstep
      exact .inr ⟨rfl, rfl⟩
  | transport connected =>
    rw [dashStep] at hstep
    split at hstep
    · obtain rfl := Option.some.inj hstep
      exact .inr ⟨rfl, rfl⟩
    · simp at hstep
  | emit =>
    cases hq : s.queue with
    | nil => simp [dashStep, hq] at hstep
    | cons e es =>
      obtain rfl : _ = s' := by simpa [dashStep, hq] using hstep
      exact .inr ⟨by rw [store_emitMessage], by rw [accepted_emitMessage]⟩
  | reap now =>
    rw [dashStep] at hstep
    split at hstep
    · obtain rfl := Option.some.inj hstep
      exact .inr ⟨rfl, rfl⟩
    · simp at hstep
  | reapEmit =>
    cases hs : s.sweep with
    | nil => simp [dashStep, hs] at hstep
    | cons gwId rest =>
      obtain rfl : _ = s' := by simpa [dashStep, hs] using hstep
      exact .inr ⟨by rw [store_emitMessage], by rw [accepted_emitMessage]⟩
  | connect id view =>
    rw [dashStep] at hstep
    split at hstep
    · simp at hstep
    · obtain rfl := Option.some.inj hstep
      exact .inr ⟨rfl, rfl⟩
  | disconnect id =>
    obtain rfl := Option.some.inj hstep
    exact .inr ⟨rfl, rfl⟩
  | receive id =>
    obtain rfl := Option.some.inj hstep
    exact .inr ⟨rfl, rfl⟩

/-- Every step of the whole is a step of the dashboard, or none. -/
theorem dashStep_of_appStep {s s' : Server} {e : AppEvent} (hstep : appStep c s e = some s') :
    s' = s ∨ ∃ e', dashStep c s e' = some s' := by
  cases e with
  | other e => exact .inr ⟨e, hstep⟩
  | arrival a =>
    rw [appStep] at hstep
    split at hstep
    · exact .inr ⟨_, hstep⟩
    · split at hstep
      · exact .inl (Option.some.inj hstep).symm
      · simp at hstep
    · simp at hstep

theorem reach_of_exec {s₀ : Server} : ∀ {s s' : Server} (es : List AppEvent),
    Reach (dashStep c) anyStep s₀ s → exec (appStep c) s es = some s' →
      Reach (dashStep c) anyStep s₀ s' := by
  intro s s' es h hexec
  induction es generalizing s with
  | nil =>
    obtain rfl := Option.some.inj hexec
    exact h
  | cons e es ih =>
    rw [exec, Option.bind_eq_some_iff] at hexec
    obtain ⟨t, ht, hexec⟩ := hexec
    rcases dashStep_of_appStep c ht with rfl | ⟨e', he⟩
    · exact ih h hexec
    · exact ih (.next h trivial he) hexec

end Steps

/-! ### An event frame against the window filter -/

section Frames
variable {s : Server} {hist : List ((PyStr × ℤ) × ℚ)} {now : ℚ}

/-- What the start of an event frame does to the key table and to the accepted events. -/
theorem begin_event (h : Covers dedupTtlS now hist s.store.seen.get?) (nowTouch : ℚ)
    {moteMac : PyStr} (hmac : moteMac ≠ []) (gwId : PyStr) (packetId rssi : ℤ) :
    let s' := s.begin now nowTouch (.event moteMac gwId packetId rssi)
    if Recent dedupTtlS hist (moteMac, packetId) now then
      Covers dedupTtlS now hist s'.store.seen.get? ∧ s'.accepted = s.accepted
    else
      Covers dedupTtlS now (((moteMac, packetId), now) :: hist) s'.store.seen.get? ∧
        s'.accepted = ⟨moteMac, gwId, rssi, packetId, now⟩ :: s.accepted := by
  obtain ⟨hout, hcov, -⟩ := addEvent_spec h nowTouch hmac gwId packetId rssi
  simp only [windowStep] at hout hcov
  rcases addEvent_cases s.store now nowTouch moteMac gwId packetId rssi with
    hadd | ⟨store, stored, hadd, hstored, -⟩
  · simp only [Server.begin, hadd] at hout hcov ⊢
    split
    · next hr => rw [if_pos hr] at hcov; exact ⟨hcov, trivial⟩
    · next hr => rw [if_neg hr] at hout; simp at hout
  · simp only [Server.begin, hadd] at hout hcov ⊢
    split
    · next hr => rw [if_pos hr] at hout; simp at hout
    · next hr =>
      rw [if_neg hr] at hcov
      exact ⟨hcov, by rw [Server.accept, hstored]⟩

/-- The other frames leave both alone, and so does an event without address. -/
theorem begin_other {f : Frame} (nowTouch : ℚ)
    (hf : ∀ moteMac gwId packetId rssi, f = .event moteMac gwId packetId rssi → moteMac = []) :
    (s.begin now nowTouch f).store.seen = s.store.seen ∧
      (s.begin now nowTouch f).accepted = s.accepted := by
  cases f with
  | status gwId version => exact ⟨rfl, rfl⟩
  | seen gwId rssi => exact ⟨rfl, rfl⟩
  | event moteMac gwId packetId rssi =>
    have hmac := hf _ _ _ _ rfl
    simp [Server.begin, EventStore.addEvent, hmac]

end Frames

/-! ### Runs against the mote's own filter -/

section Runs
variable {rt : PyRuntime} (c : Catalog rt) (addr : BleAddr)

/-- The address of the mote, as topics and events name it. -/
def moteText : PyStr := asciiText (macKey addr)

theorem moteText_ne_nil : moteText addr ≠ [] := by
  rw [moteText, asciiText, Ne, List.map_eq_nil_iff, ← List.length_eq_zero_iff, (macKey_spec addr).1]
  decide

/-- The part of the history that concerns the mote. -/
def ownHistory (hist : List ((PyStr × ℤ) × ℚ)) : List ((PyStr × ℤ) × ℚ) :=
  hist.filter fun e => e.1.1 = moteText addr

theorem recent_ownHistory (hist : List ((PyStr × ℤ) × ℚ)) (packetId : ℤ) (now : ℚ) :
    Recent dedupTtlS (ownHistory addr hist) (moteText addr, packetId) now ↔
      Recent dedupTtlS hist (moteText addr, packetId) now := by
  constructor
  · rintro ⟨e, he, hk, hlt⟩
    exact ⟨e, List.mem_of_mem_filter he, hk, hlt⟩
  · rintro ⟨e, he, hk, hlt⟩
    exact ⟨e, List.mem_filter.mpr ⟨he, by simp [hk]⟩, hk, hlt⟩

/-- The frame of a copy. -/
theorem readFrame_arrival (hrt : rt.Standard) {a : Arrival} (ha : a.FromMote addr) :
    ∃ gwId rssi, readFrame rt (topicText a.copy.message.topic) a.copy.message.payload
      = .ok (some (.event (moteText addr) gwId a.copy.burst.payload.packetId.toNat rssi)) := by
  obtain ⟨g, r, hcopy⟩ := ha
  obtain ⟨hlen, hplain⟩ := gwIdOf_spec g.m3 g.m4 g.m5
  rw [hcopy]
  exact ⟨_, _, readFrame_event hrt hplain (List.ne_nil_of_length_pos (by omega)) addr
    r.burst.payload.packetId r.rssi⟩

/-- The mote's events among those the server accepted, the latest first. -/
def ownEvents (rt : PyRuntime) (s : Server) : List MotionEvent :=
  s.accepted.filter (ofMote rt (moteText addr))

/-- The mote's own window filter, with one label for each burst. -/
def ownFilter (hist : List ((PyStr × ℤ) × ℚ)) (calls : List (Burst × ℚ)) : List Burst :=
  outputs (labelStep dedupTtlS (eventKey addr)) (ownHistory addr hist) calls

/-- While `as` arrive the server goes from `s` to `t` and the history from `hist` to `hist'`. The mote's
    own filter accepts `firsts` of them, and their events are what the server stores of the mote. -/
def Follows (rt : PyRuntime) (s t : Server) (hist hist' : List ((PyStr × ℤ) × ℚ))
    (as : List Arrival) : Prop :=
  ∃ firsts : List Arrival, firsts.Sublist as ∧
    (ownEvents addr rt t).map some
      = (firsts.map (Arrival.stored rt)).reverse ++ (ownEvents addr rt s).map some ∧
    ∀ calls, ownFilter addr hist (as.map Arrival.call ++ calls)
      = firsts.map (fun a => a.copy.burst) ++ ownFilter addr hist' calls

variable {addr}

/-- What does not concern the mote. -/
theorem Follows.nothing {s t : Server} {hist hist' : List ((PyStr × ℤ) × ℚ)}
    (hs : ownEvents addr rt t = ownEvents addr rt s)
    (hh : ownHistory addr hist' = ownHistory addr hist) : Follows addr rt s t hist hist' [] :=
  ⟨[], List.nil_sublist _, by rw [hs]; rfl, fun calls => by rw [ownFilter, ownFilter, hh]; rfl⟩

theorem Follows.trans {s t u : Server} {h₁ h₂ h₃ : List ((PyStr × ℤ) × ℚ)} {as as' : List Arrival}
    (h : Follows addr rt s t h₁ h₂ as) (h' : Follows addr rt t u h₂ h₃ as') :
    Follows addr rt s u h₁ h₃ (as ++ as') := by
  obtain ⟨firsts, hsub, hstored, hout⟩ := h
  obtain ⟨firsts', hsub', hstored', hout'⟩ := h'
  refine ⟨firsts ++ firsts', hsub.append hsub', ?_, fun calls => ?_⟩
  · rw [hstored', hstored, List.map_append, List.reverse_append, List.append_assoc]
  · rw [List.map_append, List.append_assoc, hout, hout', List.map_append, List.append_assoc]

/-- A copy of the mote's arrives. -/
theorem follows_arrival (hrt : rt.Standard) {s t : Server} {a : Arrival}
    (ha : a.FromMote addr) (hstep : appStep c s (.arrival a) = some t)
    {hist : List ((PyStr × ℤ) × ℚ)} (hcov : Covers dedupTtlS a.readings.now hist s.store.seen.get?) :
    ∃ hist', Covers dedupTtlS a.readings.now hist' t.store.seen.get? ∧
      Follows addr rt s t hist hist' [a] := by
  obtain ⟨gwId, rssi, hread⟩ := readFrame_arrival addr hrt ha
  set packetId := (a.copy.burst.payload.packetId.toNat : ℤ) with hid
  have hbegin : t = s.begin a.readings.now a.readings.nowTouch
      (.event (moteText addr) gwId packetId rssi) := by
    simp only [appStep, hread, dashStep] at hstep
    split at hstep
    · exact (Option.some.inj hstep).symm
    · simp at hstep
  have hstored : a.stored rt = some ⟨moteText addr, gwId, rssi, packetId, a.readings.now⟩ := by
    simp only [Arrival.stored, hread]
  have hcall : ∀ hist' calls, outputs (labelStep dedupTtlS (eventKey addr)) hist' (a.call :: calls)
      = if Recent dedupTtlS hist' (moteText addr, packetId) a.readings.now then
          outputs (labelStep dedupTtlS (eventKey addr)) hist' calls
        else a.copy.burst :: outputs (labelStep dedupTtlS (eventKey addr))
          (((moteText addr, packetId), a.readings.now) :: hist') calls := by
    intro hist' calls
    have hlabel : labelStep dedupTtlS (eventKey addr) hist' a.call
        = if Recent dedupTtlS hist' (moteText addr, packetId) a.readings.now then (hist', [])
          else (((moteText addr, packetId), a.readings.now) :: hist', [a.copy.burst]) := rfl
    rw [outputs, hlabel]
    split <;> rfl
  have hframe := begin_event hcov a.readings.nowTouch (moteText_ne_nil addr) gwId packetId rssi
  simp only [← hbegin] at hframe
  split at hframe
  · next hr =>
    obtain ⟨hcov', hacc⟩ := hframe
    refine ⟨hist, hcov', [], List.nil_sublist _, by rw [ownEvents, hacc]; rfl, fun calls => ?_⟩
    exact (hcall _ _).trans (if_pos ((recent_ownHistory addr hist packetId _).mpr hr))
  · next hr =>
    obtain ⟨hcov', hacc⟩ := hframe
    refine ⟨_, hcov', [a], List.Sublist.refl _, ?_, fun calls => ?_⟩
    · have hown : ofMote rt (moteText addr) ⟨moteText addr, gwId, rssi, packetId, a.readings.now⟩
          = true := decide_eq_true (lower_macKey hrt addr)
      rw [ownEvents, hacc, List.filter_cons_of_pos hown, List.map_cons, List.map_singleton, hstored]
      rfl
    · have hhist : ownHistory addr (((moteText addr, packetId), a.readings.now) :: hist)
          = ((moteText addr, packetId), a.readings.now) :: ownHistory addr hist :=
        List.filter_cons_of_pos (by simp)
      have hr' := mt (recent_ownHistory addr hist packetId a.readings.now).mp hr
      rw [ownFilter, ownFilter, hhist]
      exact (hcall _ _).trans (if_neg hr')

/-- Anything else happens. -/
theorem follows_other (hrt : rt.Standard) {s t : Server} {e : DashEvent}
    (hforeign : (AppEvent.other e).Foreign rt (moteText addr)) (hstep : dashStep c s e = some t)
    {hist : List ((PyStr × ℤ) × ℚ)} {clock : ℚ}
    (hcov : Covers dedupTtlS clock hist s.store.seen.get?)
    (hclock : ∀ now, (AppEvent.other e).reading? = some now → clock ≤ now) :
    ∃ hist', Covers dedupTtlS ((AppEvent.other e).reading?.getD clock) hist' t.store.seen.get? ∧
      Follows addr rt s t hist hist' [] := by
  have hlater : Covers dedupTtlS ((AppEvent.other e).reading?.getD clock) hist s.store.seen.get? := by
    cases hr : (AppEvent.other e).reading? with
    | none => exact hcov
    | some now => exact hcov.later (hclock now hr)
  have hsame : t.store.seen = s.store.seen ∧ t.accepted = s.accepted → ∃ hist',
      Covers dedupTtlS ((AppEvent.other e).reading?.getD clock) hist' t.store.seen.get? ∧
        Follows addr rt s t hist hist' [] := by
    rintro ⟨hseen, hacc⟩
    exact ⟨hist, hseen ▸ hlater, .nothing (by rw [ownEvents, ownEvents, hacc]) rfl⟩
  rcases dashStep_cases c hstep with ⟨f, now, nowTouch, rfl, rfl⟩ | hquiet
  · by_cases hf : ∃ moteMac gwId packetId rssi, f = .event moteMac gwId packetId rssi ∧ moteMac ≠ []
    · obtain ⟨moteMac, gwId, packetId, rssi, rfl, hmac⟩ := hf
      have hlower : rt.lower moteMac ≠ moteText addr := hforeign moteMac rfl
      have hne : moteMac ≠ moteText addr := by
        rintro rfl
        exact hlower (lower_macKey hrt addr)
      have hframe := begin_event (hcov.later (hclock now rfl)) nowTouch hmac gwId packetId rssi
      simp only at hframe
      split at hframe
      · obtain ⟨hcov', hacc⟩ := hframe
        exact ⟨hist, hcov', .nothing (by rw [ownEvents, ownEvents, hacc]) rfl⟩
      · obtain ⟨hcov', hacc⟩ := hframe
        refine ⟨_, hcov', .nothing ?_ (List.filter_cons_of_neg (by simpa using hne))⟩
        rw [ownEvents, hacc, List.filter_cons_of_neg (by simpa [ofMote] using hlower)]
        rfl
    · exact hsame (begin_other nowTouch fun moteMac gwId packetId rssi h => by
        by_contra hmac
        exact hf ⟨moteMac, gwId, packetId, rssi, h, hmac⟩)
  · exact hsame hquiet

/-- A whole run, in any interleaving. -/
theorem follows_run (hrt : rt.Standard) : ∀ (es : List AppEvent) {s t : Server}
    {hist : List ((PyStr × ℤ) × ℚ)} {clock : ℚ}, exec (appStep c) s es = some t →
      Covers dedupTtlS clock hist s.store.seen.get? →
      (∀ now ∈ es.filterMap AppEvent.reading?, clock ≤ now) →
      (es.filterMap AppEvent.reading?).Pairwise (· ≤ ·) →
      (∀ e ∈ es, e.Foreign rt (moteText addr)) → (∀ a ∈ arrivals es, a.FromMote addr) →
      ∃ hist', Follows addr rt s t hist hist' (arrivals es) := by
  intro es
  induction es with
  | nil =>
    intro s t hist clock hexec _ _ _ _ _
    obtain rfl := Option.some.inj hexec
    exact ⟨hist, .nothing rfl rfl⟩
  | cons e es ih =>
    intro s u hist clock hexec hcov hclock hord hforeign hfrom
    rw [exec, Option.bind_eq_some_iff] at hexec
    obtain ⟨t, hstep, hexec⟩ := hexec
    obtain ⟨he, hes⟩ := List.forall_mem_cons.mp hforeign
    have hstart : ∀ now, e.reading? = some now → clock ≤ now := fun now hnow =>
      hclock now (List.mem_filterMap.mpr ⟨e, List.mem_cons_self .., hnow⟩)
    have hrest : (∀ now ∈ es.filterMap AppEvent.reading?, e.reading?.getD clock ≤ now) ∧
        (es.filterMap AppEvent.reading?).Pairwise (· ≤ ·) := by
      cases hr : e.reading? with
      | none =>
        rw [List.filterMap_cons_none hr] at hclock hord
        exact ⟨hclock, hord⟩
      | some now =>
        rw [List.filterMap_cons_some hr] at hord
        exact List.pairwise_cons.mp hord
    cases e with
    | arrival a =>
      obtain ⟨ha, has⟩ := List.forall_mem_cons.mp hfrom
      obtain ⟨hist', hcov', hfol⟩ := follows_arrival c hrt ha hstep (hcov.later (hstart _ rfl))
      obtain ⟨hist'', hfol'⟩ := ih hexec hcov' hrest.1 hrest.2 hes has
      exact ⟨hist'', hfol.trans hfol'⟩
    | other e =>
      obtain ⟨hist', hcov', hfol⟩ := follows_other c hrt he hstep hcov hstart
      obtain ⟨hist'', hfol'⟩ := ih hexec hcov' hrest.1 hrest.2 hes hfrom
      exact ⟨hist'', hfol.trans hfol'⟩

end Runs

/-! ### The mote's events at the server -/

/-- The motion bursts of the run that some gateway hears. -/
def heardBursts (gs : List Listener) (run : List MoteEvent) : List Burst :=
  (bursts run).filter fun b => gs.any fun g => g.hears b ≠ []

theorem mem_heardBursts_iff (gs : List Listener) (run : List MoteEvent) (b : Burst) :
    b ∈ heardBursts gs run ↔ b ∈ bursts run ∧ ∃ g ∈ gs, g.hears b ≠ [] := by
  simp [heardBursts, List.mem_filter]

theorem nodup_heardBursts (gs : List Listener) {run : List MoteEvent} (hrun : InOrder run) :
    (heardBursts gs run).Nodup := by
  refine List.Nodup.filter _ ((bursts_pairwise hrun).imp ?_)
  rintro b _ ⟨hlt, -⟩ rfl
  exact lt_irrefl _ hlt

/-- The readings of the arrivals are among all readings. -/
theorem sublist_readings (es : List AppEvent) :
    ((arrivals es).map fun a => a.readings.now).Sublist (es.filterMap AppEvent.reading?) := by
  induction es with
  | nil => exact List.Sublist.refl _
  | cons e es ih =>
    cases e with
    | arrival a => exact ih.cons_cons a.readings.now
    | other e =>
      have hskip : arrivals (.other e :: es) = arrivals es := List.filterMap_cons_none rfl
      rw [hskip, List.filterMap_cons]
      cases (AppEvent.other e).reading? with
      | none => exact ih
      | some now => exact ih.cons now

/-- All copies of all gateways arrive, each within the dedup window of its burst, among whatever else
    the backend does; its clock never goes back. -/
structure Traffic (rt : PyRuntime) (addr : BleAddr) (gs : List Listener) (run : List MoteEvent)
    (es : List AppEvent) : Prop where
  inOrder : InOrder run
  ready : ∀ g ∈ gs, g.Ready addr (bursts run)
  copies : ∀ c, c ∈ (arrivals es).map Arrival.copy ↔ ∃ g ∈ gs, c ∈ g.copies addr (bursts run)
  inTime : ∀ a ∈ arrivals es, a.copy.burst.start ≤ a.readings.now ∧
    a.readings.now < a.copy.burst.start + 2
  clock : (es.filterMap AppEvent.reading?).Pairwise (· ≤ ·)
  foreign : ∀ e ∈ es, e.Foreign rt (moteText addr)

section Rows
variable {rt : PyRuntime} (c : Catalog rt) {addr : BleAddr} {gs : List Listener} {run : List MoteEvent}
  {es : List AppEvent}

/-- An arrival carries a copy of a heard burst, and every heard burst has one. -/
theorem Traffic.mem_arrivals (h : Traffic rt addr gs run es) :
    (∀ a ∈ arrivals es, a.FromMote addr) ∧
      ∀ b, b ∈ (arrivals es).map (fun a => a.copy.burst) ↔ b ∈ heardBursts gs run := by
  have hpay : ∀ b ∈ bursts run, b.payload = bthomePayload (UInt8.ofNat b.number) 1 :=
    fun b hb => payload_eq hb
  constructor
  · intro a ha
    obtain ⟨g, hg, hc⟩ := (h.copies a.copy).mp (List.mem_map_of_mem ha)
    rw [copies_eq g addr (h.ready g hg) hpay] at hc
    obtain ⟨r, -, hr⟩ := List.mem_map.mp hc
    exact ⟨g, r, hr.symm⟩
  · intro b
    rw [mem_heardBursts_iff]
    constructor
    · intro hb
      obtain ⟨a, ha, rfl⟩ := List.mem_map.mp hb
      obtain ⟨g, hg, hc⟩ := (h.copies a.copy).mp (List.mem_map_of_mem ha)
      obtain ⟨hmem, hheard⟩ := (exists_copy_iff g addr (h.ready g hg) hpay _).mp ⟨_, hc, rfl⟩
      exact ⟨hmem, g, hg, hheard⟩
    · rintro ⟨hb, g, hg, hheard⟩
      obtain ⟨cp, hc, rfl⟩ := (exists_copy_iff g addr (h.ready g hg) hpay b).mpr ⟨hb, hheard⟩
      obtain ⟨a, ha, rfl⟩ := List.mem_map.mp ((h.copies cp).mpr ⟨g, hg, hc⟩)
      exact List.mem_map.mpr ⟨a, ha, rfl⟩

/-- The mote's own filter accepts each heard burst once. -/
theorem Traffic.ownFilter_perm (h : Traffic rt addr gs run es) :
    (ownFilter addr [] ((arrivals es).map Arrival.call)).Perm (heardBursts gs run) := by
  obtain ⟨-, hmem⟩ := h.mem_arrivals
  have hburst : ∀ a ∈ arrivals es, a.copy.burst ∈ bursts run := fun a ha =>
    ((mem_heardBursts_iff gs run _).mp ((hmem _).mp (List.mem_map_of_mem ha))).1
  have hontime : ∀ call ∈ (arrivals es).map Arrival.call, OnTime dedupTtlS Burst.start call := by
    intro call hcall
    obtain ⟨a, ha, rfl⟩ := List.mem_map.mp hcall
    exact h.inTime a ha
  have hapart : ∀ call ∈ (arrivals es).map Arrival.call, ∀ call' ∈ (arrivals es).map Arrival.call,
      Apart dedupTtlS (eventKey addr) Burst.start call.1 call'.1 := by
    intro call hcall call' hcall'
    obtain ⟨a, ha, rfl⟩ := List.mem_map.mp hcall
    obtain ⟨a', ha', rfl⟩ := List.mem_map.mp hcall'
    exact apart_of_bursts h.inOrder addr (hburst a ha) (hburst a' ha')
  have hclock : ((arrivals es).map Arrival.call).Pairwise fun call call' => call.2 ≤ call'.2 := by
    rw [List.pairwise_map]
    exact List.pairwise_map.mp (h.clock.sublist (sublist_readings es))
  have hnodup := nodup_heardBursts gs h.inOrder
  rw [List.perm_iff_count]
  intro b
  have hlabels : ((arrivals es).map Arrival.call).map Prod.fst
      = (arrivals es).map fun a => a.copy.burst := by
    rw [List.map_map]
    rfl
  have hcount := count_labelStep _ hontime hclock hapart b
  rw [hlabels] at hcount
  refine hcount.trans ?_
  by_cases hb : b ∈ heardBursts gs run
  · rw [if_pos ((hmem b).mpr hb), List.count_eq_one_of_mem hnodup hb]
  · rw [if_neg (mt (hmem b).mp hb), List.count_eq_zero_of_not_mem hb]

/-- Whatever the interleaving, the server holds one event of the mote's for every heard burst, made of
    the first copy that arrived of it. -/
theorem Traffic.stored (hrt : rt.Standard) (h : Traffic rt addr gs run es) {s : Server}
    (hexec : exec (appStep c) Server.init es = some s) :
    ∃ firsts : List Arrival, firsts.Sublist (arrivals es) ∧
      (firsts.map fun a => a.copy.burst).Perm (heardBursts gs run) ∧
      (ownEvents addr rt s).map some = (firsts.map (Arrival.stored rt)).reverse := by
  have hfollows : ∃ hist', Follows addr rt Server.init s [] hist' (arrivals es) := by
    cases hr : es.filterMap AppEvent.reading? with
    | nil =>
      exact follows_run c hrt es hexec (.nil dedupTtlS 0) (by simp [hr]) h.clock h.foreign
        h.mem_arrivals.1
    | cons now rest =>
      refine follows_run c hrt es hexec (.nil dedupTtlS now) ?_ h.clock h.foreign h.mem_arrivals.1
      rw [hr]
      have hord := List.pairwise_cons.mp (hr ▸ h.clock)
      exact List.forall_mem_cons.mpr ⟨le_rfl, hord.1⟩
  obtain ⟨hist', firsts, hsub, hstored, hout⟩ := hfollows
  refine ⟨firsts, hsub, ?_, ?_⟩
  · have hnow := hout []
    rw [List.append_nil] at hnow
    have hnil : ownFilter addr hist' [] = [] := rfl
    rw [hnil, List.append_nil] at hnow
    exact hnow ▸ h.ownFilter_perm
  · rw [hstored]
    exact List.append_nil _

/-- The page tells motes apart by the lower-cased address. -/
theorem mac_project (ev : MotionEvent) : (c.project ev).mac = rt.lower ev.moteMac := by
  rw [Catalog.project]
  split
  · next ev' hev =>
    simp only [toInteractionEvent] at hev
    cases hl : itemLabel rt (c.shoes.get? (rt.lower ev.moteMac)) (rt.lower ev.moteMac) with
    | error e => rw [hl] at hev; simp [bind, Except.bind] at hev
    | ok label =>
      rw [hl] at hev
      obtain rfl := Except.ok.inj hev
      rfl
  · next e he => exact absurd (toInteractionEvent_isOk c ev) (by simp [he])

/-- A page without overlap shows the latest accepted events and the total of all. -/
theorem mirror_of_run {s : Server} (hexec : exec (appStep c) Server.init es = some s)
    (hquiet : s.quiet) {b : Conn} (hb : b ∈ s.conns) (hoverlap : b.overlap = 0) :
    b.settled.events = (s.accepted.take eventHistoryMax).map c.project ∧
      b.settled.total = s.accepted.length := by
  have hinv : DashInv c s := (reach_of_exec c es .start hexec).invariant (dashInv_init c)
    fun _ _ _ hs _ hstep => dashInv_step c hs hstep
  have hpend : s.pending = [] := by simp [Server.pending, hquiet.1, hquiet.2]
  obtain ⟨htotal, hevents⟩ := hinv.tracks b hb
  rw [hpend] at htotal hevents
  constructor
  · rw [← hinv.items, ← hevents hoverlap]
    rfl
  · rw [← hinv.total, ← Nat.add_zero s.store.total, ← hoverlap, ← htotal]
    rfl

/-- The subtitle of `Totals` admits a cut-off history exactly when the history is cut off. -/
theorem subtitle_of_run {s : Server} (hexec : exec (appStep c) Server.init es = some s)
    (hquiet : s.quiet) {b : Conn} (hb : b ∈ s.conns) (hoverlap : b.overlap = 0) :
    totalsSubtitle b.settled.events b.settled.total =
      if eventHistoryMax < s.accepted.length then
        py "最近 " ++ py (toString eventHistoryMax) ++ py " 条事件（会话累计 "
          ++ py (toString s.accepted.length) ++ py "）"
      else py "本次会话累计 " ++ py (toString s.accepted.length) ++ py " 条" := by
  obtain ⟨hevents, htotal⟩ := mirror_of_run c hexec hquiet hb hoverlap
  rw [totalsSubtitle, hevents, htotal, List.length_map, List.length_take]
  by_cases hcut : eventHistoryMax < s.accepted.length
  · rw [min_eq_left hcut.le]
  · rw [min_eq_right (not_lt.mp hcut), if_neg hcut]
    exact if_neg (lt_irrefl _)

/-- How many of the events a mirroring page shows are the mote's. -/
theorem countP_project (evs : List MotionEvent) (mac : PyStr) :
    (evs.map c.project).countP (·.mac = mac) = (evs.filter (ofMote rt mac)).length := by
  rw [List.countP_map, List.countP_eq_length_filter]
  congr 2
  funext ev
  simp only [Function.comp_apply, mac_project, ofMote]

def sampleTraffic : List AppEvent :=
  [.other (.message (.event (py "f0e3912cec20") (py "gw-a") 2 (-60)) 5 5), .other (.threadStep 5),
    .other (.threadStep 5), .other (.threadStep 5), .other .emit, .other (.connect 0 emptyView)]
  ++ (sampleArrivals.take 1).map .arrival
  ++ [.other (.threadStep 6), .other .emit, .other (.threadStep 6), .other (.receive 0),
    .other (.threadStep 6), .other .emit, .other .emit]
  ++ (sampleArrivals.drop 1).map .arrival

theorem sampleTraffic_ok : Traffic asciiRuntime sampleAddr sampleGateways sampleRun sampleTraffic where
  inOrder := by decide
  ready g hg := by
    simp only [sampleGateways, List.mem_cons, List.not_mem_nil, or_false] at hg
    rcases hg with rfl | rfl
    · exact ⟨by decide +kernel, by decide, by decide +kernel⟩
    · exact ⟨by decide +kernel, by decide, by decide +kernel⟩
  copies cp := by
    have harr : arrivals sampleTraffic = sampleArrivals := by decide +kernel
    rw [harr, sampleArrivals, List.map_map, ← List.mem_flatMap]
    simp [Function.comp_def]
  inTime := by decide +kernel
  clock := by decide +kernel
  foreign := by decide +kernel

end Rows

end SeeedMote.EndToEnd
