import SeeedMote.Lib.Run
import SeeedMote.Mote.Advertising

/-! Runs of the mote's advertising: motion threads, the two timers, the one queue thread that runs
    their handlers, and the BLE link, interleaved in any order. A handler that has begun waits for
    `adv_mutex`, so any other body may run first; the queue thread is cooperative, so a handler has
    returned by the time another thread gets the mutex after it.

    Three questions about every run: does `adv_state` follow the connection, is a started burst cut
    short, and can the radio stay on with nothing left to stop it. -/

namespace SeeedMote.Mote
open Lib

/-- What can happen next. -/
inductive BleEvent where
  /-- A thread calls `start_bthome_burst`. -/
  | burst (moving : UInt8) (durationMs : ℕ) (rc : ℤ)
  /-- `burst_done_work` expires and its handler begins. -/
  | burstTimer
  /-- `config_timeout_work` expires and its handler begins. -/
  | configTimer
  /-- The begun `burst_done_handler` gets the mutex and returns. -/
  | burstHandler (rc : ℤ)
  /-- The begun `config_timeout_handler` gets the mutex and returns. -/
  | configHandler
  /-- A central connects to the config advert. -/
  | linkUp
  /-- The `bt_connected` callback runs for the link. -/
  | connected
  /-- `bt_connected` reports a failed connection. -/
  | connectFailed (err : UInt8)
  /-- The link drops. -/
  | linkLost
  /-- The `bt_disconnected` callback runs. -/
  | disconnected
  deriving DecidableEq

/-- The queue thread is not inside a handler. -/
def Ble.queueFree (m : Ble) : Prop := m.burstDone.running = none ∧ m.configTimeout.running = none

instance (m : Ble) : Decidable m.queueFree := inferInstanceAs (Decidable (_ ∧ _))

def bleStep (m : Ble) : BleEvent → Option Ble
  | .burst moving durationMs rc => some (startBthomeBurst moving durationMs rc m).2
  | .burstTimer =>
    if m.queueFree then m.burstDone.begin.map fun w => { m with burstDone := w } else none
  | .configTimer =>
    if m.queueFree then m.configTimeout.begin.map fun w => { m with configTimeout := w } else none
  | .burstHandler rc =>
    if m.burstDone.running.isSome then
      let m' := burstDoneHandler rc m
      some { m' with burstDone := m'.burstDone.finish }
    else none
  | .configHandler =>
    if m.configTimeout.running.isSome then
      let m' := configTimeoutHandler m
      some { m' with configTimeout := m'.configTimeout.finish }
    else none
  | .linkUp =>
    -- a connection ends the connectable advertising it came through
    if m.link = .down ∧ m.radio.map Broadcast.kind = some .config then
      some { m with link := .up none, radio := none }
    else none
  | .connected =>
    match m.link with
    | .up none => some { btConnected 0 m with link := .up (some m.starts) }
    | .lost none => some { btConnected 0 m with link := .lost (some m.starts) }
    | _ => none
  | .connectFailed err => if err ≠ 0 then some (btConnected err m) else none
  | .linkLost =>
    match m.link with
    | .up since => some { m with link := .lost since }
    | _ => none
  | .disconnected =>
    match m.link with
    | .lost (some _) => some { btDisconnected m with link := .down }
    | _ => none

/-- `bt_connected` has run and the matching `bt_disconnected` has not. -/
def Ble.inConnection (m : Ble) : Prop := m.link.since.isSome

instance (m : Ble) : Decidable m.inConnection := inferInstanceAs (Decidable (_ = true))

/-! ### One lemma per event -/

section Steps
variable {m m' : Ble}

/-- A burst call is refused while connected, starts a new broadcast, or fails and leaves the radio
    off. -/
theorem burst_cases {moving : UInt8} {durationMs : ℕ} {rc : ℤ}
    (h : bleStep m (.burst moving durationMs rc) = some m') :
    (m.advState = .connected ∧ m' = m) ∨
    (m.advState ≠ .connected ∧ m'.advState = .eventBurst ∧
      m'.radio = some ⟨m.starts + 1, .event m'.payload⟩ ∧ m'.starts = m.starts + 1 ∧
      m'.burstDone = m.burstDone.cancel.schedule ⟨m.starts + 1, durationMs⟩ ∧
      m'.configTimeout = m.configTimeout.cancel ∧ m'.link = m.link) ∨
    (m.advState ≠ .connected ∧ m'.advState = .idle ∧ m'.radio = none ∧ m'.starts = m.starts ∧
      m'.burstDone = m.burstDone.cancel ∧ m'.configTimeout = m.configTimeout.cancel ∧
      m'.link = m.link) := by
  obtain rfl : (startBthomeBurst moving durationMs rc m).2 = m' := Option.some.inj h
  by_cases hc : m.advState = .connected
  · exact .inl ⟨hc, by rw [startBthomeBurst_connected m moving durationMs rc hc]⟩
  · rcases eq_or_ne rc 0 with rfl | hrc
    · rw [startBthomeBurst_ok m moving durationMs hc]
      exact .inr (.inl ⟨hc, rfl, rfl, rfl, rfl, rfl, rfl⟩)
    · rw [startBthomeBurst_failed m moving durationMs hrc hc]
      exact .inr (.inr ⟨hc, rfl, rfl, rfl, rfl, rfl, rfl⟩)

/-- A timer expiry needs a free queue and only moves the arming of its item into the handler. -/
theorem timer_cases {w : Work Arming} {put : Work Arming → Ble}
    (h : (if m.queueFree then w.begin.map put else none) = some m') :
    m.queueFree ∧ ∃ a w', w.scheduled = some a ∧ w'.scheduled = none ∧ w'.running = some a ∧
      m' = put w' := by
  split at h
  · next hq =>
    obtain ⟨w', hw, rfl⟩ := Option.map_eq_some_iff.mp h
    obtain ⟨a, ha, h1, h2, -⟩ := (Work.begin_eq_some_iff _ _).mp hw
    exact ⟨hq, a, w', ha, h1, h2, rfl⟩
  · simp at h

theorem burstTimer_cases (h : bleStep m .burstTimer = some m') :
    m.queueFree ∧ ∃ a w, m.burstDone.scheduled = some a ∧ w.scheduled = none ∧
      w.running = some a ∧ m' = { m with burstDone := w } :=
  timer_cases h

theorem configTimer_cases (h : bleStep m .configTimer = some m') :
    m.queueFree ∧ ∃ a w, m.configTimeout.scheduled = some a ∧ w.scheduled = none ∧
      w.running = some a ∧ m' = { m with configTimeout := w } :=
  timer_cases h

/-- The burst-done handler does nothing while connected; otherwise it replaces the broadcast by the
    config window, or stops it if the window cannot be opened. -/
theorem burstHandler_cases {rc : ℤ} (h : bleStep m (.burstHandler rc) = some m') :
    m.burstDone.running.isSome ∧ m'.burstDone.running = none ∧ m'.link = m.link ∧
    ((m.advState = .connected ∧ m'.advState = .connected ∧ m'.radio = m.radio ∧
        m'.starts = m.starts ∧ m'.burstDone.scheduled = m.burstDone.scheduled ∧
        m'.configTimeout = m.configTimeout) ∨
     (m.advState ≠ .connected ∧ m'.advState = .configWindow ∧
        m'.radio = some ⟨m.starts + 1, .config⟩ ∧ m'.starts = m.starts + 1 ∧
        m'.burstDone.scheduled = none ∧
        m'.configTimeout = m.configTimeout.cancel.schedule ⟨m.starts + 1, configWindowMs⟩) ∨
     (m.advState ≠ .connected ∧ m'.advState = .idle ∧ m'.radio = none ∧ m'.starts = m.starts ∧
        m'.burstDone.scheduled = none ∧ m'.configTimeout = m.configTimeout.cancel)) := by
  simp only [bleStep, burstDoneHandler] at h
  split at h
  · next hrun =>
    obtain rfl := Option.some.inj h
    by_cases hc : m.advState = .connected
    · rw [enterConfigWindow_connected m rc hc]
      exact ⟨hrun, rfl, rfl, .inl ⟨hc, hc, rfl, rfl, rfl, rfl⟩⟩
    · rcases eq_or_ne rc 0 with rfl | hrc
      · rw [enterConfigWindow_ok m hc]
        exact ⟨hrun, rfl, rfl, .inr (.inl ⟨hc, rfl, rfl, rfl, rfl, rfl⟩)⟩
      · rw [enterConfigWindow_failed m hrc hc]
        exact ⟨hrun, rfl, rfl, .inr (.inr ⟨hc, rfl, rfl, rfl, rfl, rfl⟩)⟩
  · simp at h

/-- The config-timeout handler stops the radio and goes idle, whatever the state was. -/
theorem configHandler_cases (h : bleStep m .configHandler = some m') :
    m.configTimeout.running.isSome ∧ m'.advState = .idle ∧ m'.radio = none ∧
      m'.starts = m.starts ∧ m'.link = m.link ∧ m'.burstDone = m.burstDone.cancel ∧
      m'.configTimeout.scheduled = none ∧ m'.configTimeout.running = none := by
  simp only [bleStep] at h
  split at h
  · next hrun =>
    obtain rfl := Option.some.inj h
    exact ⟨hrun, rfl, rfl, rfl, rfl, rfl, rfl, rfl⟩
  · simp at h

theorem linkUp_cases (h : bleStep m .linkUp = some m') :
    m.link = .down ∧ m.radio.map Broadcast.kind = some .config ∧
      m' = { m with link := .up none, radio := none } := by
  simp only [bleStep] at h
  split at h
  · next hl => exact ⟨hl.1, hl.2, (Option.some.inj h).symm⟩
  · simp at h

/-- `bt_connected` takes back both timers and says CONNECTED; the broadcast goes on. -/
theorem connected_cases (h : bleStep m .connected = some m') :
    (m.link = .up none ∧ m'.link = .up (some m.starts) ∨
      m.link = .lost none ∧ m'.link = .lost (some m.starts)) ∧
    m'.advState = .connected ∧ m'.radio = m.radio ∧ m'.starts = m.starts ∧
    m'.burstDone = m.burstDone.cancel ∧ m'.configTimeout = m.configTimeout.cancel := by
  simp only [bleStep] at h
  split at h
  · next hl =>
    obtain rfl := Option.some.inj h
    exact ⟨.inl ⟨hl, rfl⟩, rfl, rfl, rfl, rfl, rfl⟩
  · next hl =>
    obtain rfl := Option.some.inj h
    exact ⟨.inr ⟨hl, rfl⟩, rfl, rfl, rfl, rfl, rfl⟩
  · simp at h

theorem connectFailed_cases {err : UInt8} (h : bleStep m (.connectFailed err) = some m') :
    m' = m := by
  simp only [bleStep] at h
  split at h
  · next he => rw [btConnected, if_pos he] at h; exact (Option.some.inj h).symm
  · simp at h

theorem linkLost_cases (h : bleStep m .linkLost = some m') :
    ∃ since, m.link = .up since ∧ m' = { m with link := .lost since } := by
  simp only [bleStep] at h
  split at h
  · next since hl => exact ⟨since, hl, (Option.some.inj h).symm⟩
  · simp at h

/-- `bt_disconnected` stops the radio and goes idle. -/
theorem disconnected_cases (h : bleStep m .disconnected = some m') :
    (∃ k, m.link = .lost (some k)) ∧ m'.link = .down ∧ m'.advState = .idle ∧ m'.radio = none ∧
      m'.starts = m.starts ∧ m'.burstDone = m.burstDone.cancel ∧
      m'.configTimeout = m.configTimeout.cancel := by
  simp only [bleStep] at h
  split at h
  · next k hl =>
    obtain rfl := Option.some.inj h
    exact ⟨⟨k, hl⟩, rfl, rfl, rfl, rfl, rfl, rfl⟩
  · simp at h

end Steps

/-! ### The state follows the connection -/

/-- `bt_connected` does not run while a config-timeout handler waits for the mutex. -/
def connectsClear (m : Ble) (e : BleEvent) : Prop :=
  e = .connected → m.configTimeout.running = none

instance (m : Ble) (e : BleEvent) : Decidable (connectsClear m e) :=
  inferInstanceAs (Decidable (_ → _))

/-- During a connection the state says so and no config timeout is on its way. -/
def FollowsLink (m : Ble) : Prop :=
  m.inConnection → m.advState = .connected ∧ m.configTimeout.scheduled = none ∧
    m.configTimeout.running = none

theorem inConnection_of_link {m m' : Ble} (h : m'.link = m.link) :
    m'.inConnection ↔ m.inConnection := by rw [Ble.inConnection, h]; rfl

theorem followsLink_step (m : Ble) (e : BleEvent) (m' : Ble) (inv : FollowsLink m)
    (hok : connectsClear m e) (h : bleStep m e = some m') : FollowsLink m' := by
  intro hconn
  cases e with
  | burst moving durationMs rc =>
    rcases burst_cases h with ⟨hc, rfl⟩ | ⟨hc, -, -, -, -, -, hl⟩ | ⟨hc, -, -, -, -, -, hl⟩
    · exact inv hconn
    · exact absurd (inv ((inConnection_of_link hl).mp hconn)).1 hc
    · exact absurd (inv ((inConnection_of_link hl).mp hconn)).1 hc
  | burstTimer =>
    obtain ⟨-, a, w, -, -, -, rfl⟩ := burstTimer_cases h
    exact inv hconn
  | configTimer =>
    obtain ⟨-, a, w, ha, -, -, rfl⟩ := configTimer_cases h
    exact absurd ((inv hconn).2.1.symm.trans ha) (by simp)
  | burstHandler rc =>
    obtain ⟨-, -, hl, hcase⟩ := burstHandler_cases h
    obtain ⟨hadv, hs, hr⟩ := inv ((inConnection_of_link hl).mp hconn)
    rcases hcase with ⟨-, hadv', -, -, -, hct⟩ | ⟨hc, -⟩ | ⟨hc, -⟩
    · exact ⟨hadv', by rw [hct, hs], by rw [hct, hr]⟩
    · exact absurd hadv hc
    · exact absurd hadv hc
  | configHandler =>
    obtain ⟨hrun, -, -, -, hl, -⟩ := configHandler_cases h
    have hnone := (inv ((inConnection_of_link hl).mp hconn)).2.2
    simp [hnone] at hrun
  | linkUp =>
    obtain ⟨-, -, rfl⟩ := linkUp_cases h
    simp [Ble.inConnection, Link.since] at hconn
  | connected =>
    obtain ⟨-, hadv, -, -, -, hct⟩ := connected_cases h
    exact ⟨hadv, by rw [hct]; rfl, by rw [hct]; exact hok rfl⟩
  | connectFailed err =>
    rw [connectFailed_cases h] at hconn ⊢
    exact inv hconn
  | linkLost =>
    obtain ⟨since, hl, rfl⟩ := linkLost_cases h
    exact inv (by simpa [Ble.inConnection, Link.since, hl] using hconn)
  | disconnected =>
    obtain ⟨-, hl, -⟩ := disconnected_cases h
    simp [Ble.inConnection, hl, Link.since] at hconn

/-- In every run in which no config-timeout handler is already waiting for the mutex when
    `bt_connected` runs: from then until `bt_disconnected`, `adv_state` is CONNECTED and
    `start_bthome_burst` changes nothing. -/
theorem connected_until_disconnected (m : Ble) (h : Reach bleStep connectsClear Ble.reset m)
    (hconn : m.inConnection) :
    m.advState = .connected ∧
      ∀ moving durationMs rc, startBthomeBurst moving durationMs rc m = (-ealready, m) := by
  have inv : FollowsLink m := h.invariant
    (fun hc => by simp [Ble.inConnection, Ble.reset, Link.since] at hc) followsLink_step
  obtain ⟨hadv, -, -⟩ := inv hconn
  exact ⟨hadv, fun moving durationMs rc =>
    startBthomeBurst_connected m moving durationMs rc hadv⟩

/-- Boot heartbeat, config window, and a central that connects to it. -/
def connectedState : Ble :=
  (exec bleStep .reset [.burst 0 bootHeartbeatMs 0, .burstTimer, .burstHandler 0, .linkUp,
    .connected]).getD .reset

theorem connectedState_refuses :
    connectedState.advState = .connected ∧
      startBthomeBurst 1 eventBurstMs 0 connectedState = (-ealready, connectedState) := by
  obtain ⟨hadv, hburst⟩ := connected_until_disconnected connectedState
    (.of_exec [.burst 0 bootHeartbeatMs 0, .burstTimer, .burstHandler 0, .linkUp, .connected]
      .start (by decide)) (by decide)
  exact ⟨hadv, hburst 1 eventBurstMs 0⟩

/-- The window's timeout fires just before the central connects: its handler waits out
    `bt_connected` and then sets IDLE during the connection. -/
theorem connected_overwritten :
    ¬∀ m, Reach bleStep anyStep Ble.reset m → m.inConnection →
      m.advState = .connected ∧
        ∀ moving durationMs rc, startBthomeBurst moving durationMs rc m = (-ealready, m) := by
  intro hall
  obtain ⟨hadv, -⟩ := hall
    ((exec bleStep .reset [.burst 0 bootHeartbeatMs 0, .burstTimer, .burstHandler 0, .configTimer,
      .linkUp, .connected, .configHandler]).getD .reset)
    (.of_exec [.burst 0 bootHeartbeatMs 0, .burstTimer, .burstHandler 0, .configTimer, .linkUp,
      .connected, .configHandler] .start (by decide)) (by decide)
  exact absurd hadv (by decide)

/-! ### A started burst is not cut short -/

/-- `start_bthome_burst` gets past its check only while no timeout handler waits for the mutex and
    outside a connection. -/
def burstsClear (m : Ble) : BleEvent → Prop
  | .burst _ _ _ => m.advState ≠ .connected → m.queueFree ∧ ¬m.inConnection
  | _ => True

instance (m : Ble) (e : BleEvent) : Decidable (burstsClear m e) := by
  cases e <;> unfold burstsClear <;> infer_instance

/-- What may end the broadcast `b` of a burst: the burst-done timer armed for `b`, a later
    `start_bthome_burst`, or a connection established since `b` started. -/
inductive MayEnd (m : Ble) (b : Broadcast) : BleEvent → Prop where
  | ownTimer {a : Arming} (rc : ℤ) : m.burstDone.running = some a → a.owner = b.id →
      MayEnd m b (.burstHandler rc)
  | laterBurst (moving : UInt8) (durationMs : ℕ) (rc : ℤ) :
      MayEnd m b (.burst moving durationMs rc)
  | connection {k : ℕ} : m.link = .lost (some k) → b.id ≤ k → MayEnd m b .disconnected

/-- While a burst is on the air both work items belong to it and no config timeout is on its way;
    `bt_connected` can only have run since. -/
structure BurstOwns (m : Ble) (b : Broadcast) : Prop where
  id_le : b.id ≤ m.starts
  scheduled : ∀ a, m.burstDone.scheduled = some a → a.owner = b.id
  running : ∀ a, m.burstDone.running = some a → a.owner = b.id
  noTimeout : m.configTimeout.scheduled = none
  noHandler : m.configTimeout.running = none
  since : ∀ k, m.link.since = some k → b.id ≤ k

def OwnTimers (m : Ble) : Prop :=
  ∀ b p, m.radio = some b → b.kind = .event p → BurstOwns m b

theorem ownTimers_step (m : Ble) (e : BleEvent) (m' : Ble) (inv : OwnTimers m)
    (hok : burstsClear m e) (h : bleStep m e = some m') : OwnTimers m' := by
  intro b p hb hp
  cases e with
  | burst moving durationMs rc =>
    rcases burst_cases h with ⟨-, rfl⟩ | ⟨hc, -, hr, hs, hbd, hct, hl⟩ | ⟨-, -, hr, -⟩
    · exact inv b p hb hp
    · obtain ⟨⟨hq1, hq2⟩, hconn⟩ := hok hc
      obtain rfl : (⟨m.starts + 1, .event m'.payload⟩ : Broadcast) = b :=
        Option.some.inj (hr.symm.trans hb)
      have hsch : m'.burstDone.scheduled = some ⟨m.starts + 1, durationMs⟩ := by
        rw [hbd, Work.schedule_cancel_scheduled, hq1]; rfl
      refine ⟨Nat.le_of_eq hs.symm, fun a ha => ?_, fun a ha => ?_, by rw [hct]; rfl,
        by rw [hct]; exact hq2, fun k hk => ?_⟩
      · obtain rfl := Option.some.inj (hsch.symm.trans ha); rfl
      · rw [hbd, Work.schedule_running, Work.cancel_running, hq1] at ha; simp at ha
      · rw [hl] at hk; exact absurd (by rw [Ble.inConnection, hk]; rfl) hconn
    · rw [hr] at hb; simp at hb
  | burstTimer =>
    obtain ⟨-, a, w, ha, hw1, hw2, rfl⟩ := burstTimer_cases h
    have own := inv b p hb hp
    refine ⟨own.id_le, ?_, ?_, own.noTimeout, own.noHandler, own.since⟩
    · intro c hc
      simp [hw1] at hc
    · intro c hc
      obtain rfl := Option.some.inj (hw2.symm.trans hc); exact own.scheduled a ha
  | configTimer =>
    obtain ⟨-, a, w, ha, -, -, rfl⟩ := configTimer_cases h
    exact absurd ((inv b p hb hp).noTimeout.symm.trans ha) (by simp)
  | burstHandler rc =>
    obtain ⟨-, hrun, hl, hcase⟩ := burstHandler_cases h
    rcases hcase with ⟨-, -, hr, hs, hsch, hct⟩ | ⟨-, -, hr, -⟩ | ⟨-, -, hr, -⟩
    · have own := inv b p (hr ▸ hb) hp
      refine ⟨hs ▸ own.id_le, fun a ha => own.scheduled a (hsch ▸ ha), ?_,
        by rw [hct]; exact own.noTimeout, by rw [hct]; exact own.noHandler,
        fun k hk => own.since k (hl ▸ hk)⟩
      intro a ha
      rw [hrun] at ha; simp at ha
    · obtain rfl := Option.some.inj (hr.symm.trans hb); simp at hp
    · rw [hr] at hb; simp at hb
  | configHandler =>
    obtain ⟨-, -, hr, -⟩ := configHandler_cases h
    rw [hr] at hb; simp at hb
  | linkUp =>
    obtain ⟨-, -, rfl⟩ := linkUp_cases h
    simp at hb
  | connected =>
    obtain ⟨hl, -, hr, hs, hbd, hct⟩ := connected_cases h
    have own := inv b p (hr ▸ hb) hp
    have hsince : m'.link.since = some m.starts := by
      rcases hl with ⟨-, hl⟩ | ⟨-, hl⟩ <;> rw [hl] <;> rfl
    refine ⟨hs ▸ own.id_le, fun a ha => ?_, fun a ha => own.running a (by rw [hbd] at ha; exact ha),
      by rw [hct]; rfl, by rw [hct]; exact own.noHandler, fun k hk => ?_⟩
    · rw [hbd] at ha; simp at ha
    · obtain rfl := Option.some.inj (hsince.symm.trans hk); exact own.id_le
  | connectFailed err =>
    rw [connectFailed_cases h] at hb ⊢
    exact inv b p hb hp
  | linkLost =>
    obtain ⟨since, hl, rfl⟩ := linkLost_cases h
    have own := inv b p hb hp
    exact ⟨own.id_le, own.scheduled, own.running, own.noTimeout, own.noHandler,
      fun k hk => own.since k (by rw [hl]; exact hk)⟩
  | disconnected =>
    obtain ⟨-, -, -, hr, -⟩ := disconnected_cases h
    rw [hr] at hb; simp at hb

/-- In every run in which `start_bthome_burst` gets past its check only while no timeout handler
    waits for the mutex and outside a connection: whatever ends the broadcast of a burst is its own
    burst-done timer, a later burst or a connection established since. -/
theorem burst_not_cut_short (m : Ble) (h : Reach bleStep burstsClear Ble.reset m) (b : Broadcast)
    (p : BthomePayload) (hb : m.radio = some b) (hp : b.kind = .event p) (e : BleEvent) (m' : Ble)
    (hstep : bleStep m e = some m') (hend : m'.radio ≠ some b) : MayEnd m b e := by
  have inv : OwnTimers m := h.invariant (fun b p hb => by simp [Ble.reset] at hb) ownTimers_step
  have own := inv b p hb hp
  cases e with
  | burst moving durationMs rc => exact .laterBurst moving durationMs rc
  | burstTimer =>
    obtain ⟨-, a, w, -, -, -, rfl⟩ := burstTimer_cases hstep
    exact absurd hb hend
  | configTimer =>
    obtain ⟨-, a, w, -, -, -, rfl⟩ := configTimer_cases hstep
    exact absurd hb hend
  | burstHandler rc =>
    obtain ⟨hrun, -⟩ := burstHandler_cases hstep
    obtain ⟨a, ha⟩ := Option.isSome_iff_exists.mp hrun
    exact .ownTimer rc ha (own.running a ha)
  | configHandler =>
    obtain ⟨hrun, -⟩ := configHandler_cases hstep
    simp [own.noHandler] at hrun
  | linkUp =>
    obtain ⟨-, hkind, -⟩ := linkUp_cases hstep
    simp [hb, hp] at hkind
  | connected =>
    obtain ⟨-, -, hr, -⟩ := connected_cases hstep
    exact absurd (hr.trans hb) hend
  | connectFailed err =>
    rw [connectFailed_cases hstep] at hend
    exact absurd hb hend
  | linkLost =>
    obtain ⟨since, -, rfl⟩ := linkLost_cases hstep
    exact absurd hb hend
  | disconnected =>
    obtain ⟨⟨k, hk⟩, -⟩ := disconnected_cases hstep
    exact .connection hk (own.since k (by rw [hk]; rfl))

/-- The boot heartbeat with its burst-done handler waiting for the mutex. -/
def heartbeatOver : Ble :=
  (exec bleStep .reset [.burst 0 bootHeartbeatMs 0, .burstTimer]).getD .reset

theorem heartbeat_ends_by_own_timer :
    MayEnd heartbeatOver ⟨1, .event (bthomePayload 1 0)⟩ (.burstHandler 0) :=
  burst_not_cut_short heartbeatOver
    (.of_exec [.burst 0 bootHeartbeatMs 0, .burstTimer] .start (by decide)) _
    (bthomePayload 1 0) (by decide) rfl _
    ((bleStep heartbeatOver (.burstHandler 0)).getD .reset) (by decide) (by decide)

/-- A pickup at the edge of the config window: the window's handler waits out the call that starts
    the burst, and then stops the burst. -/
theorem burst_cut_short :
    ¬∀ m, Reach bleStep anyStep Ble.reset m → ∀ b p, m.radio = some b → b.kind = .event p →
      ∀ e m', bleStep m e = some m' → m'.radio ≠ some b → MayEnd m b e := by
  intro hall
  have hend := hall
    ((exec bleStep .reset [.burst 0 bootHeartbeatMs 0, .burstTimer, .burstHandler 0, .configTimer,
      .burst 1 eventBurstMs 0]).getD .reset)
    (.of_exec [.burst 0 bootHeartbeatMs 0, .burstTimer, .burstHandler 0, .configTimer,
      .burst 1 eventBurstMs 0] .start (by decide))
    ⟨3, .event (bthomePayload 2 1)⟩ (bthomePayload 2 1) (by decide) rfl .configHandler _ rfl
    (by decide)
  exact nomatch hend

/-! ### The radio never stays on by itself -/

/-- The two delayable work items. -/
inductive Timeout where
  | burstDone
  | configTimeout
  deriving DecidableEq

def Ble.work (m : Ble) : Timeout → Work Arming
  | .burstDone => m.burstDone
  | .configTimeout => m.configTimeout

/-- The body of the item's handler. -/
def runHandler (rc : ℤ) (m : Ble) : Timeout → Ble
  | .burstDone => burstDoneHandler rc m
  | .configTimeout => configTimeoutHandler m

/-- The item is armed or its handler has begun, and running the handler takes the present broadcast
    off the air, whether or not a new one can be started. -/
def Ends (m : Ble) (w : Timeout) : Prop :=
  (m.work w).Active ∧ ∀ rc, (runHandler rc m w).radio ≠ m.radio

/-- CONNECTED is only said of a link that is up or whose disconnect callback is still to come, and
    with the link down every broadcast has a work item that is armed or running. -/
structure Covered (m : Ble) : Prop where
  connected_link : m.advState = .connected → m.link ≠ .down
  radio_id : ∀ b, m.radio = some b → b.id ≤ m.starts
  one_handler : m.burstDone.running = none ∨ m.configTimeout.running = none
  covered : m.link = .down → m.radio ≠ none → m.burstDone.Active ∨ m.configTimeout.Active

theorem covered_step (m : Ble) (e : BleEvent) (m' : Ble) (inv : Covered m) (_ : anyStep m e)
    (h : bleStep m e = some m') : Covered m' := by
  cases e with
  | burst moving durationMs rc =>
    rcases burst_cases h with ⟨-, rfl⟩ | ⟨-, hadv, hr, hs, hbd, hct, -⟩ | ⟨-, hadv, hr, -, hbd, hct, -⟩
    · exact inv
    · refine ⟨by simp [hadv], fun b hb => ?_, by simpa [hbd, hct] using inv.one_handler,
        fun _ _ => .inl (hbd ▸ Work.active_schedule_cancel _ _)⟩
      obtain rfl := Option.some.inj (hr.symm.trans hb)
      exact Nat.le_of_eq hs.symm
    · exact ⟨by simp [hadv], by simp [hr], by simpa [hbd, hct] using inv.one_handler,
        by simp [hr]⟩
  | burstTimer =>
    obtain ⟨⟨-, hq⟩, a, w, -, -, hw, rfl⟩ := burstTimer_cases h
    exact ⟨inv.connected_link, inv.radio_id, .inr hq, fun _ _ => .inl (.inr (by simp [hw]))⟩
  | configTimer =>
    obtain ⟨⟨hq, -⟩, a, w, -, -, hw, rfl⟩ := configTimer_cases h
    exact ⟨inv.connected_link, inv.radio_id, .inl hq, fun _ _ => .inr (.inr (by simp [hw]))⟩
  | burstHandler rc =>
    obtain ⟨-, hrun, hl, hcase⟩ := burstHandler_cases h
    rcases hcase with ⟨hc, -, hr, hs, -⟩ | ⟨-, hadv, hr, hs, -, hct⟩ | ⟨-, hadv, hr, -⟩
    · have hlink : m'.link ≠ .down := hl ▸ inv.connected_link hc
      exact ⟨fun _ => hlink, fun b hb => hs ▸ inv.radio_id b (hr ▸ hb), .inl hrun,
        fun hd => absurd hd hlink⟩
    · refine ⟨by simp [hadv], fun b hb => ?_, .inl hrun,
        fun _ _ => .inr (hct ▸ Work.active_schedule_cancel _ _)⟩
      obtain rfl := Option.some.inj (hr.symm.trans hb)
      exact Nat.le_of_eq hs.symm
    · exact ⟨by simp [hadv], by simp [hr], .inl hrun, by simp [hr]⟩
  | configHandler =>
    obtain ⟨-, hadv, hr, -, -, -, -, hrun⟩ := configHandler_cases h
    exact ⟨by simp [hadv], by simp [hr], .inr hrun, by simp [hr]⟩
  | linkUp =>
    obtain ⟨-, -, rfl⟩ := linkUp_cases h
    exact ⟨by simp, by simp, inv.one_handler, by simp⟩
  | connected =>
    obtain ⟨hl, -, hr, hs, hbd, hct⟩ := connected_cases h
    have hlink : m'.link ≠ .down := by rcases hl with ⟨-, hl⟩ | ⟨-, hl⟩ <;> simp [hl]
    exact ⟨fun _ => hlink, fun b hb => hs ▸ inv.radio_id b (hr ▸ hb),
      by simpa [hbd, hct] using inv.one_handler, fun hd => absurd hd hlink⟩
  | connectFailed err =>
    rw [connectFailed_cases h]
    exact inv
  | linkLost =>
    obtain ⟨since, -, rfl⟩ := linkLost_cases h
    exact ⟨by simp, inv.radio_id, inv.one_handler, by simp⟩
  | disconnected =>
    obtain ⟨-, -, hadv, hr, -, hbd, hct⟩ := disconnected_cases h
    exact ⟨by simp [hadv], by simp [hr], by simpa [hbd, hct] using inv.one_handler, by simp [hr]⟩

/-- Outside a connection either handler takes the present broadcast off the air. -/
theorem runHandler_ends {m : Ble} (inv : Covered m) (hlink : m.link = .down)
    (hradio : m.radio ≠ none) (w : Timeout) (rc : ℤ) : (runHandler rc m w).radio ≠ m.radio := by
  have hadv : m.advState ≠ .connected := fun hc => inv.connected_link hc hlink
  cases w with
  | burstDone =>
    rcases eq_or_ne rc 0 with rfl | hrc
    · rw [runHandler, burstDoneHandler, enterConfigWindow_ok m hadv]
      intro heq
      exact absurd (inv.radio_id _ heq.symm) (by simp)
    · rw [runHandler, burstDoneHandler, enterConfigWindow_failed m hrc hadv]
      exact hradio.symm
  | configTimeout => exact hradio.symm

/-- In every reachable state in which the radio advertises and there is no connection and no
    disconnect callback to come, a work item that is armed or whose handler has begun ends that
    broadcast. -/
theorem advertising_has_timeout (m : Ble) (h : Reach bleStep anyStep Ble.reset m)
    (hradio : m.radio ≠ none) (hlink : m.link = .down) : ∃ w, Ends m w := by
  have inv : Covered m := h.invariant
    ⟨fun hc => by simp [Ble.reset] at hc, by simp [Ble.reset], .inl rfl, by simp [Ble.reset]⟩
    covered_step
  rcases inv.covered hlink hradio with hw | hw
  · exact ⟨.burstDone, hw, runHandler_ends inv hlink hradio .burstDone⟩
  · exact ⟨.configTimeout, hw, runHandler_ends inv hlink hradio .configTimeout⟩

/-- A burst whose re-arm is ignored: the handler of the heartbeat's timer is still waiting, and it
    is the one that ends the new broadcast. -/
theorem ignored_rearm_has_timeout :
    ∃ w, Ends ((bleStep heartbeatOver (.burst 1 eventBurstMs 0)).getD .reset) w :=
  advertising_has_timeout _
    (.of_exec [.burst 0 bootHeartbeatMs 0, .burstTimer, .burst 1 eventBurstMs 0] .start (by decide))
    (by decide) (by decide)

end SeeedMote.Mote
