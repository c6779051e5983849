import SeeedMote.Mote.AdvRuns

/-! The mote's RGB LED beside its advertising: the LED lines of the bodies under `adv_mutex`, the two
    work items that tick while the config window is open and while a central is connected, and the
    timer that ends a pulse in an interrupt of its own, also between two pin writes.

        start_bthome_burst ──▶ green 80 ms
        enter_config_window ──▶ blue 30 ms, again every 5 s
        bt_connected ──▶ cyan 80 ms, again every 2 s

    The build without USB, from the boot blink on, in which nothing else drives the LED. -/

namespace SeeedMote.Mote
open Lib

def configLedIntervalMs : ℕ := 5000
def configLedOnMs : ℕ := 30
def connectedLedIntervalMs : ℕ := 2000
def connectedLedOnMs : ℕ := 80
def eventLedOnMs : ℕ := 80

/-! ### The LED -/

/-- The levels of the three pins, and the bits of `enum led_color`. -/
structure Rgb where
  red : Bool
  green : Bool
  blue : Bool
  deriving DecidableEq

namespace Rgb

def off : Rgb := ⟨false, false, false⟩
def onlyGreen : Rgb := ⟨false, true, false⟩
def onlyBlue : Rgb := ⟨false, false, true⟩
def cyan : Rgb := ⟨false, true, true⟩

/-- Some pin is on. -/
def lit (c : Rgb) : Prop := c ≠ off

instance (c : Rgb) : Decidable c.lit := inferInstanceAs (Decidable (_ ≠ _))

/-- What three pin writes in the order of the source leave when the interrupt that switches all pins
    off comes after `k` of them. -/
def cutAfter (c : Rgb) (k : Fin 4) : Rgb := ⟨c.red && k < 1, c.green && k < 2, c.blue && k < 3⟩

end Rgb

/-- The pins, `led_off_timer` with its delay while it is armed, and the two work items. -/
structure Leds where
  ready : Bool
  pins : Rgb
  offTimer : Option ℕ
  configLed : Work ℕ
  connectedLed : Work ℕ
  deriving DecidableEq

/-- After `led_init_and_boot_blink`, which leaves the LED off. -/
def Leds.boot (ready : Bool) : Leds := ⟨ready, .off, none, .idle, .idle⟩

/-- `led_set_color`. -/
def ledSetColor (color : Rgb) (l : Leds) : Leds := if l.ready then { l with pins := color } else l

/-- `led_off_handler`, when the timer expires. -/
def ledOffHandler (l : Leds) : Leds := ledSetColor .off { l with offTimer := none }

/-- `led_pulse`; an armed timer may expire after `cut` of the pin writes. -/
def ledPulse (color : Rgb) (onMs : ℕ) (cut : Option (Fin 4)) (l : Leds) : Leds :=
  let l := match cut, l.offTimer with
    | some k, some _ => ledSetColor (color.cutAfter k) { l with offTimer := none }
    | _, _ => ledSetColor color l
  { l with offTimer := some onMs }

/-- `cancel_config_led`. -/
def cancelConfigLed (l : Leds) : Leds := ledSetColor .off { l with configLed := l.configLed.cancel }

/-- `cancel_connected_led`. -/
def cancelConnectedLed (l : Leds) : Leds :=
  ledSetColor .off { l with connectedLed := l.connectedLed.cancel }

section Frame
variable (color : Rgb) (onMs : ℕ) (cut : Option (Fin 4)) (l : Leds)

@[simp] theorem ledSetColor_ready : (ledSetColor color l).ready = l.ready := by
  rw [ledSetColor]
  split <;> rfl

@[simp] theorem ledSetColor_configLed : (ledSetColor color l).configLed = l.configLed := by
  rw [ledSetColor]
  split <;> rfl

@[simp] theorem ledSetColor_connectedLed : (ledSetColor color l).connectedLed = l.connectedLed := by
  rw [ledSetColor]
  split <;> rfl

@[simp] theorem ledPulse_ready : (ledPulse color onMs cut l).ready = l.ready := by
  simp only [ledPulse]
  split
  · exact ledSetColor_ready ..
  · exact ledSetColor_ready ..

@[simp] theorem ledPulse_configLed : (ledPulse color onMs cut l).configLed = l.configLed := by
  simp only [ledPulse]
  split
  · exact ledSetColor_configLed ..
  · exact ledSetColor_configLed ..

@[simp] theorem ledPulse_connectedLed :
    (ledPulse color onMs cut l).connectedLed = l.connectedLed := by
  simp only [ledPulse]
  split
  · exact ledSetColor_connectedLed ..
  · exact ledSetColor_connectedLed ..

end Frame

/-! ### The LED lines of the bodies -/

section Bodies
variable (cut : Option (Fin 4)) (m : Ble) (l : Leds)

/-- `start_bthome_burst`. -/
def startBthomeBurstLeds (moving : UInt8) : Leds :=
  if m.advState = .connected then l
  else
    let l := cancelConnectedLed (cancelConfigLed l)
    if moving ≠ 0 then ledPulse .onlyGreen eventLedOnMs cut l else l

/-- `enter_config_window`. -/
def enterConfigWindowLeds (rc : ℤ) : Leds :=
  if m.advState = .connected then l
  else
    let l := cancelConnectedLed (cancelConfigLed l)
    if rc ≠ 0 then l
    else
      let l := ledPulse .onlyBlue configLedOnMs cut l
      { l with configLed := l.configLed.schedule configLedIntervalMs }

/-- `enter_idle`. -/
def enterIdleLeds : Leds := cancelConnectedLed (cancelConfigLed l)

/-- `config_led_handler`. -/
def configLedHandler : Leds :=
  if m.advState ≠ .configWindow then l
  else
    let l := ledPulse .onlyBlue configLedOnMs cut l
    { l with configLed := l.configLed.schedule configLedIntervalMs }

/-- `connected_led_handler`. -/
def connectedLedHandler : Leds :=
  if m.advState ≠ .connected then l
  else
    let l := ledPulse .cyan connectedLedOnMs cut l
    { l with connectedLed := l.connectedLed.schedule connectedLedIntervalMs }

/-- `bt_connected`; it stops the timer first. -/
def btConnectedLeds (err : UInt8) : Leds :=
  if err ≠ 0 then l
  else
    let l := cancelConfigLed { l with offTimer := none }
    let l := ledPulse .cyan connectedLedOnMs none l
    { l with connectedLed := l.connectedLed.schedule connectedLedIntervalMs }

end Bodies

/-! ### Runs -/

structure LitMote where
  ble : Ble
  leds : Leds
  deriving DecidableEq

def LitMote.reset (ready : Bool) : LitMote := ⟨.reset, .boot ready⟩

inductive LitEvent where
  | ble (e : BleEvent) (cut : Option (Fin 4))
  /-- `config_led_work` or `connected_led_work` expires and its handler begins. -/
  | configLedTimer
  | connectedLedTimer
  /-- A begun handler gets the mutex and returns. -/
  | configLedHandler (cut : Option (Fin 4))
  | connectedLedHandler (cut : Option (Fin 4))
  /-- `led_off_timer` expires. -/
  | ledOff
  deriving DecidableEq

/-- The queue thread is in neither LED handler. -/
def Leds.queueFree (l : Leds) : Prop := l.configLed.running = none ∧ l.connectedLed.running = none

instance (l : Leds) : Decidable l.queueFree := inferInstanceAs (Decidable (_ ∧ _))

/-- The LED after an event of the advertising. -/
def ledsAfter (cut : Option (Fin 4)) (m : Ble) (l : Leds) : BleEvent → Leds
  | .burst moving _ _ => startBthomeBurstLeds cut m l moving
  | .burstHandler rc => enterConfigWindowLeds cut m l rc
  | .configHandler => enterIdleLeds l
  | .connected => btConnectedLeds l 0
  | .connectFailed err => btConnectedLeds l err
  | .disconnected => enterIdleLeds l
  | .burstTimer | .configTimer | .linkUp | .linkLost => l

/-- The event begins a handler. -/
def BleEvent.begins (e : BleEvent) : Prop := e = .burstTimer ∨ e = .configTimer

instance (e : BleEvent) : Decidable e.begins := inferInstanceAs (Decidable (_ ∨ _))

def litStep (s : LitMote) : LitEvent → Option LitMote
  | .ble e cut =>
    if e.begins → s.leds.queueFree then
      (bleStep s.ble e).map fun m => ⟨m, ledsAfter cut s.ble s.leds e⟩
    else none
  | .configLedTimer =>
    if s.ble.queueFree ∧ s.leds.queueFree then
      s.leds.configLed.begin.map fun w => { s with leds := { s.leds with configLed := w } }
    else none
  | .connectedLedTimer =>
    if s.ble.queueFree ∧ s.leds.queueFree then
      s.leds.connectedLed.begin.map fun w => { s with leds := { s.leds with connectedLed := w } }
    else none
  | .configLedHandler cut =>
    if s.leds.configLed.running.isSome then
      let l := configLedHandler cut s.ble s.leds
      some { s with leds := { l with configLed := l.configLed.finish } }
    else none
  | .connectedLedHandler cut =>
    if s.leds.connectedLed.running.isSome then
      let l := connectedLedHandler cut s.ble s.leds
      some { s with leds := { l with connectedLed := l.connectedLed.finish } }
    else none
  | .ledOff => if s.leds.offTimer.isSome then some { s with leds := ledOffHandler s.leds } else none

/-! ### What a step does -/

/-- The steps, with what they need. -/
inductive LitMoves (s : LitMote) : LitMote → Prop
  | ble (e : BleEvent) (cut : Option (Fin 4)) {m : Ble} (hfree : e.begins → s.leds.queueFree)
      (hstep : bleStep s.ble e = some m) : LitMoves s ⟨m, ledsAfter cut s.ble s.leds e⟩
  | configLedTimer (hfree : s.ble.queueFree ∧ s.leds.queueFree) {w : Work ℕ}
      (hw : s.leds.configLed.begin = some w) : LitMoves s ⟨s.ble, { s.leds with configLed := w }⟩
  | connectedLedTimer (hfree : s.ble.queueFree ∧ s.leds.queueFree) {w : Work ℕ}
      (hw : s.leds.connectedLed.begin = some w) : LitMoves s ⟨s.ble, { s.leds with connectedLed := w }⟩
  | configLedHandler (cut : Option (Fin 4)) (hrun : s.leds.configLed.running.isSome) :
      LitMoves s ⟨s.ble, { configLedHandler cut s.ble s.leds with
        configLed := (configLedHandler cut s.ble s.leds).configLed.finish }⟩
  | connectedLedHandler (cut : Option (Fin 4)) (hrun : s.leds.connectedLed.running.isSome) :
      LitMoves s ⟨s.ble, { connectedLedHandler cut s.ble s.leds with
        connectedLed := (connectedLedHandler cut s.ble s.leds).connectedLed.finish }⟩
  | ledOff (harmed : s.leds.offTimer.isSome) : LitMoves s ⟨s.ble, ledOffHandler s.leds⟩

theorem moves_of_litStep {s s' : LitMote} {e : LitEvent} (h : litStep s e = some s') :
    LitMoves s s' := by
  cases e with
  | ble e cut =>
    simp only [litStep] at h
    split at h
    · next hfree =>
      obtain ⟨m, hm, rfl⟩ := Option.map_eq_some_iff.mp h
      exact .ble e cut hfree hm
    · simp at h
  | configLedTimer =>
    simp only [litStep] at h
    split at h
    · next hfree =>
      obtain ⟨w, hw, rfl⟩ := Option.map_eq_some_iff.mp h
      exact .configLedTimer hfree hw
    · simp at h
  | connectedLedTimer =>
    simp only [litStep] at h
    split at h
    · next hfree =>
      obtain ⟨w, hw, rfl⟩ := Option.map_eq_some_iff.mp h
      exact .connectedLedTimer hfree hw
    · simp at h
  | configLedHandler cut =>
    simp only [litStep] at h
    split at h
    · next hrun =>
      obtain rfl := Option.some.inj h
      exact .configLedHandler cut hrun
    · simp at h
  | connectedLedHandler cut =>
    simp only [litStep] at h
    split at h
    · next hrun =>
      obtain rfl := Option.some.inj h
      exact .connectedLedHandler cut hrun
    · simp at h
  | ledOff =>
    simp only [litStep] at h
    split at h
    · next harmed =>
      obtain rfl := Option.some.inj h
      exact .ledOff harmed
    · simp at h

/-- The advertising does not depend on the LED. -/
theorem reach_ble {ready : Bool} {s : LitMote} (h : Reach litStep anyStep (.reset ready) s) :
    Reach bleStep anyStep .reset s.ble := by
  induction h with
  | start => exact .start
  | next _ _ hstep ih =>
    cases moves_of_litStep hstep with
    | ble e cut hfree hble => exact .next ih trivial hble
    | configLedTimer hfree hw => exact ih
    | connectedLedTimer hfree hw => exact ih
    | configLedHandler cut hrun => exact ih
    | connectedLedHandler cut hrun => exact ih
    | ledOff harmed => exact ih

/-! ### Colours -/

/-- The LED shows at most the colour `color`, and only while the timer is armed to end it. -/
structure Leds.Shows (l : Leds) (color : Rgb) : Prop where
  red : l.pins.red = true → color.red = true
  green : l.pins.green = true → color.green = true
  blue : l.pins.blue = true → color.blue = true
  ends : l.pins.lit → ∃ ms, l.offTimer = some ms ∧ ms ≤ 80
  dark : l.ready = false → l.pins = .off

theorem shows_of_off {l : Leds} (h : l.pins = .off) (color : Rgb) : l.Shows color where
  red hred := by simp [h, Rgb.off] at hred
  green hgreen := by simp [h, Rgb.off] at hgreen
  blue hblue := by simp [h, Rgb.off] at hblue
  ends hlit := absurd h hlit
  dark _ := h

/-- The work items do not matter to it. -/
theorem Leds.Shows.congr {l l' : Leds} {color : Rgb} (h : l.Shows color) (hpins : l'.pins = l.pins)
    (htimer : l'.offTimer = l.offTimer) (hready : l'.ready = l.ready) : l'.Shows color where
  red := hpins ▸ h.red
  green := hpins ▸ h.green
  blue := hpins ▸ h.blue
  ends := by rw [hpins, htimer]; exact h.ends
  dark := by rw [hpins, hready]; exact h.dark

theorem ledSetColor_off {l : Leds} (hdark : l.ready = false → l.pins = .off) :
    (ledSetColor .off l).pins = .off := by
  rw [ledSetColor]
  split
  · rfl
  · next h => exact hdark (by simpa using h)

theorem enterIdleLeds_pins {l : Leds} (hdark : l.ready = false → l.pins = .off) :
    (enterIdleLeds l).pins = .off := by
  refine ledSetColor_off fun hready => ?_
  have hl : l.ready = false := by simpa [cancelConfigLed] using hready
  exact ledSetColor_off fun _ => hdark hl

/-- A pulse shows its colour, or the part of it that the interrupt left. -/
theorem ledPulse_shows {l : Leds} (hdark : l.ready = false → l.pins = .off) (color : Rgb) {onMs : ℕ}
    (hle : onMs ≤ 80) (cut : Option (Fin 4)) : (ledPulse color onMs cut l).Shows color := by
  have hends : (ledPulse color onMs cut l).offTimer = some onMs := rfl
  have hready := ledPulse_ready color onMs cut l
  by_cases h : l.ready = true
  · have hpins : ∃ k, (ledPulse color onMs cut l).pins = color ∨
        (ledPulse color onMs cut l).pins = color.cutAfter k := by
      simp only [ledPulse, ledSetColor]
      split
      · next k _ _ => exact ⟨k, .inr (by rw [if_pos h])⟩
      · exact ⟨0, .inl (by rw [if_pos h])⟩
    obtain ⟨k, hpins | hpins⟩ := hpins
    · refine ⟨?_, ?_, ?_, fun _ => ⟨onMs, hends, hle⟩, fun hf => ?_⟩
      · rw [hpins]; exact id
      · rw [hpins]; exact id
      · rw [hpins]; exact id
      · exact absurd (h.symm.trans (hready.symm.trans hf)) (by simp)
    · refine ⟨?_, ?_, ?_, fun _ => ⟨onMs, hends, hle⟩, fun hf => ?_⟩
      · rw [hpins, Rgb.cutAfter]; exact fun hb => (Bool.and_eq_true_iff.mp hb).1
      · rw [hpins, Rgb.cutAfter]; exact fun hb => (Bool.and_eq_true_iff.mp hb).1
      · rw [hpins, Rgb.cutAfter]; exact fun hb => (Bool.and_eq_true_iff.mp hb).1
      · exact absurd (h.symm.trans (hready.symm.trans hf)) (by simp)
  · have hf : l.ready = false := by simpa using h
    refine shows_of_off ?_ color
    simp only [ledPulse, ledSetColor]
    split
    · rw [if_neg h]; exact hdark hf
    · rw [if_neg h]; exact hdark hf

/-! ### Ticks -/

/-- The work item is armed only while `P` holds, and then it is on its way and can be armed again. -/
structure Ticks (w : Work ℕ) (P : Prop) : Prop where
  armed : w.scheduled.isSome → P
  alive : P → w.Active ∧ w.canceling = false

section Ticks
variable {w : Work ℕ} {P : Prop}

theorem canceling_eq_false (h : w.running = none) : w.canceling = false := by
  cases hc : w.canceling with
  | false => rfl
  | true => exact absurd (w.canceling_running hc) (by simp [h])

theorem ticks_cancel (h : ¬P) : Ticks w.cancel P where
  armed hsome := by simp at hsome
  alive hP := absurd hP h

theorem ticks_schedule (hrun : w.running = none) (hP : P) (delayMs : ℕ) :
    Ticks (w.schedule delayMs) P where
  armed _ := hP
  alive _ := by
    have hcancel := canceling_eq_false hrun
    rw [Work.schedule]
    split
    · next hs => exact ⟨.inl (hs.resolve_right (by simp [hcancel])), hcancel⟩
    · exact ⟨.inl rfl, hcancel⟩

/-- The handler arms its item again before it returns. -/
theorem Ticks.again (h : Ticks w P) (hP : P) (delayMs : ℕ) :
    Ticks (w.schedule delayMs).finish P where
  armed _ := hP
  alive _ := by
    have hcancel := (h.alive hP).2
    refine ⟨.inl ?_, rfl⟩
    rw [Work.finish, Work.schedule]
    split
    · next hs => exact hs.resolve_right (by simp [hcancel])
    · rfl

theorem Ticks.finish (h : Ticks w P) (hP : ¬P) : Ticks w.finish P where
  armed hsome := h.armed hsome
  alive hP' := absurd hP' hP

theorem ticks_begin (hrun : w.running = none) {w' : Work ℕ} (hw : w.begin = some w') : Ticks w' P := by
  obtain ⟨a, -, hnone, hsome, hcancel⟩ := (Work.begin_eq_some_iff w w').mp hw
  refine ⟨fun h' => by simp [hnone] at h', fun hP => ⟨.inr (by rw [hsome]; rfl), ?_⟩⟩
  rw [hcancel, canceling_eq_false hrun]

end Ticks

/-! ### The invariant -/

/-- The colour of each state. -/
def colorOf : AdvState → Rgb
  | .idle => .onlyGreen
  | .eventBurst => .onlyGreen
  | .configWindow => .onlyBlue
  | .connected => .cyan

structure LightInv (s : LitMote) : Prop where
  shows : s.leds.Shows (colorOf s.ble.advState)
  config : Ticks s.leds.configLed (s.ble.advState = .configWindow)
  connected : Ticks s.leds.connectedLed (s.ble.advState = .connected)
  linked : s.ble.advState = .connected → s.ble.inConnection
  queue : s.ble.queueFree ∨ s.leds.queueFree
  /-- While `connected_led_handler` waits, no new connection can come up. -/
  waiting : s.leds.connectedLed.running.isSome →
    s.ble.inConnection ∨ s.ble.link = .down ∧ s.ble.radio.map Broadcast.kind ≠ some .config

theorem lightInv_reset (ready : Bool) : LightInv (.reset ready) where
  shows := shows_of_off rfl _
  config := ⟨fun h => by simp [LitMote.reset, Leds.boot, Work.idle] at h, nofun⟩
  connected := ⟨fun h => by simp [LitMote.reset, Leds.boot, Work.idle] at h, nofun⟩
  linked := nofun
  queue := .inl ⟨rfl, rfl⟩
  waiting h := by simp [LitMote.reset, Leds.boot, Work.idle] at h

/-! ### One step -/

@[simp] theorem enterIdleLeds_ready (l : Leds) : (enterIdleLeds l).ready = l.ready := by
  simp [enterIdleLeds, cancelConnectedLed, cancelConfigLed]

@[simp] theorem enterIdleLeds_configLed (l : Leds) :
    (enterIdleLeds l).configLed = l.configLed.cancel := by
  simp [enterIdleLeds, cancelConnectedLed, cancelConfigLed]

@[simp] theorem enterIdleLeds_connectedLed (l : Leds) :
    (enterIdleLeds l).connectedLed = l.connectedLed.cancel := by
  simp [enterIdleLeds, cancelConnectedLed, cancelConfigLed]

/-- The LED after everything is cancelled. -/
theorem enterIdleLeds_dark {l : Leds} (hdark : l.ready = false → l.pins = .off) :
    (enterIdleLeds l).ready = false → (enterIdleLeds l).pins = .off := fun _ =>
  enterIdleLeds_pins hdark

/-- Only an expiry fills the queue thread. -/
theorem bleStep_queueFree {m m' : Ble} {e : BleEvent} (h : bleStep m e = some m') (he : ¬e.begins)
    (hfree : m.queueFree) : m'.queueFree := by
  obtain ⟨hburst, hconfig⟩ := hfree
  cases e with
  | burst moving durationMs rc =>
    rcases burst_cases h with ⟨-, rfl⟩ | ⟨-, -, -, -, hb, hc, -⟩ | ⟨-, -, -, -, hb, hc, -⟩
    · exact ⟨hburst, hconfig⟩
    · exact ⟨by rw [hb, Work.schedule_running, Work.cancel_running, hburst],
        by rw [hc, Work.cancel_running, hconfig]⟩
    · exact ⟨by rw [hb, Work.cancel_running, hburst], by rw [hc, Work.cancel_running, hconfig]⟩
  | burstTimer => exact absurd (.inl rfl) he
  | configTimer => exact absurd (.inr rfl) he
  | burstHandler rc =>
    obtain ⟨hrun, -⟩ := burstHandler_cases h
    simp [hburst] at hrun
  | configHandler =>
    obtain ⟨hrun, -⟩ := configHandler_cases h
    simp [hconfig] at hrun
  | linkUp =>
    obtain ⟨-, -, rfl⟩ := linkUp_cases h
    exact ⟨hburst, hconfig⟩
  | connected =>
    obtain ⟨-, -, -, -, hb, hc⟩ := connected_cases h
    exact ⟨by rw [hb, Work.cancel_running, hburst], by rw [hc, Work.cancel_running, hconfig]⟩
  | connectFailed err =>
    rw [connectFailed_cases h]
    exact ⟨hburst, hconfig⟩
  | linkLost =>
    obtain ⟨since, -, rfl⟩ := linkLost_cases h
    exact ⟨hburst, hconfig⟩
  | disconnected =>
    obtain ⟨-, -, -, -, -, hb, hc⟩ := disconnected_cases h
    exact ⟨by rw [hb, Work.cancel_running, hburst], by rw [hc, Work.cancel_running, hconfig]⟩

section Specs
variable {m : Ble} {l : Leds} (hdark : l.ready = false → l.pins = .off) (cut : Option (Fin 4))
include hdark

theorem startBthomeBurstLeds_spec (hc : m.advState ≠ .connected) (moving : UInt8) :
    (startBthomeBurstLeds cut m l moving).Shows .onlyGreen ∧
      (startBthomeBurstLeds cut m l moving).configLed = l.configLed.cancel ∧
      (startBthomeBurstLeds cut m l moving).connectedLed = l.connectedLed.cancel := by
  have hspec : startBthomeBurstLeds cut m l moving =
      if moving ≠ 0 then ledPulse .onlyGreen eventLedOnMs cut (enterIdleLeds l)
      else enterIdleLeds l := if_neg hc
  rw [hspec]
  split
  · exact ⟨ledPulse_shows (enterIdleLeds_dark hdark) _ (by decide) cut, by simp, by simp⟩
  · exact ⟨shows_of_off (enterIdleLeds_pins hdark) _, by simp, by simp⟩

theorem enterConfigWindowLeds_ok (hc : m.advState ≠ .connected) :
    (enterConfigWindowLeds cut m l 0).Shows .onlyBlue ∧
      (enterConfigWindowLeds cut m l 0).configLed = l.configLed.cancel.schedule configLedIntervalMs ∧
      (enterConfigWindowLeds cut m l 0).connectedLed = l.connectedLed.cancel := by
  have hspec : enterConfigWindowLeds cut m l 0 =
      { ledPulse .onlyBlue configLedOnMs cut (enterIdleLeds l) with
        configLed := (ledPulse .onlyBlue configLedOnMs cut (enterIdleLeds l)).configLed.schedule
          configLedIntervalMs } := if_neg hc
  have hshows := ledPulse_shows (enterIdleLeds_dark hdark) .onlyBlue (by decide : configLedOnMs ≤ 80) cut
  rw [hspec]
  exact ⟨hshows.congr rfl rfl rfl, by simp, by simp⟩

theorem btConnectedLeds_spec :
    (btConnectedLeds l 0).Shows .cyan ∧ (btConnectedLeds l 0).configLed = l.configLed.cancel ∧
      (btConnectedLeds l 0).connectedLed = l.connectedLed.schedule connectedLedIntervalMs := by
  have hoff : (cancelConfigLed { l with offTimer := none }).pins = .off := ledSetColor_off hdark
  have hshows := ledPulse_shows (fun _ => hoff) .cyan (by decide : connectedLedOnMs ≤ 80) none
  exact ⟨hshows.congr rfl rfl rfl, by simp [btConnectedLeds, cancelConfigLed],
    by simp [btConnectedLeds, cancelConfigLed]⟩

end Specs

theorem enterConfigWindowLeds_failed {m : Ble} {l : Leds} (cut : Option (Fin 4)) {rc : ℤ}
    (hrc : rc ≠ 0) (hc : m.advState ≠ .connected) :
    enterConfigWindowLeds cut m l rc = enterIdleLeds l := by
  rw [enterConfigWindowLeds, if_neg hc]
  exact if_pos hrc

/-- The window opens exactly if `bt_le_adv_start` succeeds. -/
theorem burstHandler_opens_iff {m m' : Ble} {rc : ℤ} (h : bleStep m (.burstHandler rc) = some m')
    (hc : m.advState ≠ .connected) : m'.advState = .configWindow ↔ rc = 0 := by
  simp only [bleStep, burstDoneHandler] at h
  split at h
  · obtain rfl := Option.some.inj h
    rcases eq_or_ne rc 0 with rfl | hrc
    · rw [enterConfigWindow_ok m hc]
      exact iff_of_true rfl rfl
    · rw [enterConfigWindow_failed m hrc hc]
      exact iff_of_false (by simp) hrc
  · simp at h

/-- All cancelled, in a state that is neither the config window nor a connection. -/
theorem lightInv_quiet {s : LitMote} {m : Ble} {l : Leds}
    (hconfig : l.configLed = s.leds.configLed.cancel)
    (hconnected : l.connectedLed = s.leds.connectedLed.cancel)
    (hshows : l.Shows (colorOf m.advState)) (hwindow : m.advState ≠ .configWindow)
    (hlink : m.advState ≠ .connected) (hqueue : m.queueFree ∨ s.leds.queueFree)
    (hwait : s.leds.connectedLed.running.isSome →
      m.inConnection ∨ m.link = .down ∧ m.radio.map Broadcast.kind ≠ some .config) :
    LightInv ⟨m, l⟩ where
  shows := hshows
  config := hconfig ▸ ticks_cancel hwindow
  connected := hconnected ▸ ticks_cancel hlink
  linked hc := absurd hc hlink
  queue := hqueue.imp_right fun hf => ⟨by rw [hconfig]; exact hf.1, by rw [hconnected]; exact hf.2⟩
  waiting hrun := hwait (by rwa [hconnected] at hrun)

/-- The LED is left alone and the state too. -/
theorem LightInv.frame {s : LitMote} (h : LightInv s) {m : Ble} (hadv : m.advState = s.ble.advState)
    (hconn : s.ble.inConnection → m.inConnection) (hqueue : m.queueFree ∨ s.leds.queueFree)
    (hwait : s.leds.connectedLed.running.isSome →
      m.inConnection ∨ m.link = .down ∧ m.radio.map Broadcast.kind ≠ some .config) :
    LightInv ⟨m, s.leds⟩ where
  shows := hadv ▸ h.shows
  config := hadv ▸ h.config
  connected := hadv ▸ h.connected
  linked hc := hconn (h.linked (hadv ▸ hc))
  queue := hqueue
  waiting := hwait

/-- A body that cancels all and leaves no config advert on the air. -/
theorem LightInv.silence {s : LitMote} (h : LightInv s) {m : Ble} {l : Leds}
    (hconfig : l.configLed = s.leds.configLed.cancel)
    (hconnected : l.connectedLed = s.leds.connectedLed.cancel)
    (hshows : l.Shows (colorOf m.advState)) (hwindow : m.advState ≠ .configWindow)
    (hlink : m.advState ≠ .connected) (hqueue : m.queueFree ∨ s.leds.queueFree)
    (hl : m.link = s.ble.link) (hradio : m.radio.map Broadcast.kind ≠ some .config) :
    LightInv ⟨m, l⟩ := by
  refine lightInv_quiet hconfig hconnected hshows hwindow hlink hqueue fun hw => ?_
  exact (h.waiting hw).imp (inConnection_of_link hl).mpr fun hd => ⟨hl.trans hd.1, hradio⟩

section Bodies
variable {s : LitMote} (h : LightInv s) (cut : Option (Fin 4)) {m : Ble}
  (hqueue : m.queueFree ∨ s.leds.queueFree)
include h hqueue

theorem lightInv_burst {moving : UInt8} {durationMs : ℕ} {rc : ℤ}
    (hstep : bleStep s.ble (.burst moving durationMs rc) = some m) :
    LightInv ⟨m, startBthomeBurstLeds cut s.ble s.leds moving⟩ := by
  rcases burst_cases hstep with ⟨hc, rfl⟩ | ⟨hc, hadv, hradio, -, -, -, hl⟩ |
    ⟨hc, hadv, hradio, -, -, -, hl⟩
  · rw [startBthomeBurstLeds, if_pos hc]
    exact h
  · obtain ⟨hshows, hconfig, hconnected⟩ := startBthomeBurstLeds_spec h.shows.dark cut hc moving
    exact h.silence hconfig hconnected (hadv ▸ hshows) (by simp [hadv]) (by simp [hadv]) hqueue hl
      (by simp [hradio])
  · obtain ⟨hshows, hconfig, hconnected⟩ := startBthomeBurstLeds_spec h.shows.dark cut hc moving
    exact h.silence hconfig hconnected (hadv ▸ hshows) (by simp [hadv]) (by simp [hadv]) hqueue hl
      (by simp [hradio])

theorem lightInv_burstHandler {rc : ℤ} (hstep : bleStep s.ble (.burstHandler rc) = some m) :
    LightInv ⟨m, enterConfigWindowLeds cut s.ble s.leds rc⟩ := by
  obtain ⟨hrun, -, hl, hcase⟩ := burstHandler_cases hstep
  -- the queue thread is in this handler, so in no LED handler
  have hfreeLeds : s.leds.queueFree := h.queue.resolve_left fun hq => by simp [hq.1] at hrun
  have hidle : ¬s.leds.connectedLed.running.isSome := by simp [hfreeLeds.2]
  rcases hcase with ⟨hc, hadv, -⟩ | ⟨hc, hadv, -⟩ | ⟨hc, hadv, -⟩
  · rw [enterConfigWindowLeds, if_pos hc]
    exact h.frame (hadv.trans hc.symm) (inConnection_of_link hl).mpr hqueue fun hw => absurd hw hidle
  · obtain rfl := (burstHandler_opens_iff hstep hc).mp hadv
    obtain ⟨hshows, hconfig, hconnected⟩ := enterConfigWindowLeds_ok h.shows.dark cut hc
    refine ⟨hadv ▸ hshows, ?_, ?_, ?_, .inr ⟨?_, ?_⟩, ?_⟩
    · rw [hconfig]
      exact ticks_schedule (show s.leds.configLed.cancel.running = none from hfreeLeds.1) hadv _
    · rw [hconnected]
      exact ticks_cancel (by simp [hadv])
    · exact fun hc' => absurd (hadv.symm.trans hc') (by simp)
    · rw [hconfig, Work.schedule_running]
      exact hfreeLeds.1
    · rw [hconnected]
      exact hfreeLeds.2
    · rw [hconnected]
      exact fun hw => absurd hw hidle
  · have hrc : rc ≠ 0 := fun hrc => by
      have hopen := (burstHandler_opens_iff hstep hc).mpr hrc
      simp [hadv] at hopen
    rw [enterConfigWindowLeds_failed cut hrc hc]
    exact lightInv_quiet (enterIdleLeds_configLed _) (enterIdleLeds_connectedLed _)
      (shows_of_off (enterIdleLeds_pins h.shows.dark) _) (by simp [hadv]) (by simp [hadv]) hqueue
      fun hw => absurd hw hidle

theorem lightInv_connected (hstep : bleStep s.ble .connected = some m) :
    LightInv ⟨m, btConnectedLeds s.leds 0⟩ := by
  obtain ⟨hlink, hadv, -⟩ := connected_cases hstep
  -- until now there was no connection
  have hnone : ¬s.ble.inConnection := by
    rcases hlink with ⟨hl, -⟩ | ⟨hl, -⟩
    · simp [Ble.inConnection, hl, Link.since]
    · simp [Ble.inConnection, hl, Link.since]
  have hin : m.inConnection := by
    rcases hlink with ⟨-, hl⟩ | ⟨-, hl⟩
    · simp [Ble.inConnection, hl, Link.since]
    · simp [Ble.inConnection, hl, Link.since]
  have hidle : s.leds.connectedLed.running = none := by
    by_contra hrun
    rcases h.waiting (Option.isSome_iff_ne_none.mpr hrun) with hc | ⟨hd, -⟩
    · exact hnone hc
    · rcases hlink with ⟨hl, -⟩ | ⟨hl, -⟩
      · simp [hl] at hd
      · simp [hl] at hd
  obtain ⟨hshows, hconfig, hconnected⟩ := btConnectedLeds_spec h.shows.dark
  refine ⟨hadv ▸ hshows, ?_, ?_, fun _ => hin, hqueue.imp_right fun hf => ⟨?_, ?_⟩, fun _ => .inl hin⟩
  · rw [hconfig]
    exact ticks_cancel (by simp [hadv])
  · rw [hconnected]
    exact ticks_schedule hidle hadv _
  · rw [hconfig]
    exact hf.1
  · rw [hconnected, Work.schedule_running]
    exact hf.2

end Bodies

/-- The event of the advertising. -/
theorem lightInv_ble {s : LitMote} (h : LightInv s) {e : BleEvent} (cut : Option (Fin 4)) {m : Ble}
    (hfree : e.begins → s.leds.queueFree) (hstep : bleStep s.ble e = some m) :
    LightInv ⟨m, ledsAfter cut s.ble s.leds e⟩ := by
  have hqueue : m.queueFree ∨ s.leds.queueFree := by
    by_cases he : e.begins
    · exact .inr (hfree he)
    · exact h.queue.imp_left (bleStep_queueFree hstep he)
  cases e with
  | burst moving durationMs rc => exact lightInv_burst h cut hqueue hstep
  | burstTimer =>
    obtain ⟨-, a, w, -, -, -, rfl⟩ := burstTimer_cases hstep
    exact h.frame rfl id hqueue h.waiting
  | configTimer =>
    obtain ⟨-, a, w, -, -, -, rfl⟩ := configTimer_cases hstep
    exact h.frame rfl id hqueue h.waiting
  | burstHandler rc => exact lightInv_burstHandler h cut hqueue hstep
  | configHandler =>
    obtain ⟨hrun, hadv, hradio, -, hl, -⟩ := configHandler_cases hstep
    exact h.silence (enterIdleLeds_configLed _) (enterIdleLeds_connectedLed _)
      (shows_of_off (enterIdleLeds_pins h.shows.dark) _) (by simp [hadv]) (by simp [hadv]) hqueue hl
      (by simp [hradio])
  | linkUp =>
    obtain ⟨hdown, hradio, rfl⟩ := linkUp_cases hstep
    refine h.frame rfl (fun hc => ?_) hqueue fun hw => ?_
    · simp [Ble.inConnection, hdown, Link.since] at hc
    · rcases h.waiting hw with hc | ⟨-, hne⟩
      · simp [Ble.inConnection, hdown, Link.since] at hc
      · exact absurd hradio hne
  | connected => exact lightInv_connected h hqueue hstep
  | connectFailed err =>
    have herr : err ≠ 0 := by
      rintro rfl
      simp [bleStep] at hstep
    rw [ledsAfter, btConnectedLeds, if_pos herr, connectFailed_cases hstep]
    exact h
  | linkLost =>
    obtain ⟨since, hl, rfl⟩ := linkLost_cases hstep
    have hsame : s.ble.inConnection → Ble.inConnection { s.ble with link := .lost since } := by
      simp [Ble.inConnection, hl, Link.since]
    refine h.frame rfl hsame hqueue fun hw => ?_
    rcases h.waiting hw with hc | ⟨hd, -⟩
    · exact .inl (hsame hc)
    · simp [hl] at hd
  | disconnected =>
    obtain ⟨-, hl, hadv, hradio, -⟩ := disconnected_cases hstep
    exact lightInv_quiet (enterIdleLeds_configLed _) (enterIdleLeds_connectedLed _)
      (shows_of_off (enterIdleLeds_pins h.shows.dark) _) (by simp [hadv]) (by simp [hadv]) hqueue
      fun _ => .inr ⟨hl, by simp [hradio]⟩

theorem lightInv_step {s s' : LitMote} (h : LightInv s) (hmove : LitMoves s s') : LightInv s' := by
  have hdark := h.shows.dark
  cases hmove with
  | ble e cut hfree hstep => exact lightInv_ble h cut hfree hstep
  | @configLedTimer hfree w hw =>
    refine ⟨h.shows.congr rfl rfl rfl, ticks_begin hfree.2.1 hw, h.connected, h.linked, .inl hfree.1,
      fun hrun => ?_⟩
    exact absurd (hfree.2.2 ▸ hrun) (by simp)
  | @connectedLedTimer hfree w hw =>
    obtain ⟨a, ha, -⟩ := (Work.begin_eq_some_iff _ w).mp hw
    have hconn := h.connected.armed (by rw [ha]; rfl)
    exact ⟨h.shows.congr rfl rfl rfl, h.config, ticks_begin hfree.2.2 hw, h.linked, .inl hfree.1,
      fun _ => .inl (h.linked hconn)⟩
  | configLedHandler cut hrun =>
    have hfree : s.ble.queueFree := h.queue.resolve_right fun hq => by simp [hq.1] at hrun
    rw [configLedHandler]
    by_cases hc : s.ble.advState = .configWindow
    · have hshows := ledPulse_shows hdark .onlyBlue (by decide : configLedOnMs ≤ 80) cut
      rw [if_neg (not_not.mpr hc)]
      refine ⟨?_, ?_, ?_, h.linked, .inl hfree, ?_⟩
      · rw [hc]
        exact hshows.congr rfl rfl rfl
      · simpa using h.config.again hc configLedIntervalMs
      · simpa using h.connected
      · simpa using h.waiting
    · rw [if_pos hc]
      exact ⟨h.shows.congr rfl rfl rfl, h.config.finish hc, h.connected, h.linked, .inl hfree,
        h.waiting⟩
  | connectedLedHandler cut hrun =>
    have hfree : s.ble.queueFree := h.queue.resolve_right fun hq => by simp [hq.2] at hrun
    rw [connectedLedHandler]
    by_cases hc : s.ble.advState = .connected
    · have hshows := ledPulse_shows hdark .cyan (by decide : connectedLedOnMs ≤ 80) cut
      rw [if_neg (not_not.mpr hc)]
      refine ⟨?_, ?_, ?_, h.linked, .inl hfree, nofun⟩
      · rw [hc]
        exact hshows.congr rfl rfl rfl
      · simpa using h.config
      · simpa using h.connected.again hc connectedLedIntervalMs
    · rw [if_pos hc]
      exact ⟨h.shows.congr rfl rfl rfl, h.config, h.connected.finish hc, h.linked, .inl hfree, nofun⟩
  | ledOff harmed =>
    have hpins : (ledOffHandler s.leds).pins = .off := ledSetColor_off hdark
    refine ⟨shows_of_off hpins _, ?_, ?_, h.linked, ?_, ?_⟩
    · simpa [ledOffHandler] using h.config
    · simpa [ledOffHandler] using h.connected
    · simpa [ledOffHandler, Leds.queueFree] using h.queue
    · simpa [ledOffHandler] using h.waiting

/-- What the LED tells. In every run, over any order of motion, timers, handlers, connections and
    failing starts: a lit LED goes off within 80 ms; it shows at most the colour of `adv_state`, green
    for a burst (or one that failed), blue for the config window, cyan for a connection; and in the
    config window as in a connection the next tick is on its way. -/
theorem led_signals_state {ready : Bool} {s : LitMote}
    (h : Reach litStep anyStep (.reset ready) s) :
    s.leds.Shows (colorOf s.ble.advState) ∧
    (s.ble.advState = .configWindow → s.leds.configLed.Active) ∧
    (s.ble.advState = .connected → s.leds.connectedLed.Active) := by
  have inv : LightInv s := h.invariant (lightInv_reset ready)
    fun s _ s' hs _ hstep => lightInv_step hs (moves_of_litStep hstep)
  exact ⟨inv.shows, fun hc => (inv.config.alive hc).1, fun hc => (inv.connected.alive hc).1⟩

/-- A window whose tick is interrupted by the previous one's end, and a central that connects. -/
def connectingRun : List LitEvent :=
  [.ble (.burst 0 bootHeartbeatMs 0) none, .ble .burstTimer none, .ble (.burstHandler 0) none,
    .configLedTimer, .configLedHandler (some 2), .ble .linkUp none, .ble .connected none]

theorem led_signals_state_connected :
    ∃ s, Reach litStep anyStep (.reset true) s ∧ s.leds.pins = .cyan ∧
      (∃ ms, s.leds.offTimer = some ms ∧ ms ≤ 80) ∧ s.leds.connectedLed.Active := by
  have hrun : (exec (guarded anyStep litStep) (.reset true) connectingRun).map
      (fun s => (s.leds.pins, s.ble.advState)) = some (.cyan, .connected) := by
    decide +kernel
  obtain ⟨s, hs, heq⟩ := Option.map_eq_some_iff.mp hrun
  obtain ⟨hpins, hadv⟩ := Prod.mk.inj heq
  have hreach : Reach litStep anyStep (.reset true) s := .of_exec connectingRun .start hs
  obtain ⟨hshows, -, hconnected⟩ := led_signals_state hreach
  exact ⟨s, hreach, hpins, hshows.ends (by rw [hpins]; decide), hconnected hadv⟩

end SeeedMote.Mote
