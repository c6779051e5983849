import Mathlib.Data.List.Pairwise
import Mathlib.Data.Rat.Floor
import Mathlib.Tactic.Linarith
import SeeedMote.Mote.AdvRuns
import SeeedMote.Mote.MotionGate

/-! The mote's `state_machine_task`, `main.c`, over whole runs: interrupts, the timers and the BLE link
    in any order after the boot heartbeat. A run emits its motion bursts.

        INT1 ──▶ WAKE_UP_SRC, samples ──▶ motion_gate_update ──EMIT──▶ start_bthome_burst

    The gate belongs to this thread alone, so a pass is one step, whatever runs before
    `start_bthome_burst` gets the mutex. The packet id counts filled payloads modulo 256, and the gate
    lets at most one payload through per cooldown. Two bursts that share a packet id are therefore
    minutes apart. -/

namespace SeeedMote.Mote
open Lib

/-! ### One pass of the loop -/

/-- `LSM6DSL_WAKE_SRC_WU_IA`. -/
def wakeSrcWuIa : UInt8 := 0x08

/-- `LSM6DSL_WAKE_SRC_SLEEP_STATE`. -/
def wakeSrcSleepState : UInt8 := 0x10

def motionSampleCount : ℕ := 4

def motionGateCfg : MotionGateConfig where
  minScoreMg := 90
  cooldownMs := 2000

/-- The firmware's memory. `fills` counts calls of `fill_bthome_payload`; no code reads it. -/
structure Firmware where
  ble : Ble
  gate : MotionGate
  fills : ℕ
  deriving DecidableEq

/-- What one pass finds: the register `WAKE_UP_SRC` and the samples (`none` when their read fails),
    the return code of `bt_le_adv_start`, and the seconds since boot at which the gate gets its time
    and the radio starts. -/
structure Interrupt where
  src : Option UInt8
  samples : Option (Vector MotionSample motionSampleCount)
  rc : ℤ
  readAt : ℚ
  startAt : ℚ
  deriving DecidableEq

/-- `k_uptime_get`. -/
def kUptimeGet (seconds : ℚ) : ℤ := ⌊1000 * seconds⌋

/-- `score_mg` of a pass. -/
def Interrupt.scoreMg (i : Interrupt) (isWake : Bool) : ℤ :=
  match isWake, i.samples with
  | true, some samples => motionScoreMg samples.toList
  | _, _ => 0

/-- `motion_gate_update` as a pass calls it. -/
def Interrupt.gateUpdate (i : Interrupt) (src : UInt8) (gate : MotionGate) :
    MotionGate × MotionGateDecision :=
  let isWake := src &&& wakeSrcWuIa ≠ 0
  let isInact := src &&& wakeSrcSleepState ≠ 0
  motionGateUpdate gate motionGateCfg isWake isInact (i.scoreMg isWake) (kUptimeGet i.readAt)

/-- One pass of the loop of `state_machine_task`: the new memory, and what `start_bthome_burst`
    returned if it was called. -/
def stateMachinePass (i : Interrupt) (m : Firmware) : Firmware × Option ℤ :=
  match i.src with
  | none => (m, none)
  | some src =>
    let (gate, decision) := i.gateUpdate src m.gate
    if decision = .emit then
      let (rc, ble) := startBthomeBurst 1 eventBurstMs i.rc m.ble
      let fills := if m.ble.advState = .connected then m.fills else m.fills + 1
      (⟨ble, gate, fills⟩, some rc)
    else ({ m with gate := gate }, none)

/-! ### Runs -/

/-- A motion burst on the air: which payload it carries, counted since boot, and when it started. -/
structure Burst where
  number : ℕ
  payload : BthomePayload
  start : ℚ
  deriving DecidableEq

/-- After the heartbeat of `main`, whose success lets the state machine start. -/
def Firmware.boot : Firmware := ⟨(startBthomeBurst 0 bootHeartbeatMs 0 .reset).2, .zero, 1⟩

inductive MoteEvent where
  | interrupt (i : Interrupt)
  | ble (e : BleEvent)
  deriving DecidableEq

/-- One event; the output is the motion burst it starts. -/
def moteStep (m : Firmware) : MoteEvent → Firmware × List Burst
  | .interrupt i =>
    let (m', rc) := stateMachinePass i m
    (m', if rc = some 0 then [⟨m'.fills, m'.ble.payload, i.startAt⟩] else [])
  | .ble (.burst _ _ _) => (m, []) -- the state machine is the only caller after boot
  | .ble e => ({ m with ble := (bleStep m.ble e).getD m.ble }, [])

/-- Clock readings of an event, in order. -/
def MoteEvent.times : MoteEvent → List ℚ
  | .interrupt i => [i.readAt, i.startAt]
  | .ble _ => []

/-- The clock never goes back. -/
def InOrder (es : List MoteEvent) : Prop := (es.flatMap MoteEvent.times).Pairwise (· ≤ ·)

instance (es : List MoteEvent) : Decidable (InOrder es) :=
  inferInstanceAs (Decidable (List.Pairwise _ _))

/-- The motion bursts of a run, in the order of their start. -/
def bursts (es : List MoteEvent) : List Burst := outputs moteStep .boot es

/-! ### One event -/

/-- Nothing but `fill_bthome_payload` changes the packet id. -/
theorem bleStep_bthomePid {m m' : Ble} {e : BleEvent} (he : ∀ v d rc, e ≠ .burst v d rc)
    (h : bleStep m e = some m') : m'.bthomePid = m.bthomePid := by
  have hwindow : ∀ rc, (enterConfigWindow rc m).2.bthomePid = m.bthomePid := by
    intro rc
    by_cases hc : m.advState = .connected
    · rw [enterConfigWindow_connected m rc hc]
    · rcases eq_or_ne rc 0 with rfl | hrc
      · rw [enterConfigWindow_ok m hc]
      · rw [enterConfigWindow_failed m hrc hc]
  cases e with
  | burst v d rc => exact absurd rfl (he v d rc)
  | burstTimer =>
    obtain ⟨-, _, _, -, -, -, rfl⟩ := burstTimer_cases h
    rfl
  | configTimer =>
    obtain ⟨-, _, _, -, -, -, rfl⟩ := configTimer_cases h
    rfl
  | burstHandler rc =>
    obtain ⟨-, h⟩ := Option.ite_none_right_eq_some.mp h
    obtain rfl := Option.some.inj h
    exact hwindow rc
  | configHandler =>
    obtain ⟨-, h⟩ := Option.ite_none_right_eq_some.mp h
    obtain rfl := Option.some.inj h
    rfl
  | linkUp =>
    obtain ⟨-, h⟩ := Option.ite_none_right_eq_some.mp h
    obtain rfl := Option.some.inj h
    rfl
  | connected =>
    simp only [bleStep] at h
    split at h
    · obtain rfl := Option.some.inj h
      rfl
    · obtain rfl := Option.some.inj h
      rfl
    · simp at h
  | connectFailed err =>
    obtain ⟨herr, h⟩ := Option.ite_none_right_eq_some.mp h
    obtain rfl := Option.some.inj h
    rw [btConnected, if_pos herr]
  | linkLost =>
    simp only [bleStep] at h
    split at h
    · obtain rfl := Option.some.inj h
      rfl
    · simp at h
  | disconnected =>
    simp only [bleStep] at h
    split at h
    · obtain rfl := Option.some.inj h
      rfl
    · simp at h

/-- What `start_bthome_burst` does to packet id and payload. -/
theorem startBthomeBurst_pid (moving : UInt8) (durationMs : ℕ) (rc : ℤ) {m : Ble}
    (hc : m.advState ≠ .connected) :
    (startBthomeBurst moving durationMs rc m).2.bthomePid = m.bthomePid + 1 ∧
      (startBthomeBurst moving durationMs rc m).2.payload
        = bthomePayload (m.bthomePid + 1) moving := by
  rcases eq_or_ne rc 0 with rfl | hrc
  · rw [startBthomeBurst_ok m moving durationMs hc]
    exact ⟨rfl, rfl⟩
  · rw [startBthomeBurst_failed m moving durationMs hrc hc]
    exact ⟨rfl, rfl⟩

/-- A step that neither fills a payload nor moves the cooldown. -/
structure Quiet (m m' : Firmware) : Prop where
  fills : m'.fills = m.fills
  pid : m'.ble.bthomePid = m.ble.bthomePid
  hasLastEmit : m'.gate.hasLastEmit = m.gate.hasLastEmit
  lastEmitMs : m'.gate.lastEmitMs = m.gate.lastEmitMs

/-- A step in which the gate emits at `nowMs`; it fills at most one payload. -/
structure Emits (nowMs : ℤ) (m m' : Firmware) : Prop where
  cooldown : m.gate.hasLastEmit = true → m.gate.lastEmitMs + 2000 ≤ nowMs
  hasLastEmit : m'.gate.hasLastEmit = true
  lastEmitMs : m'.gate.lastEmitMs = nowMs
  filled : (m'.fills = m.fills ∧ m'.ble.bthomePid = m.ble.bthomePid) ∨
    (m'.fills = m.fills + 1 ∧ m'.ble.bthomePid = m.ble.bthomePid + 1 ∧
      m'.ble.payload = bthomePayload (m.ble.bthomePid + 1) 1)

/-- One pass emits, or changes nothing that matters here. -/
theorem stateMachinePass_cases (i : Interrupt) (m : Firmware) :
    (Quiet m (stateMachinePass i m).1 ∧ (stateMachinePass i m).2 = none) ∨
    (Emits (kUptimeGet i.readAt) m (stateMachinePass i m).1 ∧
      ((stateMachinePass i m).2 = some 0 → (stateMachinePass i m).1.fills = m.fills + 1)) := by
  rw [stateMachinePass]
  cases i.src with
  | none => exact .inl ⟨⟨rfl, rfl, rfl, rfl⟩, rfl⟩
  | some src =>
    simp only
    by_cases hd : (i.gateUpdate src m.gate).2 = .emit
    · obtain ⟨hgate, hcool⟩ := motionGateUpdate_emit hd
      rw [if_pos hd]
      refine .inr ⟨⟨?_, ?_, ?_, ?_⟩, ?_⟩
      · intro hl
        have := hcool hl
        simp only [motionGateCfg] at this
        omega
      · exact congrArg MotionGate.hasLastEmit hgate
      · exact congrArg MotionGate.lastEmitMs hgate
      · by_cases hc : m.ble.advState = .connected
        · rw [startBthomeBurst_connected _ _ _ _ hc]
          exact .inl ⟨if_pos hc, rfl⟩
        · exact .inr ⟨if_neg hc, startBthomeBurst_pid 1 eventBurstMs i.rc hc⟩
      · intro hrc
        by_cases hc : m.ble.advState = .connected
        · rw [startBthomeBurst_connected _ _ _ _ hc] at hrc
          simp [ealready] at hrc
        · exact if_neg hc
    · obtain ⟨hhas, hlast⟩ := motionGateUpdate_quiet hd
      rw [if_neg hd]
      exact .inl ⟨⟨rfl, rfl, hhas, hlast⟩, rfl⟩

/-- One event, with the burst it starts. -/
theorem moteStep_cases (m : Firmware) (e : MoteEvent) :
    (Quiet m (moteStep m e).1 ∧ (moteStep m e).2 = []) ∨
    (∃ i, e = .interrupt i ∧ Emits (kUptimeGet i.readAt) m (moteStep m e).1 ∧
      ((moteStep m e).2 = [] ∨ ((moteStep m e).1.fills = m.fills + 1 ∧
        (moteStep m e).2 = [⟨m.fills + 1, (moteStep m e).1.ble.payload, i.startAt⟩]))) := by
  cases e with
  | interrupt i =>
    simp only [moteStep]
    rcases stateMachinePass_cases i m with ⟨hq, hrc⟩ | ⟨he, hfills⟩
    · exact .inl ⟨hq, by rw [hrc]; rfl⟩
    · refine .inr ⟨i, rfl, he, ?_⟩
      by_cases hrc : (stateMachinePass i m).2 = some 0
      · rw [if_pos hrc, hfills hrc]
        exact .inr ⟨rfl, rfl⟩
      · exact .inl (if_neg hrc)
  | ble e =>
    have hble : ∀ e, (∀ v d rc, e ≠ .burst v d rc) →
        Quiet m { m with ble := (bleStep m.ble e).getD m.ble } := by
      intro e he
      refine ⟨rfl, ?_, rfl, rfl⟩
      cases hs : bleStep m.ble e with
      | none => rfl
      | some b => exact bleStep_bthomePid he hs
    cases e with
    | burst v d rc => exact .inl ⟨⟨rfl, rfl, rfl, rfl⟩, rfl⟩
    | _ => exact .inl ⟨hble _ (by simp), rfl⟩

/-! ### Packet ids -/

/-- The packet id is the number of the payload modulo 256. -/
def Numbered (m : Firmware) : Prop := m.ble.bthomePid = UInt8.ofNat m.fills

theorem numbered_step {m : Firmware} (h : Numbered m) (e : MoteEvent) :
    Numbered (moteStep m e).1 ∧
      ∀ b ∈ (moteStep m e).2, b.payload = bthomePayload (UInt8.ofNat b.number) 1 := by
  have hnext : m.ble.bthomePid + 1 = UInt8.ofNat (m.fills + 1) := by
    rw [h, UInt8.ofNat_add]
    rfl
  rw [Numbered]
  rcases moteStep_cases m e with ⟨hq, hout⟩ | ⟨i, -, he, hout⟩
  · rw [hq.fills, hq.pid, hout]
    exact ⟨h, by simp⟩
  · rcases he.filled with ⟨hfills, hpid⟩ | ⟨hfills, hpid, hpay⟩
    · rw [hfills, hpid]
      refine ⟨h, ?_⟩
      intro b hb
      rcases hout with hout | ⟨hone, -⟩
      · simp [hout] at hb
      · omega
    · rw [hfills, hpid, hnext]
      refine ⟨rfl, ?_⟩
      intro b hb
      rcases hout with hout | ⟨-, hout⟩
      · simp [hout] at hb
      · rw [hout, List.mem_singleton] at hb
        rw [hb, hpay, hnext]

/-- Every burst of a run carries the payload of its number, with `moving = 1`. -/
theorem payload_of_run : ∀ (es : List MoteEvent) {m : Firmware}, Numbered m →
    ∀ b ∈ outputs moteStep m es, b.payload = bthomePayload (UInt8.ofNat b.number) 1 := by
  intro es m h
  exact forall_mem_outputs Numbered _ (fun _ e hm => numbered_step hm e) es h

theorem payload_eq {es : List MoteEvent} {b : Burst} (hb : b ∈ bursts es) :
    b.payload = bthomePayload (UInt8.ofNat b.number) 1 :=
  payload_of_run es (show Numbered .boot from rfl) b hb

/-! ### The cooldown separates the bursts -/

/-- Since burst `b` every further payload took one cooldown. -/
structure Paced (b : Burst) (m : Firmware) : Prop where
  number : b.number ≤ m.fills
  cooled : b.number < m.fills → m.gate.hasLastEmit = true ∧
    kUptimeGet b.start + 2000 * ((m.fills : ℤ) - b.number - 1) ≤ m.gate.lastEmitMs

/-- `b'` comes after `b`, by two seconds for each payload from one to the other but for the first. -/
def Burst.Before (b b' : Burst) : Prop :=
  b.number < b'.number ∧ b.start + 2 * ((b'.number : ℚ) - b.number) ≤ b'.start + 3

theorem kUptimeGet_mono {s t : ℚ} (h : s ≤ t) : kUptimeGet s ≤ kUptimeGet t :=
  Int.floor_le_floor (by linarith)

theorem paced_step {b : Burst} {m : Firmware} (h : Paced b m) {e : MoteEvent}
    (ht : ∀ t ∈ e.times, b.start ≤ t) : Paced b (moteStep m e).1 := by
  obtain ⟨hnum, hcooled⟩ := h
  rcases moteStep_cases m e with ⟨hq, -⟩ | ⟨i, rfl, he, -⟩
  · refine ⟨by rw [hq.fills]; exact hnum, ?_⟩
    rw [hq.fills, hq.hasLastEmit, hq.lastEmitMs]
    exact hcooled
  · have hread : kUptimeGet b.start ≤ kUptimeGet i.readAt :=
      kUptimeGet_mono (ht _ (by simp [MoteEvent.times]))
    have hfills : (moteStep m (.interrupt i)).1.fills = m.fills ∨
        (moteStep m (.interrupt i)).1.fills = m.fills + 1 := by
      rcases he.filled with ⟨hf, -⟩ | ⟨hf, -⟩
      · exact .inl hf
      · exact .inr hf
    refine ⟨by omega, fun hlt => ⟨he.hasLastEmit, ?_⟩⟩
    rw [he.lastEmitMs]
    by_cases hm : b.number < m.fills
    · obtain ⟨hhas, hlast⟩ := hcooled hm
      have := he.cooldown hhas
      omega
    · omega

/-- A burst started in a paced state comes after `b`. -/
theorem before_of_step {b : Burst} {m : Firmware} (h : Paced b m) {e : MoteEvent}
    (ht : ∀ t ∈ e.times, b.start ≤ t) (hord : e.times.Pairwise (· ≤ ·)) :
    ∀ b' ∈ (moteStep m e).2, b.Before b' := by
  intro b' hb'
  obtain ⟨-, hcooled⟩ := paced_step h ht
  rcases moteStep_cases m e with ⟨-, hout⟩ | ⟨i, rfl, he, hout⟩
  · simp [hout] at hb'
  · rcases hout with hout | ⟨hfills, hout⟩
    · simp [hout] at hb'
    · rw [hout, List.mem_singleton] at hb'
      have hnum := h.number
      have hlt : b.number < (moteStep m (.interrupt i)).1.fills := by omega
      obtain ⟨-, hlast⟩ := hcooled hlt
      rw [he.lastEmitMs, hfills] at hlast
      have hlower : 1000 * b.start - 1 < kUptimeGet b.start := Int.sub_one_lt_floor _
      have hupper : (kUptimeGet i.readAt : ℚ) ≤ 1000 * i.readAt := Int.floor_le _
      have hstart : i.readAt ≤ i.startAt := by simpa [MoteEvent.times] using hord
      have hlast' : (kUptimeGet b.start : ℚ) + 2000 * (((m.fills + 1 : ℕ) : ℚ) - b.number - 1)
          ≤ kUptimeGet i.readAt := by exact_mod_cast hlast
      subst hb'
      refine ⟨by simp only; omega, ?_⟩
      simp only
      linarith

theorem before_of_run : ∀ (es : List MoteEvent) {b : Burst} {m : Firmware}, Paced b m →
    (∀ t ∈ es.flatMap MoteEvent.times, b.start ≤ t) → InOrder es →
      ∀ b' ∈ outputs moteStep m es, b.Before b' := by
  intro es
  induction es with
  | nil =>
    intro b m _ _ _ b' hb'
    exact absurd hb' List.not_mem_nil
  | cons e es ih =>
    intro b m h ht hord b' hb'
    rw [InOrder, List.flatMap_cons] at hord
    rw [List.flatMap_cons] at ht
    obtain ⟨horde, hords, -⟩ := List.pairwise_append.mp hord
    have hte : ∀ t ∈ e.times, b.start ≤ t := fun t hm => ht t (List.mem_append_left _ hm)
    rcases List.mem_append.mp hb' with hb' | hb'
    · exact before_of_step h hte horde b' hb'
    · exact ih (paced_step h hte) (fun t hm => ht t (List.mem_append_right _ hm)) hords b' hb'

theorem pairwise_of_run : ∀ (es : List MoteEvent) (m : Firmware), InOrder es →
    (outputs moteStep m es).Pairwise Burst.Before := by
  intro es
  induction es with
  | nil =>
    intro m _
    exact .nil
  | cons e es ih =>
    intro m hord
    rw [InOrder, List.flatMap_cons] at hord
    obtain ⟨-, hords, hle⟩ := List.pairwise_append.mp hord
    have hrest := ih (moteStep m e).1 hords
    rw [outputs]
    rcases moteStep_cases m e with ⟨-, hout⟩ | ⟨i, rfl, -, hout | ⟨hfills, hout⟩⟩
    · rw [hout]
      exact hrest
    · rw [hout]
      exact hrest
    · rw [hout]
      refine List.pairwise_cons.mpr ⟨?_, hrest⟩
      refine before_of_run es ⟨hfills.ge, ?_⟩ ?_ hords
      · intro hlt
        simp only at hlt
        omega
      · intro t hm
        exact hle i.startAt (by simp [MoteEvent.times]) t hm

/-- The bursts of a run, each against each later one. -/
theorem bursts_pairwise {es : List MoteEvent} (hord : InOrder es) :
    (bursts es).Pairwise Burst.Before := pairwise_of_run es .boot hord

/-- One of two different bursts comes first. -/
theorem before_or_before {es : List MoteEvent} (hord : InOrder es) {b b' : Burst}
    (hb : b ∈ bursts es) (hb' : b' ∈ bursts es) (hne : b ≠ b') : b.Before b' ∨ b'.Before b := by
  have hsymm : Std.Symm fun c c' : Burst => c.Before c' ∨ c'.Before c := ⟨fun _ _ => Or.symm⟩
  have hpair := (bursts_pairwise hord).imp (Or.inl : ∀ {c c' : Burst}, _ → c.Before c' ∨ c'.Before c)
  exact hpair.forall hb hb' hne

/-- Two bursts of a run that share a packet id are at least four seconds apart, either way. -/
theorem apart_of_same_packetId {es : List MoteEvent} (hord : InOrder es) {b b' : Burst}
    (hb : b ∈ bursts es) (hb' : b' ∈ bursts es) (hne : b ≠ b')
    (hid : b.payload.packetId = b'.payload.packetId) :
    b.start + 4 ≤ b'.start ∨ b'.start + 4 ≤ b.start := by
  have hmod : b.number % 256 = b'.number % 256 := by
    rw [payload_eq hb, payload_eq hb'] at hid
    simpa [bthomePayload, ← UInt8.toNat_inj] using hid
  have hfar : ∀ {c c' : Burst}, c.Before c' → c.number % 256 = c'.number % 256 →
      c.start + 4 ≤ c'.start := by
    rintro c c' ⟨hlt, hstart⟩ hc
    have hdist : c.number + 256 ≤ c'.number := by omega
    have hdist' : (c.number : ℚ) + 256 ≤ c'.number := by exact_mod_cast hdist
    linarith
  rcases before_or_before hord hb hb' hne with h | h
  · exact .inl (hfar h hmod)
  · exact .inr (hfar h hmod.symm)

end SeeedMote.Mote
