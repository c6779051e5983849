import Mathlib.Data.List.Induction
import SeeedMote.Mote.MotionTrace
import SeeedMote.Mote.StateMachine

/-! Which interrupts lead to a call of `start_bthome_burst`. `state_machine_task` reads samples for a
    wake interrupt only, where the gate does not need them, so their score decides nothing; and it
    drops what `start_bthome_burst` returns, so a motion that was not broadcast starts the cooldown as
    well.

        wake, connected  ──▶ EMIT ──▶ -EALREADY   (cooldown starts)
        disconnected
        wake             ──▶ in cooldown ──▶ no call -/

namespace SeeedMote.Mote
open Lib

/-! ### The sample score -/

/-- The wake bit alone makes a call of the gate motion. -/
theorem motionGateUpdate_wake (gate : MotionGate) (cfg : MotionGateConfig) (inact : Bool)
    (score score' now : ℤ) : motionGateUpdate gate cfg true inact score now
      = motionGateUpdate gate cfg true inact score' now := by
  simp [motionGateUpdate]

/-- The score that a pass works with; the samples are read for a wake only. -/
theorem Interrupt.scoreMg_false (i : Interrupt) : i.scoreMg false = 0 := by
  simp [Interrupt.scoreMg]

/-- Whatever the samples are, a pass does the same. -/
theorem stateMachinePass_samples (i : Interrupt) (m : Firmware)
    (samples : Option (Vector MotionSample motionSampleCount)) :
    stateMachinePass { i with samples } m = stateMachinePass i m := by
  obtain ⟨_ | src, old, rc, readAt, startAt⟩ := i
  · rfl
  · have hgate : Interrupt.gateUpdate ⟨some src, samples, rc, readAt, startAt⟩ src m.gate
        = Interrupt.gateUpdate ⟨some src, old, rc, readAt, startAt⟩ src m.gate := by
      rw [Interrupt.gateUpdate, Interrupt.gateUpdate]
      cases decide (src &&& wakeSrcWuIa ≠ 0) with
      | false => rw [Interrupt.scoreMg_false, Interrupt.scoreMg_false]
      | true => exact motionGateUpdate_wake ..
    simp only [stateMachinePass, hgate]

/-- A read that succeeds and has both source bits clear, samples that reach the threshold and a gate
    outside its cooldown: on the score of the samples the gate would emit, but the pass does nothing. -/
theorem fallback_unreachable {i : Interrupt} {m : Firmware} {src : UInt8}
    {samples : Vector MotionSample motionSampleCount} (hsrc : i.src = some src)
    (hwake : src &&& wakeSrcWuIa = 0) (hsleep : src &&& wakeSrcSleepState = 0)
    (hsamples : i.samples = some samples)
    (hscore : motionGateCfg.minScoreMg ≤ motionScoreMg samples.toList)
    (hcool : m.gate.hasLastEmit = true →
      motionGateCfg.cooldownMs ≤ kUptimeGet i.readAt - m.gate.lastEmitMs) :
    (motionGateUpdate m.gate motionGateCfg false false (i.scoreMg true) (kUptimeGet i.readAt)).2
        = .emit ∧
      stateMachinePass i m = (m, none) := by
  refine ⟨?_, ?_⟩
  · have hread : i.scoreMg true = motionScoreMg samples.toList := by
      simp [Interrupt.scoreMg, hsamples]
    rw [hread]
    refine (update_emit_iff motionGateCfg m.gate
      ⟨false, false, motionScoreMg samples.toList, kUptimeGet i.readAt⟩).mpr ⟨.inr ⟨hscore, rfl⟩, ?_⟩
    rintro ⟨hl, hlt⟩
    exact absurd (hcool hl) (Int.not_le.mpr hlt)
  · have hgate : i.gateUpdate src m.gate = (m.gate, .none) := by
      simp [Interrupt.gateUpdate, hwake, hsleep, motionGateUpdate, clearMoving, motionGateCfg,
        Interrupt.scoreMg_false]
    simp [stateMachinePass, hsrc, hgate]

/-- A hard knock whose wake bit was already gone. -/
def knock : Interrupt :=
  ⟨some 0, some #v[⟨0, 0, 0⟩, ⟨16000, 0, 0⟩, ⟨0, 0, 0⟩, ⟨0, 0, 0⟩], 0, 10, 10⟩

theorem fallback_unreachable_knock : stateMachinePass knock .boot = (.boot, none) :=
  (@fallback_unreachable knock .boot 0 #v[⟨0, 0, 0⟩, ⟨16000, 0, 0⟩, ⟨0, 0, 0⟩, ⟨0, 0, 0⟩] rfl
    (by decide) (by decide) rfl (by decide) (by decide)).2

theorem knock_not_broadcast :
    ¬∀ (i : Interrupt) (m : Firmware) (src : UInt8)
        (samples : Vector MotionSample motionSampleCount), i.src = some src →
      src &&& wakeSrcWuIa = 0 → src &&& wakeSrcSleepState = 0 → i.samples = some samples →
      motionGateCfg.minScoreMg ≤ motionScoreMg samples.toList →
      (m.gate.hasLastEmit = true →
        motionGateCfg.cooldownMs ≤ kUptimeGet i.readAt - m.gate.lastEmitMs) →
      (stateMachinePass i m).2.isSome := by
  intro h
  have := h knock .boot 0 #v[⟨0, 0, 0⟩, ⟨16000, 0, 0⟩, ⟨0, 0, 0⟩, ⟨0, 0, 0⟩] rfl
    (by decide) (by decide) rfl (by decide) (by decide)
  exact absurd this (by decide)

/-! ### The cooldown -/

/-- The register has the wake bit. -/
def Interrupt.IsWake (i : Interrupt) : Prop := i.src.any fun src => src &&& wakeSrcWuIa ≠ 0

/-- An interrupt of a run and the memory its pass found. -/
structure Pass where
  interrupt : Interrupt
  before : Firmware
  deriving DecidableEq

/-- One event; the output is its pass. -/
def passStep (m : Firmware) (e : MoteEvent) : Firmware × List Pass :=
  ((moteStep m e).1, match e with
    | .interrupt i => [⟨i, m⟩]
    | .ble _ => [])

/-- The passes of a run, oldest first. -/
def passes (es : List MoteEvent) : List Pass := outputs passStep .boot es

/-- The firmware after a run. -/
def firmwareAfter (es : List MoteEvent) : Firmware := finalState moteStep .boot es

namespace Pass

/-- The gate returns EMIT. -/
def Emit (p : Pass) : Prop :=
  p.interrupt.src.any fun src => (p.interrupt.gateUpdate src p.before.gate).2 = .emit

/-- The gate returns EMIT and no broadcast starts: the call finds the mote connected, or
    `bt_le_adv_start` fails. -/
def Lost (p : Pass) : Prop := p.Emit ∧ (p.before.ble.advState = .connected ∨ p.interrupt.rc ≠ 0)

/-- The time the gate gets. -/
def nowMs (p : Pass) : ℤ := kUptimeGet p.interrupt.readAt

end Pass

instance (i : Interrupt) : Decidable i.IsWake := inferInstanceAs (Decidable (_ = true))
instance (p : Pass) : Decidable p.Emit := inferInstanceAs (Decidable (_ = true))
instance (p : Pass) : Decidable p.Lost := inferInstanceAs (Decidable (_ ∧ _))

/-- `start_bthome_burst` is called for the EMITs. -/
theorem stateMachinePass_isSome_iff (i : Interrupt) (m : Firmware) :
    (stateMachinePass i m).2.isSome ↔ (⟨i, m⟩ : Pass).Emit := by
  rw [stateMachinePass, Pass.Emit]
  cases i.src with
  | none => simp
  | some src =>
    by_cases hd : (i.gateUpdate src m.gate).2 = .emit
    · simp [hd]
    · simp [hd]

/-- It starts a broadcast for those that are not lost. -/
theorem stateMachinePass_zero {p : Pass} (hp : p.Emit) (hlost : ¬p.Lost) :
    (stateMachinePass p.interrupt p.before).2 = some 0 := by
  obtain ⟨⟨_ | src, samples, rc, readAt, startAt⟩, m⟩ := p
  · simp [Pass.Emit] at hp
  · rw [Pass.Lost, and_iff_right hp, not_or, not_not] at hlost
    obtain ⟨hc, rfl⟩ : m.ble.advState ≠ .connected ∧ rc = 0 := hlost
    have hd : (Interrupt.gateUpdate ⟨some src, samples, 0, readAt, startAt⟩ src m.gate).2 = .emit := by
      simpa [Pass.Emit] using hp
    simp only [stateMachinePass]
    rw [if_pos hd, startBthomeBurst_ok _ _ _ hc]

/-- An EMIT is stamped with its time. -/
theorem gate_of_emit {i : Interrupt} {m : Firmware} (h : (⟨i, m⟩ : Pass).Emit) :
    (moteStep m (.interrupt i)).1.gate.hasLastEmit = true ∧
      (moteStep m (.interrupt i)).1.gate.lastEmitMs = kUptimeGet i.readAt := by
  rcases stateMachinePass_cases i m with ⟨-, hnone⟩ | ⟨he, -⟩
  · rw [← stateMachinePass_isSome_iff, hnone] at h
    exact absurd h (by simp)
  · exact ⟨he.hasLastEmit, he.lastEmitMs⟩

/-- Every other event leaves the cooldown memory alone. -/
theorem gate_of_not_emit {m : Firmware} {e : MoteEvent}
    (h : ∀ i, e = .interrupt i → ¬(⟨i, m⟩ : Pass).Emit) :
    (moteStep m e).1.gate.hasLastEmit = m.gate.hasLastEmit ∧
      (moteStep m e).1.gate.lastEmitMs = m.gate.lastEmitMs := by
  rcases moteStep_cases m e with ⟨hq, -⟩ | ⟨i, rfl, -⟩
  · exact ⟨hq.hasLastEmit, hq.lastEmitMs⟩
  · have hne := h i rfl
    simp only [moteStep, stateMachinePass]
    cases hsrc : i.src with
    | none => exact ⟨rfl, rfl⟩
    | some src =>
      have hd : (i.gateUpdate src m.gate).2 ≠ .emit := by simpa [Pass.Emit, hsrc] using hne
      simp only [if_neg hd]
      exact motionGateUpdate_quiet hd

/-- A wake is an EMIT unless the gate is in its cooldown. -/
theorem emit_iff_of_wake {i : Interrupt} (hwake : i.IsWake) (m : Firmware) :
    (⟨i, m⟩ : Pass).Emit ↔ (m.gate.hasLastEmit = true →
      m.gate.lastEmitMs + 2000 ≤ kUptimeGet i.readAt) := by
  obtain ⟨_ | src, samples, rc, readAt, startAt⟩ := i
  · simp [Interrupt.IsWake] at hwake
  · have hbit : src &&& wakeSrcWuIa ≠ 0 := by simpa [Interrupt.IsWake] using hwake
    have hcall : Interrupt.gateUpdate ⟨some src, samples, rc, readAt, startAt⟩ src m.gate
        = GateCall.update motionGateCfg m.gate ⟨true, src &&& wakeSrcSleepState ≠ 0,
            Interrupt.scoreMg ⟨some src, samples, rc, readAt, startAt⟩ true, kUptimeGet readAt⟩ := by
      simp [Interrupt.gateUpdate, GateCall.update, hbit]
    rw [Pass.Emit, Option.any_some, hcall, decide_eq_true_iff, update_emit_iff,
      and_iff_right (.inl rfl), InCooldown, not_and, Int.not_lt]
    exact forall_congr' fun _ => by
      simp only [motionGateCfg]
      omega

/-! ### Runs -/

theorem firmwareAfter_concat (es : List MoteEvent) (e : MoteEvent) :
    firmwareAfter (es ++ [e]) = (moteStep (firmwareAfter es) e).1 :=
  finalState_concat moteStep .boot es e

/-- Recording the passes changes nothing. -/
theorem finalState_passStep (es : List MoteEvent) (m : Firmware) :
    finalState passStep m es = finalState moteStep m es :=
  finalState_congr passStep moteStep (fun _ _ => rfl) m es

theorem passes_concat (es : List MoteEvent) (e : MoteEvent) :
    passes (es ++ [e]) = passes es ++ (passStep (firmwareAfter es) e).2 := by
  rw [passes, outputs_concat, finalState_passStep]
  rfl

/-- A pass has its interrupt, and the firmware the interrupt found. -/
theorem exists_of_mem_passes {es : List MoteEvent} {p : Pass} (hp : p ∈ passes es) :
    ∃ pre post, es = pre ++ .interrupt p.interrupt :: post ∧ p.before = firmwareAfter pre := by
  obtain ⟨pre, e, post, rfl, hout⟩ := (mem_outputs_iff passStep).mp hp
  cases e with
  | interrupt i =>
    rw [List.mem_singleton.mp hout]
    exact ⟨pre, post, rfl, finalState_passStep pre .boot⟩
  | ble e => exact absurd hout List.not_mem_nil

theorem mem_of_mem_passes {es : List MoteEvent} {p : Pass} (hp : p ∈ passes es) :
    .interrupt p.interrupt ∈ es := by
  obtain ⟨pre, post, rfl, -⟩ := exists_of_mem_passes hp
  simp

/-- An EMIT that is not lost puts a burst on the air. -/
theorem burst_of_emit {es : List MoteEvent} {p : Pass} (hp : p ∈ passes es) (hemit : p.Emit)
    (hlost : ¬p.Lost) : ∃ b ∈ bursts es, b.start = p.interrupt.startAt := by
  obtain ⟨pre, post, rfl, hbefore⟩ := exists_of_mem_passes hp
  have hzero := stateMachinePass_zero hemit hlost
  rw [hbefore] at hzero
  have hout : ∃ b ∈ (moteStep (firmwareAfter pre) (.interrupt p.interrupt)).2,
      b.start = p.interrupt.startAt := by
    simp only [moteStep]
    rw [if_pos hzero]
    exact ⟨_, List.mem_singleton_self _, rfl⟩
  obtain ⟨b, hb, hstart⟩ := hout
  exact ⟨b, (mem_outputs_iff moteStep).mpr ⟨pre, _, post, rfl, hb⟩, hstart⟩

/-- The gate keeps the latest EMIT, lost or not. -/
structure Remembers (ps : List Pass) (gate : MotionGate) : Prop where
  last : gate.hasLastEmit = true → ∃ p ∈ ps, p.Emit ∧ p.nowMs = gate.lastEmitMs
  latest : ∀ p ∈ ps, p.Emit → gate.hasLastEmit = true ∧ p.nowMs ≤ gate.lastEmitMs

theorem Remembers.append {ps qs : List Pass} {gate gate' : MotionGate} (h : Remembers ps gate)
    (hhas : gate'.hasLastEmit = gate.hasLastEmit) (htime : gate'.lastEmitMs = gate.lastEmitMs)
    (hqs : ∀ q ∈ qs, ¬q.Emit) : Remembers (ps ++ qs) gate' := by
  refine ⟨?_, ?_⟩
  · intro hl
    obtain ⟨p, hp, hemit, hnow⟩ := h.last (hhas ▸ hl)
    exact ⟨p, List.mem_append_left _ hp, hemit, hnow.trans htime.symm⟩
  · intro p hp hemit
    rcases List.mem_append.mp hp with hp | hp
    · rw [hhas, htime]
      exact h.latest p hp hemit
    · exact absurd hemit (hqs p hp)

theorem inOrder_concat {es : List MoteEvent} {e : MoteEvent} (hord : InOrder (es ++ [e])) :
    InOrder es ∧ InOrder [e] ∧ ∀ i, .interrupt i ∈ es → ∀ t ∈ e.times, i.readAt ≤ t := by
  rw [InOrder, List.flatMap_append] at hord
  obtain ⟨hes, he, hle⟩ := List.pairwise_append.mp hord
  refine ⟨hes, he, fun i hi t ht => hle _ ?_ t ?_⟩
  · exact List.mem_flatMap.mpr ⟨_, hi, List.mem_cons_self⟩
  · simpa using ht

theorem readAt_le_startAt {es : List MoteEvent} (hord : InOrder es) {i : Interrupt}
    (hi : .interrupt i ∈ es) : i.readAt ≤ i.startAt := by
  have htimes := (List.pairwise_flatMap.mp hord).1 _ hi
  simpa [MoteEvent.times] using htimes

/-- Two seconds are one cooldown. -/
theorem kUptimeGet_add_two (s : ℚ) : kUptimeGet (s + 2) = kUptimeGet s + 2000 := by
  have hms : 1000 * (s + 2) = 1000 * s + (2000 : ℕ) := by
    push_cast
    ring
  rw [kUptimeGet, hms, Int.floor_add_natCast]
  rfl

theorem remembers_of_run {es : List MoteEvent} (hord : InOrder es) :
    Remembers (passes es) (firmwareAfter es).gate := by
  induction es using List.reverseRecOn with
  | nil => exact ⟨by decide, fun p hp => absurd hp List.not_mem_nil⟩
  | append_singleton es e ih =>
    obtain ⟨hes, -, hle⟩ := inOrder_concat hord
    rw [passes_concat, firmwareAfter_concat]
    by_cases hemit : ∃ i, e = .interrupt i ∧ (⟨i, firmwareAfter es⟩ : Pass).Emit
    · obtain ⟨i, rfl, hemit⟩ := hemit
      obtain ⟨hhas, htime⟩ := gate_of_emit hemit
      refine ⟨fun _ => ⟨⟨i, firmwareAfter es⟩, by simp [passStep], hemit, htime.symm⟩, ?_⟩
      intro p hp hpe
      rw [htime]
      refine ⟨hhas, ?_⟩
      rcases List.mem_append.mp hp with hp | hp
      · exact kUptimeGet_mono (hle _ (mem_of_mem_passes hp) _ List.mem_cons_self)
      · rw [List.mem_singleton.mp hp]
        exact le_rfl
    · have hquiet : ∀ i, e = .interrupt i → ¬(⟨i, firmwareAfter es⟩ : Pass).Emit :=
        fun i he h => hemit ⟨i, he, h⟩
      obtain ⟨hhas, htime⟩ := gate_of_not_emit hquiet
      refine (ih hes).append hhas htime ?_
      cases e with
      | interrupt i =>
        intro q hq
        rw [List.mem_singleton.mp hq]
        exact hquiet i rfl
      | ble e =>
        intro q hq
        exact absurd hq List.not_mem_nil

/-- In any run, a wake interrupt in whose preceding cooldown no burst was started leads to a call of
    `start_bthome_burst` exactly when no EMIT within the cooldown was lost. -/
theorem burst_called_iff {pre : List MoteEvent} {i : Interrupt}
    (hord : InOrder (pre ++ [.interrupt i])) (hwake : i.IsWake)
    (hquiet : ∀ b ∈ bursts pre, b.start + 2 ≤ i.readAt) :
    (stateMachinePass i (firmwareAfter pre)).2.isSome ↔
      ∀ p ∈ passes pre, p.Lost → p.nowMs + 2000 ≤ kUptimeGet i.readAt := by
  obtain ⟨hpre, -, -⟩ := inOrder_concat hord
  have hrem := remembers_of_run hpre
  rw [stateMachinePass_isSome_iff, emit_iff_of_wake hwake]
  constructor
  · intro h p hp hlost
    obtain ⟨hhas, hle⟩ := hrem.latest p hp hlost.1
    have := h hhas
    omega
  · intro h hhas
    obtain ⟨p, hp, hemit, hnow⟩ := hrem.last hhas
    rw [← hnow]
    by_cases hlost : p.Lost
    · exact h p hp hlost
    · -- its burst started two seconds before the interrupt, and not before the gate was asked
      obtain ⟨b, hb, hstart⟩ := burst_of_emit hp hemit hlost
      have hread := readAt_le_startAt hpre (mem_of_mem_passes hp)
      have hago : p.interrupt.readAt + 2 ≤ i.readAt := by
        have := hquiet b hb
        rw [hstart] at this
        linarith
      have := kUptimeGet_mono hago
      rwa [kUptimeGet_add_two] at this

/-- A pickup ten seconds after boot, while a central is connected. -/
def pickupWhileConnected : List MoteEvent :=
  [.ble .burstTimer, .ble (.burstHandler 0), .ble .linkUp, .ble .connected,
    .interrupt ⟨some wakeSrcWuIa, none, 0, 10, 10⟩, .ble .linkLost, .ble .disconnected]

/-- The next pickup, at a time after boot. -/
def pickupAt (s : ℚ) : Interrupt := ⟨some wakeSrcWuIa, none, 0, s, s⟩

theorem burst_called_two_seconds_later :
    (stateMachinePass (pickupAt 12) (firmwareAfter pickupWhileConnected)).2.isSome :=
  (@burst_called_iff pickupWhileConnected (pickupAt 12) (by decide +kernel) (by decide)
    (by decide +kernel)).mpr (by decide +kernel)

/-- One second after a pickup that the connection swallowed, the central is gone and the next pickup is
    swallowed too. -/
theorem lost_pickup_starts_cooldown :
    ¬∀ (pre : List MoteEvent) (i : Interrupt), InOrder (pre ++ [.interrupt i]) → i.IsWake →
      ¬(firmwareAfter pre).ble.inConnection → (∀ b ∈ bursts pre, b.start + 2 ≤ i.readAt) →
      (stateMachinePass i (firmwareAfter pre)).2.isSome := by
  intro h
  have := h pickupWhileConnected (pickupAt 11) (by decide +kernel) (by decide) (by decide +kernel)
    (by decide +kernel)
  exact absurd this (by decide +kernel)

end SeeedMote.Mote
