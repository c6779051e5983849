import Mathlib.Data.Int.Notation
import Mathlib.Tactic.SplitIfs

/-! The motion gate, `motion_gate.c`: the score of a window of accelerometer samples and the
    decision for one interrupt, with its cooldown memory. -/

namespace SeeedMote.Mote

/-- `struct motion_sample`. -/
structure MotionSample where
  x : Int16
  y : Int16
  z : Int16
  deriving DecidableEq

def absI32 (value : ℤ) : ℤ := if value < 0 then -value else value

/-- L1 distance of two samples. -/
def sampleDelta (s prev : MotionSample) : ℤ :=
  absI32 (s.x.toInt - prev.x.toInt) + absI32 (s.y.toInt - prev.y.toInt) +
    absI32 (s.z.toInt - prev.z.toInt)

/-- The `for` loop of `motion_score_mg` after sample `prev`. -/
def maxDelta : MotionSample → List MotionSample → ℤ → ℤ
  | _, [], m => m
  | prev, s :: ss, m => maxDelta s ss (if sampleDelta s prev > m then sampleDelta s prev else m)

/-- `motion_score_mg`, in milli-g. -/
def motionScoreMg : List MotionSample → ℤ
  | [] => 0
  | [_] => 0
  | s :: ss => (maxDelta s ss 0 * 61).tdiv 1000

/-- `struct motion_gate_config`. -/
structure MotionGateConfig where
  minScoreMg : ℤ
  cooldownMs : ℤ
  deriving DecidableEq

/-- `struct motion_gate`. -/
structure MotionGate where
  moving : Bool
  hasLastEmit : Bool
  lastEmitMs : ℤ
  deriving DecidableEq

/-- `struct motion_gate gate = {0}`. -/
def MotionGate.zero : MotionGate := ⟨false, false, 0⟩

/-- `enum motion_gate_decision`. -/
inductive MotionGateDecision where
  | none
  | emit
  | inactivity
  deriving DecidableEq

/-- `if (hw_inactivity) gate->moving = false;` -/
def clearMoving (hwInactivity : Bool) (gate : MotionGate) : MotionGate :=
  if hwInactivity then { gate with moving := false } else gate

@[simp] theorem clearMoving_hasLastEmit (b : Bool) (gate : MotionGate) :
    (clearMoving b gate).hasLastEmit = gate.hasLastEmit := by cases b <;> rfl

@[simp] theorem clearMoving_lastEmitMs (b : Bool) (gate : MotionGate) :
    (clearMoving b gate).lastEmitMs = gate.lastEmitMs := by cases b <;> rfl

/-- `motion_gate_update`. -/
def motionGateUpdate (gate : MotionGate) (cfg : MotionGateConfig) (hwWake hwInactivity : Bool)
    (scoreMg nowMs : ℤ) : MotionGate × MotionGateDecision :=
  let gate := clearMoving hwInactivity gate
  if hwInactivity ∧ ¬hwWake then (gate, .inactivity)
  else if ¬hwWake ∧ ¬scoreMg ≥ cfg.minScoreMg then (gate, .none)
  else if gate.hasLastEmit ∧ nowMs - gate.lastEmitMs < cfg.cooldownMs then
    ({ gate with moving := true }, .none)
  else (⟨true, true, nowMs⟩, .emit)

section Update
variable {gate : MotionGate} {cfg : MotionGateConfig} {wake inact : Bool} {score now : ℤ}

/-- An EMIT is stamped with its time and comes at least a cooldown after the last one. -/
theorem motionGateUpdate_emit
    (h : (motionGateUpdate gate cfg wake inact score now).2 = .emit) :
    (motionGateUpdate gate cfg wake inact score now).1 = ⟨true, true, now⟩ ∧
      (gate.hasLastEmit = true → cfg.cooldownMs ≤ now - gate.lastEmitMs) := by
  simp only [motionGateUpdate, clearMoving_hasLastEmit, clearMoving_lastEmitMs] at h ⊢
  split_ifs at h ⊢ with hi hs hc
  refine ⟨rfl, ?_⟩
  intro hl
  rw [not_and] at hc
  exact Int.not_lt.mp (hc hl)

/-- Any other decision leaves the cooldown memory alone. -/
theorem motionGateUpdate_quiet
    (h : (motionGateUpdate gate cfg wake inact score now).2 ≠ .emit) :
    (motionGateUpdate gate cfg wake inact score now).1.hasLastEmit = gate.hasLastEmit ∧
      (motionGateUpdate gate cfg wake inact score now).1.lastEmitMs = gate.lastEmitMs := by
  simp only [motionGateUpdate, clearMoving_hasLastEmit, clearMoving_lastEmitMs] at h ⊢
  split_ifs at h ⊢ with hi hs hc
  · exact ⟨clearMoving_hasLastEmit .., clearMoving_lastEmitMs ..⟩
  · exact ⟨clearMoving_hasLastEmit .., clearMoving_lastEmitMs ..⟩
  · exact ⟨rfl, rfl⟩
  · exact absurd rfl h

end Update

end SeeedMote.Mote
