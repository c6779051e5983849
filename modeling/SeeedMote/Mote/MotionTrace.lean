import Mathlib.Data.List.Induction
import SeeedMote.Lib.Window
import SeeedMote.Mote.MotionGate

/-! The motion gate over whole runs of `motion_gate_update`, on one gate from `{0}` and with one
    configuration. The gate keeps the time of its last EMIT only; on a clock that never goes back it
    decides like a filter that remembers every EMIT, and all else it keeps is the moving flag. -/

namespace SeeedMote.Mote
open Lib

/-- The arguments of one call of `motion_gate_update`. -/
structure GateCall where
  hwWake : Bool
  hwInactivity : Bool
  scoreMg : ℤ
  nowMs : ℤ
  deriving DecidableEq

section Calls
variable (cfg : MotionGateConfig) (c : GateCall)

/-- Motion: the wake bit, or a high score without the inactivity bit. -/
def GateCall.IsMotion : Prop :=
  c.hwWake = true ∨ (c.scoreMg ≥ cfg.minScoreMg ∧ c.hwInactivity = false)

/-- Inactivity without a wake. -/
def GateCall.IsInactivity : Prop := c.hwInactivity = true ∧ c.hwWake = false

/-- Motion or inactivity. -/
def GateCall.Decisive : Prop := c.IsMotion cfg ∨ c.IsInactivity

instance : Decidable (c.IsMotion cfg) := inferInstanceAs (Decidable (_ ∨ _))
instance : Decidable c.IsInactivity := inferInstanceAs (Decidable (_ ∧ _))
instance : Decidable (c.Decisive cfg) := inferInstanceAs (Decidable (_ ∨ _))

end Calls

/-- `motion_gate_update` on a call. -/
def GateCall.update (cfg : MotionGateConfig) (gate : MotionGate) (c : GateCall) :
    MotionGate × MotionGateDecision :=
  motionGateUpdate gate cfg c.hwWake c.hwInactivity c.scoreMg c.nowMs

/-- One call; the output is its time if it returns EMIT. -/
def gateStep (cfg : MotionGateConfig) (gate : MotionGate) (c : GateCall) : MotionGate × List ℤ :=
  let (gate, decision) := c.update cfg gate
  (gate, if decision = .emit then [c.nowMs] else [])

/-- The gate after a run. -/
def gateAfter (cfg : MotionGateConfig) (calls : List GateCall) : MotionGate :=
  finalState (gateStep cfg) .zero calls

/-- Times of the EMITs of a run. -/
def emitTimes (cfg : MotionGateConfig) (calls : List GateCall) : List ℤ :=
  outputs (gateStep cfg) .zero calls

/-- What a call returns after a run. -/
def decisionAfter (cfg : MotionGateConfig) (calls : List GateCall) (c : GateCall) :
    MotionGateDecision :=
  (c.update cfg (gateAfter cfg calls)).2

/-! ### One call -/

section OneCall
variable (cfg : MotionGateConfig) (gate : MotionGate) (c : GateCall)

/-- The last EMIT is less than a cooldown ago. -/
def InCooldown : Prop := gate.hasLastEmit = true ∧ c.nowMs - gate.lastEmitMs < cfg.cooldownMs

/-- All that one call can do. -/
theorem update_cases :
    (c.IsInactivity ∧ ¬c.IsMotion cfg ∧
      c.update cfg gate = ({ gate with moving := false }, .inactivity)) ∨
    (¬c.IsInactivity ∧ ¬c.IsMotion cfg ∧ c.update cfg gate = (gate, .none)) ∨
    (¬c.IsInactivity ∧ c.IsMotion cfg ∧ InCooldown cfg gate c ∧
      c.update cfg gate = ({ gate with moving := true }, .none)) ∨
    (¬c.IsInactivity ∧ c.IsMotion cfg ∧ ¬InCooldown cfg gate c ∧
      c.update cfg gate = (⟨true, true, c.nowMs⟩, .emit)) := by
  obtain ⟨wake, inact, score, now⟩ := c
  by_cases hc : gate.hasLastEmit = true ∧ now - gate.lastEmitMs < cfg.cooldownMs
  · rcases lt_or_ge score cfg.minScoreMg with hs | hs
    all_goals
      simp only [GateCall.update, motionGateUpdate, clearMoving_hasLastEmit,
        clearMoving_lastEmitMs, GateCall.IsMotion, GateCall.IsInactivity, InCooldown, hc]
      cases wake <;> cases inact <;> simp [clearMoving, hs, hc.1]
  · rcases lt_or_ge score cfg.minScoreMg with hs | hs
    all_goals
      simp only [GateCall.update, motionGateUpdate, clearMoving_hasLastEmit,
        clearMoving_lastEmitMs, GateCall.IsMotion, GateCall.IsInactivity, InCooldown, hc]
      cases wake <;> cases inact <;> simp [clearMoving, hs]

/-- EMIT: a motion call outside the cooldown. -/
theorem update_emit_iff :
    (c.update cfg gate).2 = .emit ↔ c.IsMotion cfg ∧ ¬InCooldown cfg gate c := by
  rcases update_cases cfg gate c with ⟨-, hm, h⟩ | ⟨-, hm, h⟩ | ⟨-, hm, hc, h⟩ | ⟨-, hm, hc, h⟩
  · simp [h, hm]
  · simp [h, hm]
  · simp [h, hc]
  · simp [h, hm, hc]

theorem update_inactivity_iff : (c.update cfg gate).2 = .inactivity ↔ c.IsInactivity := by
  rcases update_cases cfg gate c with ⟨hi, -, h⟩ | ⟨hi, -, h⟩ | ⟨hi, -, -, h⟩ | ⟨hi, -, -, h⟩
  · simp [h, hi]
  · simp [h, hi]
  · simp [h, hi]
  · simp [h, hi]

/-- The moving flag follows the decisive calls. -/
theorem update_moving : (c.update cfg gate).1.moving =
    if c.Decisive cfg then decide (c.IsMotion cfg) else gate.moving := by
  rcases update_cases cfg gate c with ⟨hi, hm, h⟩ | ⟨hi, hm, h⟩ | ⟨-, hm, -, h⟩ | ⟨-, hm, -, h⟩
  · simp [GateCall.Decisive, h, hi, hm]
  · simp [GateCall.Decisive, h, hi, hm]
  · simp [GateCall.Decisive, h, hm]
  · simp [GateCall.Decisive, h, hm]

/-- Two gates with the same cooldown memory decide alike and keep it the same. -/
theorem update_congr {gate gate' : MotionGate} (hhas : gate'.hasLastEmit = gate.hasLastEmit)
    (hlast : gate'.lastEmitMs = gate.lastEmitMs) :
    (c.update cfg gate').2 = (c.update cfg gate).2 ∧
      (c.update cfg gate').1.hasLastEmit = (c.update cfg gate).1.hasLastEmit ∧
      (c.update cfg gate').1.lastEmitMs = (c.update cfg gate).1.lastEmitMs := by
  have hcool : InCooldown cfg gate' c ↔ InCooldown cfg gate c := by
    rw [InCooldown, InCooldown, hhas, hlast]
  rcases update_cases cfg gate c with ⟨hi, hm, h⟩ | ⟨hi, hm, h⟩ | ⟨hi, hm, hc, h⟩ | ⟨hi, hm, hc, h⟩
  all_goals
    rcases update_cases cfg gate' c with
      ⟨hi', hm', h'⟩ | ⟨hi', hm', h'⟩ | ⟨hi', hm', hc', h'⟩ | ⟨hi', hm', hc', h'⟩
    all_goals first | contradiction | simp_all

end OneCall

/-! ### Runs -/

section Runs
variable (cfg : MotionGateConfig)

theorem gateAfter_concat (calls : List GateCall) (c : GateCall) :
    gateAfter cfg (calls ++ [c]) = (c.update cfg (gateAfter cfg calls)).1 := by
  rw [gateAfter, finalState_concat]
  rfl

theorem emitTimes_concat (calls : List GateCall) (c : GateCall) :
    emitTimes cfg (calls ++ [c]) = emitTimes cfg calls ++
      if decisionAfter cfg calls c = .emit then [c.nowMs] else [] := by
  rw [emitTimes, outputs_concat]
  rfl

/-- The last EMIT, as a table with one key. -/
def lastEmit (gate : MotionGate) : Unit → Option ℤ :=
  fun _ => if gate.hasLastEmit then some gate.lastEmitMs else none

@[simp] theorem lastEmit_setMoving (gate : MotionGate) (b : Bool) :
    lastEmit { gate with moving := b } = lastEmit gate := rfl

theorem inCooldown_iff (gate : MotionGate) (c : GateCall) :
    InCooldown cfg gate c ↔ ∃ t, lastEmit gate () = some t ∧ c.nowMs - t < cfg.cooldownMs := by
  rw [InCooldown, lastEmit]
  cases gate.hasLastEmit <;> simp

/-- What the gate keeps covers all EMITs so far. -/
theorem covers_emitTimes {calls : List GateCall}
    (hord : (calls.map GateCall.nowMs).Pairwise (· ≤ ·)) {now : ℤ}
    (hnow : ∀ c ∈ calls, c.nowMs ≤ now) :
    Covers cfg.cooldownMs now ((emitTimes cfg calls).map (Prod.mk ()))
      (lastEmit (gateAfter cfg calls)) := by
  induction calls using List.reverseRecOn generalizing now with
  | nil => exact Covers.nil cfg.cooldownMs now
  | append_singleton calls c ih =>
    rw [List.map_append, List.pairwise_append] at hord
    obtain ⟨hcalls, -, hlast⟩ := hord
    have hcov : Covers cfg.cooldownMs c.nowMs _ _ := ih hcalls fun d hd =>
      hlast _ (List.mem_map_of_mem hd) _ (List.mem_singleton_self _)
    have hc := hnow c (by simp)
    rw [gateAfter_concat, emitTimes_concat, decisionAfter]
    rcases update_cases cfg (gateAfter cfg calls) c with
      ⟨-, -, h⟩ | ⟨-, -, h⟩ | ⟨-, -, -, h⟩ | ⟨-, -, -, h⟩
    · simpa [h] using hcov.later hc
    · simpa [h] using hcov.later hc
    · simpa [h] using hcov.later hc
    · rw [h, if_pos rfl]
      refine ((hcov.accept () ?_).of_mem_iff ?_).later hc
      · intro _
        simp [lastEmit]
      · intro e
        simp [or_comm]

/-- A call returns EMIT exactly when it is motion and every EMIT so far is a cooldown ago. -/
theorem decisionAfter_emit_iff {pre : List GateCall} {c : GateCall}
    (hord : ((pre ++ [c]).map GateCall.nowMs).Pairwise (· ≤ ·)) :
    decisionAfter cfg pre c = .emit ↔
      c.IsMotion cfg ∧ ∀ t ∈ emitTimes cfg pre, cfg.cooldownMs ≤ c.nowMs - t := by
  rw [List.map_append, List.pairwise_append] at hord
  obtain ⟨hpre, -, hlast⟩ := hord
  have hcov : Covers cfg.cooldownMs c.nowMs _ _ := covers_emitTimes cfg hpre fun d hd =>
    hlast _ (List.mem_map_of_mem hd) _ (List.mem_singleton_self _)
  rw [decisionAfter, update_emit_iff, inCooldown_iff, hcov.decides]
  refine and_congr_right fun _ => ⟨?_, ?_⟩
  · intro h t ht
    exact Int.not_lt.mp fun hlt => h ⟨((), t), List.mem_map_of_mem ht, rfl, hlt⟩
  · rintro h ⟨e, he, -, hlt⟩
    obtain ⟨t, ht, rfl⟩ := List.mem_map.mp he
    exact absurd (h t ht) (Int.not_le.mpr hlt)

/-- Any two EMITs are a cooldown apart. -/
theorem emitTimes_pairwise {calls : List GateCall}
    (hord : (calls.map GateCall.nowMs).Pairwise (· ≤ ·)) :
    (emitTimes cfg calls).Pairwise fun t u => cfg.cooldownMs ≤ u - t := by
  induction calls using List.reverseRecOn with
  | nil => exact .nil
  | append_singleton calls c ih =>
    have hcalls : (calls.map GateCall.nowMs).Pairwise (· ≤ ·) := by
      rw [List.map_append, List.pairwise_append] at hord
      exact hord.1
    rw [emitTimes_concat]
    split
    · next hemit =>
      refine List.pairwise_append.mpr ⟨ih hcalls, List.pairwise_singleton _ _, ?_⟩
      intro t ht u hu
      rw [List.mem_singleton.mp hu]
      exact ((decisionAfter_emit_iff cfg hord).mp hemit).2 t ht
    · simpa using ih hcalls

/-- A call that does not return EMIT leaves no trace in the cooldown memory. -/
theorem cooldown_skip {pre : List GateCall} {x : GateCall} (hx : decisionAfter cfg pre x ≠ .emit)
    (mid : List GateCall) :
    (gateAfter cfg (pre ++ x :: mid)).hasLastEmit = (gateAfter cfg (pre ++ mid)).hasLastEmit ∧
      (gateAfter cfg (pre ++ x :: mid)).lastEmitMs = (gateAfter cfg (pre ++ mid)).lastEmitMs := by
  induction mid using List.reverseRecOn with
  | nil =>
    rw [List.append_nil, gateAfter_concat]
    exact motionGateUpdate_quiet hx
  | append_singleton mid c ih =>
    rw [← List.cons_append, ← List.append_assoc, ← List.append_assoc, gateAfter_concat,
      gateAfter_concat]
    exact (update_congr cfg c ih.1 ih.2).2

/-- The latest call that was motion or inactivity. -/
def latestDecisive (calls : List GateCall) : Option GateCall :=
  calls.reverse.find? fun c => c.Decisive cfg

theorem gateAfter_moving (calls : List GateCall) :
    (gateAfter cfg calls).moving
      = (latestDecisive cfg calls).any fun c => decide (c.IsMotion cfg) := by
  induction calls using List.reverseRecOn with
  | nil => rfl
  | append_singleton calls c ih =>
    rw [gateAfter_concat, update_moving, latestDecisive, List.reverse_append]
    by_cases hc : c.Decisive cfg
    · rw [if_pos hc, List.reverse_singleton, List.singleton_append,
        List.find?_cons_of_pos (by simpa using hc)]
      rfl
    · rw [if_neg hc, List.reverse_singleton, List.singleton_append,
        List.find?_cons_of_neg (by simpa using hc), ih]
      rfl

/-- What the motion gate does over any run on a clock that never goes back: which calls return EMIT
    and which INACTIVITY, the distance of two EMITs, the silence of all other calls, and the moving
    flag. -/
theorem motion_gate_trace_law {calls : List GateCall}
    (hord : (calls.map GateCall.nowMs).Pairwise (· ≤ ·)) :
    (∀ pre c post, calls = pre ++ c :: post →
      (decisionAfter cfg pre c = .emit ↔
        c.IsMotion cfg ∧ ∀ t ∈ emitTimes cfg pre, cfg.cooldownMs ≤ c.nowMs - t) ∧
      (decisionAfter cfg pre c = .inactivity ↔ c.IsInactivity)) ∧
    (emitTimes cfg calls).Pairwise (fun t u => cfg.cooldownMs ≤ u - t) ∧
    (∀ pre x mid c post, calls = pre ++ x :: (mid ++ c :: post) → decisionAfter cfg pre x ≠ .emit →
      decisionAfter cfg (pre ++ x :: mid) c = decisionAfter cfg (pre ++ mid) c) ∧
    (gateAfter cfg calls).moving
      = (latestDecisive cfg calls).any fun c => decide (c.IsMotion cfg) := by
  refine ⟨fun pre c post hcalls => ⟨?_, ?_⟩, emitTimes_pairwise cfg hord, ?_,
    gateAfter_moving cfg calls⟩
  · refine decisionAfter_emit_iff cfg (hord.sublist ?_)
    rw [hcalls]
    exact List.Sublist.map _ (List.Sublist.append_left (by simp) pre)
  · exact update_inactivity_iff cfg _ c
  · rintro pre x mid c post - hx
    obtain ⟨hhas, hlast⟩ := cooldown_skip cfg hx mid
    exact (update_congr cfg c hhas hlast).1

end Runs

/-- Motion, a suppressed repeat, inactivity, and motion again. -/
def sampleCalls : List GateCall :=
  [⟨true, false, 150, 1000⟩, ⟨true, false, 150, 2500⟩, ⟨false, true, 0, 2600⟩,
    ⟨false, false, 120, 3100⟩]

theorem motion_gate_trace_law_sample :
    emitTimes ⟨100, 2000⟩ sampleCalls = [1000, 3100] ∧
      (emitTimes ⟨100, 2000⟩ sampleCalls).Pairwise (fun t u => 2000 ≤ u - t) ∧
      (gateAfter ⟨100, 2000⟩ sampleCalls).moving = true := by
  obtain ⟨-, hpair, -, hmoving⟩ := motion_gate_trace_law ⟨100, 2000⟩
    (by decide : (sampleCalls.map GateCall.nowMs).Pairwise (· ≤ ·))
  exact ⟨by decide, hpair, by rw [hmoving]; decide⟩

end SeeedMote.Mote
