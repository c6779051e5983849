import Mathlib.Data.Rat.Floor
import SeeedMote.Lib.Steps
import SeeedMote.Mote.MotionGate

/-! The motion score as a number. `motion_score_mg` computes in `int32_t`, where an overflow is
    undefined; here every operation of it is checked, and none fails. What is left is the greatest
    L1 step of the window, scaled: it does not see the order of time, nor a constant such as gravity. -/

namespace SeeedMote.Mote
open Lib

/-! ### `int32_t` arithmetic -/

/-- A result of type `int32_t`; `none` is an overflow. -/
def i32 (z : ℤ) : Option ℤ := if -2147483648 ≤ z ∧ z ≤ 2147483647 then some z else none

/-- `abs_i32`, checked. -/
def checkedAbs (value : ℤ) : Option ℤ := if value < 0 then i32 (-value) else some value

/-- The body of the loop up to `delta`, checked. -/
def checkedDelta (s prev : MotionSample) : Option ℤ := do
  let dx ← i32 (s.x.toInt - prev.x.toInt)
  let dy ← i32 (s.y.toInt - prev.y.toInt)
  let dz ← i32 (s.z.toInt - prev.z.toInt)
  let xy ← i32 ((← checkedAbs dx) + (← checkedAbs dy))
  i32 (xy + (← checkedAbs dz))

/-- The `for` loop of `motion_score_mg` after sample `prev`, checked. -/
def checkedMaxDelta : MotionSample → List MotionSample → ℤ → Option ℤ
  | _, [], m => some m
  | prev, s :: ss, m => do
    let delta ← checkedDelta s prev
    checkedMaxDelta s ss (if delta > m then delta else m)

/-- `motion_score_mg`, checked. -/
def checkedScoreMg : List MotionSample → Option ℤ
  | [] => some 0
  | [_] => some 0
  | s :: ss => do
    let m ← checkedMaxDelta s ss 0
    let scaled ← i32 (m * 61)
    i32 (scaled.tdiv 1000)

/-! ### The distance of two samples -/

/-- The L1 distance. -/
def l1 (s t : MotionSample) : ℤ :=
  |s.x.toInt - t.x.toInt| + |s.y.toInt - t.y.toInt| + |s.z.toInt - t.z.toInt|

theorem absI32_eq (value : ℤ) : absI32 value = |value| := by
  rw [absI32]
  split
  · next h => rw [abs_of_neg h]
  · next h => rw [abs_of_nonneg (not_lt.mp h)]

theorem sampleDelta_eq (s prev : MotionSample) : sampleDelta s prev = l1 s prev := by
  rw [sampleDelta, l1, absI32_eq, absI32_eq, absI32_eq]

theorem l1_comm (s t : MotionSample) : l1 s t = l1 t s := by
  rw [l1, l1, abs_sub_comm s.x.toInt, abs_sub_comm s.y.toInt, abs_sub_comm s.z.toInt]

theorem l1_nonneg (s t : MotionSample) : 0 ≤ l1 s t := by
  rw [l1]
  positivity

/-- Two readings of an axis are less than the full scale apart. -/
theorem axis_le (a b : Int16) : |a.toInt - b.toInt| ≤ 65535 := by
  have ha := a.toInt_lt
  have ha' := a.le_toInt
  have hb := b.toInt_lt
  have hb' := b.le_toInt
  rw [abs_le]
  omega

theorem l1_le (s t : MotionSample) : l1 s t ≤ 196605 := by
  have hx := axis_le s.x t.x
  have hy := axis_le s.y t.y
  have hz := axis_le s.z t.z
  rw [l1]
  omega

/-! ### No operation overflows -/

theorem i32_of_le {z : ℤ} (hlo : -2147483648 ≤ z) (hhi : z ≤ 2147483647) : i32 z = some z :=
  if_pos ⟨hlo, hhi⟩

theorem i32_of_abs_le {z : ℤ} (h : |z| ≤ 65535) : i32 z = some z := by
  obtain ⟨hlo, hhi⟩ := abs_le.mp h
  exact i32_of_le (by omega) (by omega)

theorem checkedAbs_eq {z : ℤ} (h : |z| ≤ 65535) : checkedAbs z = some |z| := by
  rw [checkedAbs]
  split
  · next hneg =>
    rw [abs_of_neg hneg] at h ⊢
    exact i32_of_le (by omega) (by omega)
  · next hneg => rw [abs_of_nonneg (not_lt.mp hneg)]

theorem checkedDelta_eq (s prev : MotionSample) : checkedDelta s prev = some (sampleDelta s prev) := by
  have hx := axis_le s.x prev.x
  have hy := axis_le s.y prev.y
  have hz := axis_le s.z prev.z
  have hxy : i32 (|s.x.toInt - prev.x.toInt| + |s.y.toInt - prev.y.toInt|) =
      some (|s.x.toInt - prev.x.toInt| + |s.y.toInt - prev.y.toInt|) := by
    have hnonneg : 0 ≤ |s.x.toInt - prev.x.toInt| + |s.y.toInt - prev.y.toInt| := by positivity
    exact i32_of_le (by omega) (by omega)
  have hxyz : i32 (l1 s prev) = some (l1 s prev) := by
    have hnonneg := l1_nonneg s prev
    have hle := l1_le s prev
    exact i32_of_le (by omega) (by omega)
  rw [checkedDelta, i32_of_abs_le hx, i32_of_abs_le hy, i32_of_abs_le hz, sampleDelta_eq, ← hxyz]
  simp only [Option.bind_eq_bind, Option.bind_some, checkedAbs_eq hx, checkedAbs_eq hy,
    checkedAbs_eq hz, hxy]
  rfl

theorem checkedMaxDelta_eq (prev : MotionSample) (ss : List MotionSample) (m : ℤ) :
    checkedMaxDelta prev ss m = some (maxDelta prev ss m) := by
  induction ss generalizing prev m with
  | nil => rfl
  | cons s ss ih =>
    rw [checkedMaxDelta, checkedDelta_eq, maxDelta]
    exact ih s _

/-! ### The greatest step -/

theorem maxDelta_eq (prev : MotionSample) (ss : List MotionSample) (m : ℤ) :
    maxDelta prev ss m = (steps l1 (prev :: ss)).foldl max m := by
  induction ss generalizing prev m with
  | nil => rfl
  | cons s ss ih =>
    have hmax : (if sampleDelta s prev > m then sampleDelta s prev else m) = max m (l1 s prev) := by
      rw [sampleDelta_eq]
      split
      · next h => rw [max_eq_right h.le]
      · next h => rw [max_eq_left (not_lt.mp h)]
    rw [maxDelta, hmax, ih, steps, List.foldl_cons]

theorem motionScoreMg_eq (ss : List MotionSample) :
    motionScoreMg ss = ((steps l1 ss).foldl max 0 * 61).tdiv 1000 := by
  rcases ss with _ | ⟨s, _ | ⟨t, ss⟩⟩
  · rfl
  · rfl
  · rw [motionScoreMg, maxDelta_eq]
    simp

example : motionScoreMg [⟨1000, -1000, 200⟩, ⟨1100, -900, 200⟩, ⟨1500, -950, -100⟩] = 45 := by decide

/-- The greatest step of samples is within the full scale of three axes. -/
theorem greatestStep_bounds {ss : List MotionSample} {M : ℤ} (h : GreatestStep l1 ss M) :
    0 ≤ M ∧ M ≤ 196605 := by
  rcases Nat.lt_or_ge ss.length 2 with hlen | hlen
  · rw [h.short hlen]
    exact ⟨le_refl _, by norm_num⟩
  · obtain ⟨a, b, -, rfl⟩ := h.attained hlen
    exact ⟨l1_nonneg b a, l1_le b a⟩

theorem scaled_eq_floor {M : ℤ} (h : 0 ≤ M) : (M * 61).tdiv 1000 = ⌊(61 * M : ℚ) / 1000⌋ := by
  have hfloor : ⌊((M * 61 : ℤ) : ℚ) / ((1000 : ℕ) : ℚ)⌋ = (M * 61) / ((1000 : ℕ) : ℤ) :=
    Rat.floor_intCast_div_natCast (M * 61) 1000
  rw [Int.tdiv_eq_ediv_of_nonneg (by omega)]
  push_cast at hfloor
  rw [mul_comm (61 : ℚ), hfloor]

/-- No `int32_t` of the computation overflows. -/
theorem checkedScoreMg_eq (ss : List MotionSample) :
    checkedScoreMg ss = some (motionScoreMg ss) := by
  have hbounds := greatestStep_bounds (greatestStep_foldl l1_nonneg ss)
  rcases ss with _ | ⟨s, _ | ⟨t, ss⟩⟩
  · rfl
  · rfl
  · rw [← maxDelta_eq] at hbounds
    obtain ⟨hnonneg, hle⟩ := hbounds
    have hquot := Int.tdiv_eq_ediv_of_nonneg (b := 1000) (by omega : 0 ≤ maxDelta s (t :: ss) 0 * 61)
    rw [checkedScoreMg, motionScoreMg, checkedMaxDelta_eq]
    · simp only [Option.bind_eq_bind, Option.bind_some]
      rw [i32_of_le (by omega) (by omega), Option.bind_some, i32_of_le (by omega) (by omega)]
    · simp
    · simp

/-! ### Symmetries -/

/-- `s'` is `s` with the constant `c` added. -/
structure Shifted (c : ℤ × ℤ × ℤ) (s s' : MotionSample) : Prop where
  x : s'.x.toInt = s.x.toInt + c.1
  y : s'.y.toInt = s.y.toInt + c.2.1
  z : s'.z.toInt = s.z.toInt + c.2.2

theorem l1_shifted {c : ℤ × ℤ × ℤ} {s s' t t' : MotionSample} (hs : Shifted c s s')
    (ht : Shifted c t t') : l1 t s = l1 t' s' := by
  rw [l1, l1, hs.x, hs.y, hs.z, ht.x, ht.y, ht.z, add_sub_add_right_eq_sub,
    add_sub_add_right_eq_sub, add_sub_add_right_eq_sub]

/-- The score is the greatest L1 step times 61 over 1000, rounded down; no `int32_t` overflows on the
    way, and neither reversing the window nor adding a constant to it changes the score. -/
theorem motion_score_exact (ss : List MotionSample) :
    checkedScoreMg ss = some (motionScoreMg ss) ∧
    (∃ M : ℤ, GreatestStep l1 ss M ∧ motionScoreMg ss = ⌊(61 * M : ℚ) / 1000⌋) ∧
    motionScoreMg ss.reverse = motionScoreMg ss ∧
    ∀ (c : ℤ × ℤ × ℤ) (ss' : List MotionSample), List.Forall₂ (Shifted c) ss ss' →
      motionScoreMg ss' = motionScoreMg ss := by
  refine ⟨checkedScoreMg_eq ss, ?_, ?_, ?_⟩
  · have hgreatest := greatestStep_foldl l1_nonneg ss
    refine ⟨_, hgreatest, ?_⟩
    rw [motionScoreMg_eq, scaled_eq_floor (greatestStep_bounds hgreatest).1]
  · rw [motionScoreMg_eq, motionScoreMg_eq, foldl_max_steps_reverse l1_comm]
  · intro c ss' hshift
    have hsteps : steps l1 ss = steps l1 ss' :=
      steps_congr (R := Shifted c) (fun _ _ _ _ hs ht => l1_shifted hs ht) hshift
    rw [motionScoreMg_eq, motionScoreMg_eq, hsteps]

/-- A window at rest on one axis and the same window under gravity. -/
theorem motion_score_exact_gravity :
    motionScoreMg [⟨0, 0, 16393⟩, ⟨-32768, 500, 16393⟩, ⟨32767, 500, 16393⟩] =
      motionScoreMg [⟨0, 0, 0⟩, ⟨-32768, 500, 0⟩, ⟨32767, 500, 0⟩] := by
  refine (motion_score_exact [⟨0, 0, 0⟩, ⟨-32768, 500, 0⟩, ⟨32767, 500, 0⟩]).2.2.2 (0, 0, 16393) _ ?_
  exact .cons ⟨rfl, rfl, rfl⟩ (.cons ⟨rfl, rfl, rfl⟩ (.cons ⟨rfl, rfl, rfl⟩ .nil))

end SeeedMote.Mote
