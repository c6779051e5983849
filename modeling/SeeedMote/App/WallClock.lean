import Mathlib.Data.List.Induction
import SeeedMote.App.Store

/-! The dedup of `add_event` on a wall clock that may be stepped. `time.time()` is the reading the key
    table keeps, and `now - prev` is signed: after a step back a stored reading lies in the future and
    the key is refused until the clock has caught up, however long that takes.

        real   0 ─────────────────── 600      the same id again, ten minutes later
        wall   1000 ───── step ───── 500      500 - 1000 < 2: rejected -/

namespace SeeedMote.App
open Lib

/-- A method call at its real time; the readings it makes are those of the wall clock. -/
structure TimedOp where
  real : ℚ
  op : StoreOp
  deriving DecidableEq

/-- An accepted `add_event`: its key, the wall-clock reading it made, and its real time. -/
structure Acceptance where
  key : PyStr × ℤ
  wall : ℚ
  real : ℚ
  deriving DecidableEq

/-- One method call; the output is the acceptance, if it is one. -/
def timedStep (s : EventStore) (c : TimedOp) : EventStore × List Acceptance :=
  ((storeStep s c.op).1, match c.op with
    | .addEvent now nowTouch moteMac gwId packetId rssi =>
      if (s.addEvent now nowTouch moteMac gwId packetId rssi).2.isSome then
        [⟨(moteMac, packetId), now, c.real⟩]
      else []
    | _ => [])

/-- The store after a run. -/
def storeAfterTimed (maxEvents : ℕ) (cs : List TimedOp) : EventStore :=
  finalState timedStep (.init maxEvents) cs

/-- The acceptances of a run, earliest first. -/
def acceptances (maxEvents : ℕ) (cs : List TimedOp) : List Acceptance :=
  outputs timedStep (.init maxEvents) cs

/-- The last acceptance of a key. -/
def lastAccepted (key : PyStr × ℤ) (accs : List Acceptance) : Option Acceptance :=
  (accs.filter fun a => a.key = key).getLast?

/-- What the key table holds is the reading of the last acceptance. -/
def HoldsLast (s : EventStore) (accs : List Acceptance) : Prop :=
  ∀ key wall, s.seen.get? key = some wall → ∃ a, lastAccepted key accs = some a ∧ a.wall = wall

theorem lastAccepted_concat (key : PyStr × ℤ) (accs : List Acceptance) (a : Acceptance) :
    lastAccepted key (accs ++ [a]) = if a.key = key then some a else lastAccepted key accs := by
  rw [lastAccepted, List.filter_append]
  by_cases h : a.key = key
  · simp [h]
  · simp [h, lastAccepted]

theorem mem_of_lastAccepted {key : PyStr × ℤ} {accs : List Acceptance} {a : Acceptance}
    (h : lastAccepted key accs = some a) : a ∈ accs ∧ a.key = key := by
  obtain ⟨hmem, hkey⟩ := List.mem_filter.mp (List.mem_of_getLast? h)
  exact ⟨hmem, of_decide_eq_true hkey⟩

/-! ### One call -/

/-- A named mote's event is refused as a duplicate only. -/
theorem addEvent_eq_none_iff (s : EventStore) (now nowTouch : ℚ) {moteMac : PyStr}
    (hmac : moteMac ≠ []) (gwId : PyStr) (packetId rssi : ℤ) :
    (s.addEvent now nowTouch moteMac gwId packetId rssi).2 = none ↔
      s.isDuplicate now (moteMac, packetId) = true := by
  simp only [EventStore.addEvent, if_neg hmac]
  by_cases hdup : s.isDuplicate now (moteMac, packetId) = true
  · simp [hdup]
  · simp [hdup]

/-- A refused call leaves the key table alone, an accepted one stores its reading. -/
theorem addEvent_seen (s : EventStore) (now nowTouch : ℚ) (moteMac gwId : PyStr)
    (packetId rssi : ℤ) :
    let r := s.addEvent now nowTouch moteMac gwId packetId rssi
    (r.2 = none ∧ r.1.seen = s.seen) ∨
      (r.2.isSome ∧ r.1.seen = gcSeen now (s.seen.set (moteMac, packetId) now)) := by
  simp only [EventStore.addEvent]
  by_cases hmac : moteMac = []
  · rw [if_pos hmac]
    exact .inl ⟨rfl, rfl⟩
  · rw [if_neg hmac]
    by_cases hdup : s.isDuplicate now (moteMac, packetId) = true
    · rw [if_pos hdup]
      exact .inl ⟨rfl, rfl⟩
    · rw [if_neg hdup]
      exact .inr ⟨rfl, rfl⟩

/-- The garbage collection only removes keys. -/
theorem get?_of_gcSeen {now wall : ℚ} {seen : Dict (PyStr × ℤ) ℚ} {key : PyStr × ℤ}
    (h : (gcSeen now seen).get? key = some wall) : seen.get? key = some wall := by
  rw [gcSeen] at h
  split at h
  · exact ((Dict.get?_filter_eq_some_iff _ _ _ _).mp h).1
  · exact h

theorem holdsLast_step {s : EventStore} {accs : List Acceptance} (h : HoldsLast s accs)
    (c : TimedOp) : HoldsLast (timedStep s c).1 (accs ++ (timedStep s c).2) := by
  obtain ⟨real, op⟩ := c
  cases op with
  | addEvent now nowTouch moteMac gwId packetId rssi =>
    intro key wall hkey
    simp only [timedStep, storeStep] at hkey ⊢
    rcases addEvent_seen s now nowTouch moteMac gwId packetId rssi with ⟨hnone, hseen⟩ | ⟨hsome, hseen⟩
    · rw [hseen] at hkey
      rw [hnone, if_neg (by simp), List.append_nil]
      exact h key wall hkey
    · rw [hseen] at hkey
      rw [if_pos hsome, lastAccepted_concat]
      have hget := get?_of_gcSeen hkey
      rw [Dict.get?_set] at hget
      by_cases hk : key = (moteMac, packetId)
      · rw [if_pos hk] at hget
        exact ⟨_, if_pos hk.symm, Option.some.inj hget⟩
      · rw [if_neg hk] at hget
        rw [if_neg (Ne.symm hk)]
        exact h key wall hget
  | touchGateway =>
    rw [timedStep, List.append_nil]
    exact h
  | reapGateways =>
    rw [timedStep, List.append_nil]
    exact h
  | snapshot =>
    rw [timedStep, List.append_nil]
    exact h

/-- Every acceptance of a step has the real time of the step. -/
theorem real_of_timedStep {s : EventStore} {c : TimedOp} {a : Acceptance}
    (ha : a ∈ (timedStep s c).2) : a.real = c.real := by
  obtain ⟨real, op⟩ := c
  cases op with
  | addEvent now nowTouch moteMac gwId packetId rssi =>
    simp only [timedStep] at ha
    split at ha
    · rw [List.mem_singleton.mp ha]
    · exact absurd ha List.not_mem_nil
  | touchGateway => exact absurd ha List.not_mem_nil
  | reapGateways => exact absurd ha List.not_mem_nil
  | snapshot => exact absurd ha List.not_mem_nil

/-! ### Runs -/

section Runs
variable (maxEvents : ℕ)

theorem storeAfterTimed_concat (cs : List TimedOp) (c : TimedOp) :
    storeAfterTimed maxEvents (cs ++ [c]) = (timedStep (storeAfterTimed maxEvents cs) c).1 :=
  finalState_concat timedStep (.init maxEvents) cs c

theorem acceptances_concat (cs : List TimedOp) (c : TimedOp) :
    acceptances maxEvents (cs ++ [c])
      = acceptances maxEvents cs ++ (timedStep (storeAfterTimed maxEvents cs) c).2 :=
  outputs_concat timedStep (.init maxEvents) cs c

theorem holdsLast_run (cs : List TimedOp) :
    HoldsLast (storeAfterTimed maxEvents cs) (acceptances maxEvents cs) := by
  induction cs using List.reverseRecOn with
  | nil =>
    intro key wall h
    simp [storeAfterTimed, finalState, EventStore.init] at h
  | append_singleton cs c ih =>
    rw [storeAfterTimed_concat, acceptances_concat]
    exact holdsLast_step ih c

theorem real_of_acceptance {cs : List TimedOp} {a : Acceptance}
    (ha : a ∈ acceptances maxEvents cs) : a.real ∈ cs.map TimedOp.real := by
  obtain ⟨pre, c, post, rfl, hc⟩ := (mem_outputs_iff timedStep).mp ha
  rw [real_of_timedStep hc]
  simp

/-- On a real time that does not go back, the acceptances come in its order. -/
theorem acceptances_ordered {cs : List TimedOp} (hreal : (cs.map TimedOp.real).Pairwise (· ≤ ·)) :
    (acceptances maxEvents cs).Pairwise fun a a' => a.real ≤ a'.real := by
  induction cs using List.reverseRecOn with
  | nil => exact .nil
  | append_singleton cs c ih =>
    rw [List.map_append, List.pairwise_append] at hreal
    obtain ⟨hcs, -, hle⟩ := hreal
    rw [acceptances_concat]
    refine List.pairwise_append.mpr ⟨ih hcs, ?_, ?_⟩
    · refine List.pairwise_of_forall_mem_list ?_
      intro a ha a' ha'
      rw [real_of_timedStep ha, real_of_timedStep ha']
    · intro a ha a' ha'
      rw [real_of_timedStep ha']
      exact hle _ (real_of_acceptance maxEvents ha) _ (List.mem_singleton_self _)

/-- No acceptance of a key is later than the last one. -/
theorem real_le_lastAccepted {cs : List TimedOp} (hreal : (cs.map TimedOp.real).Pairwise (· ≤ ·))
    {key : PyStr × ℤ} {a a' : Acceptance} (ha : a ∈ acceptances maxEvents cs) (hkey : a.key = key)
    (hlast : lastAccepted key (acceptances maxEvents cs) = some a') : a.real ≤ a'.real := by
  have hord := (acceptances_ordered maxEvents hreal).filter fun a => a.key = key
  have hmem : a ∈ (acceptances maxEvents cs).filter fun a => a.key = key :=
    List.mem_filter.mpr ⟨ha, decide_eq_true hkey⟩
  obtain ⟨as, has⟩ := List.getLast?_eq_some_iff.mp hlast
  rw [has] at hord hmem
  obtain ⟨-, -, hle⟩ := List.pairwise_append.mp hord
  rcases List.mem_append.mp hmem with hmem | hmem
  · exact hle a hmem a' (List.mem_singleton_self _)
  · rw [List.mem_singleton.mp hmem]

end Runs

/-- In any run, with any wall-clock readings: that the next call is refused only if its key was
    accepted less than the TTL of real time before, is the case exactly when the wall clock has
    advanced by the TTL, whenever real time has, since the reading the key table still holds. -/
theorem dedup_elapsed_iff (maxEvents : ℕ) {pre : List TimedOp} {real now nowTouch : ℚ}
    {moteMac gwId : PyStr} {packetId rssi : ℤ} (hmac : moteMac ≠ [])
    (hreal : (pre.map TimedOp.real ++ [real]).Pairwise (· ≤ ·)) :
    let s := storeAfterTimed maxEvents pre
    ((s.addEvent now nowTouch moteMac gwId packetId rssi).2 = none →
      ∃ a ∈ acceptances maxEvents pre, a.key = (moteMac, packetId) ∧ real - a.real < dedupTtlS) ↔
    ∀ a, lastAccepted (moteMac, packetId) (acceptances maxEvents pre) = some a →
      s.seen.get? (moteMac, packetId) = some a.wall →
      dedupTtlS ≤ real - a.real → dedupTtlS ≤ now - a.wall := by
  intro s
  rw [addEvent_eq_none_iff s now nowTouch hmac, isDuplicate_iff]
  constructor
  · intro h a hlast hget helapsed
    by_contra hlt
    obtain ⟨a', ha', hkey, hrecent⟩ := h ⟨a.wall, hget, not_le.mp hlt⟩
    have hle := real_le_lastAccepted maxEvents (List.pairwise_append.mp hreal).1 ha' hkey hlast
    linarith
  · rintro h ⟨wall, hget, hlt⟩
    obtain ⟨a, hlast, rfl⟩ := holdsLast_run maxEvents pre _ wall hget
    obtain ⟨hmem, hkey⟩ := mem_of_lastAccepted hlast
    refine ⟨a, hmem, hkey, not_le.mp ?_⟩
    intro helapsed
    exact absurd hlt (not_lt.mpr (h a hlast hget helapsed))

/-- One pickup, accepted at 1000 on the wall clock. -/
def pickupAt1000 : List TimedOp :=
  [⟨0, .addEvent 1000 1000 (py "f0e3912cec19") (py "gw-a") 7 (-60)⟩]

theorem dedup_elapsed_steady :
    let s := storeAfterTimed 500 pickupAt1000
    (s.addEvent 1600 1600 (py "f0e3912cec19") (py "gw-a") 7 (-60)).2 = none →
      ∃ a ∈ acceptances 500 pickupAt1000, a.key = (py "f0e3912cec19", 7) ∧
        600 - a.real < dedupTtlS :=
  (@dedup_elapsed_iff 500 pickupAt1000 600 1600 1600 (py "f0e3912cec19") (py "gw-a") 7 (-60)
    (by decide) (by decide +kernel)).mpr fun a hlast _ _ => by
      have hacc : lastAccepted (py "f0e3912cec19", 7) (acceptances 500 pickupAt1000)
          = some ⟨(py "f0e3912cec19", 7), 1000, 0⟩ := by decide +kernel
      rw [hacc] at hlast
      obtain rfl := Option.some.inj hlast
      decide +kernel

/-- Ten minutes later the mote reuses the id, and the wall clock has been stepped back. -/
theorem step_back_drops_event :
    ¬∀ (maxEvents : ℕ) (pre : List TimedOp) (real now nowTouch : ℚ) (moteMac gwId : PyStr)
        (packetId rssi : ℤ), moteMac ≠ [] → (pre.map TimedOp.real ++ [real]).Pairwise (· ≤ ·) →
      ((storeAfterTimed maxEvents pre).addEvent now nowTouch moteMac gwId packetId rssi).2 = none →
      ∃ a ∈ acceptances maxEvents pre, a.key = (moteMac, packetId) ∧ real - a.real < dedupTtlS := by
  intro h
  obtain ⟨a, ha, -, hlt⟩ := h 500 pickupAt1000 600 500 500 (py "f0e3912cec19") (py "gw-a") 7 (-60)
    (by decide) (by decide +kernel) (by decide +kernel)
  have hacc : acceptances 500 pickupAt1000 = [⟨(py "f0e3912cec19", 7), 1000, 0⟩] := by
    decide +kernel
  rw [hacc] at ha
  obtain rfl := List.mem_singleton.mp ha
  exact absurd hlt (by decide +kernel)

end SeeedMote.App
