import Mathlib.Logic.Basic

/-! Delayable work items of a kernel with one queue thread. An item may be armed (`scheduled`), its
    handler may have begun (`running`), and a running item may be under cancellation (`canceling`).
    Cancelling takes an armed item back but never stops a handler; until that handler returns,
    scheduling the item again has no effect. Each arming carries a tag of type `τ`. -/

namespace SeeedMote.Lib

/-- A delayable work item. Only a running handler can be under cancellation. -/
structure Work (τ : Type*) where
  scheduled : Option τ
  running : Option τ
  canceling : Bool
  canceling_running : canceling = true → running.isSome = true
  deriving DecidableEq

namespace Work

variable {τ : Type*}

/-- Neither armed nor running. -/
def idle : Work τ := ⟨none, none, false, nofun⟩

/-- Armed, or its handler has begun. -/
def Active (w : Work τ) : Prop := w.scheduled.isSome ∨ w.running.isSome

/-- `k_work_cancel_delayable`. -/
def cancel (w : Work τ) : Work τ := ⟨none, w.running, w.running.isSome, id⟩

/-- `k_work_schedule`: no effect on an item that is armed or under cancellation. -/
def schedule (a : τ) (w : Work τ) : Work τ :=
  if w.scheduled.isSome ∨ w.canceling then w
  else ⟨some a, w.running, w.canceling, w.canceling_running⟩

/-- The delay is over and the queue thread enters the handler. -/
def begin (w : Work τ) : Option (Work τ) :=
  w.scheduled.map fun a => ⟨none, some a, w.canceling, fun _ => rfl⟩

/-- The handler returns. -/
def finish (w : Work τ) : Work τ := ⟨w.scheduled, none, false, nofun⟩

@[simp] theorem cancel_scheduled (w : Work τ) : w.cancel.scheduled = none := rfl
@[simp] theorem cancel_running (w : Work τ) : w.cancel.running = w.running := rfl
@[simp] theorem schedule_running (a : τ) (w : Work τ) : (w.schedule a).running = w.running := by
  unfold schedule; split <;> rfl

/-- A cancelled item is armed again unless its handler is still running. -/
@[simp] theorem schedule_cancel_scheduled (a : τ) (w : Work τ) :
    (w.cancel.schedule a).scheduled = if w.running.isSome then none else some a := by
  cases w with
  | mk s r c hc => cases r <;> rfl

/-- Whatever runs, rescheduling a cancelled item leaves it active. -/
theorem active_schedule_cancel (a : τ) (w : Work τ) : (w.cancel.schedule a).Active := by
  rw [Active]
  rw [schedule_cancel_scheduled, schedule_running, cancel_running]
  cases w.running <;> simp

/-- Entering the handler moves the arming from `scheduled` to `running`. -/
theorem begin_eq_some_iff (w w' : Work τ) :
    w.begin = some w' ↔ ∃ a, w.scheduled = some a ∧ w'.scheduled = none ∧ w'.running = some a ∧
      w'.canceling = w.canceling := by
  rw [begin]
  cases hs : w.scheduled with
  | none => simp
  | some a =>
    constructor
    · intro h
      obtain rfl := Option.some.inj h
      exact ⟨a, rfl, rfl, rfl, rfl⟩
    · rintro ⟨b, hb, h1, h2, h3⟩
      obtain rfl := Option.some.inj hb
      cases w' with
      | mk s r c hc => simp_all

end Work

end SeeedMote.Lib
