import Mathlib.Algebra.Order.BigOperators.Group.List
import SeeedMote.Gateway.Settings
import SeeedMote.Lib.PyText

/-! A locate command at the gateway: the branch `MQTT_EVENT_DATA` of `mqtt_event_handler`, the other
    callers of `led_locate_blink`, and the blinking of `led.c`. Every call starts a task of its own, and
    the tasks share one LED:

        task 1   on   off   on   off   on ..
        task 2        on    off  on    off ..

    so that a task's flash can be cut short by another's. What stays true is that the LED is off when
    the last of them is done. -/

namespace SeeedMote.Gateway
open Lib Settings

/-! ### The handler -/

/-- Topic and data of an event. -/
structure MqttData where
  topic : CStr
  data : List UInt8
  deriving DecidableEq

def cmdTopic : CStr := lit "seeedmote/gateway/cmd"

/-- The branch `MQTT_EVENT_DATA`: whether `led_locate_blink` is called. -/
def locateCommand (api : CJson) (gwId : CStr) (mallocOk : Bool) (event : MqttData) : Bool :=
  if event.topic = [] ∨ event.data = [] then false
  else if event.topic.length ≠ cmdTopic.length then false
  else if event.topic ≠ cmdTopic then false
  else if mallocOk = false then false
  else
    -- the copy ends with a NUL, so an earlier one ends the text
    match api.parse (event.data.takeWhile (· ≠ 0)) with
    | none => false
    | some j =>
      match api.textOf j (lit "gw"), api.textOf j (lit "cmd") with
      | some gw, some cmd => gw = gwId && cmd = lit "locate"
      | _, _ => false

/-! ### The LED -/

/-- The level of the pin, and for each blink task the `led_set` calls it has made. -/
structure Led where
  level : Bool
  tasks : List ℕ
  deriving DecidableEq

namespace Led

/-- `led_init`: the LED is active low. -/
def init : Led := ⟨true, []⟩

/-- `led_set`. -/
def set (on : Bool) (l : Led) : Led := { l with level := !on }

/-- The LED is on. -/
def lit (l : Led) : Prop := l.level = false

instance (l : Led) : Decidable l.lit := inferInstanceAs (Decidable (_ = _))

/-- `led_locate_blink`; nothing happens when `xTaskCreate` fails. -/
def locateBlink (createOk : Bool) (l : Led) : Led :=
  if createOk then { l with tasks := l.tasks ++ [0] } else l

/-- `handle_locate`. -/
def handleLocate (createOk : Bool) (l : Led) : HttpReply × Led := (okReply, l.locateBlink createOk)

/-- `cmd_locate`. -/
def cmdLocate (createOk : Bool) (l : Led) : CmdResult × Led :=
  (⟨0, Lib.lit "Blinking LED.\n"⟩, l.locateBlink createOk)

/-- `event_handler` of `wifi_mgr.c` on `WIFI_EVENT_AP_STACONNECTED`. -/
def apStaConnected (createOk : Bool) (l : Led) : Led := l.locateBlink createOk

/-- The `led_set` calls of `blink_task`, twelve times on and off. -/
def blinkCalls : ℕ := 24

/-- Task `i` runs up to its next `vTaskDelay`, or deletes itself. -/
def runTask (i : ℕ) (l : Led) : Option Led :=
  match l.tasks[i]? with
  | none => none
  | some calls =>
    if calls < blinkCalls then
      some { l.set (calls % 2 = 0) with tasks := l.tasks.set i (calls + 1) }
    else some { l with tasks := l.tasks.eraseIdx i }

/-- A lit LED has a task that is going to switch it off. -/
structure Inv (l : Led) : Prop where
  lit : l.lit → ∃ calls ∈ l.tasks, calls % 2 = 1
  calls_le : ∀ calls ∈ l.tasks, calls ≤ blinkCalls

theorem inv_init : init.Inv where
  lit h := absurd h (by decide)
  calls_le := by simp [init]

theorem Inv.locateBlink {l : Led} (h : l.Inv) (createOk : Bool) : (l.locateBlink createOk).Inv := by
  cases createOk with
  | false => exact h
  | true =>
    refine ⟨fun hlit => ?_, fun calls hcalls => ?_⟩
    · obtain ⟨calls, hmem, hodd⟩ := h.lit hlit
      exact ⟨calls, List.mem_append_left _ hmem, hodd⟩
    · rcases List.mem_append.mp hcalls with hcalls | hcalls
      · exact h.calls_le calls hcalls
      · rw [List.mem_singleton.mp hcalls]
        exact Nat.zero_le _

theorem Inv.runTask {l l' : Led} {i : ℕ} (h : l.Inv) (hrun : l.runTask i = some l') : l'.Inv := by
  rw [Led.runTask] at hrun
  cases hi : l.tasks[i]? with
  | none => simp [hi] at hrun
  | some calls =>
    simp only [hi] at hrun
    have hmem : calls ∈ l.tasks := List.mem_of_getElem? hi
    obtain ⟨hlen, hget⟩ := List.getElem?_eq_some_iff.mp hi
    split_ifs at hrun with hmore
    · obtain rfl := Option.some.inj hrun
      refine ⟨fun hlit => ⟨calls + 1, List.mem_set hlen _, ?_⟩, fun n hn => ?_⟩
      · -- lit by this call, so this task has switched it on
        have heven : calls % 2 = 0 := by simpa [Led.lit, Led.set] using hlit
        omega
      · rcases List.mem_or_eq_of_mem_set hn with hn | rfl
        · exact h.calls_le n hn
        · exact hmore
    · obtain rfl := Option.some.inj hrun
      have hdone : calls = 24 := Nat.le_antisymm (h.calls_le calls hmem) (Nat.not_lt.mp hmore)
      refine ⟨fun hlit => ?_, fun n hn => h.calls_le n (List.mem_of_mem_eraseIdx hn)⟩
      -- the task that is deleted has switched it off
      obtain ⟨n, hn, hodd⟩ := h.lit hlit
      refine ⟨n, ?_, hodd⟩
      have hne : n ≠ calls := by omega
      obtain ⟨j, hj, rfl⟩ := List.getElem_of_mem hn
      have hji : j ≠ i := by
        rintro rfl
        exact hne hget
      exact List.mem_eraseIdx_iff_getElem.mpr ⟨j, hj, hji, rfl⟩

/-- Without a task the LED is off. -/
theorem Inv.not_lit {l : Led} (h : l.Inv) (hnone : l.tasks = []) : ¬l.lit := by
  intro hlit
  obtain ⟨calls, hmem, -⟩ := h.lit hlit
  rw [hnone] at hmem
  exact absurd hmem List.not_mem_nil

/-- The runs the tasks still need: one for each call, and one to delete the task. -/
def remaining (l : Led) : ℕ := (l.tasks.map fun calls => blinkCalls + 1 - calls).sum

/-- Every run of a task brings the end nearer. -/
theorem Inv.remaining_runTask {l l' : Led} {i : ℕ} (h : l.Inv) (hrun : l.runTask i = some l') :
    l.remaining = l'.remaining + 1 := by
  rw [Led.runTask] at hrun
  cases hi : l.tasks[i]? with
  | none => simp [hi] at hrun
  | some calls =>
    simp only [hi] at hrun
    obtain ⟨hlen, hget⟩ := List.getElem?_eq_some_iff.mp hi
    have hcalls := h.calls_le calls (List.mem_of_getElem? hi)
    have hsplit : l.tasks = l.tasks.take i ++ calls :: l.tasks.drop (i + 1) := by
      rw [← hget, List.cons_getElem_drop_succ, List.take_append_drop]
    split_ifs at hrun with hmore
    · obtain rfl := Option.some.inj hrun
      have hset : l.tasks.set i (calls + 1)
          = l.tasks.take i ++ (calls + 1) :: l.tasks.drop (i + 1) := by
        rw [List.set_eq_take_append_cons_drop, if_pos hlen]
      rw [remaining, remaining, hset]
      nth_rewrite 1 [hsplit]
      simp only [List.map_append, List.map_cons, List.sum_append, List.sum_cons]
      omega
    · obtain rfl := Option.some.inj hrun
      rw [remaining, remaining, List.eraseIdx_eq_take_drop_succ]
      nth_rewrite 1 [hsplit]
      simp only [List.map_append, List.map_cons, List.sum_append, List.sum_cons]
      omega

theorem tasks_eq_nil_of_remaining {l : Led} (h : l.Inv) (hzero : l.remaining = 0) : l.tasks = [] := by
  refine List.eq_nil_iff_forall_not_mem.mpr fun calls hcalls => ?_
  have hle := h.calls_le calls hcalls
  have hone := List.le_sum_of_mem (List.mem_map_of_mem (f := fun c => blinkCalls + 1 - c) hcalls)
  rw [← remaining, hzero] at hone
  omega

/-- However the tasks take turns, they are all done after `remaining` runs, and the LED is off. -/
theorem Inv.blinking_ends {l' : Led} : ∀ {is : List ℕ} {l : Led}, l.Inv →
    exec (fun l i => l.runTask i) l is = some l' →
      is.length ≤ l.remaining ∧ (is.length = l.remaining → l'.tasks = [] ∧ ¬l'.lit) := by
  intro is
  induction is with
  | nil =>
    intro l h hrun
    obtain rfl := Option.some.inj hrun
    refine ⟨Nat.zero_le _, fun hzero => ?_⟩
    have hnone := tasks_eq_nil_of_remaining h hzero.symm
    exact ⟨hnone, h.not_lit hnone⟩
  | cons i is ih =>
    intro l h hrun
    obtain ⟨l₁, hfirst, hrest⟩ := Option.bind_eq_some_iff.mp hrun
    obtain ⟨hle, hdone⟩ := ih (h.runTask hfirst) hrest
    rw [List.length_cons, h.remaining_runTask hfirst]
    exact ⟨Nat.succ_le_succ hle, fun hlen => hdone (Nat.succ.inj hlen)⟩

end Led

/-! ### At the gateway itself -/

/-- What makes a gateway blink without a command: a client joins its access point, a request to
    `/api/locate`, `locate` on the console. -/
inductive LocalTrigger where
  | apClient
  | web
  | console
  deriving DecidableEq

def LocalTrigger.blink (t : LocalTrigger) (createOk : Bool) (l : Led) : Led :=
  match t with
  | .apClient => l.apStaConnected createOk
  | .web => (l.handleLocate createOk).2
  | .console => (l.cmdLocate createOk).2

theorem LocalTrigger.blink_eq (t : LocalTrigger) (createOk : Bool) (l : Led) :
    t.blink createOk l = l.locateBlink createOk := by
  cases t <;> rfl

end SeeedMote.Gateway
