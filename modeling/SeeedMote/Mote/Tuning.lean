import Mathlib.Data.Int.Basic
import SeeedMote.Lib.Run
import SeeedMote.Lib.Work

/-! The tunable wake-up settings, `cfg_svc.c` with its accessors in `main.c`. Each of THS and DUR
    exists three times: in RAM, in the IMU's register and in settings storage. A GATT write changes the
    first two; the third changes only when the reboot command's handler saves both before it resets.

        write_ths / write_dur ──▶ register ──▶ RAM
        write_cmd ──200 ms──▶ deferred_reboot: save THS ──▶ save DUR ──▶ sys_reboot
        boot: default ──▶ storage, if it has a value ──▶ RAM ──▶ register

    A write that was acknowledged is lost with every other reset. -/

namespace SeeedMote.Mote
open Lib

/-- `LSM6DSL_WAKE_UP_THS_DEFAULT`. -/
def wakeUpThsDefault : UInt8 := 0x03

/-- `LSM6DSL_WAKE_UP_DUR_DEFAULT`. -/
def wakeUpDurDefault : UInt8 := 0x21

def cmdReboot : UInt8 := 0x01

/-- `ERANGE` and `ENODEV` of the C library. -/
def erange : ℤ := 34
def enodev : ℤ := 19

/-- `BT_GATT_ERR` of `BT_ATT_ERR_INVALID_ATTRIBUTE_LEN`, `_UNLIKELY` and `_VALUE_NOT_ALLOWED`. -/
def errInvalidAttributeLen : ℤ := -0x0d
def errUnlikely : ℤ := -0x0e
def errValueNotAllowed : ℤ := -0x13

/-! ### The settings -/

/-- The copies of one setting. `acked` is the value of its last write that was acknowledged with
    success; no code reads it. -/
structure Setting where
  ram : UInt8
  register : UInt8
  stored : Option UInt8
  acked : Option UInt8
  deriving DecidableEq

/-- Where `deferred_reboot` stands: the call it is in, and the value that call was given. -/
inductive RebootPc where | idle | saveThs (value : UInt8) | saveDur (value : UInt8) | sysReboot
  deriving DecidableEq

/-- `ths` holds `imu_wake_ths`, `dur` holds `imu_wake_dur`, each with its other copies; `ready` is
    `cfg_settings_ready`. -/
structure Tuning where
  ths : Setting
  dur : Setting
  ready : Bool
  rebootWork : Work Unit
  pc : RebootPc
  deriving DecidableEq

/-- `imu_write_reg`, then the copy in RAM if it succeeds. -/
def Setting.write (value : UInt8) (rc : ℤ) (s : Setting) : ℤ × Setting :=
  if rc ≠ 0 then (rc, s) else (0, { s with register := value, ram := value })

/-- `imu_set_wake_ths`; `rc` is what the register write returns. -/
def imuSetWakeThs (value : UInt8) (rc : ℤ) (m : Tuning) : ℤ × Tuning :=
  if value > 63 then (-erange, m)
  else
    let (rc, ths) := m.ths.write value rc
    (rc, { m with ths })

/-- `imu_set_wake_dur`. -/
def imuSetWakeDur (value : UInt8) (rc : ℤ) (m : Tuning) : ℤ × Tuning :=
  let (rc, dur) := m.dur.write value rc
  (rc, { m with dur })

/-- `persist_u8_setting`; `rc` is what `settings_save_one` returns. -/
def persistU8Setting (ready : Bool) (value : UInt8) (rc : ℤ) (s : Setting) : ℤ × Setting :=
  if ready = false then (-enodev, s)
  else (rc, if rc ≠ 0 then s else { s with stored := some value })

/-! ### GATT writes -/

/-- `write_ths` and `write_dur` around their accessor: the return value, and the value written. -/
def writeChar (set : UInt8 → Tuning → ℤ × Tuning) (buf : List UInt8) (offset : ℕ) (m : Tuning) :
    ℤ × Tuning :=
  match offset, buf with
  | 0, [v] =>
    let (rc, m) := set v m
    if rc ≠ 0 then (errUnlikely, m) else (1, m)
  | _, _ => (errInvalidAttributeLen, m)

/-- `write_ths`. -/
def writeThs (buf : List UInt8) (offset : ℕ) (rc : ℤ) (m : Tuning) : ℤ × Tuning :=
  writeChar (fun v => imuSetWakeThs v rc) buf offset m

/-- `write_dur`. -/
def writeDur (buf : List UInt8) (offset : ℕ) (rc : ℤ) (m : Tuning) : ℤ × Tuning :=
  writeChar (fun v => imuSetWakeDur v rc) buf offset m

/-- `write_cmd`. -/
def writeCmd (buf : List UInt8) (offset : ℕ) (m : Tuning) : ℤ × Tuning :=
  match offset, buf with
  | 0, [cmd] =>
    if cmd = cmdReboot then (1, { m with rebootWork := m.rebootWork.schedule () })
    else (errValueNotAllowed, m)
  | _, _ => (errInvalidAttributeLen, m)

/-! ### Boot -/

/-- `cfg_settings_set` for the stored THS: no value above 63 is taken. -/
def loadThs (s : Setting) : Setting :=
  match s.stored with
  | some v => if v > 63 then s else { s with ram := v }
  | none => s

/-- `cfg_settings_set` for the stored DUR. -/
def loadDur (s : Setting) : Setting :=
  match s.stored with
  | some v => { s with ram := v }
  | none => s

/-- `cfg_settings_init`; `rc` is what `settings_subsys_init` returns. -/
def cfgSettingsInit (rc : ℤ) (m : Tuning) : Tuning :=
  if rc ≠ 0 then m else { m with ready := true, ths := loadThs m.ths, dur := loadDur m.dur }

/-- `setup_imu_wake_int1` up to the two registers; `thsRc` and `durRc` are what their writes return. -/
def setupImuWakeInt1 (thsRc durRc : ℤ) (m : Tuning) : Tuning :=
  if thsRc ≠ 0 then m
  else
    let m := { m with ths := { m.ths with register := m.ths.ram } }
    if durRc ≠ 0 then m else { m with dur := { m.dur with register := m.dur.ram } }

/-- Static storage as a reset leaves it. -/
def Tuning.reset (m : Tuning) : Tuning where
  ths := { m.ths with ram := wakeUpThsDefault }
  dur := { m.dur with ram := wakeUpDurDefault }
  ready := false
  rebootWork := .idle
  pc := .idle

/-- `main` after a reset. -/
def Tuning.boot (initRc thsRc durRc : ℤ) (m : Tuning) : Tuning :=
  setupImuWakeInt1 thsRc durRc (cfgSettingsInit initRc m.reset)

/-- The first boot, with nothing stored. -/
def Tuning.factory : Tuning :=
  Tuning.boot 0 0 0 ⟨⟨0, 0, none, none⟩, ⟨0, 0, none, none⟩, false, .idle, .idle⟩

/-! ### Steps -/

inductive TuningEvent where
  | writeThs (buf : List UInt8) (offset : ℕ) (rc : ℤ)
  | writeDur (buf : List UInt8) (offset : ℕ) (rc : ℤ)
  | writeCmd (buf : List UInt8) (offset : ℕ)
  /-- The delay of `reboot_work` is over and `deferred_reboot` begins. -/
  | rebootTimer
  /-- Its next call of `persist_u8_setting`. -/
  | save (rc : ℤ)
  /-- Its `sys_reboot`, with the boot that follows. -/
  | sysReboot (initRc thsRc durRc : ℤ)
  /-- Any other reset, with the boot that follows. -/
  | reset (initRc thsRc durRc : ℤ)
  deriving DecidableEq

/-- Record an acknowledged write. -/
def Setting.ack (ret : ℤ) (buf : List UInt8) (s : Setting) : Setting :=
  if ret < 0 then s else { s with acked := buf.head? }

def tuningStep (m : Tuning) : TuningEvent → Option Tuning
  | .writeThs buf offset rc =>
    let r := writeThs buf offset rc m
    some { r.2 with ths := r.2.ths.ack r.1 buf }
  | .writeDur buf offset rc =>
    let r := writeDur buf offset rc m
    some { r.2 with dur := r.2.dur.ack r.1 buf }
  | .writeCmd buf offset => some (writeCmd buf offset m).2
  | .rebootTimer =>
    -- `deferred_reboot` does not return, and the queue has one thread.
    if m.pc = .idle then
      m.rebootWork.begin.map fun rebootWork => { m with rebootWork, pc := .saveThs m.ths.ram }
    else none
  | .save rc =>
    match m.pc with
    | .saveThs value =>
      some { m with ths := (persistU8Setting m.ready value rc m.ths).2, pc := .saveDur m.dur.ram }
    | .saveDur value =>
      some { m with dur := (persistU8Setting m.ready value rc m.dur).2, pc := .sysReboot }
    | _ => none
  | .sysReboot initRc thsRc durRc =>
    if m.pc = .sysReboot then some (m.boot initRc thsRc durRc) else none
  | .reset initRc thsRc durRc => some (m.boot initRc thsRc durRc)

/-- Storage initialises, saves succeed, and the IMU takes every register write. -/
def TuningEvent.Succeeds : TuningEvent → Prop
  | .writeThs _ _ rc => rc = 0
  | .writeDur _ _ rc => rc = 0
  | .writeCmd _ _ => True
  | .rebootTimer => True
  | .save rc => rc = 0
  | .sysReboot initRc thsRc durRc => initRc = 0 ∧ thsRc = 0 ∧ durRc = 0
  | .reset initRc thsRc durRc => initRc = 0 ∧ thsRc = 0 ∧ durRc = 0

def TuningEvent.IsReset : TuningEvent → Prop
  | .sysReboot _ _ _ => True
  | .reset _ _ _ => True
  | _ => False

instance : DecidablePred TuningEvent.Succeeds
  | .writeThs _ _ rc => inferInstanceAs (Decidable (rc = 0))
  | .writeDur _ _ rc => inferInstanceAs (Decidable (rc = 0))
  | .writeCmd _ _ => inferInstanceAs (Decidable True)
  | .rebootTimer => inferInstanceAs (Decidable True)
  | .save rc => inferInstanceAs (Decidable (rc = 0))
  | .sysReboot initRc thsRc durRc => inferInstanceAs (Decidable (initRc = 0 ∧ thsRc = 0 ∧ durRc = 0))
  | .reset initRc thsRc durRc => inferInstanceAs (Decidable (initRc = 0 ∧ thsRc = 0 ∧ durRc = 0))

instance : DecidablePred TuningEvent.IsReset
  | .sysReboot _ _ _ => inferInstanceAs (Decidable True)
  | .reset _ _ _ => inferInstanceAs (Decidable True)
  | .writeThs _ _ _ => inferInstanceAs (Decidable False)
  | .writeDur _ _ _ => inferInstanceAs (Decidable False)
  | .writeCmd _ _ => inferInstanceAs (Decidable False)
  | .rebootTimer => inferInstanceAs (Decidable False)
  | .save _ => inferInstanceAs (Decidable False)

/-- RAM holds the value of the last acknowledged write, or the default. -/
def Setting.Kept (default : UInt8) (s : Setting) : Prop := s.ram = s.acked.getD default

/-- Storage holds what RAM holds, or nothing where RAM holds the default. -/
def Setting.Saved (default : UInt8) (s : Setting) : Prop := s.stored.getD default = s.ram

def Tuning.Kept (m : Tuning) : Prop := m.ths.Kept wakeUpThsDefault ∧ m.dur.Kept wakeUpDurDefault

def Tuning.Saved (m : Tuning) : Prop := m.ths.Saved wakeUpThsDefault ∧ m.dur.Saved wakeUpDurDefault

/-- The steps of a run in which every call succeeds. -/
def Healthy (_ : Tuning) (e : TuningEvent) : Prop := e.Succeeds

/-- Those of one in which, besides, every reset finds the tuning saved. -/
def SavedFirst (m : Tuning) (e : TuningEvent) : Prop := e.Succeeds ∧ (e.IsReset → m.Saved)

instance (m : Tuning) : Decidable m.Kept := inferInstanceAs (Decidable (_ = _ ∧ _ = _))
instance (m : Tuning) : Decidable m.Saved := inferInstanceAs (Decidable (_ = _ ∧ _ = _))
instance (m : Tuning) (e : TuningEvent) : Decidable (Healthy m e) :=
  inferInstanceAs (Decidable e.Succeeds)
instance (m : Tuning) (e : TuningEvent) : Decidable (SavedFirst m e) :=
  inferInstanceAs (Decidable (e.Succeeds ∧ (e.IsReset → m.Saved)))

/-! ### What a GATT write does -/

/-- A write of either characteristic is refused and changes nothing, or it is one byte that the
    accessor takes. -/
theorem writeChar_cases (set : UInt8 → Tuning → ℤ × Tuning) (buf : List UInt8) (offset : ℕ)
    (m : Tuning) (hset : ∀ v, (set v m).1 = 0 ∨ (set v m).2 = m) :
    ((writeChar set buf offset m).1 < 0 ∧ (writeChar set buf offset m).2 = m) ∨
      ∃ v, buf = [v] ∧ (set v m).1 = 0 ∧ writeChar set buf offset m = (1, (set v m).2) := by
  fun_cases writeChar set buf offset m with
  | case1 v rc m' hm hrc =>
    obtain h | h := hset v
    · rw [hm] at h
      exact absurd h hrc
    · rw [hm] at h
      exact .inl ⟨(by decide : errUnlikely < 0), h⟩
  | case2 v rc m' hm hrc =>
    rw [not_not] at hrc
    exact .inr ⟨v, rfl, by rw [hm]; exact hrc, by rw [hm]⟩
  | case3 => exact .inl ⟨(by decide : errInvalidAttributeLen < 0), rfl⟩

theorem imuSetWakeThs_cases (v : UInt8) (m : Tuning) :
    (v ≤ 63 ∧ imuSetWakeThs v 0 m = (0, { m with ths := { m.ths with register := v, ram := v } })) ∨
      (imuSetWakeThs v 0 m).1 ≠ 0 ∧ (imuSetWakeThs v 0 m).2 = m := by
  rw [imuSetWakeThs]
  split
  · exact .inr ⟨(by decide : -erange ≠ 0), rfl⟩
  · next h => exact .inl ⟨UInt8.not_lt.mp h, rfl⟩

/-- An acknowledged write of THS is at most 63; any other changes nothing. -/
theorem writeThs_cases {m m' : Tuning} {buf : List UInt8} {offset : ℕ}
    (h : tuningStep m (.writeThs buf offset 0) = some m') :
    m' = m ∨ ∃ v, v ≤ 63 ∧ m' = { m with ths := ⟨v, v, m.ths.stored, some v⟩ } := by
  simp only [tuningStep, Option.some.injEq] at h
  subst h
  obtain ⟨hneg, hm⟩ | ⟨v, rfl, hv, hw⟩ := writeChar_cases (fun v => imuSetWakeThs v 0) buf offset m
    fun v => (imuSetWakeThs_cases v m).imp (fun h => by rw [h.2]) And.right
  · left
    rw [writeThs, hm, Setting.ack, if_pos hneg]
  · right
    obtain ⟨hle, hs⟩ | ⟨hne, -⟩ := imuSetWakeThs_cases v m
    · refine ⟨v, hle, ?_⟩
      rw [writeThs, hw, hs]
      rfl
    · exact absurd hv hne

/-- An acknowledged write of DUR takes any byte. -/
theorem writeDur_cases {m m' : Tuning} {buf : List UInt8} {offset : ℕ}
    (h : tuningStep m (.writeDur buf offset 0) = some m') :
    m' = m ∨ ∃ v, m' = { m with dur := ⟨v, v, m.dur.stored, some v⟩ } := by
  simp only [tuningStep, Option.some.injEq] at h
  subst h
  obtain ⟨hneg, hm⟩ | ⟨v, rfl, -, hw⟩ := writeChar_cases (fun v => imuSetWakeDur v 0) buf offset m
    fun v => .inl rfl
  · left
    rw [writeDur, hm, Setting.ack, if_pos hneg]
  · right
    refine ⟨v, ?_⟩
    rw [writeDur, hw]
    rfl

theorem writeCmd_settings (buf : List UInt8) (offset : ℕ) (m : Tuning) :
    (writeCmd buf offset m).2.ths = m.ths ∧ (writeCmd buf offset m).2.dur = m.dur ∧
      (writeCmd buf offset m).2.pc = m.pc := by
  fun_cases writeCmd buf offset m with
  | case1 => exact ⟨rfl, rfl, rfl⟩
  | case2 => exact ⟨rfl, rfl, rfl⟩
  | case3 => exact ⟨rfl, rfl, rfl⟩

/-! ### What the saves of `deferred_reboot` do -/

/-- At most the stored value changes, to the one saved. -/
theorem persistU8Setting_cases (ready : Bool) (value : UInt8) (rc : ℤ) (s : Setting) :
    (persistU8Setting ready value rc s).2 = s ∨
      (persistU8Setting ready value rc s).2 = { s with stored := some value } := by
  rw [persistU8Setting]
  split
  · exact .inl rfl
  · dsimp only
    split
    · exact .inl rfl
    · exact .inr rfl

theorem Setting.Kept.persist {default : UInt8} {s : Setting} (h : s.Kept default) (ready : Bool)
    (value : UInt8) (rc : ℤ) : (persistU8Setting ready value rc s).2.Kept default := by
  rcases persistU8Setting_cases ready value rc s with hs | hs
  · rw [hs]
    exact h
  · rw [hs]
    exact h

/-- Entering the handler reads THS. -/
theorem rebootTimer_cases {m m' : Tuning} (h : tuningStep m .rebootTimer = some m') :
    ∃ rebootWork, m' = { m with rebootWork, pc := .saveThs m.ths.ram } := by
  rw [tuningStep] at h
  split at h
  · obtain ⟨rebootWork, -, rfl⟩ := Option.map_eq_some_iff.mp h
    exact ⟨rebootWork, rfl⟩
  · simp at h

/-- A save ends the call the handler is in. -/
theorem save_cases {m m' : Tuning} {rc : ℤ} (h : tuningStep m (.save rc) = some m') :
    (∃ v, m.pc = .saveThs v ∧ m' = { m with
      ths := (persistU8Setting m.ready v rc m.ths).2, pc := .saveDur m.dur.ram }) ∨
    ∃ v, m.pc = .saveDur v ∧ m' = { m with
      dur := (persistU8Setting m.ready v rc m.dur).2, pc := .sysReboot } := by
  rw [tuningStep] at h
  split at h
  · next v hpc => exact .inl ⟨v, hpc, (Option.some.inj h).symm⟩
  · next v hpc => exact .inr ⟨v, hpc, (Option.some.inj h).symm⟩
  · simp at h

theorem persistU8Setting_ready (value : UInt8) (s : Setting) :
    (persistU8Setting true value 0 s).2 = { s with stored := some value } := rfl

/-! ### Resets -/

/-- No value of THS that a boot can read, now or after the save under way, is above 63. -/
structure Tuning.InRange (m : Tuning) : Prop where
  ram : m.ths.ram ≤ 63
  stored : ∀ v ∈ m.ths.stored, v ≤ 63
  saving : ∀ v, m.pc = .saveThs v → v ≤ 63

theorem loadThs_default : ∀ s : Setting, (∀ v ∈ s.stored, v ≤ 63) →
    loadThs { s with ram := wakeUpThsDefault } = { s with ram := s.stored.getD wakeUpThsDefault }
  | ⟨_, _, none, _⟩, _ => rfl
  | ⟨_, _, some v, _⟩, h => if_neg (UInt8.not_lt.mpr (h v rfl))

theorem loadDur_default : ∀ s : Setting,
    loadDur { s with ram := wakeUpDurDefault } = { s with ram := s.stored.getD wakeUpDurDefault }
  | ⟨_, _, none, _⟩ => rfl
  | ⟨_, _, some _, _⟩ => rfl

/-- A boot takes each setting from storage, or the default, into RAM and register. -/
theorem boot_eq {m : Tuning} (hm : m.InRange) :
    m.boot 0 0 0 =
      ⟨⟨m.ths.stored.getD wakeUpThsDefault, m.ths.stored.getD wakeUpThsDefault, m.ths.stored,
          m.ths.acked⟩,
        ⟨m.dur.stored.getD wakeUpDurDefault, m.dur.stored.getD wakeUpDurDefault, m.dur.stored,
          m.dur.acked⟩, true, .idle, .idle⟩ := by
  have hinit : cfgSettingsInit 0 m.reset =
      { m.reset with
        ready := true
        ths := { m.ths with ram := m.ths.stored.getD wakeUpThsDefault }
        dur := { m.dur with ram := m.dur.stored.getD wakeUpDurDefault } } := by
    rw [← loadThs_default m.ths hm.stored, ← loadDur_default m.dur]
    rfl
  rw [Tuning.boot, hinit]
  rfl

/-- A reset that succeeds is a boot. -/
theorem reset_eq {m m' : Tuning} {e : TuningEvent} (hr : e.IsReset) (he : e.Succeeds)
    (h : tuningStep m e = some m') : m' = m.boot 0 0 0 := by
  cases e with
  | sysReboot initRc thsRc durRc =>
    obtain ⟨rfl, rfl, rfl⟩ := he
    rw [tuningStep] at h
    split at h
    · exact (Option.some.inj h).symm
    · simp at h
  | reset initRc thsRc durRc =>
    obtain ⟨rfl, rfl, rfl⟩ := he
    exact (Option.some.inj h).symm
  | _ => exact hr.elim

theorem inRange_boot {m : Tuning} (hm : m.InRange) : (m.boot 0 0 0).InRange := by
  rw [boot_eq hm]
  refine ⟨?_, hm.stored, nofun⟩
  cases hs : m.ths.stored with
  | none => exact (by decide : wakeUpThsDefault ≤ 63)
  | some v => exact hm.stored v hs

/-- What was acknowledged outlives a reset exactly if it was in storage. -/
theorem kept_boot_iff {m : Tuning} (hm : m.InRange) (hk : m.Kept) : (m.boot 0 0 0).Kept ↔ m.Saved := by
  obtain ⟨hths, hdur⟩ := hk
  rw [boot_eq hm, Tuning.Saved, Setting.Saved, Setting.Saved, hths, hdur]
  rfl

/-! ### Every run -/

theorem inRange_factory : Tuning.factory.InRange := by
  refine ⟨by decide, nofun, nofun⟩

theorem kept_factory : Tuning.factory.Kept := by decide

theorem inRange_step {m m' : Tuning} {e : TuningEvent} (hm : m.InRange) (he : e.Succeeds)
    (h : tuningStep m e = some m') : m'.InRange := by
  cases e with
  | writeThs buf offset rc =>
    obtain rfl := he
    obtain rfl | ⟨v, hv, rfl⟩ := writeThs_cases h
    · exact hm
    · exact ⟨hv, hm.stored, hm.saving⟩
  | writeDur buf offset rc =>
    obtain rfl := he
    obtain rfl | ⟨v, rfl⟩ := writeDur_cases h
    · exact hm
    · exact ⟨hm.ram, hm.stored, hm.saving⟩
  | writeCmd buf offset =>
    obtain rfl := Option.some.inj h
    obtain ⟨hths, -, hpc⟩ := writeCmd_settings buf offset m
    exact ⟨hths ▸ hm.ram, hths ▸ hm.stored, hpc ▸ hm.saving⟩
  | rebootTimer =>
    obtain ⟨w, rfl⟩ := rebootTimer_cases h
    refine ⟨hm.ram, hm.stored, ?_⟩
    intro v hv
    obtain rfl := RebootPc.saveThs.inj hv
    exact hm.ram
  | save rc =>
    obtain ⟨v, hpc, rfl⟩ | ⟨v, hpc, rfl⟩ := save_cases h
    · rcases persistU8Setting_cases m.ready v rc m.ths with hs | hs
      · rw [hs]
        exact ⟨hm.ram, hm.stored, nofun⟩
      · rw [hs]
        refine ⟨hm.ram, ?_, nofun⟩
        rintro w hw
        obtain rfl := Option.some.inj hw
        exact hm.saving v hpc
    · exact ⟨hm.ram, hm.stored, nofun⟩
  | sysReboot initRc thsRc durRc =>
    obtain rfl := reset_eq (e := .sysReboot initRc thsRc durRc) trivial he h
    exact inRange_boot hm
  | reset initRc thsRc durRc =>
    obtain rfl := reset_eq (e := .reset initRc thsRc durRc) trivial he h
    exact inRange_boot hm

/-- Between resets RAM holds what was acknowledged. -/
theorem kept_step {m m' : Tuning} {e : TuningEvent} (hm : m.Kept) (he : e.Succeeds) (hr : ¬e.IsReset)
    (h : tuningStep m e = some m') : m'.Kept := by
  cases e with
  | writeThs buf offset rc =>
    obtain rfl := he
    obtain rfl | ⟨v, -, rfl⟩ := writeThs_cases h
    · exact hm
    · exact ⟨rfl, hm.2⟩
  | writeDur buf offset rc =>
    obtain rfl := he
    obtain rfl | ⟨v, rfl⟩ := writeDur_cases h
    · exact hm
    · exact ⟨hm.1, rfl⟩
  | writeCmd buf offset =>
    obtain rfl := Option.some.inj h
    obtain ⟨hths, hdur, -⟩ := writeCmd_settings buf offset m
    rw [Tuning.Kept, hths, hdur]
    exact hm
  | rebootTimer =>
    obtain ⟨w, rfl⟩ := rebootTimer_cases h
    exact hm
  | save rc =>
    obtain ⟨v, -, rfl⟩ | ⟨v, -, rfl⟩ := save_cases h
    · exact ⟨hm.1.persist m.ready v rc, hm.2⟩
    · exact ⟨hm.1, hm.2.persist m.ready v rc⟩
  | sysReboot => exact absurd trivial hr
  | reset => exact absurd trivial hr

theorem inRange_of_healthy {m : Tuning} (h : Reach tuningStep Healthy Tuning.factory m) : m.InRange :=
  h.invariant inRange_factory fun _ _ _ hm he hs => inRange_step hm he hs

/-- One step of a run in which every reset finds the tuning saved. -/
theorem savedFirst_step (m : Tuning) (e : TuningEvent) (m' : Tuning) (hm : m.InRange ∧ m.Kept)
    (he : SavedFirst m e) (h : tuningStep m e = some m') : m'.InRange ∧ m'.Kept := by
  obtain ⟨hrange, hkept⟩ := hm
  obtain ⟨hsucc, hsaved⟩ := he
  refine ⟨inRange_step hrange hsucc h, ?_⟩
  by_cases hr : e.IsReset
  · rw [reset_eq hr hsucc h, kept_boot_iff hrange hkept]
    exact hsaved hr
  · exact kept_step hkept hsucc hr h

/-- If every reset finds in storage what RAM holds, RAM holds what was acknowledged, after every boot
    and in between. A reset that finds anything else loses the tuning. -/
theorem tuning_survives_iff_saved (m : Tuning) :
    (Reach tuningStep SavedFirst Tuning.factory m → m.Kept) ∧
    ∀ e m', Reach tuningStep Healthy Tuning.factory m → m.Kept → e.IsReset → e.Succeeds →
      tuningStep m e = some m' → (m'.Kept ↔ m.Saved) := by
  constructor
  · intro h
    exact (h.invariant ⟨inRange_factory, kept_factory⟩ savedFirst_step).2
  · intro e m' h hkept hr he hs
    rw [reset_eq hr he hs]
    exact kept_boot_iff (inRange_of_healthy h) hkept

/-- Both characteristics are written, the reboot command saves them, and the power fails later. -/
def savedTuning : List TuningEvent :=
  [.writeThs [2] 0 0, .writeDur [0x31] 0 0, .writeCmd [1] 0, .rebootTimer, .save 0, .save 0,
    .sysReboot 0 0 0, .reset 0 0 0]

/-- THS is written, and the power fails. -/
def unsavedTuning : List TuningEvent := [.writeThs [2] 0 0, .reset 0 0 0]

/-- The saved tuning is there after the reset; the unsaved one is not. -/
theorem tuning_survives_sample :
    (∃ m, exec (guarded SavedFirst tuningStep) Tuning.factory savedTuning = some m ∧
      m.ths.ram = 2 ∧ m.dur.ram = 0x31 ∧ m.Kept) ∧
    ∃ m, exec (guarded Healthy tuningStep) Tuning.factory unsavedTuning = some m ∧ ¬m.Kept := by
  constructor
  · obtain ⟨m, hm⟩ := Option.isSome_iff_exists.mp
      (by decide : (exec (guarded SavedFirst tuningStep) Tuning.factory savedTuning).isSome)
    have hram : (exec (guarded SavedFirst tuningStep) Tuning.factory savedTuning).map
        (fun m => (m.ths.ram, m.dur.ram)) = some (2, 0x31) := by decide
    simp only [hm, Option.map_some, Option.some.injEq, Prod.mk.injEq] at hram
    exact ⟨m, hm, hram.1, hram.2, (tuning_survives_iff_saved m).1 (.of_exec savedTuning .start hm)⟩
  · have hreach : Reach tuningStep Healthy Tuning.factory _ :=
      .of_exec [.writeThs [2] 0 0] .start rfl
    have hlost := (tuning_survives_iff_saved _).2 (.reset 0 0 0) _ hreach (by decide) trivial
      ⟨rfl, rfl, rfl⟩ rfl
    exact ⟨_, rfl, mt hlost.mp (by decide)⟩

/-- An acknowledged threshold of 2 is 3 again after a power failure. -/
theorem acknowledged_tuning_lost :
    ¬∀ m, Reach tuningStep Healthy Tuning.factory m → m.Kept := by
  intro h
  have hreach : Reach tuningStep Healthy Tuning.factory _ :=
    .of_exec unsavedTuning .start rfl
  exact absurd (h _ hreach) (by decide)

end SeeedMote.Mote
