import SeeedMote.Mote.Tuning

/-! A pair of settings through the steps of a mote: what it takes that the wake-up engine still runs
    with them after the next reboot. A reboot that is under way has already read what it saves, so the
    pair has to be the one in its hands. -/

namespace SeeedMote.Mote
open Lib

/-- The wake-up engine runs with `ths` and `dur`, and a reboot under way saves nothing else. -/
structure Carries (m : Tuning) (ths dur : UInt8) : Prop where
  thsRuns : m.ths.ram = ths ∧ m.ths.register = ths
  durRuns : m.dur.ram = dur ∧ m.dur.register = dur
  savingThs : ∀ v, m.pc = .saveThs v → v = ths
  savingDur : ∀ v, m.pc = .saveDur v → v = dur ∧ m.ths.stored = some ths
  resetting : m.pc = .sysReboot → m.ths.stored = some ths ∧ m.dur.stored = some dur

/-- What every step of a mote whose calls succeed keeps. -/
structure Sound (m : Tuning) : Prop where
  inRange : m.InRange
  ready : m.ready = true

/-- The event is no write of a characteristic that holds a setting. -/
def KeepsSettings : TuningEvent → Prop
  | .writeThs _ _ _ => False
  | .writeDur _ _ _ => False
  | _ => True

theorem writeCmd_ready (buf : List UInt8) (offset : ℕ) (m : Tuning) :
    (writeCmd buf offset m).2.ready = m.ready := by
  fun_cases writeCmd buf offset m with
  | case1 => rfl
  | case2 => rfl
  | case3 => rfl

theorem sound_factory : Sound Tuning.factory := ⟨inRange_factory, rfl⟩

theorem sound_step {m m' : Tuning} {e : TuningEvent} (h : Sound m) (he : e.Succeeds)
    (hstep : tuningStep m e = some m') : Sound m' := by
  refine ⟨inRange_step h.inRange he hstep, ?_⟩
  cases e with
  | writeThs buf offset rc =>
    obtain rfl := he
    rcases writeThs_cases hstep with rfl | ⟨v, -, rfl⟩
    · exact h.ready
    · exact h.ready
  | writeDur buf offset rc =>
    obtain rfl := he
    rcases writeDur_cases hstep with rfl | ⟨v, rfl⟩
    · exact h.ready
    · exact h.ready
  | writeCmd buf offset =>
    obtain rfl := Option.some.inj hstep
    exact (writeCmd_ready buf offset m).trans h.ready
  | rebootTimer =>
    obtain ⟨w, rfl⟩ := rebootTimer_cases hstep
    exact h.ready
  | save rc =>
    rcases save_cases hstep with ⟨v, -, rfl⟩ | ⟨v, -, rfl⟩
    · exact h.ready
    · exact h.ready
  | sysReboot initRc thsRc durRc =>
    obtain rfl := reset_eq (e := .sysReboot initRc thsRc durRc) trivial he hstep
    rw [boot_eq h.inRange]
  | reset initRc thsRc durRc =>
    obtain rfl := reset_eq (e := .reset initRc thsRc durRc) trivial he hstep
    rw [boot_eq h.inRange]

theorem sound_of_healthy {m : Tuning} (h : Reach tuningStep Healthy Tuning.factory m) : Sound m :=
  h.invariant sound_factory fun _ _ _ hm he hs => sound_step hm he hs

/-- A boot that finds the values in storage. -/
theorem carries_boot {m : Tuning} (h : m.InRange) {ths dur : UInt8}
    (hths : m.ths.stored.getD wakeUpThsDefault = ths)
    (hdur : m.dur.stored.getD wakeUpDurDefault = dur) : Carries (m.boot 0 0 0) ths dur := by
  rw [boot_eq h]
  exact ⟨⟨hths, hths⟩, ⟨hdur, hdur⟩, nofun, nofun, nofun⟩

/-- Whatever a mote does on its own keeps its values, but for a reset that does not find them saved. -/
theorem carries_step {m m' : Tuning} {e : TuningEvent} {ths dur : UInt8} (h : Carries m ths dur)
    (hm : Sound m) (he : e.Succeeds) (hkeep : KeepsSettings e)
    (hsaved : ∀ initRc thsRc durRc, e = .reset initRc thsRc durRc → m.Saved)
    (hstep : tuningStep m e = some m') : Carries m' ths dur := by
  cases e with
  | writeThs => exact hkeep.elim
  | writeDur => exact hkeep.elim
  | writeCmd buf offset =>
    obtain rfl := Option.some.inj hstep
    obtain ⟨hths, hdur, hpc⟩ := writeCmd_settings buf offset m
    refine ⟨?_, ?_, ?_, ?_, ?_⟩
    · rw [hths]; exact h.thsRuns
    · rw [hdur]; exact h.durRuns
    · rw [hpc]; exact h.savingThs
    · rw [hpc, hths]; exact h.savingDur
    · rw [hpc, hths, hdur]; exact h.resetting
  | rebootTimer =>
    obtain ⟨w, rfl⟩ := rebootTimer_cases hstep
    refine ⟨h.thsRuns, h.durRuns, ?_, nofun, nofun⟩
    intro v hv
    exact (RebootPc.saveThs.inj hv).symm.trans h.thsRuns.1
  | save rc =>
    obtain rfl := he
    rcases save_cases hstep with ⟨v, hpc, rfl⟩ | ⟨v, hpc, rfl⟩
    · obtain rfl := h.savingThs v hpc
      rw [hm.ready, persistU8Setting_ready]
      refine ⟨h.thsRuns, h.durRuns, nofun, ?_, nofun⟩
      intro w hw
      exact ⟨(RebootPc.saveDur.inj hw).symm.trans h.durRuns.1, rfl⟩
    · obtain ⟨rfl, hths⟩ := h.savingDur v hpc
      rw [hm.ready, persistU8Setting_ready]
      exact ⟨h.thsRuns, h.durRuns, nofun, nofun, fun _ => ⟨hths, rfl⟩⟩
  | sysReboot initRc thsRc durRc =>
    have hpc : m.pc = .sysReboot := by
      by_contra hne
      rw [tuningStep, if_neg hne] at hstep
      simp at hstep
    obtain ⟨hths, hdur⟩ := h.resetting hpc
    obtain rfl := reset_eq (e := .sysReboot initRc thsRc durRc) trivial he hstep
    exact carries_boot hm.inRange (by rw [hths]; rfl) (by rw [hdur]; rfl)
  | reset initRc thsRc durRc =>
    obtain ⟨hths, hdur⟩ := hsaved _ _ _ rfl
    obtain rfl := reset_eq (e := .reset initRc thsRc durRc) trivial he hstep
    exact carries_boot hm.inRange (hths.trans h.thsRuns.1) (hdur.trans h.durRuns.1)

/-- Only THS writes and resets change the running threshold. -/
theorem ths_of_step {m m' : Tuning} {e : TuningEvent} (he : e.Succeeds)
    (hwrite : ∀ buf offset rc, e ≠ .writeThs buf offset rc) (hreset : ¬e.IsReset)
    (hstep : tuningStep m e = some m') :
    m'.ths.ram = m.ths.ram ∧ m'.ths.register = m.ths.register := by
  cases e with
  | writeThs buf offset rc => exact absurd rfl (hwrite buf offset rc)
  | writeDur buf offset rc =>
    obtain rfl := he
    rcases writeDur_cases hstep with rfl | ⟨v, rfl⟩
    · exact ⟨rfl, rfl⟩
    · exact ⟨rfl, rfl⟩
  | writeCmd buf offset =>
    obtain rfl := Option.some.inj hstep
    rw [(writeCmd_settings buf offset m).1]
    exact ⟨rfl, rfl⟩
  | rebootTimer =>
    obtain ⟨w, rfl⟩ := rebootTimer_cases hstep
    exact ⟨rfl, rfl⟩
  | save rc =>
    rcases save_cases hstep with ⟨v, -, rfl⟩ | ⟨v, -, rfl⟩
    · rcases persistU8Setting_cases m.ready v rc m.ths with hs | hs
      · rw [hs]
        exact ⟨rfl, rfl⟩
      · rw [hs]
        exact ⟨rfl, rfl⟩
    · exact ⟨rfl, rfl⟩
  | sysReboot => exact absurd trivial hreset
  | reset => exact absurd trivial hreset

/-- An acknowledged THS write has arrived in RAM and register. -/
theorem writeThs_acked {m : Tuning} {ths : UInt8} (h : ¬(writeThs [ths] 0 0 m).1 < 0) :
    (tuningStep m (.writeThs [ths] 0 0)).getD m = { m with ths := ⟨ths, ths, m.ths.stored, some ths⟩ } := by
  by_cases hbig : ths > 63
  · refine absurd ?_ h
    have hrefused : writeThs [ths] 0 0 m = (errUnlikely, m) := by
      simp [writeThs, writeChar, imuSetWakeThs, hbig, erange]
    rw [hrefused]
    exact (by decide : errUnlikely < 0)
  · have hacked : writeThs [ths] 0 0 m
        = (1, { m with ths := { m.ths with register := ths, ram := ths } }) := by
      simp [writeThs, writeChar, imuSetWakeThs, hbig, Setting.write]
    rw [tuningStep, hacked]
    rfl

end SeeedMote.Mote
