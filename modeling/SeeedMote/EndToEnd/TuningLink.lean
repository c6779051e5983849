import SeeedMote.Mote.CarriedTuning
import SeeedMote.Tools.TuningForm
import SeeedMote.Tools.WebBt

/-! From the form of the Web Bluetooth tool to the registers of a mote and back, reboots included.

        form ─ parseU8 ─▶ THS write ─▶ DUR write ─▶ "saved" ─▶ CMD write ─▶ deferred_reboot ─▶ boot
                                                                                              │
        form ◀──────────────── THS read, DUR read ◀───────────────────────────────────────────┘

    Each GATT call of the page is awaited, so the mote's own steps, the link and other calls of the page
    come in between; each characteristic is the one `state.chars` holds when the call is made. -/

namespace SeeedMote.EndToEnd
open Lib Mote Tools

/-! ### The page and its motes -/

variable {Dev : Type}

/-- What a call of `writeValues`, `reboot` or `readValues` is waiting for: a GATT call at `dev`. -/
inductive GattCall (Dev : Type) where
  | saveThs (dev : Dev) (ths dur : UInt8)
  | saveDur (dev : Dev) (ths dur : UInt8)
  | saveReboot (dev : Dev)
  | reboot (dev : Dev)
  | readThs (dev : Dev)
  | readDur (dev : Dev) (ths : UInt8)

namespace GattCall

def dev : GattCall Dev → Dev
  | saveThs dev _ _ => dev
  | saveDur dev _ _ => dev
  | saveReboot dev => dev
  | reboot dev => dev
  | readThs dev => dev
  | readDur dev _ => dev

/-- The call belongs to `writeValues`. -/
def isSave : GattCall Dev → Bool
  | saveThs _ _ _ => true
  | saveDur _ _ _ => true
  | saveReboot _ => true
  | _ => false

/-- What the call is at the mote; reading changes nothing there. -/
def event (rc : ℤ) : GattCall Dev → Option TuningEvent
  | saveThs _ ths _ => some (.writeThs [ths] 0 rc)
  | saveDur _ _ dur => some (.writeDur [dur] 0 rc)
  | saveReboot _ => some (.writeCmd [cmdReboot] 0)
  | reboot _ => some (.writeCmd [cmdReboot] 0)
  | readThs _ => none
  | readDur _ _ => none

/-- The call writes a setting. -/
def tunes : GattCall Dev → Bool
  | saveThs _ _ _ => true
  | saveDur _ _ _ => true
  | _ => false

end GattCall

/-- A call in progress; `live` as long as the link it was made on stands. -/
structure Pending (Dev : Type) where
  call : GattCall Dev
  live : Bool

/-- The page with its calls, each under a number of its own, the links as the motes see them, and the
    motes. `buttons`: they are enabled. `reported` is the pair of the last "saved" line about the mote,
    if no call has written a setting since; no code reads it. -/
structure Bench (Dev : Type) where
  page : WebBt.Page Dev
  form : Form
  buttons : Bool
  calls : ℕ → Option (Pending Dev)
  up : Dev → Bool
  motes : Dev → Tuning
  reported : Dev → Option (UInt8 × UInt8)

/-- The page as loaded. -/
def Bench.start (motes : Dev → Tuning) : Bench Dev where
  page := .start
  form := applyValues standardThs standardDur
  buttons := false
  calls := fun _ => none
  up := fun _ => false
  motes := motes
  reported := fun _ => none

/-- `setConnectionState` in an event of `connect()` or of its listeners: what it sets. -/
def connectionState (page : WebBt.Page Dev) : WebBt.Event Dev → Option Bool
  | .resolved i =>
    match page.attempts[i]? with
    | some (.getReboot _) => some true
    | _ => none
  | .rejected i delivered =>
    match page.attempts[i]?, page.device with
    | some (.getPrimaryService _), some _ => if delivered then some false else none
    | _, _ => none
  | .disconnected _ => some false
  | _ => none

/-- The link an event of `connect()` makes or cuts. -/
def linkChange (page : WebBt.Page Dev) : WebBt.Event Dev → Option (Dev × Bool)
  | .resolved i =>
    match page.attempts[i]? with
    | some (.gattConnect d) => some (d, true)
    | _ => none
  | .rejected i _ =>
    match page.attempts[i]?, page.device with
    | some (.getPrimaryService _), some d => some (d, false)
    | _, _ => none
  | _ => none

/-- The attempt has come to the reading of the values. -/
def isReading : WebBt.Await Dev → Bool
  | .readValues => true
  | _ => false

/-- The steps of a mote that no GATT call is. -/
def IsOwn : TuningEvent → Prop
  | .writeThs _ _ _ => False
  | .writeDur _ _ _ => False
  | .writeCmd _ _ => False
  | _ => True

instance : DecidablePred IsOwn := fun e => by cases e <;> unfold IsOwn <;> infer_instance

inductive BenchEvent (Dev : Type) where
  | page (e : WebBt.Event Dev)
  | edit (form : Form)
  | submit (i : ℕ)
  | restore (i : ℕ)
  | read (i : ℕ)
  | reboot (i : ℕ)
  /-- The call is carried out and its answer arrives; `rc` is what the register write returns. -/
  | answered (i : ℕ) (rc : ℤ)
  /-- The call is rejected. It may have been carried out. -/
  | failed (i : ℕ) (carriedOut : Option ℤ)
  | linkLost (dev : Dev)
  | mote (dev : Dev) (e : TuningEvent)

section Steps
variable [DecidableEq Dev]

namespace Bench

def setCall (s : Bench Dev) (i : ℕ) (p : Option (Pending Dev)) : Bench Dev :=
  { s with calls := Function.update s.calls i p }

/-- The call ends; `writeValues` enables the buttons if the page is connected. -/
def close (s : Bench Dev) (i : ℕ) (isSave : Bool) : Bench Dev :=
  { s.setCall i none with buttons := s.buttons || (isSave && s.page.connected) }

/-- A GATT call on a characteristic; without one it throws. -/
def await (s : Bench Dev) (i : ℕ) (isSave : Bool) (char : Option Dev) (call : Dev → GattCall Dev) :
    Bench Dev :=
  match char with
  | some dev => s.setCall i (some ⟨call dev, s.up dev⟩)
  | none => s.close i isSave

/-- The link is gone, and with it the calls made on it. -/
def cut (s : Bench Dev) (dev : Dev) : Bench Dev :=
  { s with
    up := Function.update s.up dev false
    calls := fun i => (s.calls i).map fun p => { p with live := p.live && p.call.dev ≠ dev } }

def setMote (s : Bench Dev) (dev : Dev) (m : Tuning) : Bench Dev :=
  { s with motes := Function.update s.motes dev m }

/-- A call arrives at its mote. -/
def carryOut (s : Bench Dev) (call : GattCall Dev) (rc : ℤ) : Bench Dev :=
  match call.event rc with
  | some e =>
    { s.setMote call.dev ((tuningStep (s.motes call.dev) e).getD (s.motes call.dev)) with
      reported := if call.tunes then Function.update s.reported call.dev none else s.reported }
  | none => s

/-- `writeValues` up to its first await. -/
def writeValues (number : PyStr → Option ℚ) (s : Bench Dev) (i : ℕ) : Bench Dev :=
  if s.page.connected then
    match s.form.parse number with
    | some (ths, dur) =>
      { s with buttons := false }.await i true s.page.chars.ths fun dev => .saveThs dev ths dur
    | none => s
  else s

/-- The answer to a call, with everything up to the next await. -/
def answer (s : Bench Dev) (i : ℕ) (rc : ℤ) (call : GattCall Dev) : Bench Dev :=
  let m := s.motes call.dev
  let s := s.carryOut call rc
  match call with
  | .saveThs _ ths dur =>
    if (writeThs [ths] 0 rc m).1 < 0 then s.close i true
    else s.await i true s.page.chars.dur fun dev => .saveDur dev ths dur
  | .saveDur dev ths dur =>
    if (writeDur [dur] 0 rc m).1 < 0 then s.close i true
    else
      { s with
        form := applyValues ths dur
        reported := Function.update s.reported dev (some (ths, dur)) }.await i true
          s.page.chars.reboot .saveReboot
  | .saveReboot _ => s.close i true
  | .reboot _ => s.close i false
  | .readThs _ => s.await i false s.page.chars.dur fun dev => .readDur dev m.ths.ram
  | .readDur _ ths => { s with form := applyValues ths m.dur.ram }.close i false

/-- An event of `connect()` or of its listeners. -/
def connectStep (s : Bench Dev) (e : WebBt.Event Dev) : Option (Bench Dev) :=
  (WebBt.step s.page e).map fun page =>
    let s' := { s with page, buttons := (connectionState s.page e).getD s.buttons }
    match linkChange s.page e with
    | some (dev, true) => { s' with up := Function.update s'.up dev true }
    | some (dev, false) => s'.cut dev
    | none => s'

/-- A step of a mote; a reset takes the link with it. -/
def moteStep (s : Bench Dev) (dev : Dev) (e : TuningEvent) : Option (Bench Dev) :=
  (tuningStep (s.motes dev) e).map fun m =>
    if e.IsReset then (s.setMote dev m).cut dev else s.setMote dev m

end Bench

/-- `read` is the button, or the end of `connect()`. -/
def benchStep (number : PyStr → Option ℚ) (s : Bench Dev) : BenchEvent Dev → Option (Bench Dev)
  | .page e => s.connectStep e
  | .edit form => some { s with form }
  | .submit i => if s.buttons ∧ (s.calls i).isNone then some (s.writeValues number i) else none
  | .restore i =>
    if s.buttons ∧ (s.calls i).isNone then
      some ({ s with form := applyValues standardThs standardDur }.writeValues number i)
    else none
  | .read i =>
    if (s.buttons ∨ s.page.attempts.any isReading) ∧ (s.calls i).isNone then
      some (s.await i false s.page.chars.ths .readThs)
    else none
  | .reboot i =>
    if s.buttons ∧ (s.calls i).isNone then some (s.await i false s.page.chars.reboot .reboot) else none
  | .answered i rc =>
    match s.calls i with
    | some p => if p.live then some (s.answer i rc p.call) else none
    | none => none
  | .failed i carriedOut =>
    match s.calls i with
    | some p =>
      match carriedOut with
      | some rc => if p.live then some ((s.carryOut p.call rc).close i p.call.isSave) else none
      | none => some (s.close i p.call.isSave)
    | none => none
  | .linkLost dev => some (s.cut dev)
  | .mote dev e => if IsOwn e then s.moteStep dev e else none

end Steps

/-! ### Careful runs -/

namespace Bench

/-- A call of `writeValues` is in progress. -/
def Saving (s : Bench Dev) : Prop := ∃ i p, s.calls i = some p ∧ p.call.isSave = true

/-- No attempt of `connect()` is in progress, or only the reading at its end. -/
def Settled (s : Bench Dev) : Prop := ∀ a ∈ s.page.attempts, isReading a = true

/-- The DUR write of a save is acknowledged before a reboot handler has begun. -/
def InTime (s : Bench Dev) (i : ℕ) : Prop :=
  ∀ p dev ths dur, s.calls i = some p → p.call = .saveDur dev ths dur → (s.motes dev).pc = .idle

end Bench

/-- The session events are orderly, no connecting goes along with a save, every call of a mote succeeds,
    no reboot overtakes a save, and no other reset hits a reported pair before it is in storage. -/
def Careful (s : Bench Dev) : BenchEvent Dev → Prop
  | .page e => WebBt.Orderly s.page e ∧ (e = .connect → ¬s.Saving)
  | .submit _ => s.Settled
  | .restore _ => s.Settled
  | .answered i rc => rc = 0 ∧ s.InTime i
  | .failed _ carriedOut => ∀ rc ∈ carriedOut, rc = 0
  | .mote dev e => e.Succeeds ∧ ∀ initRc thsRc durRc, e = .reset initRc thsRc durRc →
      s.reported dev = none ∨ (s.motes dev).Saved
  | _ => True

/-- What a call of `writeValues` in progress relies on. -/
structure SaveOk (s : Bench Dev) (i : ℕ) (p : Pending Dev) : Prop where
  only : ∀ j q, s.calls j = some q → q.call.isSave = true → j = i
  disabled : s.buttons = false
  settled : s.Settled
  same : s.page.chars.AllFrom p.call.dev
  half : ∀ dev ths dur, p.call = .saveDur dev ths dur → p.live = true →
    (s.motes dev).ths.ram = ths ∧ (s.motes dev).ths.register = ths

structure BenchInv (s : Bench Dev) : Prop where
  page : s.page.Inv
  sound : ∀ dev, Sound (s.motes dev)
  save : ∀ i p, s.calls i = some p → p.call.isSave = true → SaveOk s i p
  reported : ∀ dev ths dur, s.reported dev = some (ths, dur) → Carries (s.motes dev) ths dur

section Invariant
variable {s s' : Bench Dev} {i : ℕ}

theorem benchInv_start {motes : Dev → Tuning} (hm : ∀ dev, Sound (motes dev)) :
    BenchInv (Bench.start motes) where
  page := WebBt.inv_start
  sound := hm
  save := nofun
  reported := nofun

/-- A call that ends, goes on or begins, with every other one as it was. -/
theorem BenchInv.setCall (h : BenchInv s) (p : Option (Pending Dev))
    (hp : ∀ q, p = some q → q.call.isSave = true → SaveOk (s.setCall i p) i q) :
    BenchInv (s.setCall i p) where
  page := h.page
  sound := h.sound
  save j q hj hq := by
    rcases eq_or_ne j i with rfl | hne
    · exact hp q (by simpa [Bench.setCall] using hj) hq
    · have hj' : s.calls j = some q := by simpa [Bench.setCall, hne] using hj
      have hok := h.save j q hj' hq
      refine ⟨?_, hok.disabled, hok.settled, hok.same, hok.half⟩
      intro k r hk hr
      rcases eq_or_ne k i with rfl | hki
      · have hpk : p = some r := by simpa [Bench.setCall] using hk
        have hjk : j = k := (hp r hpk hr).only j q hj hq
        exact hjk.symm
      · exact hok.only k r (by simpa [Bench.setCall, hki] using hk) hr
  reported := h.reported

/-- A call that is no part of a save. -/
theorem BenchInv.setCall_other (h : BenchInv s) {p : Option (Pending Dev)}
    (hp : ∀ q, p = some q → q.call.isSave = false) : BenchInv (s.setCall i p) :=
  h.setCall p fun q hq hsave => absurd ((hp q hq).symm.trans hsave) Bool.false_ne_true

theorem close_other (s : Bench Dev) (i : ℕ) : s.close i false = s.setCall i none := by
  simp [Bench.close, Bench.setCall]

/-- The next call of one that is no part of a save, or the first. -/
theorem BenchInv.await_other (h : BenchInv s) (char : Option Dev) {call : Dev → GattCall Dev}
    (hcall : ∀ dev, (call dev).isSave = false) : BenchInv (s.await i false char call) := by
  cases char with
  | none =>
    rw [Bench.await, close_other]
    exact h.setCall_other nofun
  | some dev =>
    refine h.setCall_other ?_
    rintro q ⟨⟩
    exact hcall dev

/-- The end of a call; the buttons come back only with the end of a save. -/
theorem BenchInv.close (h : BenchInv s) {p : Pending Dev} (hi : s.calls i = some p) :
    BenchInv (s.close i p.call.isSave) := by
  have hset : BenchInv (s.setCall i none) := h.setCall_other nofun
  refine ⟨hset.page, hset.sound, ?_, hset.reported⟩
  intro j q hj hq
  have hok := hset.save j q hj hq
  refine ⟨hok.only, ?_, hok.settled, hok.same, hok.half⟩
  have hne : j ≠ i := by
    rintro rfl
    simp [Bench.close, Bench.setCall] at hj
  have hj' : s.calls j = some q := by simpa [Bench.close, Bench.setCall, hne] using hj
  cases hsave : p.call.isSave with
  | true => exact absurd ((h.save j q hj' hq).only i p hi hsave).symm hne
  | false => simpa [Bench.close, Bench.setCall] using hok.disabled

/-- Another form, and other reports, all of them true. -/
theorem BenchInv.display (h : BenchInv s) (form : Form) {rep : Dev → Option (UInt8 × UInt8)}
    (hrep : ∀ dev ths dur, rep dev = some (ths, dur) → Carries (s.motes dev) ths dur) :
    BenchInv { s with form, reported := rep } where
  page := h.page
  sound := h.sound
  save j p hj hp := by
    have hok := h.save j p hj hp
    exact ⟨hok.only, hok.disabled, hok.settled, hok.same, hok.half⟩
  reported := hrep

/-- The next call of a save. -/
theorem BenchInv.await_save (h : BenchInv s) {p : Pending Dev} (hi : s.calls i = some p)
    (hp : p.call.isSave = true) {char : Option Dev} (hchar : char = some p.call.dev)
    {call : Dev → GattCall Dev} (hdev : (call p.call.dev).dev = p.call.dev)
    (hhalf : ∀ dev ths dur, call p.call.dev = .saveDur dev ths dur →
      (s.motes dev).ths.ram = ths ∧ (s.motes dev).ths.register = ths) :
    BenchInv (s.await i true char call) := by
  have hok := h.save i p hi hp
  subst hchar
  refine h.setCall _ ?_
  rintro q ⟨⟩ -
  refine ⟨?_, hok.disabled, hok.settled, ?_, fun dev ths dur hcall _ => hhalf dev ths dur hcall⟩
  · intro j r hj hr
    by_contra hne
    exact hne (hok.only j r (by simpa [Bench.setCall, hne] using hj) hr)
  · rw [hdev]
    exact hok.same

variable [DecidableEq Dev]

/-- A link lost, whoever notices. -/
theorem BenchInv.cut (h : BenchInv s) (dev : Dev) : BenchInv (s.cut dev) := by
  have hback : ∀ {j q}, (s.cut dev).calls j = some q → ∃ p, s.calls j = some p ∧ p.call = q.call ∧
      (q.live = true → p.live = true) := by
    intro j q hj
    obtain ⟨p, hp, rfl⟩ := Option.map_eq_some_iff.mp hj
    exact ⟨p, hp, rfl, fun hlive => (Bool.and_eq_true_iff.mp hlive).1⟩
  refine ⟨h.page, h.sound, ?_, h.reported⟩
  intro j q hj hq
  obtain ⟨p, hp, hcall, hlive⟩ := hback hj
  have hok := h.save j p hp (hcall ▸ hq)
  refine ⟨?_, hok.disabled, hok.settled, hcall ▸ hok.same, ?_⟩
  · intro k r hk hr
    obtain ⟨p', hp', hcall', -⟩ := hback hk
    exact hok.only k p' hp' (hcall' ▸ hr)
  · intro d ths dur hd hl
    exact hok.half d ths dur (hcall.trans hd) (hlive hl)

end Invariant

/-! ### What happens at a mote -/

section Motes
variable [DecidableEq Dev] {s s' : Bench Dev} {i : ℕ}

/-- One mote has moved on. -/
theorem BenchInv.setMote (h : BenchInv s) {dev : Dev} {m : Tuning}
    {rep : Dev → Option (UInt8 × UInt8)} (hm : Sound m)
    (hhalf : (m.ths.ram = (s.motes dev).ths.ram ∧ m.ths.register = (s.motes dev).ths.register) ∨
      ∀ j p ths dur, s.calls j = some p → p.call = .saveDur dev ths dur → p.live = false)
    (hrep : ∀ d ths dur, rep d = some (ths, dur) →
      s.reported d = some (ths, dur) ∧ (d = dev → Carries m ths dur)) :
    BenchInv { s.setMote dev m with reported := rep } where
  page := h.page
  sound d := by
    change Sound (Function.update s.motes dev m d)
    rcases eq_or_ne d dev with rfl | hne
    · rw [Function.update_self]
      exact hm
    · rw [Function.update_of_ne hne]
      exact h.sound d
  save j p hj hp := by
    have hok := h.save j p hj hp
    refine ⟨hok.only, hok.disabled, hok.settled, hok.same, ?_⟩
    intro d ths dur hcall hlive
    change (Function.update s.motes dev m d).ths.ram = ths ∧
      (Function.update s.motes dev m d).ths.register = ths
    have hold := hok.half d ths dur hcall hlive
    rcases eq_or_ne d dev with rfl | hne
    · rw [Function.update_self]
      rcases hhalf with ⟨hram, hreg⟩ | hdead
      · exact ⟨hram.trans hold.1, hreg.trans hold.2⟩
      · exact absurd ((hdead j p ths dur hj hcall).symm.trans hlive) Bool.false_ne_true
    · rw [Function.update_of_ne hne]
      exact hold
  reported d ths dur hd := by
    change Carries (Function.update s.motes dev m d) ths dur
    obtain ⟨hold, hnew⟩ := hrep d ths dur hd
    rcases eq_or_ne d dev with rfl | hne
    · rw [Function.update_self]
      exact hnew rfl
    · rw [Function.update_of_ne hne]
      exact h.reported d ths dur hold

/-- After a write the mote is no longer known to run with a pair. -/
theorem update_none {f : Dev → Option (UInt8 × UInt8)} {dev d : Dev} {p : UInt8 × UInt8}
    (h : Function.update f dev none d = some p) : f d = some p ∧ d ≠ dev := by
  rcases eq_or_ne d dev with rfl | hne
  · rw [Function.update_self] at h
    simp at h
  · rw [Function.update_of_ne hne] at h
    exact ⟨h, hne⟩

/-- A reboot command that is carried out. -/
theorem BenchInv.writeCmd (h : BenchInv s) (dev : Dev) :
    BenchInv { s.setMote dev (Mote.writeCmd [cmdReboot] 0 (s.motes dev)).2 with
      reported := s.reported } := by
  have hstep : tuningStep (s.motes dev) (.writeCmd [cmdReboot] 0)
      = some (Mote.writeCmd [cmdReboot] 0 (s.motes dev)).2 := rfl
  have he : (TuningEvent.writeCmd [cmdReboot] 0).Succeeds := trivial
  refine h.setMote (sound_step (h.sound dev) he hstep) (.inl ?_) ?_
  · exact ths_of_step he nofun not_false hstep
  · intro d ths dur hd
    refine ⟨hd, ?_⟩
    rintro rfl
    exact carries_step (h.reported d ths dur hd) (h.sound d) he trivial nofun hstep

theorem carryOut_calls (s : Bench Dev) (call : GattCall Dev) (rc : ℤ) :
    (s.carryOut call rc).calls = s.calls := by
  rw [Bench.carryOut]
  split
  · rfl
  · rfl

/-- A write that is carried out, whether or not the page hears of it. -/
theorem BenchInv.carryOut (h : BenchInv s) {p : Pending Dev} (hi : s.calls i = some p) :
    BenchInv (s.carryOut p.call 0) := by
  obtain ⟨call, live⟩ := p
  cases call with
  | saveThs dev ths dur =>
    refine h.setMote (sound_step (h.sound dev) (e := .writeThs [ths] 0 0) rfl rfl) (.inr ?_) ?_
    · intro j q t d hj hcall
      obtain rfl : i = j := (h.save j q hj (by rw [hcall]; rfl)).only i _ hi rfl
      obtain rfl := Option.some.inj (hi.symm.trans hj)
      simp at hcall
    · intro d t d' hd
      obtain ⟨hold, hne⟩ := update_none hd
      exact ⟨hold, fun heq => absurd heq hne⟩
  | saveDur dev ths dur =>
    refine h.setMote (sound_step (h.sound dev) (e := .writeDur [dur] 0 0) rfl rfl) (.inl ?_) ?_
    · exact ths_of_step (e := .writeDur [dur] 0 0) rfl nofun not_false rfl
    · intro d t d' hd
      obtain ⟨hold, hne⟩ := update_none hd
      exact ⟨hold, fun heq => absurd heq hne⟩
  | saveReboot dev => exact h.writeCmd dev
  | reboot dev => exact h.writeCmd dev
  | readThs dev => exact h
  | readDur dev ths => exact h

/-- The answer to a call, when every call of the mote succeeds and no reboot overtakes the save. -/
theorem BenchInv.answer (h : BenchInv s) {p : Pending Dev} (hi : s.calls i = some p)
    (hlive : p.live = true) (htime : s.InTime i) : BenchInv (s.answer i 0 p.call) := by
  have hcarried := h.carryOut hi
  obtain ⟨call, live⟩ := p
  cases call with
  | saveThs dev ths dur =>
    have hsave := hcarried.save i _ hi rfl
    by_cases hack : (writeThs [ths] 0 0 (s.motes dev)).1 < 0
    · have hclosed : s.answer i 0 (.saveThs dev ths dur)
          = (s.carryOut (.saveThs dev ths dur) 0).close i true := if_pos hack
      rw [hclosed]
      exact hcarried.close hi
    · have hnext : s.answer i 0 (.saveThs dev ths dur)
          = (s.carryOut (.saveThs dev ths dur) 0).await i true s.page.chars.dur
              fun dev => .saveDur dev ths dur := if_neg hack
      rw [hnext]
      refine hcarried.await_save hi rfl hsave.same.2.1 rfl ?_
      intro d t d' hcall
      obtain ⟨rfl, rfl, -⟩ := GattCall.saveDur.inj hcall
      have hm : (s.carryOut (.saveThs dev ths dur) 0).motes dev
          = { s.motes dev with ths := ⟨ths, ths, (s.motes dev).ths.stored, some ths⟩ } :=
        (Function.update_self ..).trans (writeThs_acked hack)
      rw [GattCall.dev, hm]
      exact ⟨rfl, rfl⟩
  | saveDur dev ths dur =>
    have hsave := hcarried.save i _ hi rfl
    have hhalf := hsave.half dev ths dur rfl hlive
    have hpc := htime _ dev ths dur hi rfl
    have hm : (s.carryOut (.saveDur dev ths dur) 0).motes dev
        = { s.motes dev with dur := ⟨dur, dur, (s.motes dev).dur.stored, some dur⟩ } :=
      Function.update_self ..
    have hcarries : Carries ((s.carryOut (.saveDur dev ths dur) 0).motes dev) ths dur := by
      rw [hm] at hhalf ⊢
      refine ⟨hhalf, ⟨rfl, rfl⟩, ?_, ?_, ?_⟩
      · exact fun v hv => absurd (hpc.symm.trans hv) nofun
      · exact fun v hv => absurd (hpc.symm.trans hv) nofun
      · exact fun hv => absurd (hpc.symm.trans hv) nofun
    have hreport : ∀ d t d', Function.update (s.carryOut (.saveDur dev ths dur) 0).reported dev
        (some (ths, dur)) d = some (t, d') →
        Carries ((s.carryOut (.saveDur dev ths dur) 0).motes d) t d' := by
      intro d t d' hd
      rcases eq_or_ne d dev with rfl | hne
      · obtain ⟨rfl, rfl⟩ : ths = t ∧ dur = d' := by simpa using hd
        exact hcarries
      · exact hcarried.reported d t d' (by simpa [hne] using hd)
    exact (hcarried.display (applyValues ths dur) hreport).await_save hi rfl hsave.same.2.2 rfl nofun
  | saveReboot dev => exact hcarried.close hi
  | reboot dev => exact hcarried.close hi
  | readThs dev => exact h.await_other _ fun _ => rfl
  | readDur dev ths =>
    have hshown := h.display (applyValues ths (s.motes dev).dur.ram) h.reported
    exact hshown.close hi

/-- A step of a mote on its own. -/
theorem BenchInv.moteStep (h : BenchInv s) {dev : Dev} {e : TuningEvent} (he : e.Succeeds)
    (hown : IsOwn e) (hsaved : ∀ initRc thsRc durRc, e = .reset initRc thsRc durRc →
      s.reported dev = none ∨ (s.motes dev).Saved) (hstep : s.moteStep dev e = some s') :
    BenchInv s' := by
  obtain ⟨m, hm, rfl⟩ := Option.map_eq_some_iff.mp hstep
  have hsound := sound_step (h.sound dev) he hm
  have hkeep : KeepsSettings e := by
    cases e with
    | writeThs => exact hown.elim
    | writeDur => exact hown.elim
    | _ => trivial
  have hrep : ∀ d ths dur, s.reported d = some (ths, dur) →
      s.reported d = some (ths, dur) ∧ (d = dev → Carries m ths dur) := by
    intro d ths dur hd
    refine ⟨hd, ?_⟩
    rintro rfl
    refine carries_step (h.reported d ths dur hd) (h.sound d) he hkeep ?_ hm
    intro initRc thsRc durRc hreset
    rcases hsaved initRc thsRc durRc hreset with hnone | hsave
    · rw [hnone] at hd
      simp at hd
    · exact hsave
  split
  · have hcut := h.cut dev
    refine hcut.setMote hsound (.inr ?_) hrep
    intro j p ths dur hj hcall
    obtain ⟨q, -, rfl⟩ := Option.map_eq_some_iff.mp hj
    have hdev : q.call.dev = dev := by
      have := congrArg GattCall.dev hcall
      exact this
    simp [hdev]
  · next hreset =>
    refine h.setMote hsound (.inl (ths_of_step he ?_ hreset hm)) hrep
    rintro buf offset rc rfl
    exact hown

end Motes

/-! ### What happens at the page -/

theorem eq_readValues {a : WebBt.Await Dev} (h : isReading a = true) : a = .readValues := by
  cases a with
  | readValues => rfl
  | _ => exact absurd h Bool.false_ne_true

section Pages
variable {s s' : Bench Dev} {i : ℕ}

/-- A settled page that is connected has its characteristics from one mote. -/
theorem BenchInv.allFrom (h : BenchInv s) (hset : s.Settled) (hconnected : s.page.connected = true) :
    ∃ dev, s.page.chars.AllFrom dev := by
  have hright : s.page.Right := by
    rcases h.page with ⟨-, hright⟩ | ⟨a, ha, hduring⟩
    · exact hright
    · obtain rfl := eq_readValues (hset a (by rw [ha]; exact List.mem_singleton_self a))
      exact hduring
  obtain ⟨dev, hall, -⟩ := hright.mp hconnected
  exact ⟨dev, hall⟩

/-- The start of a save; with the buttons enabled there is no other. -/
theorem BenchInv.writeValues {number : PyStr → Option ℚ} (h : BenchInv s) (hset : s.Settled)
    (hbuttons : s.buttons = true) : BenchInv (s.writeValues number i) := by
  have hnone : ∀ j q, s.calls j = some q → q.call.isSave ≠ true := fun j q hj hq =>
    absurd ((h.save j q hj hq).disabled.symm.trans hbuttons) Bool.false_ne_true
  rw [Bench.writeValues]
  split
  · next hconnected =>
    obtain ⟨dev, hall⟩ := h.allFrom hset hconnected
    split
    · next ths dur hparse =>
      have hoff : BenchInv { s with buttons := false } :=
        ⟨h.page, h.sound, fun j q hj hq => absurd hq (hnone j q hj), h.reported⟩
      rw [hall.1]
      refine hoff.setCall _ ?_
      rintro q ⟨⟩ -
      refine ⟨?_, rfl, hset, hall, nofun⟩
      intro j r hj hr
      by_contra hne
      exact hnone j r (by simpa [Bench.setCall, hne] using hj) hr
    · exact h
  · exact h

variable [DecidableEq Dev]

/-- A settled page keeps its characteristics and links until the next `connect()`. -/
theorem settled_step {page page' : WebBt.Page Dev} {e : WebBt.Event Dev}
    (hset : ∀ a ∈ page.attempts, isReading a = true) (he : e ≠ .connect)
    (hstep : WebBt.step page e = some page') :
    page'.chars = page.chars ∧ (∀ a ∈ page'.attempts, isReading a = true) ∧
      connectionState page e ≠ some true ∧ linkChange page e = none := by
  have hclose : ∀ i, ∀ a ∈ (page.close i).attempts, isReading a = true := fun i a ha =>
    hset a (List.mem_of_mem_eraseIdx ha)
  cases e with
  | connect => exact absurd rfl he
  | chosen i d =>
    rw [WebBt.step] at hstep
    split at hstep
    · next ha => exact absurd (hset _ (List.mem_of_getElem? ha)) Bool.false_ne_true
    · simp at hstep
  | resolved i =>
    obtain ⟨a, ha, hres⟩ := Option.bind_eq_some_iff.mp hstep
    obtain rfl := eq_readValues (hset a (List.mem_of_getElem? ha))
    obtain rfl := Option.some.inj hres
    exact ⟨rfl, hclose i, by simp [connectionState, ha], by simp [linkChange, ha]⟩
  | rejected i delivered =>
    obtain ⟨a, ha, rfl⟩ := Option.map_eq_some_iff.mp hstep
    obtain rfl := eq_readValues (hset a (List.mem_of_getElem? ha))
    exact ⟨rfl, hclose i, by simp [connectionState, ha], by simp [linkChange, ha]⟩
  | disconnected d =>
    rw [WebBt.step] at hstep
    split at hstep
    · obtain rfl := Option.some.inj hstep
      exact ⟨rfl, hset, by simp [connectionState], rfl⟩
    · simp at hstep

theorem BenchInv.connectStep (h : BenchInv s) {e : WebBt.Event Dev} (hok : Careful s (.page e))
    (hstep : s.connectStep e = some s') : BenchInv s' := by
  obtain ⟨horderly, hconnect⟩ := hok
  obtain ⟨page, hpage, rfl⟩ := Option.map_eq_some_iff.mp hstep
  have hbase : BenchInv { s with page, buttons := (connectionState s.page e).getD s.buttons } := by
    refine ⟨WebBt.inv_step h.page horderly hpage, h.sound, ?_, h.reported⟩
    intro j q hj hq
    have hok := h.save j q hj hq
    obtain ⟨hchars, hset, hstate, -⟩ :=
      settled_step hok.settled (fun he => hconnect he ⟨j, q, hj, hq⟩) hpage
    refine ⟨hok.only, ?_, hset, ?_, hok.half⟩
    · change (connectionState s.page e).getD s.buttons = false
      cases hb : connectionState s.page e with
      | none => exact hok.disabled
      | some b => cases b with
        | false => rfl
        | true => exact absurd hb hstate
    · change page.chars.AllFrom _
      rw [hchars]
      exact hok.same
  dsimp only
  split
  · refine ⟨hbase.page, hbase.sound, ?_, hbase.reported⟩
    intro j q hj hq
    have hok := hbase.save j q hj hq
    exact ⟨hok.only, hok.disabled, hok.settled, hok.same, hok.half⟩
  · exact hbase.cut _
  · exact hbase

theorem benchInv_step {number : PyStr → Option ℚ} {e : BenchEvent Dev} (h : BenchInv s)
    (hok : Careful s e) (hstep : benchStep number s e = some s') : BenchInv s' := by
  cases e with
  | page e => exact h.connectStep hok hstep
  | edit form =>
    obtain rfl := Option.some.inj hstep
    exact h.display form h.reported
  | submit i =>
    obtain ⟨hclick, rfl⟩ := Option.ite_some_none_eq_some.mp hstep
    exact h.writeValues hok hclick.1
  | restore i =>
    obtain ⟨hclick, rfl⟩ := Option.ite_some_none_eq_some.mp hstep
    exact (h.display (applyValues standardThs standardDur) h.reported).writeValues hok hclick.1
  | read i =>
    obtain ⟨-, rfl⟩ := Option.ite_some_none_eq_some.mp hstep
    exact h.await_other _ fun _ => rfl
  | reboot i =>
    obtain ⟨-, rfl⟩ := Option.ite_some_none_eq_some.mp hstep
    exact h.await_other _ fun _ => rfl
  | answered i rc =>
    obtain ⟨rfl, htime⟩ := hok
    rw [benchStep] at hstep
    split at hstep
    · next p hi =>
      obtain ⟨hlive, rfl⟩ := Option.ite_some_none_eq_some.mp hstep
      exact h.answer hi hlive htime
    · simp at hstep
  | failed i carriedOut =>
    rw [benchStep] at hstep
    split at hstep
    · next p hi =>
      cases carriedOut with
      | none =>
        obtain rfl := Option.some.inj hstep
        exact h.close hi
      | some rc =>
        obtain rfl := hok rc rfl
        obtain ⟨-, rfl⟩ := Option.ite_some_none_eq_some.mp hstep
        exact (h.carryOut hi).close (by rw [carryOut_calls, hi])
    · simp at hstep
  | linkLost dev =>
    obtain rfl := Option.some.inj hstep
    exact h.cut dev
  | mote dev e =>
    obtain ⟨he, hsaved⟩ := hok
    rw [benchStep] at hstep
    split at hstep
    · next hown => exact h.moteStep he hown hsaved hstep
    · simp at hstep

end Pages

/-! ### Every run -/

section Runs
variable [DecidableEq Dev] {number : PyStr → Option ℚ} {motes : Dev → Tuning}

/-- The two answers of a read of the values, nothing in between. -/
theorem read_shows {s s' : Bench Dev} {dev : Dev} {i : ℕ} (hi : s.calls i = some ⟨.readThs dev, true⟩)
    (hdur : s.page.chars.dur = some dev)
    (hread : exec (benchStep number) s [.answered i 0, .answered i 0] = some s') :
    s'.form = applyValues (s.motes dev).ths.ram (s.motes dev).dur.ram := by
  simp only [exec, Option.bind_eq_some_iff, Option.some.injEq] at hread
  obtain ⟨s₁, h₁, s₂, h₂, rfl⟩ := hread
  have hfirst : s₁ = s.setCall i (some ⟨.readDur dev (s.motes dev).ths.ram, s.up dev⟩) := by
    simpa [benchStep, hi, Bench.answer, Bench.carryOut, GattCall.event, Bench.await, hdur,
      GattCall.dev] using h₁.symm
  subst hfirst
  have hnext : (s.setCall i (some ⟨.readDur dev (s.motes dev).ths.ram, s.up dev⟩)).calls i
      = some ⟨.readDur dev (s.motes dev).ths.ram, s.up dev⟩ := Function.update_self ..
  rw [benchStep, hnext] at h₂
  obtain ⟨-, rfl⟩ := Option.ite_some_none_eq_some.mp h₂
  rfl

end Runs

/-- A page and factory-new motes. -/
def newBench : Bench ℕ := .start fun _ => .factory

/-- Mote 1 is connected. -/
def tuningBench : Bench ℕ :=
  { newBench with
    page := ⟨some 1, some 1, some 1, ⟨some 1, some 1, some 1⟩, true, [], [1],
      Function.update (fun _ => false) 1 true⟩
    buttons := true
    up := Function.update (fun _ => false) 1 true }

theorem reach_tuningBench : Reach (benchStep decimalNumber) Careful newBench tuningBench := by
  have h0 : Reach (benchStep decimalNumber) Careful newBench newBench := .start
  have h1 := h0.next (e := BenchEvent.page .connect) ⟨rfl, fun _ => nofun⟩ rfl
  have h2 := h1.next (e := BenchEvent.page (.chosen 0 1)) ⟨trivial, nofun⟩ rfl
  have h3 := h2.next (e := BenchEvent.page (.resolved 0)) ⟨by rintro a ⟨⟩; trivial, nofun⟩ rfl
  have h4 := h3.next (e := BenchEvent.page (.resolved 0)) ⟨by rintro a ⟨⟩; trivial, nofun⟩ rfl
  have h5 := h4.next (e := BenchEvent.page (.resolved 0)) ⟨by rintro a ⟨⟩; trivial, nofun⟩ rfl
  have h6 := h5.next (e := BenchEvent.page (.resolved 0)) ⟨by rintro a ⟨⟩; trivial, nofun⟩ rfl
  have h7 := h6.next (e := BenchEvent.page (.resolved 0)) ⟨by rintro a ⟨⟩; rfl, nofun⟩ rfl
  exact h7.next (e := BenchEvent.page (.resolved 0)) ⟨by rintro a ⟨⟩; trivial, nofun⟩ rfl

end SeeedMote.EndToEnd
