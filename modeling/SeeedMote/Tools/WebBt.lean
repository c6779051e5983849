import Mathlib.Logic.Function.Basic
import SeeedMote.Lib.Run

/-! The session of the Web Bluetooth tool, `index.html`. One global `state` is assigned field by
    field as the awaits of `connect()` resolve:

        requestDevice ─▶ gatt.connect ─▶ getPrimaryService ─▶ ths ─▶ dur ─▶ reboot ─▶ readValues
          device           server            service         └──── chars ────┘
                                                                      connected := true

    Every device chosen keeps a listener that sets `connected` to false, whichever device the session
    has moved on to. A failed `getPrimaryService` disconnects; the other failures leave the fields,
    and the link, as they are. -/

namespace SeeedMote.Tools.WebBt
open Lib

variable {Dev : Type}

/-! ### The page -/

/-- `state.chars`, each by the device it was obtained from. -/
structure Chars (Dev : Type) where
  ths : Option Dev
  dur : Option Dev
  reboot : Option Dev

/-- What a call of `connect()` is waiting for, by the device the awaited call was made on. -/
inductive Await (Dev : Type) where
  | requestDevice
  | gattConnect (d : Dev)
  | getPrimaryService (d : Dev)
  | getThs (d : Dev)
  | getDur (d : Dev)
  | getReboot (d : Dev)
  | readValues

/-- `state`, the calls of `connect()` in progress and the devices with a listener. `linked` is a
    ghost: the devices whose latest `gatt.connect` success no disconnect event has followed. -/
structure Page (Dev : Type) where
  device : Option Dev
  server : Option Dev
  service : Option Dev
  chars : Chars Dev
  connected : Bool
  attempts : List (Await Dev)
  listeners : List Dev
  linked : Dev → Bool

/-- The page as loaded. -/
def Page.start : Page Dev := ⟨none, none, none, ⟨none, none, none⟩, false, [], [], fun _ => false⟩

/-- What can happen. An attempt is named by its place among those in progress, and one that throws
    before `requestDevice` counts as rejected there; `delivered` says whether a `gatt.disconnect()` in
    the handler of the rejection delivers its event at once. -/
inductive Event (Dev : Type) where
  | connect
  | chosen (i : ℕ) (d : Dev)
  | resolved (i : ℕ)
  | rejected (i : ℕ) (delivered : Bool)
  | disconnected (d : Dev)

/-- The attempt goes on to await a call on the object in a field of `state`; on null it throws. -/
def Page.await (s : Page Dev) (i : ℕ) (target : Option Dev) (call : Dev → Await Dev) : Page Dev :=
  match target with
  | some d => { s with attempts := s.attempts.set i (call d) }
  | none => { s with attempts := s.attempts.eraseIdx i }

/-- The attempt ends. -/
def Page.close (s : Page Dev) (i : ℕ) : Page Dev := { s with attempts := s.attempts.eraseIdx i }

section Steps
variable [DecidableEq Dev]

/-- The `gattserverdisconnected` listeners of `d` run: `setConnectionState(false)`. -/
def Page.dropLink (s : Page Dev) (d : Dev) : Page Dev :=
  { s with connected := false, linked := Function.update s.linked d false }

/-- `connect()` from the awaited result to its next await. -/
def Page.resolve (s : Page Dev) (i : ℕ) : Await Dev → Option (Page Dev)
  | .requestDevice => none
  | .gattConnect d =>
    let s := { s with server := some d, linked := Function.update s.linked d true }
    some (s.await i s.server .getPrimaryService)
  | .getPrimaryService d =>
    let s := { s with service := some d }
    some (s.await i s.service .getThs)
  | .getThs d =>
    let s := { s with chars := { s.chars with ths := some d } }
    some (s.await i s.service .getDur)
  | .getDur d =>
    let s := { s with chars := { s.chars with dur := some d } }
    some (s.await i s.service .getReboot)
  | .getReboot d =>
    some { s with
      chars := { s.chars with reboot := some d }
      connected := true
      attempts := s.attempts.set i .readValues }
  | .readValues => some (s.close i)

/-- `state.device.gatt.disconnect()`, with the event it causes delivered at once or not. -/
def Page.gattDisconnect (s : Page Dev) (delivered : Bool) : Page Dev :=
  match s.device with
  | some d => if delivered then s.dropLink d else s
  | none => s

/-- `connect()` when the awaited call fails. -/
def Page.reject (s : Page Dev) (i : ℕ) (delivered : Bool) : Await Dev → Page Dev
  | .getPrimaryService _ => (s.gattDisconnect delivered).close i
  | _ => s.close i

def step (s : Page Dev) : Event Dev → Option (Page Dev)
  | .connect => some { s with attempts := s.attempts ++ [.requestDevice] }
  | .chosen i d =>
    match s.attempts[i]? with
    | some .requestDevice =>
      let s := { s with device := some d, listeners := d :: s.listeners }
      some (s.await i s.device .gattConnect)
    | _ => none
  | .resolved i => s.attempts[i]?.bind (s.resolve i)
  | .rejected i delivered => s.attempts[i]?.map (s.reject i delivered)
  | .disconnected d => if d ∈ s.listeners then some (s.dropLink d) else none

end Steps

/-! ### When the session state is right -/

/-- The three characteristics have been obtained, all from `d`. -/
def Chars.AllFrom (c : Chars Dev) (d : Dev) : Prop :=
  c.ths = some d ∧ c.dur = some d ∧ c.reboot = some d

/-- The session belongs to `d`, and `d` is linked. -/
def Page.Holds (s : Page Dev) (d : Dev) : Prop := s.chars.AllFrom d ∧ s.linked d = true

/-- `state.connected` tells whether there is a session with a linked device. -/
def Page.Right (s : Page Dev) : Prop := s.connected = true ↔ ∃ d, s.Holds d

/-- An attempt for `d` may fail here: the link is gone, the session is up on `d` already, or it is
    down and not all three characteristics are those of `d`. -/
def Page.MayFail (s : Page Dev) (d : Dev) : Prop :=
  s.linked d = false ∨ (s.connected = true ∧ s.chars.AllFrom d) ∨
    (s.connected = false ∧ ¬s.chars.AllFrom d)

/-- No device but `d` holds the session. -/
def Page.OnlyHolds (s : Page Dev) (d : Dev) : Prop := ∀ e, s.Holds e → e = d

/-- The awaited call may succeed here: the last one of an attempt only while its device is linked. -/
def Page.MayResolve (s : Page Dev) : Await Dev → Prop
  | .getReboot d => s.linked d = true
  | _ => True

/-- The awaited call may fail here. -/
def Page.MayReject (s : Page Dev) (delivered : Bool) : Await Dev → Prop
  | .getPrimaryService d => if delivered then s.OnlyHolds d else s.MayFail d
  | .getThs d => s.MayFail d
  | .getDur d => s.MayFail d
  | .getReboot d => s.MayFail d
  | _ => True

/-- The steps that keep the session right. -/
def Orderly (s : Page Dev) : Event Dev → Prop
  | .connect => s.attempts = []
  | .chosen _ _ => True
  | .resolved i => ∀ a ∈ s.attempts[i]?, s.MayResolve a
  | .rejected i delivered => ∀ a ∈ s.attempts[i]?, s.MayReject delivered a
  | .disconnected d => s.OnlyHolds d

/-! ### What holds during an attempt -/

/-- Between `gatt.connect` and the last characteristic of an attempt for `d`. -/
structure Page.Mid (s : Page Dev) (d : Dev) : Prop where
  down_of_unlinked : s.linked d = false → s.connected = false
  only_of_down : s.connected = false → s.OnlyHolds d

/-- What holds while the one attempt in progress awaits a call. -/
def Page.During (s : Page Dev) : Await Dev → Prop
  | .requestDevice => s.Right
  | .gattConnect d => s.device = some d ∧ s.Right
  | .getPrimaryService d => s.device = some d ∧ s.Mid d
  | .getThs d => s.service = some d ∧ s.Mid d
  | .getDur d => s.service = some d ∧ s.chars.ths = some d ∧ s.Mid d
  | .getReboot d => s.chars.ths = some d ∧ s.chars.dur = some d ∧ s.Mid d
  | .readValues => s.Right

/-- No attempt in progress and the state right, or one attempt. -/
def Page.Inv (s : Page Dev) : Prop :=
  (s.attempts = [] ∧ s.Right) ∨ ∃ a, s.attempts = [a] ∧ s.During a

theorem attempt_of_getElem? {s : Page Dev} {i : ℕ} {a x : Await Dev} (hx : s.attempts = [x])
    (h : s.attempts[i]? = some a) : i = 0 ∧ a = x := by
  rw [hx] at h
  cases i with
  | zero => exact ⟨rfl, (Option.some.inj h).symm⟩
  | succ i => simp at h

/-- The attempt that a result belongs to is the one in progress. -/
theorem Page.Inv.attempt {s : Page Dev} (h : s.Inv) {i : ℕ} {a : Await Dev}
    (ha : s.attempts[i]? = some a) : i = 0 ∧ s.attempts = [a] ∧ s.During a := by
  rcases h with ⟨hnil, -⟩ | ⟨x, hx, hduring⟩
  · rw [hnil] at ha
    simp at ha
  · obtain ⟨rfl, rfl⟩ := attempt_of_getElem? hx ha
    exact ⟨rfl, hx, hduring⟩

/-- With nobody holding the session, `connected` is right to be false. -/
theorem right_of_down {s : Page Dev} (hdown : s.connected = false) (h : ∀ e, ¬s.Holds e) :
    s.Right := by
  constructor
  · intro hup
    exact absurd (hdown.symm.trans hup) Bool.false_ne_true
  · rintro ⟨e, he⟩
    exact absurd he (h e)

theorem inv_start : (Page.start : Page Dev).Inv := by
  refine .inl ⟨rfl, right_of_down rfl ?_⟩
  rintro e ⟨-, hlinked⟩
  exact Bool.false_ne_true hlinked

theorem right_of_mayFail {s : Page Dev} {d : Dev} (hmid : s.Mid d) (h : s.MayFail d) : s.Right := by
  rcases h with hunlinked | ⟨hup, hall⟩ | ⟨hdown, hnot⟩
  · have hdown := hmid.down_of_unlinked hunlinked
    refine right_of_down hdown ?_
    intro e he
    obtain rfl := hmid.only_of_down hdown e he
    exact Bool.false_ne_true (hunlinked.symm.trans he.2)
  · cases hlinked : s.linked d with
    | false => exact absurd ((hmid.down_of_unlinked hlinked).symm.trans hup) Bool.false_ne_true
    | true => exact ⟨fun _ => ⟨d, hall, hlinked⟩, fun _ => hup⟩
  · refine right_of_down hdown ?_
    intro e he
    obtain rfl := hmid.only_of_down hdown e he
    exact hnot he.1

/-- The attempt in progress ends in a right state. -/
theorem inv_close {s : Page Dev} {a : Await Dev} (hone : s.attempts = [a]) (hright : s.Right) :
    (s.close 0).Inv :=
  .inl ⟨by rw [Page.close, hone]; rfl, hright⟩

/-! ### Disconnect events -/

variable [DecidableEq Dev]

theorem not_holds_dropLink {s : Page Dev} {d : Dev} (h : s.OnlyHolds d) (e : Dev) :
    ¬(s.dropLink d).Holds e := by
  rintro ⟨hall, hlinked⟩
  rcases eq_or_ne e d with rfl | hne
  · simp [Page.dropLink] at hlinked
  · have hlinked' : s.linked e = true := by simpa [Page.dropLink, hne] using hlinked
    exact hne (h e ⟨hall, hlinked'⟩)

theorem right_dropLink {s : Page Dev} {d : Dev} (h : s.OnlyHolds d) : (s.dropLink d).Right :=
  right_of_down rfl (not_holds_dropLink h)

theorem mid_dropLink {s : Page Dev} {d : Dev} (h : s.OnlyHolds d) (e : Dev) :
    (s.dropLink d).Mid e :=
  ⟨fun _ => rfl, fun _ x hx => absurd hx (not_holds_dropLink h x)⟩

theorem during_dropLink {s : Page Dev} {d : Dev} (h : s.OnlyHolds d) {a : Await Dev}
    (ha : s.During a) : (s.dropLink d).During a := by
  cases a with
  | requestDevice => exact right_dropLink h
  | gattConnect e => exact ⟨ha.1, right_dropLink h⟩
  | getPrimaryService e => exact ⟨ha.1, mid_dropLink h e⟩
  | getThs e => exact ⟨ha.1, mid_dropLink h e⟩
  | getDur e => exact ⟨ha.1, ha.2.1, mid_dropLink h e⟩
  | getReboot e => exact ⟨ha.1, ha.2.1, mid_dropLink h e⟩
  | readValues => exact right_dropLink h

theorem inv_dropLink {s : Page Dev} {d : Dev} (hinv : s.Inv) (h : s.OnlyHolds d) :
    (s.dropLink d).Inv := by
  rcases hinv with ⟨hnil, -⟩ | ⟨a, ha, hduring⟩
  · exact .inl ⟨hnil, right_dropLink h⟩
  · exact .inr ⟨a, ha, during_dropLink h hduring⟩

/-! ### Results of awaited calls -/

theorem inv_chosen {s s' : Page Dev} {i : ℕ} {d : Dev} (hinv : s.Inv)
    (hstep : step s (.chosen i d) = some s') : s'.Inv := by
  rw [step] at hstep
  split at hstep
  · next ha =>
    obtain ⟨rfl, hone, hright⟩ := hinv.attempt ha
    obtain rfl := Option.some.inj hstep
    exact .inr ⟨.gattConnect d, by simp [Page.await, hone], rfl, hright⟩
  · simp at hstep

/-- The link of an attempt's device comes up. -/
theorem mid_linked {s : Page Dev} (hright : s.Right) (d : Dev) {s' : Page Dev}
    (hchars : s'.chars = s.chars) (hconnected : s'.connected = s.connected)
    (hlinked : s'.linked = Function.update s.linked d true) : s'.Mid d := by
  refine ⟨?_, ?_⟩
  · intro hunlinked
    rw [hlinked, Function.update_self] at hunlinked
    simp at hunlinked
  · rintro hdown e ⟨hall, hlink⟩
    by_contra hne
    rw [hlinked, Function.update_of_ne hne] at hlink
    rw [hchars] at hall
    rw [hconnected] at hdown
    exact absurd (hright.mpr ⟨e, hall, hlink⟩) (by simp [hdown])

theorem inv_resolved {s s' : Page Dev} {i : ℕ} (hinv : s.Inv) (hok : Orderly s (.resolved i))
    (hstep : step s (.resolved i) = some s') : s'.Inv := by
  obtain ⟨a, ha, hres⟩ := Option.bind_eq_some_iff.mp hstep
  obtain ⟨rfl, hone, hduring⟩ := hinv.attempt ha
  have hmay : s.MayResolve a := hok a ha
  cases a with
  | requestDevice => simp [Page.resolve] at hres
  | gattConnect d =>
    obtain ⟨hdevice, hright⟩ := hduring
    obtain rfl := Option.some.inj hres
    exact .inr ⟨.getPrimaryService d, by simp [Page.await, hone], hdevice,
      mid_linked hright d rfl rfl rfl⟩
  | getPrimaryService d =>
    obtain ⟨-, hmid⟩ := hduring
    obtain rfl := Option.some.inj hres
    exact .inr ⟨.getThs d, by simp [Page.await, hone], rfl, hmid.1, hmid.2⟩
  | getThs d =>
    obtain ⟨hservice, hmid⟩ := hduring
    simp only [Page.resolve, Page.await, hservice, Option.some.injEq] at hres
    subst hres
    refine .inr ⟨.getDur d, by simp [hone], rfl, rfl, hmid.1, ?_⟩
    rintro - e ⟨⟨hths, -⟩, -⟩
    exact (Option.some.inj hths).symm
  | getDur d =>
    obtain ⟨hservice, hths, hmid⟩ := hduring
    simp only [Page.resolve, Page.await, hservice, Option.some.injEq] at hres
    subst hres
    refine .inr ⟨.getReboot d, by simp [hone], hths, rfl, hmid.1, ?_⟩
    rintro - e ⟨⟨-, hdur, -⟩, -⟩
    exact (Option.some.inj hdur).symm
  | getReboot d =>
    obtain ⟨hths, hdur, -⟩ := hduring
    obtain rfl := Option.some.inj hres
    refine .inr ⟨.readValues, by simp [hone], ?_⟩
    exact ⟨fun _ => ⟨d, ⟨hths, hdur, rfl⟩, hmay⟩, fun _ => rfl⟩
  | readValues =>
    obtain rfl := Option.some.inj hres
    exact .inl ⟨by simp [Page.close, hone], hduring⟩

/-! ### Failures -/

theorem inv_rejected {s s' : Page Dev} {i : ℕ} {delivered : Bool} (hinv : s.Inv)
    (hok : Orderly s (.rejected i delivered)) (hstep : step s (.rejected i delivered) = some s') :
    s'.Inv := by
  obtain ⟨a, ha, rfl⟩ := Option.map_eq_some_iff.mp hstep
  obtain ⟨rfl, hone, hduring⟩ := hinv.attempt ha
  have hmay : s.MayReject delivered a := hok a ha
  cases a with
  | requestDevice => exact inv_close hone hduring
  | gattConnect d => exact inv_close hone hduring.2
  | getPrimaryService d =>
    obtain ⟨hdevice, hmid⟩ := hduring
    rw [Page.reject, Page.gattDisconnect, hdevice]
    cases delivered with
    | true => exact inv_close hone (right_dropLink hmay)
    | false => exact inv_close hone (right_of_mayFail hmid hmay)
  | getThs d => exact inv_close hone (right_of_mayFail hduring.2 hmay)
  | getDur d => exact inv_close hone (right_of_mayFail hduring.2.2 hmay)
  | getReboot d => exact inv_close hone (right_of_mayFail hduring.2.2 hmay)
  | readValues => exact inv_close hone hduring

/-! ### Runs -/

theorem inv_step {s s' : Page Dev} {e : Event Dev} (hinv : s.Inv) (hok : Orderly s e)
    (hstep : step s e = some s') : s'.Inv := by
  cases e with
  | connect =>
    obtain rfl := Option.some.inj hstep
    have hidle : s.attempts = [] := hok
    rcases hinv with ⟨-, hright⟩ | ⟨a, ha, -⟩
    · exact .inr ⟨.requestDevice, by simp [hidle], hright⟩
    · rw [hidle] at ha
      simp at ha
  | chosen i d => exact inv_chosen hinv hstep
  | resolved i => exact inv_resolved hinv hok hstep
  | rejected i delivered => exact inv_rejected hinv hok hstep
  | disconnected d =>
    rw [step] at hstep
    split at hstep
    · obtain rfl := Option.some.inj hstep
      exact inv_dropLink hinv hok
    · simp at hstep

/-- Whenever no `connect()` is in progress, `state.connected` is true exactly when the three
    characteristics have been obtained from one device and that device is linked. -/
theorem connected_iff_session {s : Page Dev} (h : Reach step Orderly .start s)
    (hidle : s.attempts = []) : s.connected = true ↔ ∃ d, s.chars.AllFrom d ∧ s.linked d = true := by
  have hinv : s.Inv := h.invariant inv_start fun _ _ _ => inv_step
  rcases hinv with ⟨-, hright⟩ | ⟨a, ha, -⟩
  · exact hright
  · rw [hidle] at ha
    simp at ha

/-- A `connect()` to `d` that succeeds throughout. -/
def connectsTo (d : ℕ) : List (Event ℕ) :=
  [.connect, .chosen 0 d, .resolved 0, .resolved 0, .resolved 0, .resolved 0, .resolved 0, .resolved 0]

/-- A page that lost its mote and then found it without the service. -/
def lostPage : Page ℕ :=
  ⟨some 1, some 1, some 1, ⟨some 1, some 1, some 1⟩, false, [], [1, 1],
    Function.update (Function.update (Function.update (Function.update (fun _ => false) 1 true)
      1 false) 1 true) 1 false⟩

/-- The mote reboots after it was tuned; the next attempt finds it outside its config window. -/
theorem connected_iff_session_lost :
    lostPage.connected = true ↔ ∃ d, lostPage.chars.AllFrom d ∧ lostPage.linked d = true := by
  have h0 : Reach step Orderly .start (Page.start : Page ℕ) := .start
  have h1 := (h0.next (e := Event.connect) rfl rfl).next (e := Event.chosen 0 1) trivial rfl
  have h2 := h1.next (e := Event.resolved 0) (by rintro a ⟨⟩; trivial) rfl
  have h3 := h2.next (e := Event.resolved 0) (by rintro a ⟨⟩; trivial) rfl
  have h4 := h3.next (e := Event.resolved 0) (by rintro a ⟨⟩; trivial) rfl
  have h5 := h4.next (e := Event.resolved 0) (by rintro a ⟨⟩; trivial) rfl
  have h6 := h5.next (e := Event.resolved 0) (by rintro a ⟨⟩; rfl) rfl
  have h7 := h6.next (e := Event.resolved 0) (by rintro a ⟨⟩; trivial) rfl
  have h8 := h7.next (e := Event.disconnected 1) (by rintro e ⟨⟨⟨⟩, -⟩, -⟩; rfl) rfl
  have h9 := (h8.next (e := Event.connect) rfl rfl).next (e := Event.chosen 0 1) trivial rfl
  have h10 := h9.next (e := Event.resolved 0) (by rintro a ⟨⟩; trivial) rfl
  have h11 : Reach step Orderly .start lostPage := h10.next (e := Event.rejected 0 true)
    (by rintro a ⟨⟩ e ⟨⟨⟨⟩, -⟩, -⟩; rfl) rfl
  exact connected_iff_session h11 rfl

/-- The second attempt takes the first characteristic of another mote and fails: the page stays
    connected, and a save writes THS to one mote and DUR to the other. -/
theorem failed_attempt_mixes : ¬∀ s : Page ℕ, Reach step anyStep .start s → s.attempts = [] →
    (s.connected = true ↔ ∃ d, s.chars.AllFrom d ∧ s.linked d = true) := by
  intro h
  have hrun : Reach step anyStep .start (⟨some 2, some 2, some 2, ⟨some 2, some 1, some 1⟩, true, [],
      [2, 1], Function.update (Function.update (fun _ => false) 1 true) 2 true⟩ : Page ℕ) :=
    Reach.of_exec (connectsTo 1 ++ [.connect, .chosen 0 2, .resolved 0, .resolved 0, .resolved 0,
      .rejected 0 false]) .start rfl
  obtain ⟨d, ⟨hths, hdur, -⟩, -⟩ := (h _ hrun rfl).mp rfl
  exact absurd (hths.trans hdur.symm) (by decide)

end SeeedMote.Tools.WebBt
