import SeeedMote.App.Dashboard

/-! A browser tab's connection, `useWebSocket.ts`. Every run of the effect has its own `disposed` and
    `reconnectTimer`; the sockets are shared through `wsRef`, and a socket goes on living after the run
    that made it is cleaned up.

        mount ──▶ connect ──▶ CONNECTING ──▶ OPEN ──▶ CLOSING ──▶ CLOSED ──2 s──▶ connect
                                  │ unmount                          │ unmount
                                  └──▶ onopen = close                └──▶ clearTimeout

    In strict mode React mounts, unmounts and mounts again. -/

namespace SeeedMote.App
open Lib

/-- `readyState`. -/
inductive ReadyState where
  | connecting
  | open
  | closing
  | closed
  deriving DecidableEq

/-- A socket. `effect`: the run of the effect its handlers belong to; `hooked`: `onmessage`, `onerror`
    and `onclose` are set; `closeOnOpen`: `onopen` only closes it. Recorded are the store when it was
    made and the messages `onmessage` has handled since. -/
structure Socket where
  ready : ReadyState
  effect : ℕ
  hooked : Bool
  closeOnOpen : Bool
  before : View
  received : List WsMessage

/-- `ws.close()`. -/
def Socket.close (s : Socket) : Socket :=
  match s.ready with
  | .connecting | .open => { s with ready := .closing }
  | .closing | .closed => s

/-- `live`: the run of the effect not yet cleaned up. `timers`: pending calls of `connect`, each with
    its id and its run; `reconnectTimer` is the variable of the live run. -/
structure Tab where
  sockets : List Socket
  wsRef : Option ℕ
  live : Option ℕ
  effects : ℕ
  timers : List (ℕ × ℕ)
  timerIds : ℕ
  reconnectTimer : Option ℕ
  wsConnected : Bool
  view : View

/-- A page just loaded. -/
def Tab.init (view : View) : Tab := ⟨[], none, none, 0, [], 0, none, false, view⟩

namespace Tab

/-- The run's `disposed` is still false. -/
def Live (t : Tab) (effect : ℕ) : Prop := t.live = some effect

instance (t : Tab) (effect : ℕ) : Decidable (t.Live effect) := inferInstanceAs (Decidable (_ = _))

/-- `connect`. -/
def connect (effect : ℕ) (t : Tab) : Tab :=
  if t.Live effect then
    { t with
      sockets := t.sockets ++ [⟨.connecting, effect, true, false, t.view, []⟩]
      wsRef := some t.sockets.length }
  else t

/-- The effect. -/
def mount (t : Tab) : Tab :=
  connect t.effects
    { t with live := some t.effects, effects := t.effects + 1, reconnectTimer := none }

def setSocket (i : ℕ) (s : Socket) (t : Tab) : Tab := { t with sockets := t.sockets.set i s }

/-- What the cleanup does to the socket in `wsRef`. -/
def abandon (s : Socket) : Socket :=
  if s.ready = .connecting then { s with hooked := false, closeOnOpen := true }
  else { s with hooked := false }.close

/-- The cleanup of the effect. -/
def cleanup (t : Tab) : Tab :=
  { t with
    live := none
    timers := t.timers.filter fun timer => t.reconnectTimer ≠ some timer.1
    wsRef := none
    sockets := match t.wsRef with
      | some i => t.sockets.modify i abandon
      | none => t.sockets }

/-- `onopen`. -/
def onopen (i : ℕ) (s : Socket) (t : Tab) : Tab :=
  let s := { s with ready := .open }
  if s.closeOnOpen then t.setSocket i s.close
  else if t.Live s.effect then { t.setSocket i s with wsConnected := true }
  else t.setSocket i s

/-- A message event. -/
def onmessage (i : ℕ) (s : Socket) (msg : WsMessage) (t : Tab) : Tab :=
  if s.hooked then
    { t.setSocket i { s with received := s.received ++ [msg] } with view := t.view.onMessage msg }
  else t

/-- The close event, after an error event or without one: `onerror` closes what is closed. -/
def onclose (i : ℕ) (s : Socket) (t : Tab) : Tab :=
  let t := t.setSocket i { s with ready := .closed }
  if s.hooked ∧ t.Live s.effect then
    { t with
      wsConnected := false
      timers := t.timers ++ [(t.timerIds, s.effect)]
      reconnectTimer := some t.timerIds
      timerIds := t.timerIds + 1 }
  else t

end Tab

/-! ### Runs -/

inductive TabEvent where
  | mount
  | unmount
  /-- A pending timer fires. -/
  | timer (id : ℕ)
  | opened (i : ℕ)
  | message (i : ℕ) (msg : WsMessage)
  /-- The server starts to close an open socket. -/
  | closing (i : ℕ)
  | closed (i : ℕ)

def tabStep (t : Tab) : TabEvent → Option Tab
  | .mount => if t.live = none then some t.mount else none
  | .unmount => if t.live = none then none else some t.cleanup
  | .timer id =>
    (t.timers.find? fun timer => timer.1 = id).map fun timer =>
      Tab.connect timer.2 { t with timers := t.timers.erase timer }
  | .opened i =>
    match t.sockets[i]? with
    | some s => if s.ready = .connecting then some (t.onopen i s) else none
    | none => none
  | .message i msg =>
    match t.sockets[i]? with
    | some s => if s.ready = .open then some (t.onmessage i s msg) else none
    | none => none
  | .closing i =>
    match t.sockets[i]? with
    | some s => if s.ready = .open then some (t.setSocket i { s with ready := .closing }) else none
    | none => none
  | .closed i =>
    match t.sockets[i]? with
    | some s => if s.ready = .closed then none else some (t.onclose i s)
    | none => none

/-- Socket `i` has the hook's handlers and can still have events. -/
def Tab.Feeds (t : Tab) (i : ℕ) : Prop :=
  ∃ s, t.sockets[i]? = some s ∧ s.hooked = true ∧ s.ready ≠ .closed

/-- The tab at any moment: unmounted and silent, waiting for a timer, or fed by one socket. -/
inductive TabPhase (t : Tab) : Prop
  | unmounted (hlive : t.live = none) (htimers : t.timers = []) (href : t.wsRef = none)
      (hfeeds : ∀ i, ¬t.Feeds i)
  | waiting (effect id : ℕ) (hlive : t.live = some effect) (htimers : t.timers = [(id, effect)])
      (hvar : t.reconnectTimer = some id) (hfeeds : ∀ i, ¬t.Feeds i)
  | fed (effect i : ℕ) (s : Socket) (hlive : t.live = some effect) (htimers : t.timers = [])
      (href : t.wsRef = some i) (hs : t.sockets[i]? = some s) (heffect : s.effect = effect)
      (hhooked : s.hooked = true) (hready : s.ready ≠ .closed) (hfeeds : ∀ j, t.Feeds j → j = i)

/-- An abandoned socket is not open and will close as soon as it opens; a hooked one has the hook's
    `onopen`. -/
def Socket.Settled (s : Socket) : Prop :=
  if s.hooked then s.closeOnOpen = false
  else s.ready ≠ .open ∧ (s.ready = .connecting → s.closeOnOpen = true)

structure TabInv (t : Tab) : Prop where
  phase : TabPhase t
  settled : ∀ s ∈ t.sockets, s.Settled
  /-- The store is what the current socket has sent. -/
  view : ∀ i s, t.wsRef = some i → t.sockets[i]? = some s →
    t.view = s.received.foldl View.onMessage s.before

/-! ### One step -/

section Steps
variable {t t' : Tab} {i : ℕ} {s : Socket}

/-- Who feeds the tab after one socket has changed. -/
theorem feeds_set_iff {s' : Socket} (hs : t.sockets[i]? = some s) (hsockets : t'.sockets = t.sockets.set i s')
    (j : ℕ) : t'.Feeds j ↔
      if j = i then s'.hooked = true ∧ s'.ready ≠ .closed else t.Feeds j := by
  have hlen : i < t.sockets.length := (List.getElem?_eq_some_iff.mp hs).1
  rw [Tab.Feeds, hsockets]
  by_cases hj : j = i
  · rw [if_pos hj, hj, List.getElem?_set_self hlen]
    simp
  · rw [if_neg hj, List.getElem?_set_ne (Ne.symm hj)]
    rfl

/-- A socket changes and stays what it is to the hook; `t'` has the hook's variables of `t`. -/
theorem TabInv.update (h : TabInv t) (s' : Socket) (hs : t.sockets[i]? = some s) (hready : s.ready ≠ .closed)
    (hhooked : s'.hooked = s.hooked) (heffect : s'.effect = s.effect) (hready' : s'.ready ≠ .closed)
    (hsettled : s'.Settled) (hsockets : t'.sockets = t.sockets.set i s')
    (hlive : t'.live = t.live) (htimers : t'.timers = t.timers) (href : t'.wsRef = t.wsRef)
    (hvar : t'.reconnectTimer = t.reconnectTimer)
    (hview : t.wsRef = some i → t'.view = s'.received.foldl View.onMessage s'.before)
    (hother : t.wsRef ≠ some i → t'.view = t.view) : TabInv t' where
  phase := by
    have hfeeds : ∀ j, t'.Feeds j ↔ t.Feeds j := by
      intro j
      rw [feeds_set_iff hs hsockets, hhooked]
      by_cases hj : j = i
      · rw [if_pos hj, hj]
        refine ⟨fun hf => ⟨s, hs, hf.1, hready⟩, fun ⟨r, hr, hf, _⟩ => ⟨?_, hready'⟩⟩
        rw [Option.some.inj (hs.symm.trans hr)]
        exact hf
      · rw [if_neg hj]
    cases h.phase with
    | unmounted hlive₀ htimers₀ href₀ hfeeds₀ =>
      exact .unmounted (hlive.trans hlive₀) (htimers.trans htimers₀) (href.trans href₀)
        fun j hf => hfeeds₀ j ((hfeeds j).mp hf)
    | waiting effect id hlive₀ htimers₀ hvar₀ hfeeds₀ =>
      exact .waiting effect id (hlive.trans hlive₀) (htimers.trans htimers₀) (hvar.trans hvar₀)
        fun j hf => hfeeds₀ j ((hfeeds j).mp hf)
    | fed effect k r hlive₀ htimers₀ href₀ hr heffect₀ hhooked₀ hready₀ hfeeds₀ =>
      have hlen : i < t.sockets.length := (List.getElem?_eq_some_iff.mp hs).1
      by_cases hk : k = i
      · subst hk
        obtain rfl := Option.some.inj (hs.symm.trans hr)
        exact .fed effect k s' (hlive.trans hlive₀) (htimers.trans htimers₀) (href.trans href₀)
          (by rw [hsockets, List.getElem?_set_self hlen]) (heffect.trans heffect₀)
          (hhooked.trans hhooked₀) hready' fun j hf => hfeeds₀ j ((hfeeds j).mp hf)
      · exact .fed effect k r (hlive.trans hlive₀) (htimers.trans htimers₀) (href.trans href₀)
          (by rw [hsockets, List.getElem?_set_ne (Ne.symm hk), hr]) heffect₀ hhooked₀ hready₀
          fun j hf => hfeeds₀ j ((hfeeds j).mp hf)
  settled r hr := by
    rcases List.mem_or_eq_of_mem_set (hsockets ▸ hr) with hr | rfl
    · exact h.settled r hr
    · exact hsettled
  view k r href' hr := by
    rw [href] at href'
    have hlen : i < t.sockets.length := (List.getElem?_eq_some_iff.mp hs).1
    by_cases hk : k = i
    · subst hk
      rw [hsockets, List.getElem?_set_self hlen] at hr
      obtain rfl := Option.some.inj hr
      exact hview href'
    · rw [hsockets, List.getElem?_set_ne (Ne.symm hk)] at hr
      rw [hother fun hi => hk (Option.some.inj (href'.symm.trans hi)), h.view k r href' hr]

/-- A socket the hook made is open or on its way; the run of the effect is still live. -/
theorem TabInv.current (h : TabInv t) (hf : t.Feeds i) :
    t.wsRef = some i ∧ ∃ r, t.sockets[i]? = some r ∧ t.live = some r.effect ∧ t.timers = [] ∧
      ∀ j, t.Feeds j → j = i := by
  cases h.phase with
  | unmounted _ _ _ hfeeds => exact absurd hf (hfeeds i)
  | waiting _ _ _ _ _ hfeeds => exact absurd hf (hfeeds i)
  | fed effect k r hlive htimers href hr heffect _ _ hfeeds =>
    obtain rfl := hfeeds i hf
    exact ⟨href, r, hr, heffect ▸ hlive, htimers, hfeeds⟩

theorem settled_unhooked (h : s.Settled) (hopen : s.ready = .open) : s.hooked = true := by
  by_contra hh
  rw [Socket.Settled, if_neg hh] at h
  exact h.1 hopen

theorem settled_hooked (h : s.Settled) (hh : s.hooked = true) : s.closeOnOpen = false := by
  rwa [Socket.Settled, if_pos hh] at h

/-- A new socket of the live run, where nothing feeds the tab and no timer is pending. -/
theorem tabInv_connect {effect : ℕ} (hlive : t.live = some effect)
    (hsettled : ∀ r ∈ t.sockets, r.Settled) (hfeeds : ∀ j, ¬t.Feeds j) (htimers : t.timers = []) :
    TabInv (t.connect effect) := by
  set r : Socket := ⟨.connecting, effect, true, false, t.view, []⟩ with hr
  have hconnect : t.connect effect
      = { t with sockets := t.sockets ++ [r], wsRef := some t.sockets.length } := if_pos hlive
  have hlast : (t.sockets ++ [r])[t.sockets.length]? = some r := List.getElem?_concat_length ..
  rw [hconnect]
  refine ⟨.fed effect t.sockets.length r hlive htimers rfl hlast rfl rfl (by simp [hr]) ?_, ?_, ?_⟩
  · rintro j ⟨q, hq, hhooked, hready⟩
    by_contra hj
    have hlt : j < t.sockets.length := by
      have hle := (List.getElem?_eq_some_iff.mp hq).1
      rw [List.length_append, List.length_singleton] at hle
      omega
    rw [List.getElem?_append_left hlt] at hq
    exact hfeeds j ⟨q, hq, hhooked, hready⟩
  · intro q hq
    rcases List.mem_append.mp hq with hq | hq
    · exact hsettled q hq
    · rw [List.mem_singleton.mp hq]
      rfl
  · intro j q href hq
    obtain rfl := Option.some.inj href
    obtain rfl := Option.some.inj (hlast.symm.trans hq)
    rfl

theorem tabInv_onopen (h : TabInv t) (hs : t.sockets[i]? = some s) (hready : s.ready = .connecting) :
    TabInv (t.onopen i s) := by
  have hset := h.settled s (List.mem_of_getElem? hs)
  have hne : s.ready ≠ .closed := by simp [hready]
  have hview := fun href => h.view i s href hs
  rw [Tab.onopen]
  by_cases hh : s.hooked = true
  · have hkeep := settled_hooked hset hh
    have hopen : Socket.Settled { s with ready := .open } := by
      rw [Socket.Settled, if_pos hh]
      exact hkeep
    rw [if_neg (by simp [hkeep])]
    split
    · exact h.update { s with ready := .open } hs hne rfl rfl (by simp) hopen rfl rfl rfl rfl rfl hview fun _ => rfl
    · exact h.update { s with ready := .open } hs hne rfl rfl (by simp) hopen rfl rfl rfl rfl rfl hview fun _ => rfl
  · -- the cleanup has replaced its `onopen`
    have hclose : s.closeOnOpen = true := by
      rw [Socket.Settled, if_neg hh] at hset
      exact hset.2 hready
    have hclosing : Socket.Settled { s with ready := .closing } := by
      rw [Socket.Settled, if_neg hh]
      exact ⟨by simp, by simp⟩
    rw [if_pos hclose]
    exact h.update { s with ready := .closing } hs hne rfl rfl (by simp) hclosing rfl rfl rfl rfl rfl
      hview fun _ => rfl

theorem tabInv_onmessage (h : TabInv t) (hs : t.sockets[i]? = some s) (hready : s.ready = .open)
    (msg : WsMessage) : TabInv (t.onmessage i s msg) := by
  have hset := h.settled s (List.mem_of_getElem? hs)
  have hh := settled_unhooked hset hready
  obtain ⟨href, -⟩ := h.current ⟨s, hs, hh, by simp [hready]⟩
  rw [Tab.onmessage, if_pos hh]
  refine h.update { s with received := s.received ++ [msg] } hs (by simp [hready]) rfl rfl
    (by simp [hready]) ?_ rfl rfl rfl rfl rfl ?_ ?_
  · rw [Socket.Settled, if_pos hh]
    exact settled_hooked hset hh
  · intro _
    rw [List.foldl_append, ← h.view i s href hs]
    rfl
  · exact fun hne => absurd href hne

theorem tabInv_closing (h : TabInv t) (hs : t.sockets[i]? = some s) (hready : s.ready = .open) :
    TabInv (t.setSocket i { s with ready := .closing }) := by
  have hset := h.settled s (List.mem_of_getElem? hs)
  have hh := settled_unhooked hset hready
  refine h.update { s with ready := .closing } hs (by simp [hready]) rfl rfl (by simp) ?_ rfl rfl rfl
    rfl rfl (fun href => h.view i s href hs) fun _ => rfl
  have hkeep := settled_hooked hset hh
  rw [Socket.Settled, if_pos hh]
  exact hkeep

/-- The feeding socket closes and the hook waits; an abandoned one just closes. -/
theorem tabInv_onclose (h : TabInv t) (hs : t.sockets[i]? = some s) (hready : s.ready ≠ .closed) :
    TabInv (t.onclose i s) := by
  have hset := h.settled s (List.mem_of_getElem? hs)
  have hsettled' : Socket.Settled { s with ready := .closed } := by
    by_cases hh : s.hooked = true
    · have hkeep := settled_hooked hset hh
      rw [Socket.Settled, if_pos hh]
      exact hkeep
    · rw [Socket.Settled, if_neg hh]
      exact ⟨by simp, by simp⟩
  have hsettled : ∀ r ∈ t.sockets.set i { s with ready := .closed }, r.Settled := by
    intro r hr
    rcases List.mem_or_eq_of_mem_set hr with hr | rfl
    · exact h.settled r hr
    · exact hsettled'
  have hlen : i < t.sockets.length := (List.getElem?_eq_some_iff.mp hs).1
  have hview : ∀ k r, t.wsRef = some k → (t.sockets.set i { s with ready := .closed })[k]? = some r →
      t.view = r.received.foldl View.onMessage r.before := by
    intro k r href hr
    by_cases hk : k = i
    · subst hk
      rw [List.getElem?_set_self hlen] at hr
      obtain rfl := Option.some.inj hr
      exact h.view k s href hs
    · rw [List.getElem?_set_ne (Ne.symm hk)] at hr
      exact h.view k r href hr
  have hfeeds : ∀ t'' : Tab, t''.sockets = t.sockets.set i { s with ready := .closed } →
      ∀ j, t''.Feeds j → j ≠ i ∧ t.Feeds j := by
    intro t'' hsockets j hj
    rw [feeds_set_iff hs hsockets] at hj
    split at hj
    · exact absurd rfl hj.2
    · next hne => exact ⟨hne, hj⟩
  rw [Tab.onclose]
  by_cases hh : s.hooked = true
  · obtain ⟨-, r, hr, hlive, htimers, hunique⟩ := h.current ⟨s, hs, hh, hready⟩
    obtain rfl := Option.some.inj (hs.symm.trans hr)
    rw [if_pos ⟨hh, hlive⟩]
    refine ⟨.waiting s.effect t.timerIds hlive ?_ rfl fun j hj => ?_, hsettled, hview⟩
    · exact congrArg (· ++ [(t.timerIds, s.effect)]) htimers
    · obtain ⟨hne, hj⟩ := hfeeds _ rfl j hj
      exact hne (hunique j hj)
  · rw [if_neg fun hc => hh hc.1]
    refine ⟨?_, hsettled, hview⟩
    cases h.phase with
    | unmounted hlive htimers href hnone =>
      exact .unmounted hlive htimers href fun j hj => hnone j (hfeeds _ rfl j hj).2
    | waiting effect id hlive htimers hvar hnone =>
      exact .waiting effect id hlive htimers hvar fun j hj => hnone j (hfeeds _ rfl j hj).2
    | fed effect k r hlive htimers href hr heffect hhooked hopen hunique =>
      have hk : k ≠ i := by
        rintro rfl
        obtain rfl := Option.some.inj (hs.symm.trans hr)
        exact hh hhooked
      exact .fed effect k r hlive htimers href
        ((List.getElem?_set_ne (Ne.symm hk)).trans hr) heffect hhooked hopen
        fun j hj => hunique j (hfeeds _ rfl j hj).2

theorem settled_abandon (s : Socket) : (Tab.abandon s).Settled ∧ (Tab.abandon s).hooked = false := by
  rw [Tab.abandon]
  split
  · next hready => exact ⟨by simp [Socket.Settled, hready], rfl⟩
  · next hready =>
    cases h : s.ready with
    | connecting => exact absurd h hready
    | «open» => simp [Socket.close, Socket.Settled]
    | closing => simp [Socket.close, Socket.Settled]
    | closed => simp [Socket.close, Socket.Settled]

theorem tabInv_cleanup (h : TabInv t) : TabInv t.cleanup := by
  have htimers : t.cleanup.timers = [] := by
    simp only [Tab.cleanup]
    cases h.phase with
    | unmounted _ htimers => simp [htimers]
    | waiting effect id _ htimers hvar => simp [htimers, hvar]
    | fed _ _ _ _ htimers => simp [htimers]
  have hfeeds : ∀ j, ¬t.cleanup.Feeds j := by
    rintro j ⟨r, hr, hh, hready⟩
    cases href : t.wsRef with
    | none =>
      have hsame : t.cleanup.sockets = t.sockets := by rw [Tab.cleanup, href]
      obtain ⟨href', -⟩ := h.current ⟨r, hsame ▸ hr, hh, hready⟩
      simp [href] at href'
    | some k =>
      have hmodify : t.cleanup.sockets = t.sockets.modify k Tab.abandon := by rw [Tab.cleanup, href]
      rw [hmodify, List.getElem?_modify] at hr
      obtain ⟨q, hq, rfl⟩ := Option.map_eq_some_iff.mp hr
      by_cases hk : k = j
      · rw [if_pos hk] at hh
        simp [(settled_abandon q).2] at hh
      · rw [if_neg hk] at hh hready
        obtain ⟨href', -⟩ := h.current ⟨q, hq, hh, hready⟩
        exact hk (Option.some.inj (href.symm.trans href'))
  refine ⟨.unmounted rfl htimers rfl hfeeds, ?_, fun k r href => absurd href (by simp [Tab.cleanup])⟩
  intro r hr
  cases href : t.wsRef with
  | none =>
    have hsame : t.cleanup.sockets = t.sockets := by rw [Tab.cleanup, href]
    exact h.settled r (hsame ▸ hr)
  | some k =>
    have hmodify : t.cleanup.sockets = t.sockets.modify k Tab.abandon := by rw [Tab.cleanup, href]
    obtain ⟨j, hj⟩ := List.mem_iff_getElem?.mp (hmodify ▸ hr)
    rw [List.getElem?_modify] at hj
    obtain ⟨q, hq, rfl⟩ := Option.map_eq_some_iff.mp hj
    split
    · exact (settled_abandon q).1
    · exact h.settled q (List.mem_of_getElem? hq)

theorem tabInv_step (h : TabInv t) {e : TabEvent} (hstep : tabStep t e = some t') : TabInv t' := by
  cases e with
  | mount =>
    simp only [tabStep] at hstep
    split at hstep
    · next hnone =>
      obtain rfl := Option.some.inj hstep
      have hquiet : t.timers = [] ∧ ∀ j, ¬t.Feeds j := by
        cases h.phase with
        | unmounted _ htimers _ hfeeds => exact ⟨htimers, hfeeds⟩
        | waiting _ _ hlive => exact absurd (hnone.symm.trans hlive) (by simp)
        | fed _ _ _ hlive => exact absurd (hnone.symm.trans hlive) (by simp)
      exact tabInv_connect rfl h.settled hquiet.2 hquiet.1
    · simp at hstep
  | unmount =>
    simp only [tabStep] at hstep
    split at hstep
    · simp at hstep
    · obtain rfl := Option.some.inj hstep
      exact tabInv_cleanup h
  | timer id =>
    obtain ⟨timer, hfind, rfl⟩ := Option.map_eq_some_iff.mp hstep
    have hmem := List.mem_of_find?_eq_some hfind
    cases h.phase with
    | unmounted _ htimers => simp [htimers] at hmem
    | fed _ _ _ _ htimers => simp [htimers] at hmem
    | waiting effect id hlive htimers hvar hfeeds =>
      rw [htimers] at hmem
      obtain rfl := List.mem_singleton.mp hmem
      exact tabInv_connect hlive h.settled hfeeds (by simp [htimers])
  | opened i =>
    simp only [tabStep] at hstep
    split at hstep
    · next s hs =>
      split at hstep
      · next hready =>
        obtain rfl := Option.some.inj hstep
        exact tabInv_onopen h hs hready
      · simp at hstep
    · simp at hstep
  | message i msg =>
    simp only [tabStep] at hstep
    split at hstep
    · next s hs =>
      split at hstep
      · next hready =>
        obtain rfl := Option.some.inj hstep
        exact tabInv_onmessage h hs hready msg
      · simp at hstep
    · simp at hstep
  | closing i =>
    simp only [tabStep] at hstep
    split at hstep
    · next s hs =>
      split at hstep
      · next hready =>
        obtain rfl := Option.some.inj hstep
        exact tabInv_closing h hs hready
      · simp at hstep
    · simp at hstep
  | closed i =>
    simp only [tabStep] at hstep
    split at hstep
    · next s hs =>
      split at hstep
      · simp at hstep
      · next hready =>
        obtain rfl := Option.some.inj hstep
        exact tabInv_onclose h hs hready
    · simp at hstep

end Steps

/-! ### Runs of a tab -/

theorem tabInv_init (view : View) : TabInv (.init view) where
  phase := .unmounted rfl rfl rfl fun i hf => by simp [Tab.Feeds, Tab.init] at hf
  settled s hs := absurd hs List.not_mem_nil
  view i s href := nomatch href

/-- After a snapshot it does not matter what the store was before. -/
theorem foldl_snapshot {events : List InteractionEvent} {gateways : Dict PyStr GatewayPayload}
    {total : ℕ} {connected : Bool} (rest : List WsMessage) (v w : View) :
    (WsMessage.snapshot events gateways total connected :: rest).foldl View.onMessage v
      = (WsMessage.snapshot events gateways total connected :: rest).foldl View.onMessage w := rfl

/-- Between cleanup and the next mount no event reaches the store, and no socket is made. -/
theorem unmounted_silent {t t' : Tab} (h : TabInv t) (hlive : t.live = none) {e : TabEvent}
    (he : e ≠ .mount) (hstep : tabStep t e = some t') :
    t'.view = t.view ∧ t'.wsConnected = t.wsConnected ∧ t'.sockets.length = t.sockets.length := by
  have hquiet : t.timers = [] ∧ ∀ i, ¬t.Feeds i := by
    cases h.phase with
    | unmounted _ htimers _ hfeeds => exact ⟨htimers, hfeeds⟩
    | waiting _ _ hsome => exact absurd (hlive.symm.trans hsome) (by simp)
    | fed _ _ _ hsome => exact absurd (hlive.symm.trans hsome) (by simp)
  have hdead : ∀ effect, ¬t.Live effect := fun effect hl => by simp [Tab.Live, hlive] at hl
  cases e with
  | mount => exact absurd rfl he
  | unmount => simp [tabStep, hlive] at hstep
  | timer id => simp [tabStep, hquiet.1] at hstep
  | opened i =>
    simp only [tabStep] at hstep
    split at hstep
    · next s hs =>
      split at hstep
      · obtain rfl := Option.some.inj hstep
        rw [Tab.onopen, if_neg (hdead _)]
        split <;> exact ⟨rfl, rfl, List.length_set⟩
      · simp at hstep
    · simp at hstep
  | message i msg =>
    simp only [tabStep] at hstep
    split at hstep
    · next s hs =>
      split at hstep
      · next hready =>
        have hh := settled_unhooked (h.settled s (List.mem_of_getElem? hs)) hready
        exact absurd ⟨s, hs, hh, by simp [hready]⟩ (hquiet.2 i)
      · simp at hstep
    · simp at hstep
  | closing i =>
    simp only [tabStep] at hstep
    split at hstep
    · split at hstep
      · obtain rfl := Option.some.inj hstep
        exact ⟨rfl, rfl, List.length_set⟩
      · simp at hstep
    · simp at hstep
  | closed i =>
    simp only [tabStep] at hstep
    split at hstep
    · next s hs =>
      split at hstep
      · simp at hstep
      · obtain rfl := Option.some.inj hstep
        rw [Tab.onclose, if_neg fun hc => hdead s.effect hc.2]
        exact ⟨rfl, rfl, List.length_set⟩
    · simp at hstep

/-- One socket feeds a tab. In every run, over any order of mounts, unmounts, timers and socket events:
    at most one socket can reach the store; while mounted there is one, or else exactly one timer that
    will make one; after an unmount nothing reaches the store until the next mount, and no abandoned
    socket stays open; and the store is what the current socket has sent, whatever came before its
    snapshot. -/
theorem hook_feeds_one {view : View} {t : Tab} (h : Reach tabStep anyStep (.init view) t) :
    (∀ i j, t.Feeds i → t.Feeds j → i = j) ∧
    (∀ effect, t.live = some effect →
      ((∃ i, t.Feeds i) ∧ t.timers = []) ∨ (∀ i, ¬t.Feeds i) ∧ ∃ id, t.timers = [(id, effect)]) ∧
    (t.live = none → ∀ e t', e ≠ .mount → tabStep t e = some t' →
      t'.view = t.view ∧ t'.wsConnected = t.wsConnected ∧ t'.sockets.length = t.sockets.length) ∧
    (∀ s ∈ t.sockets, s.ready = .open → s.hooked = true) ∧
    ∀ i s events gateways total connected rest v, t.wsRef = some i → t.sockets[i]? = some s →
      s.received = .snapshot events gateways total connected :: rest →
      t.view = s.received.foldl View.onMessage v := by
  have inv : TabInv t := h.invariant (tabInv_init view)
    fun t _ t' ht _ hstep => tabInv_step ht hstep
  refine ⟨?_, ?_, ?_, ?_, ?_⟩
  · intro i j hi hj
    obtain ⟨-, -, -, -, -, hunique⟩ := inv.current hj
    exact hunique i hi
  · intro effect hlive
    cases inv.phase with
    | unmounted hnone => exact absurd (hnone.symm.trans hlive) (by simp)
    | waiting effect' id hlive' htimers _ hfeeds =>
      obtain rfl := Option.some.inj (hlive'.symm.trans hlive)
      exact .inr ⟨hfeeds, id, htimers⟩
    | fed effect' i s hlive' htimers _ hs _ hhooked hready _ =>
      exact .inl ⟨⟨i, s, hs, hhooked, hready⟩, htimers⟩
  · exact fun hlive e t' he hstep => unmounted_silent inv hlive he hstep
  · exact fun s hs hready => settled_unhooked (inv.settled s hs) hready
  · intro i s events gateways total connected rest v href hs hreceived
    rw [inv.view i s href hs, hreceived]
    exact foldl_snapshot rest _ v

/-- Strict mode, a dropped connection, and a timer. -/
def strictRun : List TabEvent :=
  [.mount, .unmount, .mount, .opened 0, .opened 1, .message 1 (.snapshot [] ⟨[], .nil⟩ 0 true),
    .message 1 (.transport false), .closing 1, .closed 0, .closed 1, .timer 0, .opened 2]

theorem hook_feeds_one_strict :
    ∃ t, Reach tabStep anyStep (.init ⟨[], ⟨[], .nil⟩, 0, false⟩) t ∧ t.Feeds 2 ∧
      (∀ i, t.Feeds i → i = 2) ∧ t.sockets.map Socket.ready = [.closed, .closed, .open] := by
  have hrun : (exec (guarded anyStep tabStep) (.init ⟨[], ⟨[], .nil⟩, 0, false⟩) strictRun).map
      (fun t => (t.sockets.map Socket.ready, (t.sockets[2]?.map Socket.hooked))) =
        some ([.closed, .closed, .open], some true) := by
    decide +kernel
  obtain ⟨t, ht, heq⟩ := Option.map_eq_some_iff.mp hrun
  obtain ⟨hready, hhooked⟩ := Prod.mk.inj heq
  have hreach : Reach tabStep anyStep (.init ⟨[], ⟨[], .nil⟩, 0, false⟩) t :=
    .of_exec strictRun .start ht
  obtain ⟨s, hs, hh⟩ := Option.map_eq_some_iff.mp hhooked
  have hopen : s.ready = .open := by
    have hthird : (t.sockets.map Socket.ready)[2]? = some .open := by rw [hready]; rfl
    rw [List.getElem?_map, hs, Option.map_some, Option.some.injEq] at hthird
    exact hthird
  have hfeeds : t.Feeds 2 := ⟨s, hs, hh, by simp [hopen]⟩
  obtain ⟨hone, -⟩ := hook_feeds_one hreach
  exact ⟨t, hreach, hfeeds, fun i hi => hone i 2 hi hfeeds, hready⟩

end SeeedMote.App
