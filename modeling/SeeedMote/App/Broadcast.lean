import SeeedMote.Lib.PySet
import SeeedMote.Lib.Run

/-! `broadcast` of `main.py` on the event loop: a loop over the live set `ws_clients` that awaits a
    send for every member, while `websocket_endpoint` adds and discards members at the same awaits.

        next ──▶ await send ──▶ next ──▶ await send ──▶ … ──▶ difference_update(dead)
                   │ connects, disconnects │
        next with another size than at the start ──▶ RuntimeError -/

namespace SeeedMote.App
open Lib

/-- A WebSocket object; every connection makes a new one. -/
abbrev Client := ℕ

/-- `ws_clients`, the sockets that were ever in it, and those whose endpoint has ended. -/
structure Room where
  clients : PySet Client
  known : List Client
  gone : List Client
  deriving DecidableEq

inductive Phase where
  /-- Awaiting `ws.send_text(data)`. -/
  | sending (ws : Client)
  | finished
  | raised
  deriving DecidableEq

/-- The coroutine: the set iterator (`used0`, `pos`), the clients that got the message, `dead`. -/
structure Broadcasting where
  room : Room
  used0 : ℕ
  pos : ℕ
  phase : Phase
  got : List Client
  dead : List Client
  deriving DecidableEq

/-- From one loop head to the next await, or to the end of the coroutine. -/
def advance (t : Broadcasting) : Broadcasting :=
  if t.room.clients.used ≠ t.used0 then { t with phase := .raised }
  else
    match t.room.clients.next? t.pos with
    | some (i, ws) => { t with pos := i + 1, phase := .sending ws }
    | none =>
      { t with
        phase := .finished
        room := { t.room with clients := t.room.clients.filter fun ws => ws ∉ t.dead } }

/-- `broadcast` up to its first await, with `clients` connected. -/
def broadcast (clients : PySet Client) : Broadcasting :=
  let t : Broadcasting := ⟨⟨clients, clients.members, []⟩, clients.used, 0, .finished, [], []⟩
  if clients.used = 0 then t else advance t

/-! ### Runs -/

/-- Where `add` puts a new member. -/
inductive Place where
  | slot (i : ℕ)
  | rebuilt (slots : List (Option Client))
  deriving DecidableEq

inductive WsEvent where
  /-- `ws_clients.add` for a new connection. -/
  | connect (ws : Client) (place : Place)
  /-- `ws_clients.discard` when an endpoint ends. -/
  | disconnect (ws : Client)
  /-- The awaited send returns or raises. -/
  | sendDone (ok : Bool)
  deriving DecidableEq

/-- `ws_clients.add(ws)`. -/
def Room.add (r : Room) (ws : Client) (place : Place) : Option Room :=
  if ws ∈ r.known then none
  else
    let added := match place with
      | .slot i => r.clients.insertAt i ws
      | .rebuilt slots => r.clients.rebuildWith slots ws
    added.map fun clients => { r with clients := clients, known := ws :: r.known }

/-- `ws_clients.discard(ws)`. -/
def Room.discard (r : Room) (ws : Client) : Option Room :=
  if ws ∈ r.known ∧ ws ∉ r.gone then
    some { r with clients := r.clients.filter fun c => c ≠ ws, gone := ws :: r.gone }
  else none

/-- The resumed coroutine records the outcome of its send and goes on. -/
def sendDone (ok : Bool) (ws : Client) (t : Broadcasting) : Broadcasting :=
  if ok then advance { t with got := t.got ++ [ws] } else advance { t with dead := t.dead ++ [ws] }

def broadcastStep (t : Broadcasting) (e : WsEvent) : Option Broadcasting :=
  match t.phase, e with
  | .sending _, .connect ws place => (t.room.add ws place).map fun r => { t with room := r }
  | .sending _, .disconnect ws => (t.room.discard ws).map fun r => { t with room := r }
  | .sending ws, .sendDone ok => some (sendDone ok ws t)
  | _, _ => none

/-- The set has its starting size whenever the loop resumes, and no new member rebuilds it. -/
def resumesClear (t : Broadcasting) : WsEvent → Prop
  | .connect _ (.rebuilt _) => False
  | .sendDone _ => t.room.clients.used = t.used0
  | _ => True

instance (t : Broadcasting) (e : WsEvent) : Decidable (resumesClear t e) := by
  unfold resumesClear; split <;> infer_instance

/-- What a broadcast to `start` owes to its clients. -/
structure Reliable (start : PySet Client) (t : Broadcasting) : Prop where
  noRaise : t.phase ≠ .raised
  /-- The loop ends: it awaits at most one send per slot. -/
  bounded : t.got.length + t.dead.length ≤ start.slots.length
  delivered : t.phase = .finished → ∀ ws ∈ start.members, ws ∉ t.room.gone → ws ∉ t.dead →
    t.got.count ws = 1
  removed : t.phase = .finished → ∀ ws ∈ t.dead, ws ∉ t.room.clients.members
  kept : t.phase = .finished → ∀ ws ∈ t.room.known, ws ∉ t.room.gone → ws ∉ t.dead →
    ws ∈ t.room.clients.members

/-! ### The walk over the slots -/

/-- The iterator at `pos`, after the sends to `visited`: clients of the start that stay are in their
    slots, and were sent to exactly when their slot lies before `pos`. -/
structure Walk (start : PySet Client) (r : Room) (pos : ℕ) (visited : List Client) : Prop where
  length_eq : r.clients.slots.length = start.slots.length
  pos_le : pos ≤ start.slots.length
  visited_le : visited.length ≤ pos
  known : ∀ ws ∈ r.clients.members, ws ∈ r.known
  stays : ∀ i ws, start.At i ws → ws ∉ r.gone → r.clients.At i ws
  once : ∀ i ws, start.At i ws → ws ∉ r.gone → visited.count ws = if i < pos then 1 else 0
  kept : ∀ ws ∈ r.known, ws ∉ r.gone → ws ∈ r.clients.members

theorem Walk.perm {start : PySet Client} {r : Room} {pos : ℕ} {visited visited' : List Client}
    (h : Walk start r pos visited) (hp : visited.Perm visited') : Walk start r pos visited' :=
  { h with
    visited_le := hp.length_eq ▸ h.visited_le
    once := fun i ws hi hg => (hp.count_eq ws) ▸ h.once i ws hi hg }

theorem walk_start (start : PySet Client) : Walk start ⟨start, start.members, []⟩ 0 [] where
  length_eq := rfl
  pos_le := Nat.zero_le _
  visited_le := Nat.le_refl _
  known _ h := h
  stays _ _ h _ := h
  once := by simp
  kept _ h _ := h

/-- A new member in a free slot disturbs no slot in use. -/
theorem Walk.add {start : PySet Client} {r r' : Room} {pos : ℕ} {visited : List Client}
    (h : Walk start r pos visited) {ws : Client} {i : ℕ} (hr : r.add ws (.slot i) = some r') :
    Walk start r' pos visited := by
  rw [Room.add] at hr
  split at hr
  · simp at hr
  · obtain ⟨clients, hins, rfl⟩ := Option.map_eq_some_iff.mp hr
    obtain ⟨-, hlen, hat⟩ := PySet.insertAt_spec hins
    have hmem : ∀ c, c ∈ clients.members ↔ c = ws ∨ c ∈ r.clients.members := by
      intro c
      simp only [PySet.mem_members_iff, hat, exists_or]
      exact or_congr_left ⟨fun ⟨_, _, hc⟩ => hc, fun hc => ⟨i, rfl, hc⟩⟩
    exact
      { length_eq := hlen.trans h.length_eq
        pos_le := h.pos_le
        visited_le := h.visited_le
        known := fun c hc => by
          rcases (hmem c).mp hc with rfl | hc
          · exact List.mem_cons_self ..
          · exact List.mem_cons_of_mem _ (h.known c hc)
        stays := fun j c hj hg => (hat j c).mpr (.inr (h.stays j c hj hg))
        once := h.once
        kept := fun c hc hg => by
          rcases List.mem_cons.mp hc with rfl | hc
          · exact (hmem c).mpr (.inl rfl)
          · exact (hmem c).mpr (.inr (h.kept c hc hg)) }

/-- A discard frees the slot of a client that no longer counts. -/
theorem Walk.discard {start : PySet Client} {r r' : Room} {pos : ℕ} {visited : List Client}
    (h : Walk start r pos visited) {ws : Client} (hr : r.discard ws = some r') :
    Walk start r' pos visited := by
  rw [Room.discard] at hr
  split at hr
  · obtain rfl := Option.some.inj hr
    have hne : ∀ c, c ∉ ws :: r.gone → c ≠ ws ∧ c ∉ r.gone := fun c hc =>
      ⟨fun he => hc (he ▸ List.mem_cons_self ..), fun hm => hc (List.mem_cons_of_mem _ hm)⟩
    exact
      { length_eq := (PySet.length_slots_filter _ _).trans h.length_eq
        pos_le := h.pos_le
        visited_le := h.visited_le
        known := fun c hc => h.known c ((PySet.mem_filter _ _ _).mp hc).1
        stays := fun j c hj hg => (PySet.filter_at _ _ _ _).mpr
          ⟨h.stays j c hj (hne c hg).2, decide_eq_true (hne c hg).1⟩
        once := fun j c hj hg => h.once j c hj (hne c hg).2
        kept := fun c hc hg => (PySet.mem_filter _ _ _).mpr
          ⟨h.kept c hc (hne c hg).2, decide_eq_true (hne c hg).1⟩ }
  · simp at hr

/-- The iterator moves to the next member. -/
theorem Walk.next {start : PySet Client} {r : Room} {pos : ℕ} {visited : List Client}
    (h : Walk start r pos visited) {i : ℕ} {ws : Client}
    (hnext : r.clients.next? pos = some (i, ws)) : Walk start r (i + 1) (visited ++ [ws]) := by
  obtain ⟨hpos, hat, hfirst⟩ := PySet.next?_eq_some hnext
  refine
    { h with
      pos_le := h.length_eq ▸ hat.lt_length
      visited_le := by have := h.visited_le; simp; omega
      once := fun j c hj hg => ?_ }
  have hj' := h.stays j c hj hg
  rw [List.count_append, h.once j c hj hg]
  by_cases hij : j = i
  · subst hij
    obtain rfl := hat.inj hj'
    simp [Nat.not_lt.mpr hpos]
  · have hne : ws ≠ c := fun he => hij ((he ▸ hj' : r.clients.At j ws).unique hat)
    -- a slot passed over would hold a member before the first one
    have hside : j < pos ↔ j < i + 1 := by
      constructor
      · omega
      · intro hlt
        by_contra hge
        exact hfirst j c (by omega) (by omega) hj'
    simp [hne, hside]

/-! ### Invariant of the coroutine -/

def LoopInv (start : PySet Client) (t : Broadcasting) : Prop :=
  match t.phase with
  | .sending ws => Walk start t.room t.pos (t.got ++ t.dead ++ [ws])
  | _ => Reliable start t

/-- At the end of the walk everybody who stayed was sent to. -/
theorem Walk.finish {start : PySet Client} {t : Broadcasting}
    (h : Walk start t.room t.pos (t.got ++ t.dead)) (hnext : t.room.clients.next? t.pos = none) :
    Reliable start
      { t with
        phase := .finished
        room := { t.room with clients := t.room.clients.filter fun ws => ws ∉ t.dead } } where
  noRaise := by simp
  bounded := by
    have hle := Nat.le_trans h.visited_le h.pos_le
    rwa [List.length_append] at hle
  delivered := by
    intro _ ws hws hg hd
    obtain ⟨i, hi⟩ := (PySet.mem_members_iff _ _).mp hws
    have hlt : i < t.pos := by
      by_contra hge
      exact PySet.next?_eq_none hnext i ws (Nat.le_of_not_lt hge) (h.stays i ws hi hg)
    have hone := h.once i ws hi hg
    rwa [if_pos hlt, List.count_append, List.count_eq_zero.mpr hd, Nat.add_zero] at hone
  removed := fun _ ws hd hmem => by simpa [hd] using ((PySet.mem_filter _ _ _).mp hmem).2
  kept := fun _ ws hk hg hd => (PySet.mem_filter _ _ _).mpr ⟨h.kept ws hk hg, decide_eq_true hd⟩

/-- One loop head with the starting size. -/
theorem advance_spec {start : PySet Client} {t : Broadcasting}
    (h : Walk start t.room t.pos (t.got ++ t.dead)) (hused : t.room.clients.used = t.used0) :
    LoopInv start (advance t) := by
  rw [advance]
  rw [if_neg (by simpa using hused)]
  cases hnext : t.room.clients.next? t.pos with
  | some x => exact h.next hnext
  | none => exact h.finish hnext

/-- One loop head with another size. -/
theorem advance_raises {t : Broadcasting} (h : t.room.clients.used ≠ t.used0) :
    (advance t).phase = .raised := by
  rw [advance, if_pos h]

theorem loopInv_start (start : PySet Client) : LoopInv start (broadcast start) := by
  rw [broadcast]
  by_cases hempty : start.used = 0
  · have hnil : start.members = [] := List.length_eq_zero_iff.mp hempty
    rw [if_pos hempty]
    exact ⟨by simp, by simp, by simp [hnil], by simp, by simp⟩
  · rw [if_neg hempty]
    exact advance_spec (walk_start start) rfl

theorem LoopInv.reliable {start : PySet Client} {t : Broadcasting} (h : LoopInv start t) :
    Reliable start t := by
  rw [LoopInv] at h
  cases hp : t.phase with
  | sending ws =>
    rw [hp] at h
    have hle := Nat.le_trans h.visited_le h.pos_le
    simp only [List.length_append, List.length_singleton] at hle
    exact ⟨by simp [hp], by omega, by simp [hp], by simp [hp], by simp [hp]⟩
  | finished => rw [hp] at h; exact h
  | raised => rw [hp] at h; exact h

theorem loopInv_step {start : PySet Client} {t t' : Broadcasting} {e : WsEvent}
    (h : LoopInv start t) (hok : resumesClear t e) (hstep : broadcastStep t e = some t') :
    LoopInv start t' := by
  simp only [broadcastStep] at hstep
  cases hp : t.phase with
  | finished => simp [hp] at hstep
  | raised => simp [hp] at hstep
  | sending ws =>
    rw [LoopInv, hp] at h
    rw [hp] at hstep
    cases e with
    | connect c place =>
      obtain ⟨r, hr, rfl⟩ := Option.map_eq_some_iff.mp hstep
      cases place with
      | slot i => simpa [LoopInv, hp] using h.add hr
      | rebuilt slots => exact absurd hok (by simp [resumesClear])
    | disconnect c =>
      obtain ⟨r, hr, rfl⟩ := Option.map_eq_some_iff.mp hstep
      simpa [LoopInv, hp] using h.discard hr
    | sendDone ok =>
      obtain rfl := Option.some.inj hstep
      rw [sendDone]
      cases ok with
      | true =>
        refine advance_spec (h.perm ?_) hok
        rw [List.append_assoc, List.append_assoc]
        exact List.Perm.append_left _ List.perm_append_comm
      | false =>
        refine advance_spec (h.perm ?_) hok
        rw [List.append_assoc]

/-! ### The broadcast -/

/-- Every broadcast whose resumes find the set at its starting size, not rebuilt, is reliable; the
    first resume that finds another size raises. -/
theorem broadcast_reliable (start : PySet Client) {t : Broadcasting}
    (h : Reach broadcastStep resumesClear (broadcast start) t) :
    Reliable start t ∧ ∀ ok t', broadcastStep t (.sendDone ok) = some t' →
      t.room.clients.used ≠ t.used0 → t'.phase = .raised := by
  have hinv : LoopInv start t :=
    h.invariant (loopInv_start start) fun _ _ _ hs hok hstep => loopInv_step hs hok hstep
  refine ⟨hinv.reliable, ?_⟩
  intro ok t' hstep hused
  simp only [broadcastStep] at hstep
  cases hp : t.phase with
  | finished => simp [hp] at hstep
  | raised => simp [hp] at hstep
  | sending ws =>
    simp only [hp, Option.some.injEq] at hstep
    subst hstep
    rw [sendDone]
    cases ok <;> exact advance_raises hused

/-- Two browsers, in a table of four slots. -/
def twoBrowsers : PySet Client := ⟨[some 0, none, some 1, none], by decide⟩

/-- During the first send one browser leaves and another comes; the second send fails. -/
def reload : List WsEvent :=
  [.disconnect 1, .connect 2 (.slot 3), .sendDone true, .sendDone false]

theorem broadcast_reliable_reload :
    ∃ t, exec (guarded resumesClear broadcastStep) (broadcast twoBrowsers) reload = some t ∧
      t.phase = .finished ∧ t.got = [0] ∧ t.dead = [2] ∧ Reliable twoBrowsers t := by
  have hrun : ∃ t, exec (guarded resumesClear broadcastStep) (broadcast twoBrowsers) reload = some t ∧
      t.phase = .finished ∧ t.got = [0] ∧ t.dead = [2] := by
    refine ⟨_, rfl, ?_⟩
    decide
  obtain ⟨t, ht, hfin, hgot, hdead⟩ := hrun
  exact ⟨t, ht, hfin, hgot, hdead, (broadcast_reliable _ (.of_exec reload .start ht)).1⟩

/-- A browser that connects during a send makes the loop raise: the rest gets nothing. -/
theorem broadcast_raises_on_connect :
    ¬∀ (start : PySet Client) (t : Broadcasting),
      Reach broadcastStep anyStep (broadcast start) t → Reliable start t := by
  intro h
  have hrun : ∃ t, exec (guarded anyStep broadcastStep) (broadcast twoBrowsers)
      [.connect 2 (.slot 1), .sendDone true] = some t ∧ t.phase = .raised := by
    refine ⟨_, rfl, ?_⟩
    decide
  obtain ⟨t, ht, hraised⟩ := hrun
  exact (h _ t (.of_exec _ .start ht)).noRaise hraised

end SeeedMote.App
