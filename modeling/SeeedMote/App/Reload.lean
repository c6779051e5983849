import SeeedMote.App.GatewayView

/-! A page against a reload of it. The events, the total, the gateways and the broker flag come to a
    browser by different broadcasts, each behind the change it reports; a reload brings all four at
    once by the snapshot.

        snapshot at connect ─▶ broadcasts in queue order ─▶ settled view  ≟  snapshot now

    Once nothing is left to broadcast the two views are the same. The flag is the part left to treat:
    the queue carries every notification made since, so its last one is what the server holds. -/

namespace SeeedMote.App
open Lib

/-! ### The broker flag -/

/-- What the flag of a page becomes when the queue is broadcast. -/
def flagAfter (queue : List Emission) (flag : Bool) : Bool :=
  queue.foldl (fun flag e => match e with | .transport connected => connected | _ => flag) flag

theorem flagAfter_append (q q' : List Emission) (flag : Bool) :
    flagAfter (q ++ q') flag = flagAfter q' (flagAfter q flag) := List.foldl_append

/-- The last notification decides, or none does. -/
theorem flagAfter_idem (q : List Emission) (flag : Bool) :
    flagAfter q (flagAfter q flag) = flagAfter q flag := by
  induction q using List.reverseRecOn with
  | nil => rfl
  | append_singleton q e ih =>
    rw [flagAfter_append, flagAfter_append]
    cases e with
    | event ev => exact ih
    | gateway gwId => exact ih
    | transport connected => rfl

variable {rt : PyRuntime} (c : Catalog rt)

/-- Once the queue is broadcast, the server's flag stands, here and in every browser. -/
structure FlagInv (s : Server) : Prop where
  queue : flagAfter s.queue s.connected = s.connected
  conns : ∀ b ∈ s.conns, flagAfter s.queue b.settled.brokerConnected = s.connected

/-- A step that leaves the flag alone and schedules no notification. -/
theorem FlagInv.frame {s s' : Server} (h : FlagInv s) (hc : s'.connected = s.connected)
    (hq : ∀ flag, flagAfter s'.queue flag = flagAfter s.queue flag)
    (hconns : ∀ b' ∈ s'.conns, ∃ b ∈ s.conns,
      b'.settled.brokerConnected = b.settled.brokerConnected) : FlagInv s' where
  queue := by rw [hq, hc]; exact h.queue
  conns b' hb' := by
    obtain ⟨b, hb, hflag⟩ := hconns b' hb'
    rw [hq, hc, hflag]
    exact h.conns b hb

theorem FlagInv.frame_same {s s' : Server} (h : FlagInv s) (hc : s'.connected = s.connected)
    (hq : s'.queue = s.queue) (hconns : s'.conns = s.conns) : FlagInv s' :=
  h.frame hc (fun _ => by rw [hq]) fun b hb => ⟨b, hconns ▸ hb, rfl⟩

/-- A message about something else. -/
theorem FlagInv.broadcast {s : Server} (h : FlagInv s) {msg : WsMessage}
    (hmsg : ∀ v : View, (v.onMessage msg).brokerConnected = v.brokerConnected) :
    FlagInv (s.broadcast msg) := by
  refine h.frame rfl (fun _ => rfl) ?_
  intro b' hb'
  obtain ⟨b, hb, rfl⟩ := List.mem_map.mp hb'
  exact ⟨b, hb, by rw [settled_send]; exact hmsg _⟩

theorem FlagInv.emit_gateway {s : Server} (h : FlagInv s) (gwId : PyStr) :
    FlagInv (s.emitMessage (s.messageOf c (.gateway gwId))) := by
  rw [Server.messageOf]
  cases s.store.gw.get? gwId with
  | none => exact h
  | some e => exact h.broadcast fun v => rfl

theorem FlagInv.emit_first {s : Server} (h : FlagInv s) {e : Emission} {es : List Emission}
    (hq : s.queue = e :: es) : FlagInv ({ s with queue := es }.emitMessage (s.messageOf c e)) := by
  cases e with
  | event ev =>
    have h' : FlagInv { s with queue := es } :=
      h.frame rfl (fun _ => by rw [hq]; rfl) fun b hb => ⟨b, hb, rfl⟩
    exact h'.broadcast fun v => rfl
  | gateway gwId =>
    have h' : FlagInv { s with queue := es } :=
      h.frame rfl (fun _ => by rw [hq]; rfl) fun b hb => ⟨b, hb, rfl⟩
    exact h'.emit_gateway c gwId
  | transport connected =>
    have hlast : flagAfter es connected = s.connected := by
      have hqueue := h.queue
      rw [hq] at hqueue
      exact hqueue
    refine ⟨?_, ?_⟩
    · change flagAfter es s.connected = s.connected
      rw [← hlast, flagAfter_idem]
    · intro b' hb'
      obtain ⟨b, -, rfl⟩ := List.mem_map.mp hb'
      rw [settled_send]
      exact hlast

theorem flagInv_init : FlagInv Server.init where
  queue := rfl
  conns := by simp [Server.init]

theorem flagInv_begin {s : Server} (h : FlagInv s) (f : Frame) (now nowTouch : ℚ) :
    FlagInv (s.begin now nowTouch f) := by
  cases f with
  | status gwId version => exact h.frame_same rfl rfl rfl
  | seen gwId rssi => exact h.frame_same rfl rfl rfl
  | event moteMac gwId packetId rssi =>
    rw [Server.begin]
    split
    · exact h.frame_same rfl rfl rfl
    · exact h.frame_same rfl rfl rfl

theorem flagInv_step {s s' : Server} {e : DashEvent} (h : FlagInv s)
    (hstep : dashStep c s e = some s') : FlagInv s' := by
  cases moves_of_dashStep c hstep with
  | message f now nowTouch hidle => exact flagInv_begin h f now nowTouch
  | announce ht =>
    exact h.frame rfl (fun _ => flagAfter_append ..) fun b hb => ⟨b, hb, rfl⟩
  | touch now ht => exact h.frame_same rfl rfl rfl
  | finish ht =>
    exact h.frame rfl (fun _ => flagAfter_append ..) fun b hb => ⟨b, hb, rfl⟩
  | transport connected hidle =>
    exact ⟨flagAfter_append .., fun b hb => flagAfter_append ..⟩
  | emit hq => exact h.emit_first c hq
  | reap now hsweep => exact h.frame_same rfl rfl rfl
  | @reapEmit gwId rest hs =>
    have h' : FlagInv { s with sweep := rest } := h.frame_same rfl rfl rfl
    exact h'.emit_gateway c gwId
  | connect id view hnew =>
    refine ⟨h.queue, ?_⟩
    intro b hb
    rcases List.mem_cons.mp hb with rfl | hb
    · exact h.queue
    · exact h.conns b hb
  | disconnect id =>
    exact h.frame rfl (fun _ => rfl) fun b hb => ⟨b, (List.mem_filter.mp hb).1, rfl⟩
  | receive id =>
    refine h.frame rfl (fun _ => rfl) ?_
    intro b' hb'
    obtain ⟨b, hb, rfl⟩ := List.mem_map.mp hb'
    refine ⟨b, hb, ?_⟩
    split
    · rw [settled_receive]
    · rfl

/-! ### The whole page -/

/-- In every state in which nothing is under way and nothing is left to broadcast, a page without
    overlap shows what it would show after a reload: the same events in the same order, the same
    total, the same flag and the same entry for every gateway. -/
theorem page_equals_reload {s : Server} (h : Reach (dashStep c) anyStep Server.init s)
    (hquiet : s.quiet) (hsweep : s.sweep = []) {b : Conn} (hb : b ∈ s.conns)
    (hoverlap : b.overlap = 0) (v : View) :
    let reloaded := v.onMessage (s.snapshotMessage c)
    b.settled.events = reloaded.events ∧ b.settled.total = reloaded.total ∧
      b.settled.brokerConnected = reloaded.brokerConnected ∧
      ∀ gwId, b.settled.gateways.get? gwId = reloaded.gateways.get? gwId := by
  have hdash : DashInv c s :=
    h.invariant (dashInv_init c) fun _ _ _ hs _ hstep => dashInv_step c hs hstep
  have hgateways : GatewayInv c s :=
    h.invariant (gatewayInv_init c) fun _ _ _ hs _ hstep => gatewayInv_step c hs hstep
  have hflag : FlagInv s :=
    h.invariant flagInv_init fun _ _ _ hs _ hstep => flagInv_step c hs hstep
  have hpend : s.pending = [] := by simp [Server.pending, hquiet.1, hquiet.2]
  obtain ⟨htotal, hevents⟩ := hdash.tracks b hb
  rw [hpend] at htotal hevents
  refine ⟨hevents hoverlap, ?_, ?_, ?_⟩
  · rw [hoverlap] at htotal
    exact htotal
  · have hconn := hflag.conns b hb
    rw [hquiet.2] at hconn
    exact hconn
  · have hdue : ∀ gwId, ¬s.due gwId := by
      rintro gwId (hq | ht | hs)
      · simp [hquiet.2] at hq
      · simp [hquiet.1, ThreadPc.gateway?] at ht
      · simp [hsweep] at hs
    intro gwId
    have hreload : (v.onMessage (s.snapshotMessage c)).gateways.get? gwId = s.gatewayMap c gwId :=
      Dict.assoc_map (fun _ => c.gatewayStatusPayload) gwId s.store.gw.entries
    rw [hreload]
    exact (hgateways.inStep b hb).settled hdue gwId

/-- The link to the broker comes and goes around a pickup, with one browser there from the start. -/
def flickering : List DashEvent :=
  [.transport true, .connect 0 emptyView, .transport false, .emit] ++ pickup 10 1 ++
    [.transport true, .emit, .emit]

theorem page_equals_reload_flickering :
    ∃ s, exec (guarded anyStep (dashStep emptyCatalog)) Server.init flickering = some s ∧
      s.conns.map Conn.id = [0] ∧ s.connected = true ∧
      ∀ b ∈ s.conns, b.settled.brokerConnected = true ∧ b.settled.total = 1 := by
  have hsome : (exec (guarded anyStep (dashStep emptyCatalog)) Server.init
      flickering).isSome := by decide +kernel
  obtain ⟨s, hs⟩ := Option.isSome_iff_exists.mp hsome
  have hend : (exec (guarded anyStep (dashStep emptyCatalog)) Server.init flickering).map
      (fun s => (s.thread, s.queue, s.sweep, s.conns.map Conn.id))
        = some (.idle, [], [], [0]) := by decide +kernel
  have hview : (exec (guarded anyStep (dashStep emptyCatalog)) Server.init flickering).map
      (fun s => (s.conns.map Conn.overlap, s.connected, s.store.total))
        = some ([0], true, 1) := by decide +kernel
  simp only [hs, Option.map_some, Option.some.injEq, Prod.mk.injEq] at hend hview
  obtain ⟨hidle, hq, hsweep, hids⟩ := hend
  obtain ⟨hover, hconn, htotal⟩ := hview
  refine ⟨s, hs, hids, hconn, fun b hb => ?_⟩
  have hzero : b.overlap = 0 := List.mem_singleton.mp (hover ▸ List.mem_map_of_mem hb)
  obtain ⟨-, htot, hflag, -⟩ := page_equals_reload emptyCatalog (.of_exec flickering .start hs)
    ⟨hidle, hq⟩ hsweep hb hzero emptyView
  exact ⟨hflag.trans hconn, htot.trans htotal⟩

end SeeedMote.App
