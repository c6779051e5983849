import SeeedMote.App.Dashboard
import SeeedMote.Lib.Replica

/-! The gateways as the browsers see them. Every change of a gateway's entry is followed by a broadcast
    of that entry, by the MQTT thread after it touched the gateway and by the reaper for each gateway
    it flipped. Between the two, anything can happen; the broadcast carries what the entry is when it
    runs. So a browser can be wrong only about gateways whose broadcast is still due.

        touch ──▶ entry ──▶ schedule ──▶ queue ──▶ _emit_gateway ─┐
        reap  ──▶ entry ──────────────▶ sweep ──▶ _emit_gateway ─┴─▶ browsers -/

namespace SeeedMote.App
open Lib

/-- The gateway the MQTT thread still has to announce. -/
def ThreadPc.gateway? : ThreadPc → Option PyStr
  | .idle => none
  | .added _ gwId _ => some gwId
  | .announced gwId _ => some gwId
  | .touched gwId => some gwId

/-- A broadcast of `gwId` is still to come. -/
def Server.due (s : Server) (gwId : PyStr) : Prop :=
  .gateway gwId ∈ s.queue ∨ s.thread.gateway? = some gwId ∨ gwId ∈ s.sweep

/-- What the browser behind `b` will show for a gateway once all that was sent has arrived. -/
def Conn.shows (b : Conn) (gwId : PyStr) : Option GatewayPayload := b.settled.gateways.get? gwId

variable {rt : PyRuntime} (c : Catalog rt)

/-- The server's gateway map, in the form in which browsers get it. -/
def Server.gatewayMap (s : Server) (gwId : PyStr) : Option GatewayPayload :=
  (s.store.gw.get? gwId).map c.gatewayStatusPayload

/-- What it holds of a gateway is the entry itself. -/
theorem gatewayMap_status (s : Server) (gwId : PyStr) :
    (s.gatewayMap c gwId).map GatewayPayload.status = s.store.gw.get? gwId := by
  rw [Server.gatewayMap]
  cases s.store.gw.get? gwId <;> rfl

structure GatewayInv (s : Server) : Prop where
  known : ∀ gwId, s.due gwId → (s.store.gw.get? gwId).isSome
  inStep : ∀ b ∈ s.conns, InStep s.due b.shows (s.gatewayMap c)

/-- A change of entries that are due from then on. -/
theorem GatewayInv.change {s s' : Server} (h : GatewayInv c s)
    (hdue : ∀ gwId, s.due gwId → s'.due gwId)
    (hgw : ∀ gwId, ¬s'.due gwId → s'.store.gw.get? gwId = s.store.gw.get? gwId)
    (hknown : ∀ gwId, s'.due gwId → (s'.store.gw.get? gwId).isSome)
    (hconns : ∀ b' ∈ s'.conns, ∃ b ∈ s.conns, b'.shows = b.shows) : GatewayInv c s' where
  known := hknown
  inStep b' hb' := by
    obtain ⟨b, hb, hshows⟩ := hconns b' hb'
    rw [hshows]
    refine (h.inStep b hb).change hdue ?_
    intro gwId hg
    rw [Server.gatewayMap, hgw gwId hg, Server.gatewayMap]

/-- A step that concerns no gateway. -/
theorem GatewayInv.frame {s s' : Server} (h : GatewayInv c s) (hdue : ∀ gwId, s'.due gwId ↔ s.due gwId)
    (hgw : s'.store.gw = s.store.gw)
    (hconns : ∀ b' ∈ s'.conns, ∃ b ∈ s.conns, b'.shows = b.shows) : GatewayInv c s' :=
  h.change c (fun gwId hg => (hdue gwId).mpr hg) (fun gwId _ => by rw [hgw])
    (fun gwId hg => by rw [hgw]; exact h.known gwId ((hdue gwId).mp hg)) hconns

/-- A touch of the gateway the thread has to announce. -/
theorem GatewayInv.touch {s s' : Server} (h : GatewayInv c s) {gwId : PyStr} {e : GatewayStatus}
    (hthread : ∀ g, s.thread.gateway? = some g → g = gwId) (hnext : s'.thread.gateway? = some gwId)
    (hgw : s'.store.gw = s.store.gw.set gwId e) (hqueue : s'.queue = s.queue)
    (hsweep : s'.sweep = s.sweep) (hconns : s'.conns = s.conns) : GatewayInv c s' := by
  have hdue : ∀ g, s'.due g ↔ s.due g ∨ g = gwId := by
    intro g
    rw [Server.due, Server.due, hqueue, hsweep, hnext, Option.some.injEq]
    constructor
    · rintro (hq | rfl | hs)
      · exact .inl (.inl hq)
      · exact .inr rfl
      · exact .inl (.inr (.inr hs))
    · rintro ((hq | ht | hs) | rfl)
      · exact .inl hq
      · exact .inr (.inl (hthread g ht).symm)
      · exact .inr (.inr hs)
      · exact .inr (.inl rfl)
  refine h.change c (fun g hg => (hdue g).mpr (.inl hg)) ?_ ?_ ?_
  · intro g hg
    rw [hgw, Dict.get?_set_ne]
    exact fun hid => hg ((hdue g).mpr (.inr hid))
  · intro g hg
    rw [hgw, Dict.get?_set]
    split
    · rfl
    · next hne => exact h.known g (((hdue g).mp hg).resolve_right hne)
  · rw [hconns]
    exact fun b hb => ⟨b, hb, rfl⟩

/-- A broadcast that concerns no gateway. -/
theorem shows_send_other (b : Conn) {msg : WsMessage}
    (hmsg : ∀ v : View, (v.onMessage msg).gateways = v.gateways) : (b.send msg).shows = b.shows := by
  funext gwId
  rw [Conn.shows, settled_send, hmsg, Conn.shows]

theorem GatewayInv.emit_other {s s' : Server} (h : GatewayInv c s) {msg : WsMessage}
    (hmsg : ∀ v : View, (v.onMessage msg).gateways = v.gateways)
    (hdue : ∀ gwId, s'.due gwId ↔ s.due gwId) (hstore : s'.store = s.store)
    (hconns : s'.conns = s.conns) : GatewayInv c (s'.broadcast msg) := by
  refine h.frame c hdue (by rw [Server.broadcast, hstore]) fun b' hb' => ?_
  obtain ⟨b, hb, rfl⟩ := List.mem_map.mp hb'
  exact ⟨b, hconns ▸ hb, shows_send_other b hmsg⟩

/-- The broadcast of one gateway that is due. -/
theorem GatewayInv.emit_gateway {s s' : Server} (h : GatewayInv c s) {gwId : PyStr}
    (hdue : s.due gwId) (hstore : s'.store = s.store) (hconns : s'.conns = s.conns)
    (hother : ∀ g, g ≠ gwId → s.due g → s'.due g) (hback : ∀ g, s'.due g → s.due g) :
    GatewayInv c (s'.emitMessage (s.messageOf c (.gateway gwId))) := by
  obtain ⟨e, he⟩ := Option.isSome_iff_exists.mp (h.known gwId hdue)
  have hmsg : s.messageOf c (.gateway gwId) = some (.gateway gwId (c.gatewayStatusPayload e)) := by
    rw [Server.messageOf, he]
    rfl
  rw [hmsg, Server.emitMessage]
  refine ⟨?_, ?_⟩
  · intro g hg
    rw [Server.broadcast, hstore]
    exact h.known g (hback g hg)
  · intro b' hb'
    obtain ⟨b, hb, rfl⟩ := List.mem_map.mp hb'
    rw [hconns] at hb
    have hmap : Server.gatewayMap c (s'.broadcast (.gateway gwId (c.gatewayStatusPayload e)))
        = s.gatewayMap c := by
      funext g
      rw [Server.gatewayMap, Server.broadcast, hstore, Server.gatewayMap]
    have hview : ∀ g, (b.send (.gateway gwId (c.gatewayStatusPayload e))).shows g
        = if g = gwId then some (c.gatewayStatusPayload e) else b.shows g := by
      intro g
      rw [Conn.shows, settled_send, View.onMessage, Dict.get?_set, Conn.shows]
    rw [hmap]
    refine (h.inStep b hb).refresh gwId hother ?_ ?_
    · rw [hview, if_pos rfl, Server.gatewayMap, he, Option.map_some]
    · intro g hg
      rw [hview, if_neg hg]

theorem gatewayInv_init : GatewayInv c Server.init where
  known gwId h := by simp [Server.due, Server.init, ThreadPc.gateway?] at h
  inStep := by simp [Server.init]

/-! ### Steps -/

theorem gatewayInv_begin {s : Server} (h : GatewayInv c s) (hidle : s.thread = .idle) (f : Frame)
    (now nowTouch : ℚ) : GatewayInv c (s.begin now nowTouch f) := by
  have hthread : ∀ gwId g, s.thread.gateway? = some g → g = gwId := by
    intro gwId g hg
    simp [hidle, ThreadPc.gateway?] at hg
  cases f with
  | status gwId version => exact h.touch c (hthread gwId) rfl rfl rfl rfl rfl
  | seen gwId rssi => exact h.touch c (hthread gwId) rfl rfl rfl rfl rfl
  | event moteMac gwId packetId rssi =>
    rcases addEvent_cases s.store now nowTouch moteMac gwId packetId rssi with
      hadd | ⟨store, stored, hadd, -, -, -, hgw⟩
    · have hsame : s.begin now nowTouch (.event moteMac gwId packetId rssi) = s := by
        simp only [Server.begin, hadd]
      rw [hsame]
      exact h
    · have hbegin : s.begin now nowTouch (.event moteMac gwId packetId rssi)
          = s.accept store stored gwId rssi := by
        simp only [Server.begin, hadd]
      rw [hbegin]
      exact h.touch c (hthread gwId) rfl hgw rfl rfl rfl

/-- The gateways a sweep flips are due. -/
theorem GatewayInv.reap {s : Server} (h : GatewayInv c s) (hsweep : s.sweep = []) (now : ℚ) :
    GatewayInv c { s with
      store := (s.store.reapGateways now).1
      sweep := (s.store.reapGateways now).2 } := by
  have hsome : ∀ g, ((s.store.reapGateways now).1.gw.get? g).isSome
      = (s.store.gw.get? g).isSome := by
    intro g
    rw [get?_reapGateways, Option.isSome_map]
  refine h.change c ?_ ?_ ?_ fun b hb => ⟨b, hb, rfl⟩
  · intro g hg
    rcases hg with hq | ht | hs
    · exact .inl hq
    · exact .inr (.inl ht)
    · simp [hsweep] at hs
  · -- an entry that is not reported is left as it was
    intro g hg
    have hkept : g ∉ (s.store.reapGateways now).2 := fun hs => hg (.inr (.inr hs))
    rw [get?_reapGateways]
    cases he : s.store.gw.get? g with
    | none => rfl
    | some e =>
      have hflip : flips now e ≠ true := fun hf =>
        hkept ((mem_reapGateways s.store now g).mpr ⟨e, he, hf⟩)
      rw [Option.map_some, sweptEntry, if_neg hflip]
  · intro g hg
    rw [hsome]
    rcases hg with hq | ht | hs
    · exact h.known g (.inl hq)
    · exact h.known g (.inr (.inl ht))
    · obtain ⟨e, he, -⟩ := (mem_reapGateways s.store now g).mp hs
      rw [he]
      rfl

/-- A new browser starts from an exact snapshot. -/
theorem GatewayInv.connect {s : Server} (h : GatewayInv c s) (id : ℕ) (view : View) (overlap : ℕ) :
    GatewayInv c { s with conns := ⟨id, [s.snapshotMessage c], view, overlap⟩ :: s.conns } where
  known := h.known
  inStep b hb := by
    rcases List.mem_cons.mp hb with rfl | hb
    · have hshows : Conn.shows ⟨id, [s.snapshotMessage c], view, overlap⟩ = s.gatewayMap c := by
        funext g
        exact Dict.assoc_map (fun _ => c.gatewayStatusPayload) g s.store.gw.entries
      rw [hshows]
      exact .copied _ _
    · exact h.inStep b hb

theorem gatewayInv_step {s s' : Server} {e : DashEvent} (h : GatewayInv c s)
    (hstep : dashStep c s e = some s') : GatewayInv c s' := by
  cases moves_of_dashStep c hstep with
  | message f now nowTouch hidle => exact gatewayInv_begin c h hidle f now nowTouch
  | announce ht =>
    exact h.frame c (fun g => by simp [Server.due, ht, ThreadPc.gateway?]) rfl
      fun b hb => ⟨b, hb, rfl⟩
  | touch now ht =>
    refine h.touch c ?_ rfl rfl rfl rfl rfl
    intro g hg
    simpa [ht, ThreadPc.gateway?] using hg.symm
  | finish ht =>
    exact h.frame c (fun g => by simp [Server.due, ht, ThreadPc.gateway?, or_assoc, eq_comm]) rfl
      fun b hb => ⟨b, hb, rfl⟩
  | transport connected hidle =>
    exact h.frame c (fun g => by simp [Server.due]) rfl fun b hb => ⟨b, hb, rfl⟩
  | @emit e es hq =>
    cases e with
    | event ev =>
      exact h.emit_other c (fun v => rfl) (fun g => by simp [Server.due, hq]) rfl rfl
    | gateway gwId =>
      refine h.emit_gateway c (.inl (by simp [hq])) rfl rfl (fun g hg hd => ?_) fun g hd => ?_
      · simpa [Server.due, hq, hg] using hd
      · exact hd.imp_left fun hmem => by simp [hq, hmem]
    | transport connected =>
      exact h.emit_other c (fun v => rfl) (fun g => by simp [Server.due, hq]) rfl rfl
  | reap now hsweep => exact h.reap c hsweep now
  | reapEmit hs =>
    refine h.emit_gateway c (.inr (.inr (by simp [hs]))) rfl rfl (fun g hg hd => ?_) fun g hd => ?_
    · simpa [Server.due, hs, hg] using hd
    · exact hd.imp_right (Or.imp_right fun hmem => by simp [hs, hmem])
  | connect id view hnew => exact h.connect c id view _
  | disconnect id =>
    exact h.frame c (fun g => Iff.rfl) rfl fun b hb => ⟨b, (List.mem_filter.mp hb).1, rfl⟩
  | receive id =>
    refine h.frame c (fun g => Iff.rfl) rfl ?_
    intro b' hb'
    obtain ⟨b, hb, rfl⟩ := List.mem_map.mp hb'
    refine ⟨b, hb, ?_⟩
    split
    · funext g
      rw [Conn.shows, settled_receive, Conn.shows]
    · rfl

/-! ### Convergence -/

/-- In every state in which the MQTT thread is between messages, no sweep is under way and no broadcast
    is left to run, all that was sent shows every browser the server's gateways, each with every
    field of its entry in the store; a browser that has received it all shows them. -/
theorem gateway_view_converges {s : Server} (h : Reach (dashStep c) anyStep Server.init s)
    (hquiet : s.quiet) (hsweep : s.sweep = []) :
    ∀ b ∈ s.conns,
      (∀ gwId, b.settled.gateways.get? gwId = s.gatewayMap c gwId ∧
        (b.settled.gateways.get? gwId).map GatewayPayload.status = s.store.gw.get? gwId) ∧
      (b.inbox = [] → ∀ gwId, b.view.gateways.get? gwId = s.gatewayMap c gwId ∧
        (b.view.gateways.get? gwId).map GatewayPayload.status = s.store.gw.get? gwId) := by
  have hinv : GatewayInv c s :=
    h.invariant (gatewayInv_init c) fun _ _ _ hs _ hstep => gatewayInv_step c hs hstep
  have hdue : ∀ gwId, ¬s.due gwId := by
    rintro gwId (hq | ht | hs)
    · simp [hquiet.2] at hq
    · simp [hquiet.1, ThreadPc.gateway?] at ht
    · simp [hsweep] at hs
  intro b hb
  have hsettled : ∀ gwId, b.settled.gateways.get? gwId = s.gatewayMap c gwId :=
    (hinv.inStep b hb).settled hdue
  have hview : b.inbox = [] → ∀ gwId, b.view.gateways.get? gwId = s.gatewayMap c gwId := by
    intro hempty gwId
    rw [← hsettled gwId, Conn.settled, hempty]
    rfl
  refine ⟨fun gwId => ⟨hsettled gwId, ?_⟩, fun hempty gwId => ⟨hview hempty gwId, ?_⟩⟩
  · rw [hsettled, gatewayMap_status]
  · rw [hview hempty, gatewayMap_status]

/-- Two gateways, one of which falls silent; a browser from the start, and one that comes while the
    sweep is under way. -/
def silentGateway : List DashEvent :=
  .connect 0 emptyView ::
    [.message (.status (py "gw-a") (some (py "1.0"))) 0 0, .threadStep 0, .emit] ++ pickup 10 1 ++
    [.message (.seen (py "gw-b") (-70)) 130 130, .reap 131, .threadStep 132, .connect 1 emptyView,
      .emit, .reapEmit]

/-- Both show it offline, with the version it announced. -/
theorem gateway_view_converges_silent :
    ∃ s, exec (guarded anyStep (dashStep emptyCatalog)) Server.init silentGateway = some s ∧
      s.conns.map Conn.id = [1, 0] ∧
      ∀ b ∈ s.conns, (∀ gwId, b.settled.gateways.get? gwId = s.gatewayMap emptyCatalog gwId) ∧
        ((b.settled.gateways.get? (py "gw-a")).map GatewayPayload.status).map
          (fun status => (status.online, status.version)) = some (false, some (py "1.0")) := by
  have hsome : (exec (guarded anyStep (dashStep emptyCatalog)) Server.init
      silentGateway).isSome := by decide +kernel
  obtain ⟨s, hs⟩ := Option.isSome_iff_exists.mp hsome
  have hend : (exec (guarded anyStep (dashStep emptyCatalog)) Server.init silentGateway).map
      (fun s => (s.thread, s.queue, s.sweep, s.conns.map Conn.id))
        = some (.idle, [], [], [1, 0]) := by decide +kernel
  have hentry : (exec (guarded anyStep (dashStep emptyCatalog)) Server.init silentGateway).map
      (fun s => (s.store.gw.get? (py "gw-a")).map fun status => (status.online, status.version))
        = some (some (false, some (py "1.0"))) := by decide +kernel
  simp only [hs, Option.map_some, Option.some.injEq, Prod.mk.injEq] at hend hentry
  obtain ⟨hidle, hq, hsweep, hids⟩ := hend
  refine ⟨s, hs, hids, ?_⟩
  intro b hb
  have hshown := (gateway_view_converges emptyCatalog (.of_exec silentGateway .start hs)
    ⟨hidle, hq⟩ hsweep b hb).1
  refine ⟨fun gwId => (hshown gwId).1, ?_⟩
  rw [(hshown (py "gw-a")).2, hentry]

end SeeedMote.App
