import SeeedMote.App.Semantic

/-! The dashboard: the MQTT thread changes the store and hands coroutines to the event loop, the loop
    broadcasts them one at a time, browsers connect at any moment. A browser is told the state once,
    by the snapshot of its connection, and afterwards every change by a broadcast:

        MQTT thread   add_event ─┬─▶ schedule ─▶ touch ─▶ schedule
                                 │      │
        event loop               │      └──▶ queue ──▶ broadcast ──▶ inbox ──▶ addEvent
        browser                  └──▶ connect: snapshot ──────────▶ inbox ──▶ applySnapshot

    An event added and not yet broadcast when a browser connects reaches it on both paths. -/

namespace SeeedMote.App
open Lib

/-! ### The browser, `store.ts` and `useWebSocket.ts` -/

def eventHistoryMax : ℕ := 500

/-- `WsMessage`. -/
inductive WsMessage where
  | snapshot (events : List InteractionEvent) (gateways : Dict PyStr GatewayPayload) (total : ℕ)
      (connected : Bool)
  | event (payload : InteractionEvent)
  | gateway (gwId : PyStr) (payload : GatewayPayload)
  | transport (connected : Bool)

/-- What messages change in the store of `useStore`, but for `mock`, which a snapshot copies. -/
structure View where
  events : List InteractionEvent
  gateways : Dict PyStr GatewayPayload
  total : ℕ
  brokerConnected : Bool

/-- `events` after `addEvent`. -/
def pushEvent (events : List InteractionEvent) (ev : InteractionEvent) : List InteractionEvent :=
  (ev :: events).take eventHistoryMax

/-- `addEvent`. -/
def View.addEvent (v : View) (ev : InteractionEvent) : View :=
  { v with events := pushEvent v.events ev, total := v.total + 1 }

/-- `onmessage`. -/
def View.onMessage (v : View) : WsMessage → View
  | .snapshot events gateways total connected =>
    { events := events, gateways := gateways, total := total, brokerConnected := connected }
  | .event payload => v.addEvent payload
  | .gateway gwId payload => { v with gateways := v.gateways.set gwId payload }
  | .transport connected => { v with brokerConnected := connected }

/-! ### The server -/

/-- A connection: the messages sent on its socket and not yet received, and the browser's store.
    `overlap` counts the accepted events whose broadcast was still to come when it connected. -/
structure Conn where
  id : ℕ
  inbox : List WsMessage
  view : View
  overlap : ℕ

def Conn.send (b : Conn) (msg : WsMessage) : Conn := { b with inbox := b.inbox ++ [msg] }

/-- The next message arrives. -/
def Conn.receive (b : Conn) : Conn :=
  match b.inbox with
  | msg :: rest => { b with inbox := rest, view := b.view.onMessage msg }
  | [] => b

/-- The browser's store once everything sent has arrived. -/
def Conn.settled (b : Conn) : View := b.inbox.foldl View.onMessage b.view

/-- Where the MQTT thread stands in `_on_message`. -/
inductive ThreadPc where
  | idle
  /-- `add_event` has accepted; `_emit_event` is not scheduled yet. -/
  | added (stored : MotionEvent) (gwId : PyStr) (rssi : ℤ)
  /-- `_emit_event` is scheduled; the gateway is not touched yet. -/
  | announced (gwId : PyStr) (rssi : ℤ)
  /-- The gateway is touched; `_emit_gateway` is not scheduled yet. -/
  | touched (gwId : PyStr)
  deriving DecidableEq

/-- `sweep`: the flipped gateways the reaper has still to emit. `accepted`: every event `add_event`
    has accepted, the latest first. -/
structure Server where
  store : EventStore
  connected : Bool
  thread : ThreadPc
  queue : List Emission
  sweep : List PyStr
  conns : List Conn
  accepted : List MotionEvent

/-- The server at start, with `EventStore()`. -/
def Server.init : Server := ⟨.init 500, false, .idle, [], [], [], []⟩

/-- A broadcast that reaches every browser. -/
def Server.broadcast (s : Server) (msg : WsMessage) : Server :=
  { s with conns := s.conns.map fun b => b.send msg }

/-- `add_event` has returned `stored`. -/
def Server.accept (s : Server) (store : EventStore) (stored : MotionEvent) (gwId : PyStr) (rssi : ℤ) :
    Server :=
  { s with
    store := store
    thread := .added stored gwId rssi
    accepted := stored :: s.accepted }

/-- Start of a frame on the idle thread: everything up to its first store call, included. -/
def Server.begin (s : Server) (now nowTouch : ℚ) : Frame → Server
  | .status gwId version =>
    { s with store := (s.store.touchGateway now gwId none version).1, thread := .touched gwId }
  | .event moteMac gwId packetId rssi =>
    match s.store.addEvent now nowTouch moteMac gwId packetId rssi with
    | (store, none) => { s with store := store }
    | (store, some stored) => s.accept store stored gwId rssi
  | .seen gwId rssi =>
    { s with store := (s.store.touchGateway now gwId (some rssi) none).1, thread := .touched gwId }

inductive DashEvent where
  /-- The idle MQTT thread gets a message and makes its first store call. -/
  | message (f : Frame) (now nowTouch : ℚ)
  /-- The MQTT thread makes its next call. -/
  | threadStep (now : ℚ)
  /-- `_on_connect` or `_on_disconnect` on the idle MQTT thread. -/
  | transport (connected : Bool)
  /-- The event loop runs the next scheduled coroutine. -/
  | emit
  /-- `_gateway_reaper` calls `reap_gateways`. -/
  | reap (now : ℚ)
  /-- `_gateway_reaper` emits the next flipped gateway. -/
  | reapEmit
  /-- `websocket_endpoint`: `ws_clients.add`, `snapshot` and the send of the snapshot. -/
  | connect (id : ℕ) (view : View)
  | disconnect (id : ℕ)
  /-- The browser receives its next message. -/
  | receive (id : ℕ)

variable {rt : PyRuntime} (c : Catalog rt)

/-- The message of a scheduled coroutine; a gateway's payload is read when it runs. -/
def Server.messageOf (s : Server) : Emission → Option WsMessage
  | .event ev => some (.event (c.project ev))
  | .gateway gwId => (s.store.gw.get? gwId).map fun e => .gateway gwId (c.gatewayStatusPayload e)
  | .transport connected => some (.transport connected)

/-- The snapshot message. -/
def Server.snapshotMessage (s : Server) : WsMessage :=
  let (events, rawGateways, total) := s.store.snapshot
  .snapshot (events.map c.project)
    ⟨rawGateways.entries.map fun e => (e.1, c.gatewayStatusPayload e.2), by
      rw [List.map_map]; exact rawGateways.nodup⟩
    total s.connected

/-- Events accepted and not yet broadcast, the earliest first. -/
def Server.pending (s : Server) : List MotionEvent :=
  s.queue.filterMap (fun e => match e with | .event ev => some ev | _ => none) ++
    match s.thread with
    | .added stored _ _ => [stored]
    | _ => []

/-- Broadcast a message if there is one. -/
def Server.emitMessage (s : Server) : Option WsMessage → Server
  | some msg => s.broadcast msg
  | none => s

def dashStep (s : Server) : DashEvent → Option Server
  | .message f now nowTouch =>
    if s.thread = .idle then some (s.begin now nowTouch f) else none
  | .threadStep now =>
    match s.thread with
    | .idle => none
    | .added stored gwId rssi =>
      some { s with queue := s.queue ++ [.event stored], thread := .announced gwId rssi }
    | .announced gwId rssi =>
      some { s with
        store := (s.store.touchGateway now gwId (some rssi) none).1
        thread := .touched gwId }
    | .touched gwId => some { s with queue := s.queue ++ [.gateway gwId], thread := .idle }
  | .transport connected =>
    if s.thread = .idle then
      some { s with connected := connected, queue := s.queue ++ [.transport connected] }
    else none
  | .emit =>
    match s.queue with
    | [] => none
    | e :: es => some ({ s with queue := es }.emitMessage (s.messageOf c e))
  | .reap now =>
    if s.sweep = [] then
      let (store, flipped) := s.store.reapGateways now
      some { s with store := store, sweep := flipped }
    else none
  | .reapEmit =>
    match s.sweep with
    | [] => none
    | gwId :: rest => some ({ s with sweep := rest }.emitMessage (s.messageOf c (.gateway gwId)))
  | .connect id view =>
    if id ∈ s.conns.map Conn.id then none
    else some { s with
      conns := ⟨id, [s.snapshotMessage c], view, s.pending.length⟩ :: s.conns }
  | .disconnect id => some { s with conns := s.conns.filter fun b => b.id ≠ id }
  | .receive id =>
    some { s with conns := s.conns.map fun b => if b.id = id then b.receive else b }

/-- What one event can do to the server, each case with the guard it passed. -/
inductive DashMoves (s : Server) : Server → Prop
  | message (f : Frame) (now nowTouch : ℚ) (hidle : s.thread = .idle) :
      DashMoves s (s.begin now nowTouch f)
  | announce {stored : MotionEvent} {gwId : PyStr} {rssi : ℤ}
      (ht : s.thread = .added stored gwId rssi) :
      DashMoves s { s with queue := s.queue ++ [.event stored], thread := .announced gwId rssi }
  | touch {gwId : PyStr} {rssi : ℤ} (now : ℚ) (ht : s.thread = .announced gwId rssi) :
      DashMoves s { s with
        store := (s.store.touchGateway now gwId (some rssi) none).1
        thread := .touched gwId }
  | finish {gwId : PyStr} (ht : s.thread = .touched gwId) :
      DashMoves s { s with queue := s.queue ++ [.gateway gwId], thread := .idle }
  | transport (connected : Bool) (hidle : s.thread = .idle) :
      DashMoves s { s with connected := connected, queue := s.queue ++ [.transport connected] }
  | emit {e : Emission} {es : List Emission} (hq : s.queue = e :: es) :
      DashMoves s ({ s with queue := es }.emitMessage (s.messageOf c e))
  | reap (now : ℚ) (hsweep : s.sweep = []) :
      DashMoves s { s with
        store := (s.store.reapGateways now).1
        sweep := (s.store.reapGateways now).2 }
  | reapEmit {gwId : PyStr} {rest : List PyStr} (hs : s.sweep = gwId :: rest) :
      DashMoves s ({ s with sweep := rest }.emitMessage (s.messageOf c (.gateway gwId)))
  | connect (id : ℕ) (view : View) (hnew : id ∉ s.conns.map Conn.id) :
      DashMoves s { s with
        conns := ⟨id, [s.snapshotMessage c], view, s.pending.length⟩ :: s.conns }
  | disconnect (id : ℕ) :
      DashMoves s { s with conns := s.conns.filter fun b => b.id ≠ id }
  | receive (id : ℕ) :
      DashMoves s { s with conns := s.conns.map fun b => if b.id = id then b.receive else b }

theorem moves_of_dashStep {s s' : Server} {e : DashEvent} (hstep : dashStep c s e = some s') :
    DashMoves c s s' := by
  cases e with
  | message f now nowTouch =>
    rw [dashStep] at hstep
    split at hstep
    · next hidle =>
      obtain rfl := Option.some.inj hstep
      exact .message f now nowTouch hidle
    · simp at hstep
  | threadStep now =>
    cases ht : s.thread with
    | idle => simp [dashStep, ht] at hstep
    | added stored gwId rssi =>
      obtain rfl : _ = s' := by simpa [dashStep, ht] using hstep
      exact .announce ht
    | announced gwId rssi =>
      obtain rfl : _ = s' := by simpa [dashStep, ht] using hstep
      exact .touch now ht
    | touched gwId =>
      obtain rfl : _ = s' := by simpa [dashStep, ht] using hstep
      exact .finish ht
  | transport connected =>
    rw [dashStep] at hstep
    split at hstep
    · next hidle =>
      obtain rfl := Option.some.inj hstep
      exact .transport connected hidle
    · simp at hstep
  | emit =>
    cases hq : s.queue with
    | nil => simp [dashStep, hq] at hstep
    | cons e es =>
      obtain rfl : _ = s' := by simpa [dashStep, hq] using hstep
      exact .emit hq
  | reap now =>
    rw [dashStep] at hstep
    split at hstep
    · next hsweep =>
      obtain rfl := Option.some.inj hstep
      exact .reap now hsweep
    · simp at hstep
  | reapEmit =>
    cases hs : s.sweep with
    | nil => simp [dashStep, hs] at hstep
    | cons gwId rest =>
      obtain rfl : _ = s' := by simpa [dashStep, hs] using hstep
      exact .reapEmit hs
  | connect id view =>
    rw [dashStep] at hstep
    split at hstep
    · simp at hstep
    · next hnew =>
      obtain rfl := Option.some.inj hstep
      exact .connect id view hnew
  | disconnect id =>
    obtain rfl := Option.some.inj hstep
    exact .disconnect id
  | receive id =>
    obtain rfl := Option.some.inj hstep
    exact .receive id

/-- Between messages, and every scheduled broadcast has run. -/
def Server.quiet (s : Server) : Prop := s.thread = .idle ∧ s.queue = []

/-- The browser shows the server's events and total. -/
structure Mirrors (s : Server) (b : Conn) : Prop where
  events : b.settled.events = s.store.events.items.map c.project
  total : b.settled.total = s.store.total

/-- Left alone, the MQTT thread makes of a frame exactly what `_on_message` makes of it. -/
theorem thread_handles_frame (s : Server) (hidle : s.thread = .idle) (f : Frame) (t : Readings) :
    ∃ es s', exec (dashStep c) s es = some s' ∧ s'.store = (f.handle t s.store).1 ∧
      s'.queue = s.queue ++ (f.handle t s.store).2 ∧ s'.thread = .idle ∧ s'.conns = s.conns := by
  obtain ⟨store₀, connected, thread, queue, sweep, conns, accepted⟩ := s
  obtain rfl : thread = .idle := hidle
  cases f with
  | status gwId version =>
    exact ⟨[.message (.status gwId version) t.nowAgain 0, .threadStep 0], _, rfl, rfl, rfl, rfl, rfl⟩
  | seen gwId rssi =>
    exact ⟨[.message (.seen gwId rssi) t.nowAgain 0, .threadStep 0], _, rfl, rfl, rfl, rfl, rfl⟩
  | event moteMac gwId packetId rssi =>
    rcases addEvent_cases store₀ t.now t.nowTouch moteMac gwId packetId rssi with
      hadd | ⟨store, stored, hadd, -⟩
    · refine ⟨[.message (.event moteMac gwId packetId rssi) t.now t.nowTouch], _, rfl, ?_⟩
      simp [Server.begin, Frame.handle, hadd]
    · refine ⟨[.message (.event moteMac gwId packetId rssi) t.now t.nowTouch, .threadStep 0,
        .threadStep t.nowAgain, .threadStep 0],
        ⟨(store.touchGateway t.nowAgain gwId (some rssi) none).1, connected, .idle,
          queue ++ [.event stored, .gateway gwId], sweep, conns, stored :: accepted⟩, ?_⟩
      simp [exec, dashStep, Server.begin, Server.accept, Frame.handle, hadd]

/-! ### What each part of a step does -/

theorem settled_send (b : Conn) (msg : WsMessage) :
    (b.send msg).settled = b.settled.onMessage msg := by
  simp [Conn.settled, Conn.send, List.foldl_append]

theorem settled_receive (b : Conn) : b.receive.settled = b.settled := by
  obtain ⟨id, inbox, view, overlap⟩ := b
  cases inbox <;> rfl

theorem overlap_receive (b : Conn) : b.receive.overlap = b.overlap := by
  obtain ⟨id, inbox, view, overlap⟩ := b
  cases inbox <;> rfl

/-! ### The invariant -/

/-- The browser behind `b` will show `items` and `total` once `pending` is broadcast, its total
    `overlap` too high; with no overlap the events are right as well. -/
structure Tracks (pending items : List MotionEvent) (total : ℕ) (b : Conn) : Prop where
  total : b.settled.total + pending.length = total + b.overlap
  events : b.overlap = 0 →
    pending.foldl (fun es ev => pushEvent es (c.project ev)) b.settled.events = items.map c.project

structure DashInv (s : Server) : Prop where
  maxlen : s.store.events.maxlen = eventHistoryMax
  items : s.store.events.items = s.accepted.take eventHistoryMax
  total : s.store.total = s.accepted.length
  tracks : ∀ b ∈ s.conns, Tracks c s.pending s.store.events.items s.store.total b

/-- A step that leaves the events and what is pending alone, and sends nothing about them. -/
theorem DashInv.frame {s s' : Server} (h : DashInv c s) (hp : s'.pending = s.pending)
    (he : s'.store.events = s.store.events) (ht : s'.store.total = s.store.total)
    (ha : s'.accepted = s.accepted)
    (hc : ∀ b' ∈ s'.conns, ∃ b ∈ s.conns, b'.overlap = b.overlap ∧
      b'.settled.events = b.settled.events ∧ b'.settled.total = b.settled.total) :
    DashInv c s' where
  maxlen := by rw [he]; exact h.maxlen
  items := by rw [he, ha]; exact h.items
  total := by rw [ht, ha]; exact h.total
  tracks b' hb' := by
    obtain ⟨b, hb, ho, hev, htot⟩ := hc b' hb'
    obtain ⟨h1, h2⟩ := h.tracks b hb
    refine ⟨?_, ?_⟩
    · rw [hp, ht, htot, ho]; exact h1
    · rw [hp, he, hev, ho]; exact h2

/-- The connections are the same. -/
theorem DashInv.frame_same {s s' : Server} (h : DashInv c s) (hp : s'.pending = s.pending)
    (he : s'.store.events = s.store.events) (ht : s'.store.total = s.store.total)
    (ha : s'.accepted = s.accepted) (hc : s'.conns = s.conns) : DashInv c s' :=
  h.frame c hp he ht ha fun b hb => ⟨b, hc ▸ hb, rfl, rfl, rfl⟩

/-- A message that carries no event leaves the invariant alone. -/
theorem DashInv.broadcast {s : Server} (h : DashInv c s) (msg : WsMessage)
    (hmsg : ∀ v : View, (v.onMessage msg).events = v.events ∧ (v.onMessage msg).total = v.total) :
    DashInv c (s.broadcast msg) := by
  refine h.frame c rfl rfl rfl rfl ?_
  intro b' hb'
  obtain ⟨b, hb, rfl⟩ := List.mem_map.mp hb'
  exact ⟨b, hb, rfl, by rw [settled_send]; exact (hmsg _).1, by rw [settled_send]; exact (hmsg _).2⟩

theorem DashInv.emit_gateway {s : Server} (h : DashInv c s) (gwId : PyStr) :
    DashInv c (s.emitMessage (s.messageOf c (.gateway gwId))) := by
  cases he : s.store.gw.get? gwId with
  | none => simpa [Server.messageOf, he, Server.emitMessage] using h
  | some e =>
    have hb := h.broadcast c (.gateway gwId (c.gatewayStatusPayload e)) fun v => ⟨rfl, rfl⟩
    simpa [Server.messageOf, he, Server.emitMessage] using hb

/-- Accepting an event makes it pending and counts it. -/
theorem Tracks.accept {pending items : List MotionEvent} {total : ℕ} {b : Conn}
    (h : Tracks c pending items total b) (ev : MotionEvent) :
    Tracks c (pending ++ [ev]) ((ev :: items).take eventHistoryMax) (total + 1) b where
  total := by
    have := h.total
    simp only [List.length_append, List.length_singleton]; omega
  events ho := by
    rw [List.foldl_append, h.events ho, List.foldl_cons, List.foldl_nil, pushEvent, List.map_take,
      List.map_cons]

/-- Broadcasting the first pending event hands it to the browser. -/
theorem Tracks.deliver {ev : MotionEvent} {pending items : List MotionEvent} {total : ℕ} {b : Conn}
    (h : Tracks c (ev :: pending) items total b) :
    Tracks c pending items total (b.send (.event (c.project ev))) where
  total := by
    have := h.total
    rw [settled_send]
    simp only [View.onMessage, View.addEvent, Conn.send, List.length_cons] at this ⊢; omega
  events ho := by
    rw [settled_send]
    exact h.events ho

/-- A snapshot is exact, up to the events that are still to come. -/
theorem tracks_snapshot (s : Server) (id : ℕ) (view : View) :
    Tracks c s.pending s.store.events.items s.store.total
      ⟨id, [s.snapshotMessage c], view, s.pending.length⟩ where
  total := rfl
  events ho := by
    rw [List.length_eq_zero_iff.mp ho]
    rfl

/-- Running the first scheduled coroutine keeps the invariant. -/
theorem DashInv.emit_first {s : Server} (h : DashInv c s) {e : Emission} {es : List Emission}
    (hq : s.queue = e :: es) :
    DashInv c ({ s with queue := es }.emitMessage (s.messageOf c e)) := by
  cases e with
  | event ev =>
    have hpend : s.pending = ev :: Server.pending { s with queue := es } := by
      simp [Server.pending, hq]
    exact
      { maxlen := h.maxlen
        items := h.items
        total := h.total
        tracks := fun b' hb' => by
          obtain ⟨b, hb, rfl⟩ := List.mem_map.mp hb'
          have ht := h.tracks b hb
          rw [hpend] at ht
          exact ht.deliver c }
  | gateway gwId =>
    have h' : DashInv c { s with queue := es } :=
      h.frame_same c (by simp [Server.pending, hq]) rfl rfl rfl rfl
    exact h'.emit_gateway c gwId
  | transport connected =>
    have h' : DashInv c { s with queue := es } :=
      h.frame_same c (by simp [Server.pending, hq]) rfl rfl rfl rfl
    exact h'.broadcast c _ fun v => ⟨rfl, rfl⟩

/-- A new browser starts from an exact snapshot. -/
theorem DashInv.connect {s : Server} (h : DashInv c s) (id : ℕ) (view : View) :
    DashInv c { s with conns := ⟨id, [s.snapshotMessage c], view, s.pending.length⟩ :: s.conns } where
  maxlen := h.maxlen
  items := h.items
  total := h.total
  tracks b hb := by
    rcases List.mem_cons.mp hb with rfl | hb
    · exact tracks_snapshot c s id view
    · exact h.tracks b hb

/-- An arrival moves a message from the socket into the browser's store. -/
theorem DashInv.receive {s : Server} (h : DashInv c s) (id : ℕ) :
    DashInv c { s with conns := s.conns.map fun b => if b.id = id then b.receive else b } := by
  refine h.frame c rfl rfl rfl rfl ?_
  intro b' hb'
  obtain ⟨b, hb, rfl⟩ := List.mem_map.mp hb'
  refine ⟨b, hb, ?_⟩
  split
  · rw [settled_receive]
    exact ⟨overlap_receive b, rfl, rfl⟩
  · exact ⟨rfl, rfl, rfl⟩

theorem dashInv_init : DashInv c Server.init where
  maxlen := rfl
  items := rfl
  total := rfl
  tracks := by simp [Server.init]

/-! ### Steps and runs -/

theorem dashInv_begin {s : Server} (h : DashInv c s) (hidle : s.thread = .idle) (f : Frame)
    (now nowTouch : ℚ) : DashInv c (s.begin now nowTouch f) := by
  cases f with
  | status gwId version =>
    exact h.frame_same c (by simp [Server.pending, Server.begin, hidle]) rfl rfl rfl rfl
  | seen gwId rssi =>
    exact h.frame_same c (by simp [Server.pending, Server.begin, hidle]) rfl rfl rfl rfl
  | event moteMac gwId packetId rssi =>
    rcases addEvent_cases s.store now nowTouch moteMac gwId packetId rssi with
      hadd | ⟨store, stored, hadd, -, hev, htot, -⟩
    · have hsame : s.begin now nowTouch (.event moteMac gwId packetId rssi) = s := by
        simp only [Server.begin, hadd]
      rw [hsame]; exact h
    · have hbegin : s.begin now nowTouch (.event moteMac gwId packetId rssi)
          = s.accept store stored gwId rssi := by
        simp only [Server.begin, hadd]
      have hpend : (s.accept store stored gwId rssi).pending = s.pending ++ [stored] := by
        simp [Server.pending, Server.accept, hidle]
      have hitems : store.events.items = (stored :: s.store.events.items).take eventHistoryMax := by
        rw [hev, Deque.items_appendleft, h.maxlen]
      rw [hbegin]
      exact
        { maxlen := by rw [Server.accept, hev]; exact h.maxlen
          items := by
            rw [Server.accept, hitems, h.items]
            simp [eventHistoryMax, List.take_take]
          total := by rw [Server.accept, htot, h.total]; rfl
          tracks := fun b hb => by
            rw [hpend, Server.accept, hitems, htot]
            exact (h.tracks b hb).accept c stored }

theorem dashInv_step {s s' : Server} {e : DashEvent} (h : DashInv c s)
    (hstep : dashStep c s e = some s') : DashInv c s' := by
  cases moves_of_dashStep c hstep with
  | message f now nowTouch hidle => exact dashInv_begin c h hidle f now nowTouch
  | announce ht => exact h.frame_same c (by simp [Server.pending, ht]) rfl rfl rfl rfl
  | touch now ht => exact h.frame_same c (by simp [Server.pending, ht]) rfl rfl rfl rfl
  | finish ht => exact h.frame_same c (by simp [Server.pending, ht]) rfl rfl rfl rfl
  | transport connected hidle =>
    exact h.frame_same c (by simp [Server.pending]) rfl rfl rfl rfl
  | emit hq => exact h.emit_first c hq
  | reap now hsweep => exact h.frame_same c rfl rfl rfl rfl rfl
  | @reapEmit gwId rest hs =>
    have h' : DashInv c { s with sweep := rest } := h.frame_same c rfl rfl rfl rfl rfl
    exact h'.emit_gateway c gwId
  | connect id view hnew => exact h.connect c id view
  | disconnect id =>
    exact h.frame c rfl rfl rfl rfl fun b hb => ⟨b, (List.mem_filter.mp hb).1, rfl, rfl, rfl⟩
  | receive id => exact h.receive c id

/-- In every quiet state the server holds the latest accepted events and counts all of them, and a
    browser mirrors it if and only if no accepted event was waiting for its broadcast when the
    browser connected. -/
theorem mirrors_iff_no_overlap {s : Server} (h : Reach (dashStep c) anyStep Server.init s)
    (hquiet : s.quiet) :
    s.store.events.items = s.accepted.take eventHistoryMax ∧ s.store.total = s.accepted.length ∧
      ∀ b ∈ s.conns, Mirrors c s b ↔ b.overlap = 0 := by
  have hinv : DashInv c s :=
    h.invariant (dashInv_init c) fun _ _ _ hs _ hstep => dashInv_step c hs hstep
  have hpend : s.pending = [] := by simp [Server.pending, hquiet.1, hquiet.2]
  refine ⟨hinv.items, hinv.total, ?_⟩
  intro b hb
  obtain ⟨htot, hev⟩ := hinv.tracks b hb
  rw [hpend] at htot hev
  constructor
  · intro hm
    have := hm.total
    simp only [List.length_nil] at htot
    omega
  · intro ho
    exact ⟨hev ho, by simp only [List.length_nil] at htot; omega⟩

/-- A start without catalogued items. -/
def emptyCatalog : Catalog asciiRuntime := ⟨.empty, .empty, by simp⟩

def emptyView : View := ⟨[], .empty, 0, false⟩

/-- The four calls that make of a pickup two scheduled coroutines, and the two broadcasts. -/
def pickup (now : ℚ) (packetId : ℤ) : List DashEvent :=
  [.message (.event (py "f0e3912cec19") (py "gw-a") packetId (-60)) now now, .threadStep now,
    .threadStep now, .threadStep now, .emit, .emit]

/-- A browser comes between two pickups. -/
def betweenPickups : List DashEvent := pickup 10 1 ++ .connect 0 emptyView :: .receive 0 :: pickup 11 2

theorem browser_between_pickups :
    ∃ s, exec (guarded anyStep (dashStep emptyCatalog)) Server.init betweenPickups = some s ∧
      s.conns.map Conn.id = [0] ∧ ∀ b ∈ s.conns, Mirrors emptyCatalog s b := by
  have hsome : (exec (guarded anyStep (dashStep emptyCatalog)) Server.init
      betweenPickups).isSome := by decide +kernel
  obtain ⟨s, hs⟩ := Option.isSome_iff_exists.mp hsome
  have hend : (exec (guarded anyStep (dashStep emptyCatalog)) Server.init betweenPickups).map
      (fun s => (s.thread, s.queue, s.conns.map Conn.id, s.conns.map Conn.overlap))
        = some (.idle, [], [0], [0]) := by decide +kernel
  simp only [hs, Option.map_some, Option.some.injEq, Prod.mk.injEq] at hend
  obtain ⟨hidle, hq, hids, hover⟩ := hend
  have hiff := (mirrors_iff_no_overlap emptyCatalog (.of_exec betweenPickups .start hs)
    ⟨hidle, hq⟩).2.2
  refine ⟨s, hs, hids, fun b hb => (hiff b hb).mpr ?_⟩
  exact List.mem_singleton.mp (hover ▸ List.mem_map_of_mem hb)

/-- A browser that connects after `add_event` and before its broadcast counts the event twice. -/
theorem browser_counts_twice :
    ¬∀ (rt : PyRuntime) (c : Catalog rt) (s : Server), Reach (dashStep c) anyStep Server.init s →
      s.quiet → ∀ b ∈ s.conns, Mirrors c s b := by
  intro h
  let es : List DashEvent := (pickup 10 1).take 1 ++ .connect 0 emptyView :: (pickup 10 1).drop 1
  have hsome : (exec (guarded anyStep (dashStep emptyCatalog)) Server.init es).isSome := by
    decide +kernel
  obtain ⟨s, hs⟩ := Option.isSome_iff_exists.mp hsome
  have hend : (exec (guarded anyStep (dashStep emptyCatalog)) Server.init es).map
      (fun s => (s.thread, s.queue, s.store.total, s.conns.map fun b => b.settled.total))
        = some (.idle, [], 1, [2]) := by decide +kernel
  simp only [hs, Option.map_some, Option.some.injEq, Prod.mk.injEq] at hend
  obtain ⟨hidle, hq, htotal, hviews⟩ := hend
  obtain ⟨b, hb, hb2⟩ := List.mem_map.mp (hviews ▸ List.mem_singleton_self 2)
  have hm := (h _ emptyCatalog s (.of_exec es .start hs) ⟨hidle, hq⟩ b hb).total
  omega

end SeeedMote.App
