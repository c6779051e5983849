import SeeedMote.Gateway.Settings
import SeeedMote.Gateway.WifiDriver

/-! The gateway's link to its Wi-Fi network over whole runs: `event_handler`, the reconnect timer and
    `wifi_mgr_connect` of `wifi_mgr.c`, and `app_main` up to the callback. Four tasks take part,

        event task     STA_START, STA_DISCONNECTED ─▶ reconnect_timer;  GOT_IP ─▶ ip_str, bit, callback
        timer task     reconnect_cb ─▶ esp_wifi_connect
        httpd, console wifi_mgr_connect: esp_wifi_disconnect, esp_wifi_set_config, esp_wifi_connect
        main task      wifi_mgr_init ─▶ .. ─▶ wifi_mgr_set_on_connect or ble_scanner_init

    and the driver between them, any that does what is documented. But for `esp_wifi_start` nobody looks
    at the code a call returns. -/

namespace SeeedMote.Gateway
open Lib Settings

section Driver
variable {D O : Type}

/-! ### The gateway -/

/-- `timer`: `reconnect_timer` is armed. `registered`: `app_main` has come to the callback.
    `scannerInits` counts the calls of `ble_scanner_init`; `queue` is the event loop's; `tasks` are the
    calls of `wifi_mgr_connect`, each by what it has still to do. -/
structure WifiLink (D : Type) where
  session : Session
  ipStr : CStr
  timer : Bool
  registered : Bool
  scannerInits : ℕ
  driver : D
  queue : List WifiEvent
  tasks : List (List WifiCall)

namespace WifiLink
variable (w : StaDriver D O)

/-- A driver call whose code is ignored. -/
def invoke (c : WifiCall) (s : WifiLink D) : WifiLink D :=
  { s with
    driver := (w.call s.driver c).next
    queue := s.queue ++ (w.call s.driver c).posted }

/-- The calls of `wifi_mgr_init`; `ESP_ERROR_CHECK` aborts when `esp_wifi_start` fails. -/
def init (s : WifiLink D) : List WifiCall → Option (WifiLink D)
  | [] => some s
  | c :: calls =>
    if c = .start ∧ (w.call s.driver c).rc ≠ 0 then none else (s.invoke w c).init calls

/-- `app_main` after `wifi_mgr_init`, on a driver just initialised. -/
def boot (gwId : CStr) (nvs : Nvs) (d : D) : Option (WifiLink D) :=
  init w
    { session := { appMain gwId nvs with onConnect := false }
      ipStr := []
      timer := false
      registered := false
      scannerInits := 0
      driver := d
      queue := []
      tasks := [] }
    (bootWifi gwId nvs)

/-- The rest of `app_main`: the callback is set, or the scanner started at once. -/
def register (s : WifiLink D) : WifiLink D :=
  let hasWifi := s.session.savedCfg.hasWifi
  { s with
    registered := true
    session := { s.session with onConnect := hasWifi }
    scannerInits := s.scannerInits + if hasWifi then 0 else 1 }

/-- `xTimerStart(reconnect_timer, 0)`; `ok`: the timer task takes the command. -/
def startTimer (ok : Bool) (s : WifiLink D) : WifiLink D := { s with timer := s.timer || ok }

/-- `ensure_apsta`. -/
def ensureApsta (s : WifiLink D) : WifiLink D :=
  if w.apsta s.driver then s else s.invoke w .setModeApsta

/-- `event_handler`; `initOk` is for the MQTT client that `on_wifi_connected` starts. -/
def eventHandler (initOk timerOk : Bool) (s : WifiLink D) : WifiEvent → WifiLink D
  | .staStart => s.startTimer timerOk
  | .staDisconnected =>
    { s with session := { s.session with wifiConnected := false }, ipStr := [] }.startTimer timerOk
  | .gotIp ip =>
    { s with
      ipStr := snprintf 16 ip.text
      session := gotIpHandler initOk s.session
      scannerInits := s.scannerInits + if s.session.onConnect then 1 else 0 }.ensureApsta w
  -- a client of the access point is for the LED
  | .apStaConnected | .other => s

end WifiLink

inductive LinkEvent (O : Type) where
  /-- The event task handles the first event of its queue. -/
  | handle (initOk timerOk : Bool)
  /-- `reconnect_cb`. -/
  | timer
  | register
  /-- Credentials are submitted; a task starts `wifi_mgr_connect` if they are accepted. -/
  | submit (sub : Submission)
  /-- The next driver call of a task. -/
  | call (i : ℕ)
  | mqtt (broker : CStr) (port : UInt16) (pass : Option CStr) (initOk : Bool)
  /-- The driver moves on its own. -/
  | own (o : O)

def linkStep (api : CJson) (w : StaDriver D O) (s : WifiLink D) : LinkEvent O → Option (WifiLink D)
  | .handle initOk timerOk =>
    match s.queue with
    | e :: rest => some ({ s with queue := rest }.eventHandler w initOk timerOk e)
    | [] => none
  | .timer => if s.timer then some ({ s with timer := false }.invoke w .connect) else none
  | .register => if s.registered then none else some s.register
  | .submit sub =>
    let r := submitWifi api s.session.nvs sub
    some { s with session := { s.session with nvs := r.2.1 }, tasks := s.tasks ++ [r.2.2] }
  | .call i =>
    match s.tasks[i]? with
    | some (c :: rest) => some ({ s with tasks := s.tasks.set i rest }.invoke w c)
    | _ => none
  | .mqtt broker port pass initOk => some { s with session := applyMqtt broker port pass initOk s.session }
  | .own o => (w.own s.driver o).map fun (d, evs) => { s with driver := d, queue := s.queue ++ evs }

/-- The timer task takes every command, and no `esp_wifi_connect` fails on an idle station. -/
def Taken (w : StaDriver D O) (s : WifiLink D) : LinkEvent O → Prop
  | .handle _ timerOk => timerOk = true
  | .timer => w.Accepts s.driver
  | .call i => (s.tasks[i]?.bind List.head?) = some .connect → w.Accepts s.driver
  | _ => True

instance (w : StaDriver D O) (s : WifiLink D) (e : LinkEvent O) : Decidable (Taken w s e) := by
  cases e <;> unfold Taken <;> infer_instance

/-! ### What is kept -/

/-- What the gateway says of its link: the connected bit and `ip_str`. -/
abbrev LinkView := Bool × CStr

/-- A link's address, or no link. -/
def linkView : Option Ipv4 → LinkView
  | some ip => (true, ip.text)
  | none => (false, [])

def WifiLink.view (s : WifiLink D) : LinkView := (s.session.wifiConnected, s.ipStr)

/-- What the gateway will say once it has handled the events. -/
def viewAfter (queue : List WifiEvent) (v : LinkView) : LinkView := ((news queue).map linkView).getD v

theorem viewAfter_news {queue evs : List WifiEvent} {v : LinkView} {said : Option Ipv4}
    (h : news evs = some said) : viewAfter (queue ++ evs) v = linkView said := by
  rw [viewAfter, news_append, h]
  rfl

theorem viewAfter_quiet {queue evs : List WifiEvent} {v : LinkView} (h : news evs = none) :
    viewAfter (queue ++ evs) v = viewAfter queue v := by
  rw [viewAfter, news_append, h, Option.none_or, viewAfter]

/-- Handling the first event changes nothing of what will be said. -/
theorem viewAfter_cons (e : WifiEvent) (rest : List WifiEvent) (v : LinkView) :
    viewAfter (e :: rest) v = viewAfter rest ((e.tells.map linkView).getD v) := by
  have hcons : news (e :: rest) = (news rest).or e.tells := by
    rw [← List.singleton_append, news_append]
    cases e <;> rfl
  rw [viewAfter, hcons, viewAfter]
  cases news rest <;> rfl

/-- With an SSID to connect to, the station is busy, or somebody is going to make it so: the timer, the
    handler of an event to come, or a task. -/
def WifiLink.Retries (w : StaDriver D O) (s : WifiLink D) : Prop :=
  w.configured s.driver = true → w.busy s.driver = true ∨ s.timer = true ∨
    (∃ e ∈ s.queue, e.StartsTimer) ∨ ∃ calls ∈ s.tasks, WifiCall.connect ∈ calls

/-- The gateway reports the station's address, and no link that is not there. -/
structure ReportInv (w : StaDriver D O) (s : WifiLink D) : Prop where
  address : ∀ ip, w.address s.driver = some ip → viewAfter s.queue s.view = linkView (some ip)
  unlinked : w.linked s.driver = false → viewAfter s.queue s.view = linkView none
  flag : s.session.wifiConnected = true ↔ s.ipStr ≠ []
  once : s.scannerInits = if s.registered = true ∧ s.session.onConnect = false then 1 else 0
  unregistered : s.registered = false → s.session.onConnect = false

structure LinkInv (w : StaDriver D O) (s : WifiLink D) : Prop extends ReportInv w s where
  retries : s.Retries w
  tasks : ∀ calls ∈ s.tasks, calls ≠ [] → calls.getLast? = some .connect

/-- An address with its dots fits `ip_str`. -/
theorem snprintf_ip (ip : Ipv4) : snprintf 16 ip.text = ip.text := by
  have hbyte : ∀ b : UInt8, (fmtUnsigned b.toNat).length ≤ 3 := fun b =>
    length_fmtUnsigned_le (by norm_num) (b.toNat_lt.trans (by norm_num))
  have ha := hbyte ip.a
  have hb := hbyte ip.b
  have hc := hbyte ip.c
  have hd := hbyte ip.d
  refine snprintf_of_lt ?_
  simp only [Ipv4.text, List.length_append, show (lit ".").length = 1 from rfl]
  omega

theorem text_ne_nil (ip : Ipv4) : ip.text ≠ [] := by
  simp [Ipv4.text, lit]

/-! ### The driver's side -/

section Steps
variable {w : StaDriver D O} {s s' : WifiLink D}

/-- The driver has moved, by a call or on its own. -/
theorem ReportInv.move (h : ReportInv w s) {d : D} {evs : List WifiEvent} (hm : w.Moves s.driver d evs)
    (timer : Bool) (tasks : List (List WifiCall)) :
    ReportInv w { s with driver := d, queue := s.queue ++ evs, timer, tasks } := by
  refine ⟨fun ip hip => ?_, fun hlink => ?_, h.flag, h.once, h.unregistered⟩
  · rcases hm.announced ip hip with hnews | ⟨hquiet, hold⟩
    · exact viewAfter_news hnews
    · exact (viewAfter_quiet hquiet).trans (h.address ip hold)
  · rcases hm.unlinked hlink with hnews | ⟨hquiet, hold⟩
    · exact viewAfter_news hnews
    · exact (viewAfter_quiet hquiet).trans (h.unlinked hold)

/-- What is going to make the station busy stays, where the SSID is not new. -/
theorem retries_mono (h : s.Retries w)
    (hssid : w.configured s'.driver = true → w.configured s.driver = true)
    (hbusy : w.busy s.driver = true → w.busy s'.driver = true ∨ .staDisconnected ∈ s'.queue)
    (htimer : s.timer = true → s'.timer = true)
    (hqueue : ∀ e ∈ s.queue, e.StartsTimer → e ∈ s'.queue)
    (htasks : ∀ calls ∈ s.tasks, calls ∈ s'.tasks) : s'.Retries w := by
  intro hcfg
  rcases h (hssid hcfg) with hold | hold | ⟨e, hmem, hstarts⟩ | ⟨calls, hmem, hconn⟩
  · rcases hbusy hold with hstill | hend
    · exact .inl hstill
    · exact .inr (.inr (.inl ⟨_, hend, .inr rfl⟩))
  · exact .inr (.inl (htimer hold))
  · exact .inr (.inr (.inl ⟨e, hqueue e hmem hstarts, hstarts⟩))
  · exact .inr (.inr (.inr ⟨calls, htasks calls hmem, hconn⟩))

theorem LinkInv.move (h : LinkInv w s) {d : D} {evs : List WifiEvent} (hm : w.Moves s.driver d evs)
    (hssid : w.configured d = true → w.configured s.driver = true) :
    LinkInv w { s with driver := d, queue := s.queue ++ evs } where
  toReportInv := h.toReportInv.move hm s.timer s.tasks
  retries := retries_mono h.retries hssid (fun hbusy => (hm.ended hbusy).imp_right
    (List.mem_append_right _)) id (fun _ he _ => List.mem_append_left _ he) fun _ hmem => hmem
  tasks := h.tasks

/-- After `esp_wifi_connect` the station is busy, or its failure is on the way, whatever else is left. -/
theorem retries_connect (hw : w.Documented) (hok : w.Accepts s.driver) (timer : Bool)
    (tasks : List (List WifiCall)) :
    WifiLink.Retries w ({ s with timer, tasks }.invoke w .connect) := by
  have hend : w.busy (w.call s.driver .connect).next = true ∨
      .staDisconnected ∈ (w.call s.driver .connect).posted → WifiLink.Retries w
        ({ s with timer, tasks }.invoke w .connect) := by
    rintro (hbusy | hend) _
    · exact .inl hbusy
    · exact .inr (.inr (.inl ⟨_, List.mem_append_right _ hend, .inr rfl⟩))
  intro hcfg
  cases hbusy : w.busy s.driver with
  | true => exact hend ((hw.call_moves s.driver .connect).ended hbusy) hcfg
  | false =>
    have hold : w.configured s.driver = true := hw.call_configured s.driver .connect nofun hcfg
    exact hend (hw.connect_ok s.driver (hok hbusy hold)) hcfg

/-! ### Boot -/

/-- While the driver is being set up nothing is lost, and `esp_wifi_start` posts its event. -/
theorem init_spec (hw : w.Documented) : ∀ {calls : List WifiCall} {s : WifiLink D}, ReportInv w s →
    s.init w calls = some s' → ReportInv w s' ∧ s'.tasks = s.tasks ∧
      (∀ e ∈ s.queue, e ∈ s'.queue) ∧ (.start ∈ calls → .staStart ∈ s'.queue) := by
  intro calls
  induction calls with
  | nil =>
    intro s h hs
    obtain rfl := Option.some.inj hs
    exact ⟨h, rfl, fun _ he => he, nofun⟩
  | cons c calls ih =>
    intro s h hs
    rw [WifiLink.init] at hs
    split at hs
    · simp at hs
    · next hrc =>
      obtain ⟨hinv, htasks, hkept, hstart⟩ := ih (h.move (hw.call_moves s.driver c) s.timer s.tasks) hs
      refine ⟨hinv, htasks, fun e he => hkept e (List.mem_append_left _ he), fun hmem => ?_⟩
      rcases List.mem_cons.mp hmem with rfl | hrest
      · have hzero : (w.call s.driver .start).rc = 0 := by simpa using hrc
        exact hkept _ (List.mem_append_right _ (hw.start_ok s.driver hzero))
      · exact hstart hrest

theorem linkInv_boot (hw : w.Documented) {gwId : CStr} {nvs : Nvs} {d : D} (hd : w.Down d)
    (hs : WifiLink.boot w gwId nvs d = some s) : LinkInv w s := by
  obtain ⟨hinv, htasks, -, hstart⟩ := init_spec hw ⟨fun ip hip => by simp [hd.address] at hip,
    fun _ => rfl, by simp [appMain], rfl, fun _ => rfl⟩ hs
  refine ⟨hinv, fun _ => .inr (.inr (.inl ⟨.staStart, hstart ?_, .inl rfl⟩)), ?_⟩
  · simp [bootWifi, wifiMgrInit]
  · rw [htasks]
    exact fun calls hmem => absurd hmem List.not_mem_nil

/-! ### The gateway's side -/

/-- What `submitWifi` hands to a task ends with `esp_wifi_connect`. -/
theorem submitWifi_calls (api : CJson) (nvs : Nvs) (sub : Submission) :
    (submitWifi api nvs sub).2.2 = [] ∨
      ∃ ssid pass, (submitWifi api nvs sub).2.2 = wifiMgrConnect ssid pass := by
  cases sub with
  | post req =>
    simp only [submitWifi, Settings.handleWifiPost]
    split
    · exact .inl rfl
    · split
      · exact .inl rfl
      · split
        · exact .inl rfl
        · exact .inr ⟨_, _, rfl⟩
  | console argv =>
    rcases argv with _ | ⟨cmd, _ | ⟨ssid, rest⟩⟩
    · exact .inl rfl
    · exact .inl rfl
    · exact .inr ⟨_, _, rfl⟩

/-- `event_handler` on an address sets the bit and takes the callback off. -/
theorem gotIpHandler_link (initOk : Bool) (s : Session) :
    (gotIpHandler initOk s).wifiConnected = true ∧ (gotIpHandler initOk s).onConnect = false := by
  rw [gotIpHandler]
  split
  · rw [onWifiConnected]
    split <;> exact ⟨rfl, rfl⟩
  · next hoff => exact ⟨rfl, by simpa using hoff⟩

theorem LinkInv.ensureApsta (hw : w.Documented) (h : LinkInv w s) : LinkInv w (s.ensureApsta w) := by
  rw [WifiLink.ensureApsta]
  split
  · exact h
  · exact h.move (hw.call_moves s.driver _) (hw.call_configured s.driver _ nofun)

/-- An event that starts no timer leaves the others to come. -/
theorem LinkInv.retries_rest (h : LinkInv w s) {e : WifiEvent} {rest : List WifiEvent}
    (hq : s.queue = e :: rest) (he : ¬e.StartsTimer) : WifiLink.Retries w { s with queue := rest } := by
  refine retries_mono h.retries id .inl id (fun e' hmem hstarts => ?_) fun _ hmem => hmem
  rw [hq] at hmem
  rcases List.mem_cons.mp hmem with rfl | hrest
  · exact absurd hstarts he
  · exact hrest

/-- An event that nobody minds. -/
theorem LinkInv.skip (h : LinkInv w s) {e : WifiEvent} {rest : List WifiEvent} (hq : s.queue = e :: rest)
    (he : ¬e.StartsTimer) (htells : e.tells = none) : LinkInv w { s with queue := rest } := by
  have hview : viewAfter s.queue s.view = viewAfter rest s.view := by
    rw [hq, viewAfter_cons, htells]
    rfl
  exact ⟨⟨fun ip hip => hview ▸ h.address ip hip, fun hlink => hview ▸ h.unlinked hlink, h.flag, h.once,
    h.unregistered⟩, h.retries_rest hq he, h.tasks⟩

/-- The first event is handled. -/
theorem linkInv_handle (hw : w.Documented) (h : LinkInv w s) {e : WifiEvent} {rest : List WifiEvent}
    (hq : s.queue = e :: rest) (initOk : Bool) :
    LinkInv w ({ s with queue := rest }.eventHandler w initOk true e) := by
  have htimer : (s.timer || true) = true := Bool.or_true _
  have hview : viewAfter s.queue s.view = viewAfter rest ((e.tells.map linkView).getD s.view) := by
    rw [hq, viewAfter_cons]
  have haddress := h.address
  have hunlinked := h.unlinked
  rw [hview] at haddress hunlinked
  cases e with
  | staStart =>
    exact ⟨⟨haddress, hunlinked, h.flag, h.once, h.unregistered⟩, fun _ => .inr (.inl htimer), h.tasks⟩
  | staDisconnected =>
    exact ⟨⟨haddress, hunlinked, by simp [WifiLink.eventHandler, WifiLink.startTimer], h.once,
      h.unregistered⟩, fun _ => .inr (.inl htimer), h.tasks⟩
  | apStaConnected => exact h.skip hq (by simp [WifiEvent.StartsTimer]) rfl
  | other => exact h.skip hq (by simp [WifiEvent.StartsTimer]) rfl
  | gotIp ip =>
    have hno : ¬(WifiEvent.gotIp ip).StartsTimer := by simp [WifiEvent.StartsTimer]
    obtain ⟨hconn, hcb⟩ := gotIpHandler_link initOk s.session
    have hsaid : WifiLink.view { s with
        ipStr := snprintf 16 ip.text
        session := gotIpHandler initOk s.session } = linkView (some ip) := by
      rw [WifiLink.view, hconn, snprintf_ip]
      rfl
    refine LinkInv.ensureApsta hw ⟨⟨?_, ?_, ?_, ?_, fun _ => hcb⟩, h.retries_rest hq hno, h.tasks⟩
    · exact fun ip' hip => (congrArg (viewAfter rest) hsaid).trans (haddress ip' hip)
    · exact fun hlink => (congrArg (viewAfter rest) hsaid).trans (hunlinked hlink)
    · simp [hconn, snprintf_ip, text_ne_nil]
    · -- The callback starts the scanner if it is still there, and it is there only after `register`.
      have honce := h.once
      have hunreg := h.unregistered
      simp only [hcb, honce]
      cases hreg : s.registered <;> cases hon : s.session.onConnect <;> simp_all

/-- A task makes its next call. -/
theorem linkInv_call (hw : w.Documented) (h : LinkInv w s) {i : ℕ} {c : WifiCall} {rest : List WifiCall}
    (hi : s.tasks[i]? = some (c :: rest)) (hok : c = .connect → w.Accepts s.driver) :
    LinkInv w ({ s with tasks := s.tasks.set i rest }.invoke w c) := by
  obtain ⟨hlt, hget⟩ := List.getElem?_eq_some_iff.mp hi
  have hlast : (c :: rest).getLast? = some .connect :=
    h.tasks _ (hget ▸ List.getElem_mem hlt) (List.cons_ne_nil _ _)
  have htail : rest ≠ [] → rest.getLast? = some .connect := fun hne => by
    rwa [List.getLast?_cons_of_ne_nil hne] at hlast
  refine ⟨h.toReportInv.move (hw.call_moves s.driver c) s.timer _, ?_, ?_⟩
  · by_cases hc : c = .connect
    · subst hc
      exact retries_connect hw (hok rfl) s.timer _
    · -- What the task has left ends with the call that connects.
      have hne : rest ≠ [] := by
        rintro rfl
        exact hc (by simpa using hlast)
      exact fun _ => .inr (.inr (.inr ⟨rest, List.mem_set hlt rest,
        List.mem_of_getLast? (htail hne)⟩))
  · intro calls hmem hne
    rcases List.mem_or_eq_of_mem_set hmem with hold | rfl
    · exact h.tasks calls hold hne
    · exact htail hne

theorem linkInv_step {api : CJson} (hw : w.Documented) {e : LinkEvent O} (h : LinkInv w s)
    (hok : Taken w s e) (hs : linkStep api w s e = some s') : LinkInv w s' := by
  cases e with
  | handle initOk timerOk =>
    obtain rfl : timerOk = true := hok
    rw [linkStep] at hs
    split at hs
    · next e rest hq =>
      obtain rfl := Option.some.inj hs
      exact linkInv_handle hw h hq initOk
    · simp at hs
  | timer =>
    rw [linkStep] at hs
    split at hs
    · obtain rfl := Option.some.inj hs
      exact ⟨h.toReportInv.move (hw.call_moves s.driver _) _ _, retries_connect hw hok _ _, h.tasks⟩
    · simp at hs
  | register =>
    rw [linkStep] at hs
    split at hs
    · simp at hs
    · next hreg =>
      obtain rfl := Option.some.inj hs
      have hnone : s.scannerInits = 0 := by rw [h.once, if_neg fun hr => hreg hr.1]
      refine ⟨⟨h.address, h.unlinked, h.flag, ?_, nofun⟩, h.retries, h.tasks⟩
      cases hhas : s.session.savedCfg.hasWifi <;> simp [WifiLink.register, hnone, hhas]
  | submit sub =>
    obtain rfl := Option.some.inj hs
    refine ⟨⟨h.address, h.unlinked, h.flag, h.once, h.unregistered⟩, retries_mono h.retries id .inl id
      (fun _ he _ => he) fun _ hmem => List.mem_append_left _ hmem, fun calls hmem hne => ?_⟩
    rcases List.mem_append.mp hmem with hold | hnew
    · exact h.tasks calls hold hne
    · obtain rfl := List.mem_singleton.mp hnew
      rcases submitWifi_calls api s.session.nvs sub with hnil | ⟨ssid, pass, hcalls⟩
      · exact absurd hnil hne
      · rw [hcalls]
        rfl
  | call i =>
    rw [linkStep] at hs
    split at hs
    · next c rest hi =>
      obtain rfl := Option.some.inj hs
      refine linkInv_call hw h hi fun hc => hok ?_
      rw [hi, hc]
      rfl
    · simp at hs
  | mqtt broker port pass initOk =>
    obtain rfl := Option.some.inj hs
    exact ⟨⟨h.address, h.unlinked, h.flag, h.once, h.unregistered⟩, h.retries, h.tasks⟩
  | own o =>
    obtain ⟨⟨d, evs⟩, hmove, rfl⟩ := Option.map_eq_some_iff.mp hs
    exact h.move (hw.own_moves _ _ _ _ hmove) (hw.own_configured _ _ _ _ hmove)

end Steps

/-! ### Every run -/

end Driver

/-- The shop's network is there, its address is lost and comes back, and then the gateway is taken to the
    café, where its first attempt fails. -/
def toTheCafe : List (LinkEvent StationMove) :=
  [.handle true true, .handle true true, .register, .timer, .own .associated, .handle true true,
    .own (.gotIp ⟨10, 0, 0, 7⟩), .handle true true, .own .lostIp, .handle true true,
    .own (.gotIp ⟨10, 0, 0, 7⟩), .handle true true, .submit cafePost, .call 0, .call 0, .call 0,
    .own .dropped, .handle true true, .handle true true, .timer, .own .associated, .own .apClient,
    .own (.gotIp ⟨192, 168, 4, 20⟩), .handle true true, .handle true true, .handle true true]

end SeeedMote.Gateway
