import SeeedMote.Lib.PyJson

/-! Changing the broker while the app runs: `update_config` of `main.py` with `MqttClient.start` and
    `MqttClient.stop`. A request goes through five steps, and only the last one can fail:

        mock? ──▶ source.stop() ──▶ settings := .. ──▶ source := MqttClient(..) ──▶ source.start()
          │                                                                            │
          400                                                        connect_async may raise

    Objects have an identity: `clients` holds every client ever made, `source` refers to one. -/

namespace SeeedMote.App
open Lib

/-! ### State -/

/-- The fields of `Settings` the MQTT source depends on. -/
structure Settings where
  mqttBroker : PyStr
  mqttPort : ℤ
  mqttUser : Option PyStr
  mqttPassword : Option PyStr
  mock : Bool
  deriving DecidableEq

/-- An `MqttClient` with its paho client: the credentials set, the address of the last
    `connect_async`, and whether the network loop runs. -/
structure MqttClient where
  broker : PyStr
  port : ℤ
  credentials : Option (PyStr × Option PyStr)
  connected : Bool
  address : Option (PyStr × ℤ)
  looping : Bool
  deriving DecidableEq

structure AppState where
  settings : Settings
  clients : List MqttClient
  source : Option ℕ
  source_lt : ∀ id ∈ source, id < clients.length
  deriving DecidableEq

/-- The object `source` refers to. -/
def AppState.active (s : AppState) : Option MqttClient := s.source.bind fun id => s.clients[id]?

/-- What a handler raises. -/
inductive ConfigExc where
  | httpException (status : ℕ) (detail : PyStr)
  | raised (e : PyExc)
  deriving DecidableEq

/-- A handler: an exception leaves behind what was assigned before it. -/
abbrev Handler := ExceptT ConfigExc (StateM AppState)

/-! ### The client -/

/-- What `if user:` passes to `username_pw_set`. -/
def credentialsOf (user password : Option PyStr) : Option (PyStr × Option PyStr) :=
  match user with
  | some u => if u = [] then none else some (u, password)
  | none => none

/-- `MqttClient.__init__` on the settings. -/
def MqttClient.init (t : Settings) : MqttClient where
  broker := t.mqttBroker
  port := t.mqttPort
  credentials := credentialsOf t.mqttUser t.mqttPassword
  connected := false
  address := none
  looping := false

/-- `stop`: the loop ends, and the disconnect calls `_on_disconnect`. -/
def MqttClient.stop (c : MqttClient) : MqttClient := { c with looping := false, connected := false }

/-- `start`, when `connect_async` returns. -/
def MqttClient.started (c : MqttClient) : MqttClient :=
  { c with address := some (c.broker, c.port), looping := true }

/-! ### The handler -/

/-- The body of a request. -/
structure MqttConfigIn where
  broker : PyStr
  port : ℤ := 1883
  user : Option PyStr := none
  password : Option PyStr := none
  deriving DecidableEq

/-- The four assignments to `settings`; a null password keeps the stored one. -/
def Settings.assign (t : Settings) (cfg : MqttConfigIn) : Settings :=
  { t with
    mqttBroker := cfg.broker
    mqttPort := cfg.port
    mqttUser := cfg.user
    mqttPassword := match cfg.password with | some p => some p | none => t.mqttPassword }

/-- A method call on the object `source` refers to. -/
def AppState.modifySource (f : MqttClient → MqttClient) (s : AppState) : AppState where
  settings := s.settings
  clients :=
    match s.source with
    | some id => s.clients.modify id f
    | none => s.clients
  source := s.source
  source_lt id hid := by
    have hlt := s.source_lt id hid
    split
    · rwa [List.length_modify]
    · exact hlt

/-- `source = MqttClient(..)`. -/
def AppState.newSource (s : AppState) : AppState where
  settings := s.settings
  clients := s.clients ++ [MqttClient.init s.settings]
  source := some s.clients.length
  source_lt id hid := by
    obtain rfl : s.clients.length = id := by simpa using hid
    simp

/-- `source.start()`; `connectAsync` is paho's. -/
def startSource (connectAsync : PyStr → ℤ → Except PyExc Unit) : Handler Unit := do
  match (← get).active with
  | none => throw (.raised .attributeError)
  | some c =>
    match connectAsync c.broker c.port with
    | .error e => throw (.raised e)
    | .ok () => modify (AppState.modifySource MqttClient.started)

/-- `update_config`. -/
def updateConfig (connectAsync : PyStr → ℤ → Except PyExc Unit) (cfg : MqttConfigIn) :
    Handler Unit := do
  if (← get).settings.mock then
    throw (.httpException 400 (py "Cannot change MQTT config in mock mode"))
  modify (AppState.modifySource MqttClient.stop)
  modify fun s => { s with settings := s.settings.assign cfg }
  modify AppState.newSource
  startSource connectAsync

/-- The start of the app, `lifespan` up to its `yield`. -/
def lifespan (connectAsync : PyStr → ℤ → Except PyExc Unit) : Handler Unit := do
  if (← get).settings.mock then
    pure ()
  else
    modify AppState.newSource
    startSource connectAsync

/-- Run a handler: what it returns or raises, and the state it leaves. -/
def Handler.runOn (h : Handler Unit) (s : AppState) : Except ConfigExc Unit × AppState :=
  (h.run).run s

/-! ### What one request does -/

/-- Reading the state first. -/
theorem get_bind_runOn (k : AppState → Handler Unit) (s : AppState) :
    (get >>= k).runOn s = (k s).runOn s := rfl

theorem active_newSource (s : AppState) :
    s.newSource.active = some (MqttClient.init s.settings) := by
  simp [AppState.active, AppState.newSource]

theorem active_modifySource (f : MqttClient → MqttClient) (s : AppState) :
    (s.modifySource f).active = s.active.map f := by
  cases h : s.source with
  | none => simp [AppState.active, AppState.modifySource, h]
  | some id => simp [AppState.active, AppState.modifySource, h]

/-- The state before `source.start()`. -/
def AppState.replaced (s : AppState) (cfg : MqttConfigIn) : AppState :=
  { s.modifySource MqttClient.stop with settings := s.settings.assign cfg }.newSource

/-- The client of the request, not started yet. -/
theorem active_replaced (s : AppState) (cfg : MqttConfigIn) :
    (s.replaced cfg).active = some (MqttClient.init (s.settings.assign cfg)) := active_newSource _

theorem source_replaced (s : AppState) (cfg : MqttConfigIn) :
    (s.replaced cfg).source = some s.clients.length := by
  cases h : s.source with
  | none => simp [AppState.replaced, AppState.newSource, AppState.modifySource, h]
  | some id => simp [AppState.replaced, AppState.newSource, AppState.modifySource, h]

theorem startSource_runOn (connectAsync : PyStr → ℤ → Except PyExc Unit) {s : AppState}
    {c : MqttClient} (h : s.active = some c) :
    (startSource connectAsync).runOn s =
      match connectAsync c.broker c.port with
      | .error e => (.error (.raised e), s)
      | .ok () => (.ok (), s.modifySource MqttClient.started) := by
  rw [startSource, get_bind_runOn, h]
  cases hconn : connectAsync c.broker c.port <;> simp only [hconn] <;> rfl

/-- In mock mode the handler raises before it assigns anything. -/
theorem updateConfig_mock (connectAsync : PyStr → ℤ → Except PyExc Unit) (cfg : MqttConfigIn)
    {s : AppState} (h : s.settings.mock = true) :
    (updateConfig connectAsync cfg).runOn s =
      (.error (.httpException 400 (py "Cannot change MQTT config in mock mode")), s) := by
  rw [updateConfig, get_bind_runOn, if_pos h]
  rfl

/-- Otherwise it has replaced settings and source by the time `connect_async` is called. -/
theorem updateConfig_runOn (connectAsync : PyStr → ℤ → Except PyExc Unit) (cfg : MqttConfigIn)
    {s : AppState} (h : s.settings.mock = false) :
    (updateConfig connectAsync cfg).runOn s =
      match connectAsync cfg.broker cfg.port with
      | .error e => (.error (.raised e), s.replaced cfg)
      | .ok () => (.ok (), (s.replaced cfg).modifySource MqttClient.started) := by
  have hstart : (updateConfig connectAsync cfg).runOn s =
      (startSource connectAsync).runOn (s.replaced cfg) := by
    rw [updateConfig, get_bind_runOn, if_neg (by simp [h])]
    rfl
  rw [hstart]
  exact startSource_runOn connectAsync (active_replaced s cfg)

/-! ### All or nothing -/

/-- The request is in force: the settings are its own, and the source is a running client of it. -/
structure Applied (s : AppState) (cfg : MqttConfigIn) (s' : AppState) : Prop where
  settings : s'.settings = s.settings.assign cfg
  running : ∃ c, s'.active = some c ∧ c.looping = true ∧ c.address = some (cfg.broker, cfg.port) ∧
    c.credentials = credentialsOf cfg.user (s.settings.assign cfg).mqttPassword

/-- Nothing a later request can see has changed. -/
structure Unchanged (s s' : AppState) : Prop where
  settings : s'.settings = s.settings
  source : s'.source = s.source
  active : s'.active = s.active

/-- A handler that returns has applied the request, and one that raises has changed nothing. -/
def AllOrNothing (connectAsync : PyStr → ℤ → Except PyExc Unit) (cfg : MqttConfigIn)
    (s : AppState) : Prop :=
  match (updateConfig connectAsync cfg).runOn s with
  | (.ok (), s') => Applied s cfg s'
  | (.error _, s') => Unchanged s s'

/-- What paho checks before it stores the address. -/
def ChecksAddress (connectAsync : PyStr → ℤ → Except PyExc Unit) : Prop :=
  ∀ host port, connectAsync host port = .ok () ↔ host ≠ [] ∧ 0 < port

/-- The source of a half-done request is a new object. -/
theorem not_unchanged_replaced (s : AppState) (cfg : MqttConfigIn) :
    ¬Unchanged s (s.replaced cfg) := by
  intro h
  have hsource : s.source = some s.clients.length := h.source.symm.trans (source_replaced s cfg)
  exact absurd (s.source_lt _ hsource) (Nat.lt_irrefl _)

theorem applied_started (s : AppState) (cfg : MqttConfigIn) :
    Applied s cfg ((s.replaced cfg).modifySource MqttClient.started) := by
  refine ⟨rfl, (MqttClient.init (s.settings.assign cfg)).started, ?_, rfl, rfl, rfl⟩
  rw [active_modifySource, active_replaced, Option.map_some]

/-- paho's check with its default arguments. -/
def pahoConnectAsync (host : PyStr) (port : ℤ) : Except PyExc Unit :=
  if host ≠ [] ∧ 0 < port then .ok () else .error .valueError

theorem pahoConnectAsync_checks : ChecksAddress pahoConnectAsync := by
  intro host port
  rw [pahoConnectAsync]
  split
  · next h => exact iff_of_true rfl h
  · next h => exact iff_of_false (by simp) h

/-- The app on its default broker, connected. -/
def localApp : AppState where
  settings := ⟨py "localhost", 1883, none, none, false⟩
  clients := [⟨py "localhost", 1883, none, true, some (py "localhost", 1883), true⟩]
  source := some 0
  source_lt := by simp

/-- The state after a request, answered or not. -/
def afterRequest (connectAsync : PyStr → ℤ → Except PyExc Unit) (s : AppState) (cfg : MqttConfigIn) :
    AppState := ((updateConfig connectAsync cfg).runOn s).2

/-- The app receives messages: the source's network loop runs. -/
def AppState.Ingests (s : AppState) : Prop := ∃ c ∈ s.active, c.looping = true

/-- No client but the source has a network loop. -/
def OnlySourceLoops (s : AppState) : Prop :=
  ∀ (id : ℕ) (c : MqttClient), s.clients[id]? = some c → c.looping = true → s.source = some id

/-- No client at all has one. -/
def AppState.Idle (s : AppState) : Prop := ∀ c ∈ s.clients, c.looping = false

theorem AppState.Idle.onlySourceLoops {s : AppState} (h : s.Idle) : OnlySourceLoops s := by
  intro id c hc hloop
  exact absurd ((h c (List.mem_of_getElem? hc)).symm.trans hloop) (by simp)

/-- The app before `lifespan`. -/
def AppState.boot (t : Settings) : AppState := ⟨t, [], none, by simp⟩

theorem getElem?_modifySource (f : MqttClient → MqttClient) (s : AppState) (id : ℕ) :
    (s.modifySource f).clients[id]? =
      if s.source = some id then s.clients[id]?.map f else s.clients[id]? := by
  cases h : s.source with
  | none => simp [AppState.modifySource, h]
  | some j =>
    by_cases hj : j = id
    · simp [AppState.modifySource, h, hj]
    · simp [AppState.modifySource, h, hj]

/-- Stopping the source stops every loop. -/
theorem idle_stop {s : AppState} (h : OnlySourceLoops s) :
    (s.modifySource MqttClient.stop).Idle := by
  intro c hc
  obtain ⟨id, hid⟩ := List.mem_iff_getElem?.mp hc
  rw [getElem?_modifySource] at hid
  split at hid
  · obtain ⟨c', -, rfl⟩ := Option.map_eq_some_iff.mp hid
    rfl
  · next hsource =>
    by_contra hloop
    exact hsource (h id c hid (by simpa using hloop))

/-- A new source next to idle clients is idle too. -/
theorem AppState.Idle.newSource {s : AppState} (h : s.Idle) : s.newSource.Idle := by
  intro c hc
  have hmem : c ∈ s.clients ++ [MqttClient.init s.settings] := hc
  rcases List.mem_append.mp hmem with hold | hnew
  · exact h c hold
  · rw [List.mem_singleton.mp hnew]
    rfl

/-- Starting the source of an idle state leaves one loop, its own. -/
theorem AppState.Idle.started {s : AppState} (h : s.Idle) :
    OnlySourceLoops (s.modifySource MqttClient.started) := by
  intro id c hc hloop
  rw [getElem?_modifySource] at hc
  split at hc
  · assumption
  · exact h.onlySourceLoops id c hc hloop

theorem onlySourceLoops_afterRequest (connectAsync : PyStr → ℤ → Except PyExc Unit) {s : AppState}
    (h : OnlySourceLoops s) (cfg : MqttConfigIn) :
    OnlySourceLoops (afterRequest connectAsync s cfg) := by
  have hstop : AppState.Idle { s.modifySource MqttClient.stop with
      settings := s.settings.assign cfg } := idle_stop h
  have hidle : (s.replaced cfg).Idle := hstop.newSource
  rw [afterRequest]
  cases hmock : s.settings.mock with
  | true => rwa [updateConfig_mock connectAsync cfg hmock]
  | false =>
    rw [updateConfig_runOn connectAsync cfg hmock]
    cases connectAsync cfg.broker cfg.port with
    | ok u => exact hidle.started
    | error e => exact hidle.onlySourceLoops

theorem onlySourceLoops_lifespan (connectAsync : PyStr → ℤ → Except PyExc Unit) (t : Settings) :
    OnlySourceLoops ((lifespan connectAsync).runOn (.boot t)).2 := by
  have hboot : (AppState.boot t).Idle := by simp [AppState.Idle, AppState.boot]
  have hrun : (lifespan connectAsync).runOn (.boot t) =
      if t.mock = true then (.ok (), .boot t)
      else (startSource connectAsync).runOn (AppState.boot t).newSource := by
    rw [lifespan, get_bind_runOn]
    cases hmock : t.mock <;> simp [AppState.boot, hmock] <;> rfl
  rw [hrun]
  split
  · exact hboot.onlySourceLoops
  · rw [startSource_runOn connectAsync (active_newSource _)]
    split
    · exact hboot.newSource.onlySourceLoops
    · exact hboot.newSource.started

/-- However requests fail, no two clients ever receive side by side. -/
theorem only_source_loops (connectAsync : PyStr → ℤ → Except PyExc Unit) (t : Settings)
    (cfgs : List MqttConfigIn) :
    OnlySourceLoops
      (cfgs.foldl (afterRequest connectAsync) ((lifespan connectAsync).runOn (.boot t)).2) := by
  have hrun : ∀ s, OnlySourceLoops s → OnlySourceLoops (cfgs.foldl (afterRequest connectAsync) s) := by
    induction cfgs with
    | nil => exact fun _ h => h
    | cons cfg cfgs ih => exact fun s h => ih _ (onlySourceLoops_afterRequest connectAsync h cfg)
  exact hrun _ (onlySourceLoops_lifespan connectAsync t)

/-- After a request the app receives exactly when its address passes the check. -/
theorem ingests_afterRequest {connectAsync : PyStr → ℤ → Except PyExc Unit}
    (hpaho : ChecksAddress connectAsync) {s : AppState} (hmock : s.settings.mock = false)
    (cfg : MqttConfigIn) :
    (afterRequest connectAsync s cfg).Ingests ↔ cfg.broker ≠ [] ∧ 0 < cfg.port := by
  rw [afterRequest, updateConfig_runOn connectAsync cfg hmock, ← hpaho]
  cases hconn : connectAsync cfg.broker cfg.port with
  | ok u =>
    simp [AppState.Ingests, active_modifySource, active_replaced, MqttClient.started]
  | error e =>
    simp [AppState.Ingests, active_replaced, MqttClient.init]

theorem mock_afterRequest (connectAsync : PyStr → ℤ → Except PyExc Unit) (s : AppState)
    (cfg : MqttConfigIn) :
    (afterRequest connectAsync s cfg).settings.mock = s.settings.mock := by
  rw [afterRequest]
  cases hmock : s.settings.mock with
  | true => rw [updateConfig_mock connectAsync cfg hmock, hmock]
  | false =>
    rw [updateConfig_runOn connectAsync cfg hmock]
    cases connectAsync cfg.broker cfg.port <;> exact hmock

/-- A failed request ends ingestion until the next good one: over any run, the last request alone
    decides. -/
theorem ingests_iff_last_request {connectAsync : PyStr → ℤ → Except PyExc Unit}
    (hpaho : ChecksAddress connectAsync) {s : AppState} (hmock : s.settings.mock = false)
    (cfgs : List MqttConfigIn) (cfg : MqttConfigIn) :
    ((cfgs ++ [cfg]).foldl (afterRequest connectAsync) s).Ingests ↔
      cfg.broker ≠ [] ∧ 0 < cfg.port := by
  have hmock' : (cfgs.foldl (afterRequest connectAsync) s).settings.mock = false := by
    induction cfgs generalizing s with
    | nil => exact hmock
    | cons c cfgs ih => exact ih ((mock_afterRequest connectAsync s c).trans hmock)
  rw [List.foldl_append]
  exact ingests_afterRequest hpaho hmock' cfg

end SeeedMote.App
