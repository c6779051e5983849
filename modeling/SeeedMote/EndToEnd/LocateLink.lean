import Mathlib.Logic.Function.Basic
import SeeedMote.App.Commands
import SeeedMote.EndToEnd.MessageLink
import SeeedMote.Gateway.Locate
import SeeedMote.Lib.Run

/-! A locate command from the browser's request to the LED: every gateway receives every command, and
    picks out its own.

        POST …/{gw_id}/command ──▶ {"gw": gw_id, "cmd": "locate"} ──▶ all gateways
                                                                   gw = gw_id_get()? ──▶ blink_task
        AP client, /api/locate, console `locate` at the gateway itself ─────────────────▶ blink_task

    The id is text on one side and a C string on the other; `strcmp` sees it up to a NUL. -/

namespace SeeedMote.EndToEnd
open Lib Gateway App Settings

/-- A string value as a C string: UTF-8, and it ends at a NUL. -/
def valueString (s : PyStr) : CStr := (utf8Encode s).takeWhile (· ≠ 0)

/-- The part of a text that a C string comparison sees. -/
def visible (s : PyStr) : PyStr := s.takeWhile (· ≠ 0)

/-- `cJSON` reads an object of strings as `json.dumps` writes it. -/
def ReadsDumps (api : CJson) : Prop :=
  ∀ gw cmd : PyStr, Scalar gw → Scalar cmd →
    ∃ j, api.parse (asciiBytes (dumps [(py "gw", gw), (py "cmd", cmd)])) = some j ∧
      api.textOf j (lit "gw") = some (valueString gw) ∧
      api.textOf j (lit "cmd") = some (valueString cmd)

/-! ### One command at one gateway -/

/-- The event in which a gateway receives a publication. -/
def eventOf (p : Publication) : MqttData := ⟨asciiBytes p.topic, asciiBytes p.payload⟩

theorem takeWhile_payload (gwId command : PyStr) :
    (eventOf (commandMessage gwId command)).data.takeWhile (· ≠ 0)
      = asciiBytes (dumps [(py "gw", gwId), (py "cmd", command)]) := by
  refine List.takeWhile_eq_self_iff.mpr fun b hb => ?_
  obtain ⟨c, hc, rfl⟩ := List.mem_map.mp hb
  obtain ⟨hlo, hhi⟩ := dumps_printable _ c hc
  have hback : c.toUInt8.toNat = c := toNat_byte (by omega)
  rw [decide_eq_true_eq]
  intro hzero
  rw [show Nat.toUInt8 c = 0 from hzero] at hback
  have : (0 : UInt8).toNat = 0 := rfl
  omega

theorem valueString_eq_iff {s : PyStr} (hs : Scalar s) {b : CStr} (hb : Plain b) :
    valueString s = b ↔ visible s = asciiText b := by
  have hlt : ∀ c ∈ s, c < 0x110000 := fun c hc => (hs c hc).1
  rw [valueString, takeWhile_utf8Encode hlt, utf8Encode_eq_iff
    (fun c hc => hlt c ((List.takeWhile_sublist _).subset hc)) fun c hc => (hb c hc).2.1]
  rfl

/-- A gateway acts on a command exactly if the command names it. -/
theorem locateCommand_iff {api : CJson} (hapi : ReadsDumps api) {gwId : PyStr} (hgw : Scalar gwId)
    (m3 m4 m5 : UInt8) (mallocOk : Bool) :
    locateCommand api (gwIdOf m3 m4 m5) mallocOk (eventOf (commandMessage gwId (py "locate"))) = true ↔
      mallocOk = true ∧ visible gwId = gatewayText m3 m4 m5 := by
  obtain ⟨j, hparse, hgwText, hcmdText⟩ := hapi gwId (py "locate") hgw (by decide)
  have htopic : (eventOf (commandMessage gwId (py "locate"))).topic = cmdTopic := by
    change asciiBytes gatewayCommandTopic = cmdTopic
    decide
  have htopicNe : cmdTopic ≠ [] := by decide
  have hdata : (eventOf (commandMessage gwId (py "locate"))).data ≠ [] := List.cons_ne_nil _ _
  have hlocate : valueString (py "locate") = lit "locate" := by decide
  rw [locateCommand, takeWhile_payload, htopic, if_neg (not_or.mpr ⟨htopicNe, hdata⟩),
    if_neg (not_not.mpr rfl), if_neg (not_not.mpr rfl)]
  cases mallocOk with
  | false => simp
  | true =>
    simp only [Bool.true_eq_false, if_false, hparse, hgwText, hcmdText, hlocate, decide_true,
      Bool.and_true, decide_eq_true_eq, true_and]
    rw [valueString_eq_iff hgw (gwIdOf_spec m3 m4 m5).2, asciiText_gwIdOf]

/-! ### All gateways -/

/-- A gateway, by the last three bytes of its MAC address. -/
structure Suffix where
  m3 : UInt8
  m4 : UInt8
  m5 : UInt8
  deriving DecidableEq

def Suffix.gwId (g : Suffix) : CStr := gwIdOf g.m3 g.m4 g.m5

def Suffix.text (g : Suffix) : PyStr := gatewayText g.m3 g.m4 g.m5

/-- What the broker has been given, what was triggered at the gateways themselves, and the LED of every
    gateway. -/
structure Fleet where
  messages : List Publication
  triggers : List (Suffix × LocalTrigger)
  led : Suffix → Led

namespace Fleet

def boot : Fleet := ⟨[], [], fun _ => .init⟩

def setLed (f : Fleet) (g : Suffix) (l : Led) : Fleet := { f with led := Function.update f.led g l }

theorem setLed_led (f : Fleet) (g g' : Suffix) (l : Led) :
    (f.setLed g l).led g' = if g' = g then l else f.led g' := Function.update_apply ..

end Fleet

/-- A request, whatever the app's state; the delivery of a message, to any gateway and any number of
    times; a trigger at a gateway itself; a run of a blink task; a restart of a gateway. -/
inductive FleetEvent where
  | request (recheck : Bool) (publish : Publication → Bool) (app : AppState) (req : CommandRequest)
  | deliver (p : Publication) (g : Suffix) (mallocOk createOk : Bool)
  | trigger (g : Suffix) (t : LocalTrigger) (createOk : Bool)
  | run (g : Suffix) (i : ℕ)
  | restart (g : Suffix)

/-- `MQTT_EVENT_DATA` at a gateway. -/
def Fleet.receive (api : CJson) (f : Fleet) (p : Publication) (g : Suffix)
    (mallocOk createOk : Bool) : Fleet :=
  if locateCommand api g.gwId mallocOk (eventOf p) then
    f.setLed g ((f.led g).locateBlink createOk)
  else f

def fleetNext (api : CJson) (f : Fleet) : FleetEvent → Option Fleet
  | .request recheck publish app req =>
    some { f with messages := f.messages ++ (sendGatewayCommand recheck publish app req).2 }
  | .deliver p g mallocOk createOk =>
    if p ∈ f.messages then some (f.receive api p g mallocOk createOk) else none
  | .trigger g t createOk =>
    some ({ f with triggers := f.triggers ++ [(g, t)] }.setLed g (t.blink createOk (f.led g)))
  | .run g i => ((f.led g).runTask i).map (f.setLed g)
  | .restart g => some (f.setLed g .init)

/-- The gateway is named by a command among the messages. -/
def Fleet.Named (f : Fleet) (g : Suffix) : Prop :=
  ∃ gwId, commandMessage gwId (py "locate") ∈ f.messages ∧ visible gwId = g.text

/-- The gateway was triggered where it stands. -/
def Fleet.Triggered (f : Fleet) (g : Suffix) : Prop := ∃ t, (g, t) ∈ f.triggers

instance (f : Fleet) (g : Suffix) : Decidable (f.Triggered g) :=
  decidable_of_iff (g ∈ f.triggers.map Prod.fst) (by simp [Fleet.Triggered])

structure FleetInv (f : Fleet) : Prop where
  messages : ∀ p ∈ f.messages, ∃ gwId, Scalar gwId ∧ p = commandMessage gwId (py "locate")
  led : ∀ g, (f.led g).Inv
  asked : ∀ g, (f.led g).tasks ≠ [] → f.Named g ∨ f.Triggered g

theorem fleetInv_boot : FleetInv .boot where
  messages _ hp := absurd hp List.not_mem_nil
  led _ := Led.inv_init
  asked _ h := absurd rfl h

/-- Another LED state of one gateway. -/
theorem FleetInv.setLed {f : Fleet} (h : FleetInv f) {g : Suffix} {l : Led} (hl : l.Inv)
    (hasked : l.tasks ≠ [] → f.Named g ∨ f.Triggered g) : FleetInv (f.setLed g l) where
  messages := h.messages
  led g' := by
    rw [Fleet.setLed_led]
    split
    · exact hl
    · exact h.led g'
  asked g' := by
    rw [Fleet.setLed_led]
    split
    · next heq => exact fun htasks => heq ▸ hasked htasks
    · exact h.asked g'

/-- One more trigger on record. -/
theorem FleetInv.record {f : Fleet} (h : FleetInv f) (g : Suffix) (t : LocalTrigger) :
    FleetInv { f with triggers := f.triggers ++ [(g, t)] } where
  messages := h.messages
  led := h.led
  asked g' htasks := (h.asked g' htasks).imp_right fun ⟨t', ht'⟩ => ⟨t', List.mem_append_left _ ht'⟩

section Runs
variable {api : CJson}

theorem fleetInv_step (hapi : ReadsDumps api) {f f' : Fleet} (h : FleetInv f) {e : FleetEvent}
    (hstep : fleetNext api f e = some f') : FleetInv f' := by
  cases e with
  | request recheck publish app req =>
    obtain rfl := Option.some.inj hstep
    refine ⟨fun p hp => ?_, h.led, fun g htasks => (h.asked g htasks).imp_left ?_⟩
    · rcases List.mem_append.mp hp with hp | hp
      · exact h.messages p hp
      · exact ⟨req.gwId, req.scalar, ((sendGatewayCommand_spec recheck publish app req).1 p hp).1⟩
    · rintro ⟨gwId, hmem, hvisible⟩
      exact ⟨gwId, List.mem_append_left _ hmem, hvisible⟩
  | deliver p g mallocOk createOk =>
    rw [fleetNext] at hstep
    split at hstep
    · next hp =>
      obtain rfl := Option.some.inj hstep
      rw [Fleet.receive]
      split
      · next hblink =>
        obtain ⟨gwId, hscalar, rfl⟩ := h.messages p hp
        have hvisible := ((locateCommand_iff hapi hscalar g.m3 g.m4 g.m5 mallocOk).mp hblink).2
        exact h.setLed ((h.led g).locateBlink createOk) fun _ => .inl ⟨gwId, hp, hvisible⟩
      · exact h
    · simp at hstep
  | trigger g t createOk =>
    obtain rfl := Option.some.inj hstep
    rw [t.blink_eq]
    exact (h.record g t).setLed ((h.led g).locateBlink createOk) fun _ =>
      .inr ⟨t, List.mem_append_right _ (List.mem_singleton_self _)⟩
  | run g i =>
    obtain ⟨l, hrun, rfl⟩ := Option.map_eq_some_iff.mp hstep
    refine h.setLed ((h.led g).runTask hrun) fun _ => h.asked g fun hnone => ?_
    rw [Led.runTask, hnone] at hrun
    simp at hrun
  | restart g =>
    obtain rfl := Option.some.inj hstep
    exact h.setLed Led.inv_init fun htasks => absurd rfl htasks

end Runs

/-- The functions of `cJSON` on what Python's reader accepts. -/
def pyJson : CJson where
  Item := PyVal
  parse text := (loads asciiRuntime text).toOption
  getObjectItem
    | .dict entries, name => (entries.find? fun e => e.1 = asciiText name).map (·.2)
    | _, _ => none
  getStringValue
    | .str s => some (valueString s)
    | _ => none
  isNumber
    | .int _ => true
    | _ => false
  valueDouble
    | .int z => some z
    | _ => none

theorem readsDumps_pyJson : ReadsDumps pyJson := by
  intro gw cmd hgw hcmd
  have hscalar : ∀ m ∈ [(py "gw", gw), (py "cmd", cmd)], Scalar m.1 ∧ Scalar m.2 := by
    intro m hm
    simp only [List.mem_cons, List.not_mem_nil, or_false] at hm
    rcases hm with rfl | rfl
    · exact ⟨(by decide : Scalar (py "gw")), hgw⟩
    · exact ⟨(by decide : Scalar (py "cmd")), hcmd⟩
  refine ⟨.dict [(py "gw", .str gw), (py "cmd", .str cmd)], ?_, rfl, rfl⟩
  have hread : loads asciiRuntime (asciiBytes (dumps [(py "gw", gw), (py "cmd", cmd)]))
      = .ok (.dict [(py "gw", .str gw), (py "cmd", .str cmd)]) :=
    loads_dumps asciiRuntime_standard.depth (by simp) hscalar
  change (loads asciiRuntime _).toOption = _
  rw [hread]
  rfl

/-- Two gateways, a request for the first while a source is connected, and a phone that joins the access
    point of the second. -/
def windowGateway : Suffix := ⟨0xA1, 0xB2, 0xC3⟩
def counterGateway : Suffix := ⟨0xA1, 0xB2, 0xC4⟩

def locateRequest : CommandRequest where
  gwId := py "seeedmote-gw-a1b2c3"
  command := py "locate"
  scalar := by decide

def locateRun : List FleetEvent :=
  let p := commandMessage locateRequest.gwId (py "locate")
  [.request true (fun _ => true) localApp locateRequest, .deliver p counterGateway true true,
    .trigger counterGateway .apClient true, .deliver p windowGateway true true,
    .run windowGateway 0]

end SeeedMote.EndToEnd
