import SeeedMote.App.BrokerConfig
import SeeedMote.Lib.PyDumps

/-! The way down: `POST /api/gateways/{gw_id}/command` of `main.py` and `publish_gateway_command` of
    `mqtt_client.py`. One command exists, and it goes to one topic that every gateway is subscribed to;
    whom it is meant for stands in the payload.

        not "locate" ──▶ 400       mock ──▶ ok, nothing sent       offline ──▶ 503
        publish refused ──▶ 502, though paho may still deliver the message later -/

namespace SeeedMote.App
open Lib

def gatewayCommandTopic : PyStr := py "seeedmote/gateway/cmd"

/-- The arguments of paho's `publish`. -/
structure Publication where
  topic : PyStr
  payload : PyStr
  qos : ℕ
  retain : Bool
  deriving DecidableEq

/-- A request. A path is decoded with replacement, so its `gw_id` holds no surrogates. -/
structure CommandRequest where
  gwId : PyStr
  command : PyStr
  scalar : Scalar gwId

/-- What `publish_gateway_command` hands to paho. -/
def commandMessage (gwId command : PyStr) : Publication where
  topic := gatewayCommandTopic
  payload := dumps [(py "gw", gwId), (py "cmd", command)]
  qos := 1
  retain := false

/-- `publish_gateway_command`; `connected` is what it reads of the link, `publish` says whether
    `info.rc` is `MQTT_ERR_SUCCESS`. -/
def publishGatewayCommand (connected : Bool) (publish : Publication → Bool) (gwId command : PyStr) :
    Bool × List Publication :=
  if connected = false then (false, [])
  else (publish (commandMessage gwId command), [commandMessage gwId command])

inductive CommandReply where
  | ok
  | okMock
  deriving DecidableEq

/-- `send_gateway_command`; `recheck` is the link when `publish_gateway_command` reads it again. -/
def sendGatewayCommand (recheck : Bool) (publish : Publication → Bool) (s : AppState)
    (req : CommandRequest) : Except ConfigExc CommandReply × List Publication :=
  if req.command ≠ py "locate" then
    (.error (.httpException 400 (py "Unsupported gateway command")), [])
  else if s.settings.mock then (.ok .okMock, [])
  else
    match s.active with
    | none => (.error (.httpException 503 (py "MQTT broker is not connected")), [])
    | some source =>
      if source.connected = false then
        (.error (.httpException 503 (py "MQTT broker is not connected")), [])
      else
        match publishGatewayCommand recheck publish req.gwId req.command with
        | (true, sent) => (.ok .ok, sent)
        | (false, sent) => (.error (.httpException 502 (py "Failed to publish gateway command")), sent)

/-- Only the locate command is ever handed to paho: by a request for it, over a source that is
    connected, and exactly one for each request answered with ok outside mock mode. -/
theorem sendGatewayCommand_spec (recheck : Bool) (publish : Publication → Bool) (s : AppState)
    (req : CommandRequest) :
    let (reply, sent) := sendGatewayCommand recheck publish s req
    (∀ p ∈ sent, p = commandMessage req.gwId (py "locate") ∧ req.command = py "locate" ∧
      ∃ source, s.active = some source ∧ source.connected = true) ∧
    (reply = .ok .ok → sent = [commandMessage req.gwId (py "locate")]) := by
  rw [sendGatewayCommand]
  split_ifs with hcommand hmock
  · exact ⟨by simp, by simp⟩
  · exact ⟨by simp, by simp⟩
  · rw [not_not] at hcommand
    cases hactive : s.active with
    | none => exact ⟨by simp, by simp⟩
    | some source =>
      dsimp only
      by_cases hup : source.connected = true
      · rw [if_neg (by simp [hup]), publishGatewayCommand]
        cases recheck with
        | false => exact ⟨by simp, by simp⟩
        | true =>
          have hsent : ∀ p ∈ [commandMessage req.gwId req.command],
              p = commandMessage req.gwId (py "locate") ∧ req.command = py "locate" ∧
                ∃ c, some source = some c ∧ c.connected = true := by
            intro p hp
            exact ⟨by rw [List.mem_singleton.mp hp, hcommand], hcommand, source, rfl, hup⟩
          cases hrc : publish (commandMessage req.gwId req.command) with
          | true => simpa [hrc, hcommand] using hup
          | false => simpa [hrc, hcommand] using hup
      · rw [if_pos (by simpa using hup)]
        exact ⟨by simp, by simp⟩

end SeeedMote.App
