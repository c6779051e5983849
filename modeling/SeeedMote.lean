import SeeedMote.Lib.Run
import SeeedMote.Lib.Dict
import SeeedMote.Lib.CBytes
import SeeedMote.Lib.LastValue
import SeeedMote.Lib.Work
import SeeedMote.Lib.Window
import SeeedMote.Lib.Steps
import SeeedMote.Lib.Replica
import SeeedMote.Lib.PyText
import SeeedMote.Lib.PySet
import SeeedMote.Lib.PyJson
import SeeedMote.Lib.JsonText
import SeeedMote.Lib.Dns
import SeeedMote.Gateway.Scanner
import SeeedMote.Gateway.AdStructures
import SeeedMote.Gateway.Dedup
import SeeedMote.Gateway.Discovery
import SeeedMote.Gateway.BthomeObjects
import SeeedMote.Gateway.AdPrefix
import SeeedMote.Gateway.OneMote
import SeeedMote.Gateway.TableShape
import SeeedMote.Gateway.Nvs
import SeeedMote.Gateway.TornSaves
import SeeedMote.Gateway.MqttMgr
import SeeedMote.Gateway.Relay
import SeeedMote.Gateway.WifiMgr
import SeeedMote.Gateway.Session
import SeeedMote.Gateway.Settings
import SeeedMote.Gateway.BodyPieces
import SeeedMote.Gateway.DnsTask
import SeeedMote.Mote.MotionGate
import SeeedMote.Mote.MotionTrace
import SeeedMote.Mote.MotionScore
import SeeedMote.Mote.Advertising
import SeeedMote.Mote.AdvRuns
import SeeedMote.Mote.StateMachine
import SeeedMote.Mote.Tuning
import SeeedMote.Mote.Pickups
import SeeedMote.App.Store
import SeeedMote.App.Broadcast
import SeeedMote.App.MqttClient
import SeeedMote.App.Semantic
import SeeedMote.App.Dashboard
import SeeedMote.EndToEnd.AdvertLink
import SeeedMote.EndToEnd.MessageLink
import SeeedMote.EndToEnd.ExactlyOnce
import SeeedMote.EndToEnd.Reboots
import SeeedMote.App.Liveness
import SeeedMote.App.GatewayView
import SeeedMote.App.History
import SeeedMote.App.GatewayLog
import SeeedMote.App.WallClock
import SeeedMote.App.BrokerConfig
import SeeedMote.Tools.WebBt
import SeeedMote.EndToEnd.StatusLink
import SeeedMote.Lib.PyDumps
import SeeedMote.App.Commands
import SeeedMote.Gateway.Locate
import SeeedMote.EndToEnd.LocateLink
import SeeedMote.Mote.Lights
import SeeedMote.App.WsHook
import SeeedMote.Lib.GroupBy
import SeeedMote.App.Panels
import SeeedMote.EndToEnd.Screen
import SeeedMote.App.Reload
import SeeedMote.EndToEnd.TuningLink
import SeeedMote.Gateway.WifiDriver
import SeeedMote.Gateway.WifiLink
import SeeedMote.EndToEnd.ConfigLink
import SeeedMote.App.MockSource
import SeeedMote.EndToEnd.PickLink
