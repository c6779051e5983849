import SeeedMote.App.MqttClient

/-! `semantic_events.py` and the gateway payloads of `main.py`: what the dashboard is told about a
    stored event and about a gateway entry. A `Catalog` is the configuration read at start, with the
    fact that the texts of its items print. -/

namespace SeeedMote.App
open Lib

/-- The entries of one item of `shoes.yaml`. -/
abbrev ShoeItem := List (PyStr × PyVal)

/-- `"source"` of an interaction event. -/
structure EventSource where
  moteMac : PyStr
  packetId : ℤ
  rssi : ℤ
  gwId : PyStr
  gwAlias : Option PyStr
  gwLabel : PyStr

/-- What `to_interaction_event` returns. -/
structure InteractionEvent where
  action : PyStr
  actionLabel : PyStr
  itemLabel : PyStr
  registered : Bool
  item : Option ShoeItem
  source : EventSource
  receivedAt : ℚ

/-- `s or default`. -/
def orElse (s default : PyStr) : PyStr := if s = [] then default else s

/-- `alias or gw_id`. -/
def labelOf (gwAlias : Option PyStr) (gwId : PyStr) : PyStr := orElse (gwAlias.getD []) gwId

/-- `s.strip()`. -/
def strip (rt : PyRuntime) (s : PyStr) : PyStr :=
  ((s.dropWhile rt.isSpace).reverse.dropWhile rt.isSpace).reverse

/-- `" ".join(part for part in (sku, name) if part)`. -/
def joinLabel (sku name : PyStr) : PyStr :=
  if sku = [] then name else if name = [] then sku else sku ++ py " " ++ name

/-- The label of an item without entry, from the last six characters of its address. -/
def unregisteredLabel (moteMac : PyStr) : PyStr :=
  py "未登记设备 " ++ orElse (moteMac.drop (moteMac.length - 6)) (py "unknown")

/-- `item_label` of a catalogued item. -/
def registeredLabel (rt : PyRuntime) (item : ShoeItem) : Except PyExc PyStr := do
  let sku ← strField rt (.dict item) (py "sku") []
  let name ← strField rt (.dict item) (py "name") []
  return joinLabel (strip rt sku) (strip rt name)

/-- `item_label`. -/
def itemLabel (rt : PyRuntime) (item : Option ShoeItem) (moteMac : PyStr) : Except PyExc PyStr :=
  match item with
  | none => .ok (unregisteredLabel moteMac)
  | some item => registeredLabel rt item

/-- `to_interaction_event`. -/
def toInteractionEvent (rt : PyRuntime) (shoes : Dict PyStr ShoeItem) (aliases : Dict PyStr PyStr)
    (raw : MotionEvent) : Except PyExc InteractionEvent := do
  let moteMac := rt.lower raw.moteMac
  let gwId := orElse raw.gwId (py "unknown")
  let gwAlias := aliases.get? gwId
  let source : EventSource :=
    ⟨moteMac, raw.packetId, raw.rssi, gwId, gwAlias, labelOf gwAlias gwId⟩
  let item := shoes.get? moteMac
  let label ← itemLabel rt item moteMac
  return {
    action := py "picked_up"
    actionLabel := py "商品被拿起"
    itemLabel := label
    registered := item.isSome
    item := item
    source := source
    receivedAt := raw.receivedAt }

/-- The configuration read at start; every item has a label. -/
structure Catalog (rt : PyRuntime) where
  shoes : Dict PyStr ShoeItem
  aliases : Dict PyStr PyStr
  labelled : ∀ mac item, shoes.get? mac = some item → (registeredLabel rt item).isOk = true

theorem toInteractionEvent_isOk {rt : PyRuntime} (c : Catalog rt) (raw : MotionEvent) :
    ∃ ev, toInteractionEvent rt c.shoes c.aliases raw = .ok ev := by
  have hlabel : ∃ label,
      itemLabel rt (c.shoes.get? (rt.lower raw.moteMac)) (rt.lower raw.moteMac) = .ok label := by
    cases hi : c.shoes.get? (rt.lower raw.moteMac) with
    | none => exact ⟨_, rfl⟩
    | some item =>
      have hok := c.labelled _ _ hi
      cases hl : registeredLabel rt item with
      | error e => rw [hl] at hok; exact absurd hok (by simp)
      | ok label => exact ⟨label, hl⟩
  obtain ⟨label, hlabel⟩ := hlabel
  simp only [toInteractionEvent, hlabel]
  exact ⟨_, rfl⟩

/-- `to_interaction_event` with the configuration of `main.py`. -/
def Catalog.project {rt : PyRuntime} (c : Catalog rt) (raw : MotionEvent) : InteractionEvent :=
  match h : toInteractionEvent rt c.shoes c.aliases raw with
  | .ok ev => ev
  | .error _ => absurd (toInteractionEvent_isOk c raw) (by simp [h])

/-- A gateway entry with `alias`, `gw_alias` (the same) and `gw_label`. -/
structure GatewayPayload where
  status : GatewayStatus
  gwAlias : Option PyStr
  gwLabel : PyStr
  deriving DecidableEq

/-- `_gateway_status_payload`. -/
def Catalog.gatewayStatusPayload {rt : PyRuntime} (c : Catalog rt) (status : GatewayStatus) :
    GatewayPayload :=
  let gwId := orElse status.gwId (py "unknown")
  let gwAlias := c.aliases.get? gwId
  ⟨status, gwAlias, labelOf gwAlias gwId⟩

end SeeedMote.App
