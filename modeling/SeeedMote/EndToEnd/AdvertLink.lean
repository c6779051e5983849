import SeeedMote.Gateway.AdStructures
import SeeedMote.Gateway.Dedup
import SeeedMote.Mote.Advertising

/-! The link from the mote to a gateway: the advert, written by `fill_bthome_payload` and the BLE host
    on one side, read by `gap_event_cb` and `parse_bthome` on the other.

        payload ──bthome_adv_data──▶ AD structures ──gap_event_cb──▶ parse_bthome ──▶ dedup step -/

namespace SeeedMote.EndToEnd
open Lib Mote Gateway

/-- The service data of a burst. -/
def burstStructure (packetId moving : UInt8) : AdStructure :=
  ⟨0x16, (bthomePayload packetId moving).bytes, show 7 < 255 by decide⟩

theorem bthome?_burstStructure (packetId moving : UInt8) :
    (burstStructure packetId moving).bthome?
      = some ((bthomePayload packetId moving).bytes.drop 2) :=
  AdStructure.bthome?_of_data rfl rfl

/-- What goes before the service data on the air: flags and name. -/
def advertHead {btName : List UInt8} (hname : btName.length < 255) : List AdStructure :=
  [⟨0x01, [0x06], by decide⟩, ⟨0x09, btName, hname⟩]

theorem bthomeAdvData_eq {btName : List UInt8} (hname : btName.length < 255)
    (packetId moving : UInt8) :
    bthomeAdvData btName (bthomePayload packetId moving)
      = adBytes (advertHead hname ++ [burstStructure packetId moving]) := by
  simp [bthomeAdvData, adBytes, advertHead, btData, AdStructure.bytes, burstStructure]

theorem advertHead_not_bthome {btName : List UInt8} (hname : btName.length < 255) :
    ∀ s ∈ advertHead hname, ¬s.IsBthome := by
  intro s hs
  simp only [advertHead, List.mem_cons, List.not_mem_nil, or_false] at hs
  rcases hs with rfl | rfl
  · exact fun h => absurd h.1 (by decide)
  · exact fun h => absurd (show (0x09 : UInt8) = 0x16 from h.1) (by decide)

/-- Among other structures the walk finds the service data of the burst alone. -/
theorem adWalk_burst (packetId moving : UInt8) {pre post : List AdStructure}
    (hpre : ∀ s ∈ pre, ¬s.IsBthome) (hpost : ∀ s ∈ post, ¬s.IsBthome) :
    adWalk (adBytes (pre ++ burstStructure packetId moving :: post)) 0
      = .ok [(bthomePayload packetId moving).bytes.drop 2] := by
  have hnone : ∀ {ss : List AdStructure}, (∀ s ∈ ss, ¬s.IsBthome) →
      ss.filterMap AdStructure.bthome? = [] := fun h =>
    List.filterMap_eq_nil_iff.mpr fun s hs => (s.bthome?_eq_none_iff).mpr (h s hs)
  rw [adWalk_adBytes, List.filterMap_append, hnone hpre,
    List.filterMap_cons_some (bthome?_burstStructure packetId moving), hnone hpost]
  rfl

/-- In the mote's own advert it finds just that. -/
theorem adWalk_bthomeAdvData {btName : List UInt8} (hname : btName.length < 255)
    (packetId moving : UInt8) :
    adWalk (bthomeAdvData btName (bthomePayload packetId moving)) 0
      = .ok [(bthomePayload packetId moving).bytes.drop 2] := by
  rw [bthomeAdvData_eq hname]
  exact adWalk_burst packetId moving (advertHead_not_bthome hname) (by simp)

/-- The name of a mote fits one structure. -/
theorem length_buildBleName_lt (b0 b1 b2 : UInt8) : (buildBleName b0 b1 b2).length < 255 :=
  (by decide : 12 < 255)

/-- The object loop reads packet id and moving value. -/
theorem parseObjects_bthome (packetId moving : UInt8) :
    parseObjects ((bthomePayload packetId moving).bytes.drop 2)
      = .ok (some (packetId, (bthomePayload packetId moving).moving)) := by
  set v := (bthomePayload packetId moving).moving with hv
  have hdata : (bthomePayload packetId moving).bytes.drop 2 = [0x44, 0x00, packetId, 0x22, v] := rfl
  have hlast : objLoop [0x44, 0x00, packetId, 0x22, v] 3 ⟨some packetId, none⟩
      = .ok (some ⟨some packetId, some v⟩) := by
    rw [objLoop, if_pos (by simp)]
    simp only [rd, List.getElem?_cons_succ, List.getElem?_cons_zero, ok_bind]
    simp [objNeed, objLoop, pure, Except.pure]
  have hloop : objLoop [0x44, 0x00, packetId, 0x22, v] 1 {} = .ok (some ⟨some packetId, some v⟩) := by
    rw [objLoop, if_pos (by simp)]
    simp only [rd, List.getElem?_cons_succ, List.getElem?_cons_zero, ok_bind]
    simp [objNeed, hlast]
  rw [hdata, parseObjects]
  simp [rd, bthomeDevinfoV2Trigger, hloop, pure, Except.pure]

/-- One advert of a burst is one step of the dedup filter. -/
theorem gapEventCb_bthome (t : DedupTable) (addr : BleAddr) (rssi : Int8) {btName : List UInt8}
    (hname : btName.length < 255) (packetId moving : UInt8) :
    gapEventCb t addr rssi (bthomeAdvData btName (bthomePayload packetId moving))
      = .ok (heardStep t ⟨addr, rssi, packetId, (bthomePayload packetId moving).moving⟩) := by
  rw [gapEventCb, adWalk_bthomeAdvData hname]
  simp only [ok_bind, List.map_cons, List.map_nil, parseAll, parseBthome, parseObjects_bthome]
  simp only [pure, Except.pure, ok_bind, List.append_nil]
  rfl

/-- The gateway's decoding undoes the mote's encoding, whatever other structures surround the service
    data; and the mote's own advert is of this form and fits the 31 bytes of a legacy advert. -/
theorem advert_round_trip (packetId moving : UInt8) :
    (∀ pre post : List AdStructure, (∀ s ∈ pre, ¬s.IsBthome) → (∀ s ∈ post, ¬s.IsBthome) →
      ∃ data, adWalk (adBytes (pre ++ burstStructure packetId moving :: post)) 0 = .ok [data] ∧
        parseObjects data = .ok (some (packetId, if moving ≠ 0 then 1 else 0))) ∧
    ∀ btName : List UInt8, btName.length ≤ 12 →
      (bthomeAdvData btName (bthomePayload packetId moving)).length ≤ 31 ∧
      ∃ head : List AdStructure, (∀ s ∈ head, ¬s.IsBthome) ∧
        bthomeAdvData btName (bthomePayload packetId moving)
          = adBytes (head ++ [burstStructure packetId moving]) := by
  refine ⟨?_, fun btName hname => ⟨?_, ?_⟩⟩
  · intro pre post hpre hpost
    exact ⟨_, adWalk_burst packetId moving hpre hpost, parseObjects_bthome packetId moving⟩
  · simp only [bthomeAdvData, btData, BthomePayload.bytes, List.length_append, List.length_cons,
      List.length_nil]
    omega
  · have hfits : btName.length < 255 := by omega
    exact ⟨_, advertHead_not_bthome hfits, bthomeAdvData_eq hfits packetId moving⟩

/-- Service data for another UUID before the burst's, and a structure cut short behind it. -/
theorem advert_round_trip_crowded :
    ∃ data, adWalk (adBytes ([⟨0x16, [0xD3, 0xFC, 0x44], by decide⟩] ++
        burstStructure 0xFF 1 :: [⟨0x16, [0xD2], by decide⟩])) 0 = .ok [data] ∧
      parseObjects data = .ok (some (0xFF, 1)) := by
  obtain ⟨hround, -⟩ := advert_round_trip 0xFF 1
  exact hround [⟨0x16, [0xD3, 0xFC, 0x44], by decide⟩] [⟨0x16, [0xD2], by decide⟩]
    (by decide) (by decide)

end SeeedMote.EndToEnd
