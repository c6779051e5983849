import SeeedMote.Gateway.Dedup

/-! The scanner over whole runs, one `gap_event_cb` after the other. No report makes it read outside
    its buffers, and what a report does to the table is what its valid adverts do in order: the dedup
    steps of `Report.heard`. -/

namespace SeeedMote.Gateway
open Lib

/-- What `gap_event_cb` reads of a `struct ble_gap_disc_desc`. -/
structure Report where
  addr : BleAddr
  rssi : Int8
  data : List UInt8
  deriving DecidableEq

/-- `gap_event_cb` on one report after the other, with the publish calls they make. -/
def scan : DedupTable → List Report → Mem (DedupTable × List PublishCall)
  | t, [] => .ok (t, [])
  | t, r :: rs => do
    let (t', out) ← gapEventCb t r.addr r.rssi r.data
    let (t'', out') ← scan t' rs
    return (t'', out ++ out')

/-- The valid adverts of a report, in order. -/
def Report.heard (r : Report) : List Heard :=
  match adWalk r.data 0 with
  | .ok calls => calls.filterMap fun data => heard? ⟨r.addr, r.rssi, data⟩
  | .error _ => []

/-! ### Nothing is read outside the buffers -/

theorem rd_ok {buf : List UInt8} {i : ℕ} (h : i < buf.length) : ∃ b, rd buf i = .ok b :=
  ⟨buf[i], by rw [rd, List.getElem?_eq_getElem h]⟩

/-- Every object has a data byte. -/
theorem objNeed_pos {obj : UInt8} {need : ℕ} (h : objNeed obj = some need) : 0 < need := by
  rw [objNeed] at h
  split_ifs at h
  all_goals
    obtain rfl := Option.some.inj h
    decide

theorem objLoop_ok (data : List UInt8) (i : ℕ) (l : ObjLocals) : ∃ r, objLoop data i l = .ok r := by
  rw [objLoop]
  split
  · next hi =>
    obtain ⟨obj, hobj⟩ := rd_ok hi
    rw [hobj]
    simp only [ok_bind]
    cases hobj : objNeed obj with
    | none => exact ⟨none, rfl⟩
    | some need =>
      have hpos := objNeed_pos hobj
      by_cases hneed : i + 1 + need > data.length
      · exact ⟨none, by simp only [if_pos hneed]; rfl⟩
      · obtain ⟨b, hb⟩ := rd_ok (by omega : i + 1 < data.length)
        simp only [if_neg hneed, hb, ok_bind]
        split
        · exact objLoop_ok data (i + 1 + need) _
        · split
          · exact objLoop_ok data (i + 1 + need) _
          · exact objLoop_ok data (i + 1 + need) _
  · exact ⟨some l, rfl⟩
termination_by data.length - i

theorem parseObjects_ok (data : List UInt8) : ∃ r, parseObjects data = .ok r := by
  rw [parseObjects]
  split
  · exact ⟨none, rfl⟩
  · next hlen =>
    obtain ⟨b, hb⟩ := rd_ok (Nat.not_lt.mp hlen)
    obtain ⟨r, hr⟩ := objLoop_ok data 1 {}
    simp only [hb, hr, ok_bind]
    split
    · exact ⟨none, rfl⟩
    · split
      · exact ⟨_, rfl⟩
      · exact ⟨none, rfl⟩

theorem adWalk_ok (ad : List UInt8) (pos : ℕ) : ∃ calls, adWalk ad pos = .ok calls := by
  rw [adWalk]
  split
  · next hpos =>
    obtain ⟨len, hlen⟩ := rd_ok hpos
    rw [hlen]
    simp only [ok_bind]
    split
    · exact ⟨[], rfl⟩
    · next hfits =>
      obtain ⟨hzero, hfits⟩ := not_or.mp hfits
      obtain ⟨type, htype⟩ := rd_ok (by omega : pos + 1 < ad.length)
      obtain ⟨rest, hrest⟩ := adWalk_ok ad (pos + 1 + len.toNat)
      simp only [htype, ok_bind, hrest]
      split
      · next hservice =>
        obtain ⟨lo, hlo⟩ := rd_ok (by omega : pos + 2 < ad.length)
        obtain ⟨hi, hhi⟩ := rd_ok (by omega : pos + 3 < ad.length)
        simp only [hlo, hhi, ok_bind]
        split
        · exact ⟨_, rfl⟩
        · exact ⟨_, rfl⟩
      · exact ⟨_, rfl⟩
  · exact ⟨[], rfl⟩
termination_by ad.length - pos

/-! ### A run is a run of the dedup steps -/

theorem parseBthome_eq (t : DedupTable) (a : Advert) :
    parseBthome t a.addr a.rssi a.data
      = .ok (finalState heardStep t (heard? a).toList, outputs heardStep t (heard? a).toList) := by
  obtain ⟨r, hr⟩ := parseObjects_ok a.data
  rw [parseBthome, heard?, hr]
  cases r with
  | none => rfl
  | some v =>
    obtain ⟨packetId, moving⟩ := v
    simp only [ok_bind, Option.toList_some, finalState, outputs, List.append_nil]
    rfl

theorem parseAll_eq (as : List Advert) (t : DedupTable) :
    parseAll t as = .ok (finalState heardStep t (as.filterMap heard?),
      outputs heardStep t (as.filterMap heard?)) := by
  induction as generalizing t with
  | nil => rfl
  | cons a as ih =>
    rw [parseAll, parseBthome_eq]
    simp only [ok_bind, ih]
    cases ha : heard? a with
    | none =>
      rw [List.filterMap_cons_none ha]
      rfl
    | some x =>
      rw [List.filterMap_cons_some ha]
      simp [finalState, outputs, pure, Except.pure]

theorem gapEventCb_eq (t : DedupTable) (r : Report) :
    gapEventCb t r.addr r.rssi r.data
      = .ok (finalState heardStep t r.heard, outputs heardStep t r.heard) := by
  obtain ⟨calls, hcalls⟩ := adWalk_ok r.data 0
  rw [gapEventCb, Report.heard, hcalls]
  simp only [ok_bind, parseAll_eq, List.filterMap_map]
  rfl

theorem scan_eq (rs : List Report) (t : DedupTable) :
    scan t rs = .ok (finalState heardStep t (rs.flatMap Report.heard),
      outputs heardStep t (rs.flatMap Report.heard)) := by
  induction rs generalizing t with
  | nil => rfl
  | cons r rs ih =>
    rw [scan, gapEventCb_eq, List.flatMap_cons, finalState_append, outputs_append]
    simp only [ok_bind, ih]
    rfl

/-- All adverts of a report come from its sender. -/
theorem addr_of_heard {r : Report} {x : Heard} (h : x ∈ r.heard) : x.addr = r.addr := by
  obtain ⟨calls, hcalls⟩ := adWalk_ok r.data 0
  rw [Report.heard, hcalls] at h
  obtain ⟨data, -, hx⟩ := List.mem_filterMap.mp h
  rw [heard?] at hx
  split at hx
  · rw [← Option.some.inj hx]
  · simp at hx

end SeeedMote.Gateway
