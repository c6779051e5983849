import SeeedMote.Gateway.AdStructures
import SeeedMote.Gateway.Discovery

/-! What the walk of `gap_event_cb` finds in any buffer, well formed or not. `ad` holds the
    `length_data` bytes of the report, so a read at or behind its end is a fault. Every buffer begins
    with a longest run of AD structures, and the walk is exact on that run.

        len type data .. len type data ..  0 ..         (a zero length byte)
        len type data .. len type data ..  len type ..  (a structure that runs past the end) -/

namespace SeeedMote.Gateway
open Lib

namespace AdStructure

/-- The length byte tells where a structure ends. -/
theorem bytes_append_inj {s s' : AdStructure} {post post' : List UInt8}
    (h : s.bytes ++ post = s'.bytes ++ post') : s = s' ∧ post = post' := by
  have hlen := s.toNat_lengthByte
  have hlen' := s'.toNat_lengthByte
  obtain ⟨type, data, fits⟩ := s
  obtain ⟨type', data', fits'⟩ := s'
  simp only [bytes, List.cons_append, List.cons.injEq] at h hlen hlen'
  obtain ⟨hbyte, rfl, h⟩ := h
  rw [hbyte, hlen'] at hlen
  obtain ⟨rfl, rfl⟩ := List.append_inj h (by omega)
  exact ⟨rfl, rfl⟩

/-- Service data is taken for BTHome's by its type and its first two bytes; the rest is passed on. -/
theorem bthome?_eq_some_iff (s : AdStructure) (rest : List UInt8) :
    s.bthome? = some rest ↔ s.type = 0x16 ∧ s.data = 0xD2 :: 0xFC :: rest := by
  constructor
  · intro h
    obtain ⟨type, data, fits⟩ := s
    rcases data with _ | ⟨lo, _ | ⟨hi, tl⟩⟩
    · simp [bthome?] at h
    · simp [bthome?] at h
    · simp only [bthome?] at h
      split at h
      · next hs =>
        obtain ⟨htype, hlo, hhi⟩ := And.imp_right (uuid_eq_iff lo hi).mp hs
        obtain rfl := Option.some.inj h
        exact ⟨htype, by rw [hlo, hhi]⟩
      · simp at h
  · rintro ⟨htype, hdata⟩
    exact bthome?_of_data htype hdata

end AdStructure

/-- Where the walk does not stop there is a structure. -/
theorem exists_structure {ad : List UInt8} (h : ¬StopsAt ad) :
    ∃ s : AdStructure, ∃ post, ad = s.bytes ++ post := by
  rcases ad with _ | ⟨len, rest⟩
  · exact absurd trivial h
  · rw [StopsAt, not_or, Nat.not_lt] at h
    obtain ⟨hzero, hfits⟩ := h
    have hpos : 0 < len.toNat := Nat.pos_of_ne_zero fun h => hzero (UInt8.toNat_inj.mp h)
    rcases rest with _ | ⟨type, rest⟩
    · exact absurd hfits (Nat.not_le.mpr hpos)
    · have hlt := len.toNat_lt
      rw [List.length_cons] at hfits
      have hlen : (rest.take (len.toNat - 1)).length = len.toNat - 1 := by
        rw [List.length_take]
        omega
      have hbyte : ((rest.take (len.toNat - 1)).length + 1).toUInt8 = len := by
        rw [hlen, Nat.sub_add_cancel hpos]
        exact UInt8.ofNat_toNat
      refine ⟨⟨type, rest.take (len.toNat - 1), by omega⟩, rest.drop (len.toNat - 1), ?_⟩
      simp only [AdStructure.bytes, hbyte, List.cons_append, List.take_append_drop]

theorem not_stopsAt_bytes (s : AdStructure) (post : List UInt8) : ¬StopsAt (s.bytes ++ post) := by
  have hlen := s.toNat_lengthByte
  rintro (hzero | hlong)
  · rw [hzero] at hlen
    exact absurd hlen (Nat.succ_ne_zero _).symm
  · rw [hlen] at hlong
    simp at hlong

/-- Every buffer is structures and a tail where the walk stops. -/
theorem exists_structures (ad : List UInt8) :
    ∃ ss tail, ad = adBytes ss ++ tail ∧ StopsAt tail := by
  by_cases hstop : StopsAt ad
  · exact ⟨[], ad, rfl, hstop⟩
  · obtain ⟨s, post, rfl⟩ := exists_structure hstop
    have hdecr : post.length < (s.bytes ++ post).length := by
      rw [List.length_append, AdStructure.length_bytes]
      omega
    obtain ⟨ss, tail, rfl, htail⟩ := exists_structures post
    exact ⟨s :: ss, tail, by simp [adBytes], htail⟩
termination_by ad.length

/-- No other run of structures goes further. -/
theorem prefix_of_stopsAt {ss ss' : List AdStructure} {tail tail' : List UInt8}
    (hstop : StopsAt tail) (h : adBytes ss ++ tail = adBytes ss' ++ tail') : ss' <+: ss := by
  induction ss' generalizing ss with
  | nil => exact List.nil_prefix
  | cons s' ss' ih =>
    rw [adBytes, adBytes, List.flatMap_cons (x := s'), ← adBytes, ← adBytes, List.append_assoc] at h
    cases ss with
    | nil =>
      have htail : tail = s'.bytes ++ (adBytes ss' ++ tail') := h
      exact absurd (htail ▸ hstop) (not_stopsAt_bytes s' _)
    | cons s ss =>
      rw [adBytes, List.flatMap_cons, ← adBytes, List.append_assoc] at h
      obtain ⟨rfl, hrest⟩ := AdStructure.bytes_append_inj h
      exact (List.prefix_cons_inj s).mpr (ih hrest)

/-- A structure inside the buffer, with its data. -/
theorem infix_of_data {ss : List AdStructure} {s : AdStructure} (hs : s ∈ ss) (tail : List UInt8) :
    s.data <:+: adBytes ss ++ tail := by
  obtain ⟨pre, post, rfl⟩ := List.append_of_mem hs
  refine ⟨adBytes pre ++ [(s.data.length + 1).toUInt8, s.type], adBytes post ++ tail, ?_⟩
  simp [adBytes, AdStructure.bytes]

/-- For every buffer, with the longest run of structures at its start: the walk passes on what the BTHome
    service data among them hold behind the UUID, in order and nothing else, each a stretch of the
    buffer; and neither the walk nor `parse_bthome` reads outside what it was given. -/
theorem ad_walk_exact (ad : List UInt8) :
    ∃ ss tail, ad = adBytes ss ++ tail ∧ StopsAt tail ∧
      (∀ ss' tail', ad = adBytes ss' ++ tail' → ss' <+: ss) ∧
      adWalk ad 0 = .ok (ss.filterMap AdStructure.bthome?) ∧
      (∀ (s : AdStructure) rest,
        s.bthome? = some rest ↔ s.type = 0x16 ∧ s.data = 0xD2 :: 0xFC :: rest) ∧
      (∀ data ∈ ss.filterMap AdStructure.bthome?, data <:+: ad) ∧
      (∀ t addr rssi, ∃ r, gapEventCb t addr rssi ad = .ok r ∧
        parseAll t ((ss.filterMap AdStructure.bthome?).map fun data => ⟨addr, rssi, data⟩) = .ok r) := by
  obtain ⟨ss, tail, hss, htail⟩ := exists_structures ad
  have hwalk : adWalk ad 0 = .ok (ss.filterMap AdStructure.bthome?) := by
    rw [hss]
    exact adWalk_structures htail ss []
  refine ⟨ss, tail, hss, htail, fun ss' tail' h => prefix_of_stopsAt htail (hss.symm.trans h), hwalk,
    AdStructure.bthome?_eq_some_iff, fun data hdata => ?_, fun t addr rssi => ?_⟩
  · obtain ⟨s, hs, hrest⟩ := List.mem_filterMap.mp hdata
    obtain ⟨-, hbytes⟩ := (s.bthome?_eq_some_iff data).mp hrest
    rw [hss]
    exact List.IsInfix.trans ⟨[0xD2, 0xFC], [], by simp [hbytes]⟩ (infix_of_data hs tail)
  · have hcb := gapEventCb_eq t ⟨addr, rssi, ad⟩
    refine ⟨_, hcb, ?_⟩
    rw [← hcb, gapEventCb, hwalk]
    rfl

end SeeedMote.Gateway
