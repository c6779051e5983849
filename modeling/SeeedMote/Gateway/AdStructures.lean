import SeeedMote.Gateway.Scanner

/-! The payload of an advert is a concatenation of AD structures, each a length byte, a type and the
    data; the length byte counts the type and the data. The walk of `gap_event_cb` over such a
    payload passes the BTHome service data of each structure that carries some to `parse_bthome`, in
    order, and nothing else.

        len type data .. len type data ..  tail
        └── structure ─┘ └── structure ─┘  └── where the walk stops -/

namespace SeeedMote.Gateway
open Lib

/-- An AD structure; its length byte can hold its length. -/
structure AdStructure where
  type : UInt8
  data : List UInt8
  fits : data.length < 255
  deriving DecidableEq

namespace AdStructure

/-- The structure on the air. -/
def bytes (s : AdStructure) : List UInt8 := (s.data.length + 1).toUInt8 :: s.type :: s.data

/-- What follows the UUID in 16-bit service data for BTHome. -/
def bthome? (s : AdStructure) : Option (List UInt8) :=
  match s.data with
  | lo :: hi :: rest =>
    if s.type = 0x16 ∧ lo.toNat ||| (hi.toNat <<< 8) = bthomeUuid then some rest else none
  | _ => none

@[simp] theorem length_bytes (s : AdStructure) : s.bytes.length = s.data.length + 2 := rfl

theorem toNat_lengthByte (s : AdStructure) :
    ((s.data.length + 1).toUInt8).toNat = s.data.length + 1 :=
  UInt8.toNat_ofNat_of_lt' (by have := s.fits; simp [UInt8.size]; omega)

/-- The UUID is the two bytes `D2 FC` in this order. -/
theorem uuid_eq_iff (lo hi : UInt8) :
    lo.toNat ||| (hi.toNat <<< 8) = bthomeUuid ↔ lo = 0xD2 ∧ hi = 0xFC := by
  have hlo := lo.toNat_lt
  have hor : lo.toNat ||| (hi.toNat <<< 8) = hi.toNat * 256 + lo.toNat := by
    rw [Nat.or_comm, ← Nat.shiftLeft_add_eq_or_of_lt hlo, Nat.shiftLeft_eq]
  rw [hor, bthomeUuid]
  constructor
  · intro h
    exact ⟨UInt8.toNat_inj.mp (by omega : lo.toNat = 0xD2),
      UInt8.toNat_inj.mp (by omega : hi.toNat = 0xFC)⟩
  · rintro ⟨rfl, rfl⟩
    rfl

/-- What BTHome service data carries behind its UUID. -/
theorem bthome?_of_data {s : AdStructure} {rest : List UInt8} (htype : s.type = 0x16)
    (hdata : s.data = 0xD2 :: 0xFC :: rest) : s.bthome? = some rest := by
  rw [bthome?, hdata]
  exact if_pos ⟨htype, (uuid_eq_iff _ _).mpr ⟨rfl, rfl⟩⟩

/-- 16-bit service data whose UUID is BTHome's. -/
def IsBthome (s : AdStructure) : Prop := s.type = 0x16 ∧ [0xD2, 0xFC] <+: s.data

instance (s : AdStructure) : Decidable s.IsBthome := inferInstanceAs (Decidable (_ ∧ _))

/-- Exactly the service data of BTHome is taken. -/
theorem bthome?_eq_none_iff (s : AdStructure) : s.bthome? = none ↔ ¬s.IsBthome := by
  obtain ⟨type, data, fits⟩ := s
  simp only [bthome?, IsBthome]
  match data with
  | [] => simp
  | [_] => simp [List.cons_prefix_cons]
  | lo :: hi :: tl =>
    simp only [uuid_eq_iff, List.cons_prefix_cons, List.nil_prefix, and_true]
    split
    · next h => simp [h.1, h.2.1, h.2.2]
    · next h => simpa [eq_comm] using h

end AdStructure

/-- The payload made of structures. -/
def adBytes (ss : List AdStructure) : List UInt8 := ss.flatMap AdStructure.bytes

/-- The walk ends at `tail`: no byte is left, the length byte is zero, or the structure would run past
    the end. -/
def StopsAt : List UInt8 → Prop
  | [] => True
  | len :: rest => len = 0 ∨ rest.length < len.toNat

instance : DecidablePred StopsAt
  | [] => inferInstanceAs (Decidable True)
  | _ :: _ => inferInstanceAs (Decidable (_ ∨ _))

theorem adWalk_stops {tail : List UInt8} (h : StopsAt tail) (pre : List UInt8) :
    adWalk (pre ++ tail) pre.length = .ok [] := by
  rw [adWalk]
  cases tail with
  | nil =>
    rw [if_neg (by simp)]
    rfl
  | cons len rest =>
    have hget : rd (pre ++ len :: rest) pre.length = .ok len := by simp [rd]
    have hstop : len.toNat = 0 ∨ pre.length + 1 + len.toNat > (pre ++ len :: rest).length := by
      rcases h with rfl | hlt
      · exact .inl rfl
      · refine .inr ?_
        rw [List.length_append, List.length_cons]
        omega
    rw [if_pos (by simp), hget]
    simp only [ok_bind]
    rw [if_pos hstop]
    rfl

/-- One structure: its service data, if it has any for BTHome, then the rest of the walk. -/
theorem adWalk_cons (s : AdStructure) (pre post : List UInt8) :
    adWalk (pre ++ (s.bytes ++ post)) pre.length
      = (adWalk (pre ++ (s.bytes ++ post)) (pre ++ s.bytes).length).map (s.bthome?.toList ++ ·) := by
  obtain ⟨type, data, fits⟩ := s
  have hbyte := AdStructure.toNat_lengthByte ⟨type, data, fits⟩
  simp only at hbyte
  have hbytes : (⟨type, data, fits⟩ : AdStructure).bytes
      = (data.length + 1).toUInt8 :: type :: data := rfl
  rw [hbytes]
  set ad := pre ++ (((data.length + 1).toUInt8 :: type :: data) ++ post) with had
  have hlen : rd ad pre.length = .ok (data.length + 1).toUInt8 := by simp [had, rd]
  have htype : rd ad (pre.length + 1) = .ok type := by simp [had, rd]
  have hnext : (pre ++ ((data.length + 1).toUInt8 :: type :: data)).length
      = pre.length + 1 + (data.length + 1) := by simp; omega
  have hinside : pre.length + 1 + (data.length + 1) ≤ ad.length := by simp [had]; omega
  rw [hnext]
  set next := adWalk ad (pre.length + 1 + (data.length + 1)) with hrest
  rw [adWalk, if_pos (by omega), hlen]
  simp only [ok_bind, hbyte]
  rw [if_neg (by omega), htype]
  simp only [ok_bind, ← hrest]
  match hd : data with
  | [] => cases next <;> simp [AdStructure.bthome?, Except.map]
  | [_] => cases next <;> simp [AdStructure.bthome?, Except.map]
  | lo :: hi :: tl =>
    have hlo : rd ad (pre.length + 2) = .ok lo := by simp [had, rd]
    have hhi : rd ad (pre.length + 3) = .ok hi := by simp [had, rd]
    have hslice : (ad.drop (pre.length + 4)).take ((lo :: hi :: tl).length + 1 - 3) = tl := by
      rw [had, List.drop_append, List.drop_eq_nil_of_le (Nat.le_add_right _ _)]
      simp
    simp only [hlo, hhi, hslice, ok_bind, AdStructure.bthome?]
    by_cases ht : type = 0x16
    · by_cases hu : lo.toNat ||| (hi.toNat <<< 8) = bthomeUuid
      · cases next <;> simp [ht, hu, Except.map, pure, Except.pure, bind, Except.bind]
      · cases next <;> simp [ht, hu, Except.map, pure, Except.pure, bind, Except.bind]
    · cases next <;> simp [ht, Except.map]

/-- The walk over structures and a tail where it stops. -/
theorem adWalk_structures {tail : List UInt8} (h : StopsAt tail) :
    ∀ (ss : List AdStructure) (pre : List UInt8),
      adWalk (pre ++ (adBytes ss ++ tail)) pre.length = .ok (ss.filterMap AdStructure.bthome?)
  | [], pre => adWalk_stops h pre
  | s :: ss, pre => by
      have ih := adWalk_structures h ss (pre ++ s.bytes)
      rw [adBytes, List.flatMap_cons, ← adBytes, List.append_assoc, adWalk_cons,
        ← List.append_assoc, ih, List.filterMap_cons]
      cases s.bthome? <;> rfl

/-- A whole payload. -/
theorem adWalk_adBytes (ss : List AdStructure) :
    adWalk (adBytes ss) 0 = .ok (ss.filterMap AdStructure.bthome?) := by
  have h := adWalk_structures (show StopsAt [] from trivial) ss []
  simpa using h

end SeeedMote.Gateway
