import Mathlib.Data.List.Induction
import SeeedMote.Gateway.Discovery

/-! The BTHome data that `parse_bthome` accepts: the byte `0x44` and a concatenation of objects with
    nothing left over. An object is its id and as many data bytes as the id has.

        44   00 pid   2C b   22 moving   3E b b b b   ..
             └──────────── objects ─────────────┘

    The object loop accepts exactly this grammar, and it ends up with the data of the last packet id and
    of the last moving object. -/

namespace SeeedMote.Gateway
open Lib

/-- An object: packet id, moving or vibration with one data byte, or a counter with four. -/
structure BthomeObject where
  id : UInt8
  data : List UInt8
  legal : id ∈ [0x00, 0x22, 0x2C] ∧ data.length = 1 ∨ id = 0x3E ∧ data.length = 4
  deriving DecidableEq

namespace BthomeObject

def bytes (o : BthomeObject) : List UInt8 := o.id :: o.data

@[simp] theorem length_bytes (o : BthomeObject) : o.bytes.length = o.data.length + 1 := rfl

theorem objNeed_eq (o : BthomeObject) : objNeed o.id = some o.data.length := by
  obtain ⟨id, data, legal⟩ := o
  simp only [List.mem_cons, List.not_mem_nil, or_false] at legal
  rcases legal with ⟨rfl | rfl | rfl, hlen⟩ | ⟨rfl, hlen⟩
  all_goals
    rw [hlen]
    rfl

/-- The id byte tells where an object ends. -/
theorem bytes_append_inj {o o' : BthomeObject} {post post' : List UInt8}
    (h : o.bytes ++ post = o'.bytes ++ post') : o = o' ∧ post = post' := by
  have hneed := o.objNeed_eq
  have hneed' := o'.objNeed_eq
  obtain ⟨id, data, legal⟩ := o
  obtain ⟨id', data', legal'⟩ := o'
  simp only [bytes, List.cons_append, List.cons.injEq] at h hneed hneed'
  obtain ⟨rfl, h⟩ := h
  have hlen : data.length = data'.length := Option.some.inj (hneed.symm.trans hneed')
  obtain ⟨rfl, rfl⟩ := List.append_inj h hlen
  exact ⟨rfl, rfl⟩

/-- An id and its data bytes make an object. -/
theorem exists_of_objNeed {id : UInt8} {data : List UInt8} (h : objNeed id = some data.length) :
    ∃ o : BthomeObject, o.id = id ∧ o.data = data := by
  refine ⟨⟨id, data, ?_⟩, rfl, rfl⟩
  rw [objNeed] at h
  split_ifs at h with h0 h1 h2 h3
  · exact .inl ⟨by simp [h0], (Option.some.inj h).symm⟩
  · exact .inl ⟨by simp [h1], (Option.some.inj h).symm⟩
  · exact .inl ⟨by simp [h2], (Option.some.inj h).symm⟩
  · exact .inr ⟨h3, (Option.some.inj h).symm⟩

end BthomeObject

/-- What one object does to the locals of the loop. -/
def record (l : ObjLocals) (o : BthomeObject) : ObjLocals :=
  if o.id = 0x00 then { l with packetId := o.data.head? }
  else if o.id = 0x22 then { l with moving := o.data.head? }
  else l

/-- The last object with a given id. -/
def lastOf (id : UInt8) (objs : List BthomeObject) : Option BthomeObject :=
  objs.reverse.find? fun o => o.id = id

/-- BTHome data with a packet id and a moving value: those of the last such objects. -/
def IsBthomeData (data : List UInt8) (packetId moving : UInt8) : Prop :=
  ∃ objs : List BthomeObject, data = bthomeDevinfoV2Trigger :: objs.flatMap BthomeObject.bytes ∧
    (lastOf 0x00 objs).map BthomeObject.data = some [packetId] ∧
    (lastOf 0x22 objs).map BthomeObject.data = some [moving]

/-! ### One object -/

/-- The loop at an object records it and goes on behind it; anywhere else it is a parse error. -/
theorem objLoop_cases {data : List UInt8} {i : ℕ} (hi : i < data.length) (l : ObjLocals) :
    (∃ o : BthomeObject, ∃ post, data.drop i = o.bytes ++ post ∧
      objLoop data i l = objLoop data (i + o.bytes.length) (record l o)) ∨
    (objLoop data i l = .ok none ∧ ∀ (o : BthomeObject) post, data.drop i ≠ o.bytes ++ post) := by
  have hdrop : data.drop i = data[i] :: data.drop (i + 1) := List.drop_eq_getElem_cons hi
  have hrd : rd data i = .ok data[i] := by rw [rd, List.getElem?_eq_getElem hi]
  have hid : ∀ (o : BthomeObject) post, data.drop i = o.bytes ++ post →
      objNeed data[i] = some o.data.length ∧ i + 1 + o.data.length ≤ data.length := by
    intro o post h
    have hlen := congrArg List.length h
    rw [hdrop] at h
    obtain ⟨hbyte, -⟩ := List.cons.inj h
    simp only [List.length_drop, List.length_append, BthomeObject.length_bytes] at hlen
    exact ⟨hbyte ▸ o.objNeed_eq, by omega⟩
  rw [objLoop, if_pos hi, hrd]
  simp only [ok_bind]
  cases hneed : objNeed data[i] with
  | none =>
    refine .inr ⟨rfl, ?_⟩
    intro o post h
    rw [(hid o post h).1] at hneed
    exact absurd hneed (by simp)
  | some need =>
    by_cases hlong : i + 1 + need > data.length
    · refine .inr ⟨by simp only [if_pos hlong]; rfl, fun o post h => ?_⟩
      obtain ⟨hsome, hfits⟩ := hid o post h
      rw [hneed] at hsome
      have := Option.some.inj hsome
      omega
    · have hlen : ((data.drop (i + 1)).take need).length = need := by
        rw [List.length_take, List.length_drop]
        omega
      obtain ⟨o, ho, hdata⟩ := BthomeObject.exists_of_objNeed (hneed.trans (congrArg some hlen.symm))
      have hpos := objNeed_pos hneed
      have hi' : i + 1 < data.length := by omega
      have hb : rd data (i + 1) = .ok data[i + 1] := by rw [rd, List.getElem?_eq_getElem hi']
      have hhead : o.data.head? = some data[i + 1] := by
        rw [hdata, List.head?_take, if_neg hpos.ne', List.head?_drop, List.getElem?_eq_getElem hi']
      refine .inl ⟨o, data.drop (i + 1 + need), ?_, ?_⟩
      · have hpost : data.drop (i + 1 + need) = (data.drop (i + 1)).drop need := List.drop_drop.symm
        rw [hdrop, BthomeObject.bytes, ho, hdata, List.cons_append, hpost, List.take_append_drop]
      · have hnext : i + o.bytes.length = i + 1 + need := by
          rw [BthomeObject.length_bytes, hdata, hlen]
          omega
        simp only [if_neg hlong, hb, ok_bind, hnext, record, ho, hhead]
        split_ifs <;> rfl

/-! ### The loop -/

theorem objLoop_done {data : List UInt8} {i : ℕ} (h : data.drop i = []) (l : ObjLocals) :
    objLoop data i l = .ok (some l) := by
  rw [objLoop, if_neg (Nat.not_lt.mpr (List.drop_eq_nil_iff.mp h))]
  rfl

/-- Objects with nothing left over are accepted. -/
theorem objLoop_objects {data : List UInt8} (objs : List BthomeObject) {i : ℕ} (l : ObjLocals)
    (h : data.drop i = objs.flatMap BthomeObject.bytes) :
    objLoop data i l = .ok (some (objs.foldl record l)) := by
  induction objs generalizing i l with
  | nil => exact objLoop_done h l
  | cons o objs ih =>
    rw [List.flatMap_cons] at h
    have hi : i < data.length := by
      have := congrArg List.length h
      simp only [List.length_drop, List.length_append, BthomeObject.length_bytes] at this
      omega
    rcases objLoop_cases hi l with ⟨o', post, hdrop, hloop⟩ | ⟨-, hnone⟩
    · obtain ⟨rfl, rfl⟩ := BthomeObject.bytes_append_inj (h.symm.trans hdrop)
      rw [hloop, List.foldl_cons]
      refine ih _ ?_
      rw [← List.drop_drop, hdrop, List.drop_left]
    · exact absurd h (hnone o _)

/-- Nothing else is. -/
theorem objects_of_objLoop {data : List UInt8} {i : ℕ} {l l' : ObjLocals}
    (h : objLoop data i l = .ok (some l')) : ∃ objs : List BthomeObject,
      data.drop i = objs.flatMap BthomeObject.bytes ∧ l' = objs.foldl record l := by
  rcases Nat.lt_or_ge i data.length with hi | hi
  · rcases objLoop_cases hi l with ⟨o, post, hdrop, hloop⟩ | ⟨hloop, -⟩
    · have hdecr : data.length - (i + o.bytes.length) < data.length - i := by
        have := o.length_bytes
        omega
      rw [hloop] at h
      obtain ⟨objs, hobjs, hl⟩ := objects_of_objLoop h
      refine ⟨o :: objs, ?_, hl⟩
      rw [List.flatMap_cons, ← hobjs, ← List.drop_drop, hdrop, List.drop_left]
    · rw [hloop] at h
      exact absurd (Except.ok.inj h) (by simp)
  · have hnil := List.drop_eq_nil_of_le hi
    rw [objLoop_done hnil] at h
    exact ⟨[], hnil, (Option.some.inj (Except.ok.inj h)).symm⟩
termination_by data.length - i

/-! ### The last objects -/

theorem lastOf_concat (id : UInt8) (objs : List BthomeObject) (o : BthomeObject) :
    lastOf id (objs ++ [o]) = if o.id = id then some o else lastOf id objs := by
  rw [lastOf, List.reverse_append, List.reverse_singleton, List.singleton_append]
  by_cases h : o.id = id
  · rw [if_pos h, List.find?_cons_of_pos (by simpa using h)]
  · rw [if_neg h, List.find?_cons_of_neg (by simpa using h), lastOf]

/-- The locals hold the first data byte of the last objects. -/
theorem foldl_record (objs : List BthomeObject) : objs.foldl record {} =
    ⟨(lastOf 0x00 objs).bind (·.data.head?), (lastOf 0x22 objs).bind (·.data.head?)⟩ := by
  induction objs using List.reverseRecOn with
  | nil => rfl
  | append_singleton objs o ih =>
    rw [List.foldl_append, List.foldl_cons, List.foldl_nil, ih, lastOf_concat, lastOf_concat, record]
    by_cases h0 : o.id = 0x00
    · simp [h0]
    · by_cases h1 : o.id = 0x22
      · simp [h1]
      · simp [h0, h1]

/-- A packet id object and a moving object have one data byte. -/
theorem bind_head?_eq_some_iff {id : UInt8} (hid : id = 0x00 ∨ id = 0x22) (objs : List BthomeObject)
    (b : UInt8) : (lastOf id objs).bind (·.data.head?) = some b ↔
      (lastOf id objs).map BthomeObject.data = some [b] := by
  cases ho : lastOf id objs with
  | none => simp
  | some o =>
    have hlen : o.data.length = 1 := by
      have hoid : o.id = id := by simpa using List.find?_some ho
      rcases o.legal with ⟨-, hlen⟩ | ⟨h3, -⟩
      · exact hlen
      · rw [hoid] at h3
        rcases hid with rfl | rfl <;> simp at h3
    obtain ⟨c, hc⟩ := List.length_eq_one_iff.mp hlen
    simp [hc]

/-! ### The grammar -/

/-- Behind the trigger byte the loop decides. -/
theorem parseObjects_cons_iff (b : UInt8) (rest : List UInt8) (packetId moving : UInt8) :
    parseObjects (b :: rest) = .ok (some (packetId, moving)) ↔ b = bthomeDevinfoV2Trigger ∧
      objLoop (b :: rest) 1 {} = .ok (some ⟨some packetId, some moving⟩) := by
  obtain ⟨r, hr⟩ := objLoop_ok (b :: rest) 1 {}
  have hb : rd (b :: rest) 0 = .ok b := rfl
  rw [parseObjects, if_neg (by simp), hb, hr]
  simp only [ok_bind]
  by_cases htrigger : b = bthomeDevinfoV2Trigger
  · rw [if_neg (not_not.mpr htrigger), and_iff_right htrigger]
    rcases r with _ | ⟨_ | p, _ | v⟩
    all_goals simp [pure, Except.pure]
  · rw [if_pos htrigger]
    simp [htrigger, pure, Except.pure]

/-- `parse_bthome` gets to its dedup step with a packet id and a moving value exactly for BTHome data
    with these two. -/
theorem parseObjects_eq_some_iff (data : List UInt8) (packetId moving : UInt8) :
    parseObjects data = .ok (some (packetId, moving)) ↔ IsBthomeData data packetId moving := by
  constructor
  · intro h
    rcases data with _ | ⟨b, rest⟩
    · exact absurd (Except.ok.inj h) (by simp)
    · obtain ⟨rfl, hloop⟩ := (parseObjects_cons_iff b rest packetId moving).mp h
      obtain ⟨objs, hobjs, hl⟩ := objects_of_objLoop hloop
      rw [foldl_record, ObjLocals.mk.injEq] at hl
      refine ⟨objs, ?_, (bind_head?_eq_some_iff (.inl rfl) _ _).mp hl.1.symm,
        (bind_head?_eq_some_iff (.inr rfl) _ _).mp hl.2.symm⟩
      rw [← hobjs]
      rfl
  · rintro ⟨objs, rfl, hpid, hmoving⟩
    have hloop : objLoop (bthomeDevinfoV2Trigger :: objs.flatMap BthomeObject.bytes) 1 {} = _ :=
      objLoop_objects objs {} rfl
    rw [foldl_record, (bind_head?_eq_some_iff (.inl rfl) _ _).mpr hpid,
      (bind_head?_eq_some_iff (.inr rfl) _ _).mpr hmoving] at hloop
    exact (parseObjects_cons_iff _ _ _ _).mpr ⟨rfl, hloop⟩

/-- For every byte string: the dedup step is reached exactly for BTHome data, with the packet id and the
    moving value of its last such objects, and `parse_bthome` is then that step; any other string
    leaves the table alone and publishes nothing. -/
theorem parse_bthome_accepts_grammar (data : List UInt8) :
    (∀ packetId moving, parseObjects data = .ok (some (packetId, moving)) ↔
      IsBthomeData data packetId moving) ∧
    (∀ packetId moving, IsBthomeData data packetId moving → ∀ t addr rssi,
      parseBthome t addr rssi data = .ok (dedupStep t addr rssi packetId moving)) ∧
    ((∀ packetId moving, ¬IsBthomeData data packetId moving) → ∀ t addr rssi,
      parseBthome t addr rssi data = .ok (t, [])) := by
  refine ⟨parseObjects_eq_some_iff data, ?_, ?_⟩
  · intro p v h t addr rssi
    rw [parseBthome, (parseObjects_eq_some_iff data p v).mpr h]
    rfl
  · intro h t addr rssi
    obtain ⟨r, hr⟩ := parseObjects_ok data
    rw [parseBthome, hr]
    rcases r with _ | ⟨p, v⟩
    · rfl
    · exact absurd ((parseObjects_eq_some_iff data p v).mp hr) (h p v)

/-- Id bytes inside data do not count, and the last of two packet ids does. -/
example : parseObjects [0x44, 0x3E, 0x22, 0x00, 0x22, 0x00, 0x00, 7, 0x22, 1, 0x00, 8]
    = .ok (some (8, 1)) := by decide +kernel

end SeeedMote.Gateway
