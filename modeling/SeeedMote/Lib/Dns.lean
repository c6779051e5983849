import Mathlib.Data.Nat.Notation
import Mathlib.Tactic.SplitIfs

/-! DNS messages on the wire: a header of twelve bytes with four section counts, a question section and
    three sections of resource records. A name is a list of labels, and it may end in a pointer to an
    earlier name; a message is well formed if its sections hold as many entries as the counts say and
    nothing follows them.

        id flags qd an ns ar │ question .. │ answers .. │ authority .. │ additional ..
        └──── 12 bytes ──────┘ └────────────────── body ──────────────────────────────┘

    Readers get the body and a position in it. What a reader finds it also finds in a longer body. -/

namespace SeeedMote.Lib.Dns

/-- The labels of a domain name. -/
abbrev Name := List (List UInt8)

/-- Bytes of the name on the wire without compression: its labels, a length byte for each, and the
    final zero. -/
def Name.size (name : Name) : ℕ := name.flatten.length + name.length + 1

/-- ASCII lower case. -/
def lowerByte (b : UInt8) : UInt8 := if 65 ≤ b ∧ b ≤ 90 then b + 32 else b

/-- Names are compared without regard to case. -/
def Name.Same (name name' : Name) : Prop :=
  name.map (List.map lowerByte) = name'.map (List.map lowerByte)

instance (name name' : Name) : Decidable (name.Same name') := inferInstanceAs (Decidable (_ = _))

structure Question where
  name : Name
  type : ℕ
  cls : ℕ
  deriving DecidableEq

structure Record where
  name : Name
  type : ℕ
  cls : ℕ
  ttl : ℕ
  rdata : List UInt8
  deriving DecidableEq

/-- The four sections. -/
structure Sections where
  questions : List Question
  answers : List Record
  authority : List Record
  additional : List Record
  deriving DecidableEq

structure Message extends Sections where
  id : ℕ
  flags : UInt8 × UInt8
  deriving DecidableEq

/-- The bit QR: a response. -/
def Message.qr (m : Message) : Bool := m.flags.1 &&& 0x80 ≠ 0

/-! ### Readers -/

/-- Read a value in the body from a position on; also returns the position behind it. -/
def Reader (A : Type) : Type := List UInt8 → ℕ → Option (A × ℕ)

variable {A B : Type}

instance : Monad Reader where
  pure a := fun _ pos => some (a, pos)
  bind r f := fun body pos => (r body pos).bind fun x => f x.1 body x.2

/-- What the reader finds it finds in every longer body. -/
def Stable (r : Reader A) : Prop :=
  ∀ body extra pos x, r body pos = some x → r (body ++ extra) pos = some x

theorem bind_eq_some_iff {r : Reader A} {f : A → Reader B} {body : List UInt8} {pos : ℕ}
    {y : B × ℕ} : (r >>= f) body pos = some y ↔
      ∃ a next, r body pos = some (a, next) ∧ f a body next = some y := by
  constructor
  · intro h
    obtain ⟨⟨a, next⟩, hr, hf⟩ := Option.bind_eq_some_iff.mp h
    exact ⟨a, next, hr, hf⟩
  · rintro ⟨a, next, hr, hf⟩
    exact Option.bind_eq_some_iff.mpr ⟨(a, next), hr, hf⟩

theorem stable_pure (a : A) : Stable (pure a : Reader A) := fun _ _ _ _ h => h

theorem Stable.bind {r : Reader A} {f : A → Reader B} (hr : Stable r) (hf : ∀ a, Stable (f a)) :
    Stable (r >>= f) := by
  intro body extra pos y h
  obtain ⟨a, next, ha, hy⟩ := bind_eq_some_iff.mp h
  exact bind_eq_some_iff.mpr ⟨a, next, hr _ _ _ _ ha, hf a _ _ _ _ hy⟩

/-- One byte. -/
def readByte : Reader UInt8 := fun body pos => body[pos]?.map fun b => (b, pos + 1)

/-- `n` bytes. -/
def readBytes (n : ℕ) : Reader (List UInt8) := fun body pos =>
  if pos + n ≤ body.length then some ((body.drop pos).take n, pos + n) else none

/-- A 16-bit number in network order. -/
def be16 (hi lo : UInt8) : ℕ := hi.toNat * 256 + lo.toNat

def readU16 : Reader ℕ := do
  let hi ← readByte
  let lo ← readByte
  return be16 hi lo

/-- `n` values one after the other. -/
def readMany (r : Reader A) : ℕ → Reader (List A)
  | 0 => pure []
  | n + 1 => do
    let a ← r
    let as ← readMany r n
    return a :: as

theorem stable_readByte : Stable readByte := by
  intro body extra pos x h
  obtain ⟨b, hb, rfl⟩ := Option.map_eq_some_iff.mp h
  refine Option.map_eq_some_iff.mpr ⟨b, ?_, rfl⟩
  rw [List.getElem?_append_left (List.getElem?_eq_some_iff.mp hb).1, hb]

theorem stable_readBytes (n : ℕ) : Stable (readBytes n) := by
  intro body extra pos x h
  rw [readBytes] at h ⊢
  split_ifs at h with hle
  rw [if_pos (by rw [List.length_append]; omega), List.drop_append_of_le_length (by omega),
    List.take_append_of_le_length (by rw [List.length_drop]; omega)]
  exact h

theorem stable_readU16 : Stable readU16 :=
  stable_readByte.bind fun _ => stable_readByte.bind fun _ => stable_pure _

theorem Stable.readMany {r : Reader A} (hr : Stable r) : ∀ n, Stable (readMany r n)
  | 0 => stable_pure []
  | n + 1 => hr.bind fun _ => (hr.readMany n).bind fun _ => stable_pure _

/-- A longer run of values is a run followed by another. -/
theorem readMany_add {r : Reader A} {m n : ℕ} {body : List UInt8} {pos : ℕ} {y : List A × ℕ} :
    readMany r (m + n) body pos = some y ↔ ∃ as mid bs, readMany r m body pos = some (as, mid) ∧
      readMany r n body mid = some (bs, y.2) ∧ y.1 = as ++ bs := by
  induction m generalizing pos y with
  | zero =>
    rw [Nat.zero_add]
    constructor
    · intro h
      exact ⟨[], pos, y.1, rfl, h, rfl⟩
    · rintro ⟨as, mid, bs, has, hbs, hy⟩
      obtain ⟨rfl, rfl⟩ := Prod.mk.inj (Option.some.inj has)
      rw [hbs, ← List.nil_append bs, ← hy]
  | succ m ih =>
    rw [Nat.add_right_comm, readMany, readMany]
    constructor
    · intro h
      obtain ⟨a, next, ha, h⟩ := bind_eq_some_iff.mp h
      obtain ⟨as, last, has, h⟩ := bind_eq_some_iff.mp h
      obtain rfl := Option.some.inj h
      obtain ⟨as, mid, bs, hm, hn, hy⟩ := ih.mp has
      refine ⟨a :: as, mid, bs, ?_, hn, congrArg (a :: ·) hy⟩
      exact bind_eq_some_iff.mpr ⟨a, next, ha, bind_eq_some_iff.mpr ⟨as, mid, hm, rfl⟩⟩
    · rintro ⟨as', mid, bs, h, hn, hy⟩
      obtain ⟨a, next, ha, h⟩ := bind_eq_some_iff.mp h
      obtain ⟨as, last, has, h⟩ := bind_eq_some_iff.mp h
      obtain ⟨rfl, rfl⟩ := Prod.mk.inj (Option.some.inj h)
      have hrest : readMany r (m + n) body next = some (as ++ bs, y.2) :=
        ih.mpr ⟨as, _, bs, has, hn, rfl⟩
      refine bind_eq_some_iff.mpr ⟨a, next, ha, bind_eq_some_iff.mpr ⟨_, _, hrest, ?_⟩⟩
      rw [← List.cons_append, ← hy]
      rfl

theorem readMany_one {r : Reader A} {body : List UInt8} {pos : ℕ} {y : List A × ℕ} :
    readMany r 1 body pos = some y ↔ ∃ a, r body pos = some (a, y.2) ∧ y.1 = [a] := by
  rw [readMany]
  constructor
  · intro h
    obtain ⟨a, next, ha, h⟩ := bind_eq_some_iff.mp h
    obtain ⟨as, last, has, h⟩ := bind_eq_some_iff.mp h
    obtain ⟨rfl, rfl⟩ := Prod.mk.inj (Option.some.inj has)
    obtain rfl := Option.some.inj h
    exact ⟨a, ha, rfl⟩
  · rintro ⟨a, ha, hy⟩
    refine bind_eq_some_iff.mpr ⟨a, y.2, ha, bind_eq_some_iff.mpr ⟨[], y.2, rfl, ?_⟩⟩
    rw [← hy]
    rfl

theorem length_of_readMany {r : Reader A} {n : ℕ} {body : List UInt8} {pos : ℕ} {y : List A × ℕ}
    (h : readMany r n body pos = some y) : y.1.length = n := by
  induction n generalizing pos y with
  | zero =>
    obtain rfl := Option.some.inj h
    rfl
  | succ n ih =>
    obtain ⟨a, next, -, h⟩ := bind_eq_some_iff.mp h
    obtain ⟨as, last, has, h⟩ := bind_eq_some_iff.mp h
    obtain rfl := Option.some.inj h
    exact congrArg (· + 1) (ih has)

/-! ### Names -/

/-- Bytes of the header; a pointer counts from its start. -/
def headerSize : ℕ := 12

/-- The labels from a position on, up to the end of the name or to a pointer. -/
def readLabels (body : List UInt8) (pos : ℕ) : Option ((Name × Option ℕ) × ℕ) :=
  if pos < body.length then do
    let len ← body[pos]?
    if len = 0 then some (([], none), pos + 1)
    else if len < 64 then do
      let (label, _) ← readBytes len.toNat body (pos + 1)
      let ((labels, target), next) ← readLabels body (pos + 1 + len.toNat)
      some ((label :: labels, target), next)
    else if 192 ≤ len then do
      let lo ← body[pos + 1]?
      some (([], some ((len.toNat - 192) * 256 + lo.toNat)), pos + 2)
    else none
  else none
termination_by body.length - pos

/-- A name; a pointer leads to a place before the one where its labels begin. -/
def readName (body : List UInt8) (pos : ℕ) : Option (Name × ℕ) := do
  let ((labels, target), next) ← readLabels body pos
  match target with
  | none => some (labels, next)
  | some target =>
    if headerSize ≤ target ∧ target - headerSize < pos then do
      let (rest, _) ← readName body (target - headerSize)
      some (labels ++ rest, next)
    else none
termination_by pos

/-- A name of legal size. -/
def readDomain : Reader Name := fun body pos =>
  (readName body pos).filter fun x => x.1.size ≤ 255

theorem stable_readLabels : Stable readLabels := by
  intro body extra pos x h
  rw [readLabels] at h ⊢
  split_ifs at h with hpos
  rw [if_pos (by rw [List.length_append]; omega), List.getElem?_append_left hpos]
  obtain ⟨len, hlen, h⟩ := Option.bind_eq_some_iff.mp h
  refine Option.bind_eq_some_iff.mpr ⟨len, hlen, ?_⟩
  split_ifs at h ⊢ with hzero hlabel hptr
  · exact h
  · obtain ⟨label, hbytes, h⟩ := Option.bind_eq_some_iff.mp h
    obtain ⟨rest, hrest, h⟩ := Option.bind_eq_some_iff.mp h
    refine Option.bind_eq_some_iff.mpr ⟨label, stable_readBytes _ _ _ _ _ hbytes, ?_⟩
    exact Option.bind_eq_some_iff.mpr ⟨rest, stable_readLabels _ _ _ _ hrest, h⟩
  · obtain ⟨lo, hlo, h⟩ := Option.bind_eq_some_iff.mp h
    refine Option.bind_eq_some_iff.mpr ⟨lo, ?_, h⟩
    rw [List.getElem?_append_left (List.getElem?_eq_some_iff.mp hlo).1, hlo]
termination_by body _ pos => body.length - pos

theorem stable_readName : Stable readName := by
  intro body extra pos x h
  rw [readName] at h ⊢
  obtain ⟨⟨⟨labels, target⟩, next⟩, hlabels, h⟩ := Option.bind_eq_some_iff.mp h
  refine Option.bind_eq_some_iff.mpr ⟨_, stable_readLabels _ _ _ _ hlabels, ?_⟩
  cases target with
  | none => exact h
  | some target =>
    simp only at h ⊢
    split_ifs at h ⊢ with hback
    obtain ⟨rest, hrest, h⟩ := Option.bind_eq_some_iff.mp h
    exact Option.bind_eq_some_iff.mpr ⟨rest, stable_readName _ _ _ _ hrest, h⟩
termination_by _ _ pos => pos

theorem stable_readDomain : Stable readDomain := by
  intro body extra pos x h
  obtain ⟨hname, hsize⟩ := Option.filter_eq_some_iff.mp h
  exact Option.filter_eq_some_iff.mpr ⟨stable_readName _ _ _ _ hname, hsize⟩

theorem lt_of_readDomain {body : List UInt8} {pos : ℕ} {x : Name × ℕ}
    (h : readDomain body pos = some x) : pos < body.length := by
  obtain ⟨hname, -⟩ := Option.filter_eq_some_iff.mp h
  rw [readName] at hname
  obtain ⟨labels, hlabels, -⟩ := Option.bind_eq_some_iff.mp hname
  rw [readLabels] at hlabels
  split_ifs at hlabels with hpos
  exact hpos

/-! ### Messages -/

def readQuestion : Reader Question := do
  let name ← readDomain
  let type ← readU16
  let cls ← readU16
  return ⟨name, type, cls⟩

def readRecord : Reader Record := do
  let name ← readDomain
  let type ← readU16
  let cls ← readU16
  let ttlHi ← readU16
  let ttlLo ← readU16
  let rdlength ← readU16
  let rdata ← readBytes rdlength
  return ⟨name, type, cls, ttlHi * 65536 + ttlLo, rdata⟩

theorem stable_readQuestion : Stable readQuestion :=
  stable_readDomain.bind fun _ => stable_readU16.bind fun _ => stable_readU16.bind fun _ =>
    stable_pure _

theorem stable_readRecord : Stable readRecord :=
  stable_readDomain.bind fun _ => stable_readU16.bind fun _ => stable_readU16.bind fun _ =>
    stable_readU16.bind fun _ => stable_readU16.bind fun _ => stable_readU16.bind fun n =>
      (stable_readBytes n).bind fun _ => stable_pure _

/-- The sections, with the number of entries of each. -/
def readSections (qd an ns ar : ℕ) : Reader Sections := do
  let questions ← readMany readQuestion qd
  let answers ← readMany readRecord an
  let authority ← readMany readRecord ns
  let additional ← readMany readRecord ar
  return ⟨questions, answers, authority, additional⟩

/-- The sections have as many entries as the counts say. -/
theorem of_readSections {qd an ns ar : ℕ} {body : List UInt8} {pos : ℕ} {x : Sections × ℕ}
    (h : readSections qd an ns ar body pos = some x) :
    x.1.questions.length = qd ∧ x.1.answers.length = an ∧ x.1.authority.length = ns ∧
      x.1.additional.length = ar ∧
      ∃ next, readMany readQuestion qd body pos = some (x.1.questions, next) := by
  obtain ⟨questions, p, hqs, h⟩ := bind_eq_some_iff.mp h
  obtain ⟨answers, p₁, han, h⟩ := bind_eq_some_iff.mp h
  obtain ⟨authority, p₂, hns, h⟩ := bind_eq_some_iff.mp h
  obtain ⟨additional, p₃, har, h⟩ := bind_eq_some_iff.mp h
  obtain rfl := Option.some.inj h
  exact ⟨length_of_readMany hqs, length_of_readMany han, length_of_readMany hns,
    length_of_readMany har, p, hqs⟩

/-- A whole message: header, sections, and nothing behind them. -/
def parse : List UInt8 → Option Message
  | i1 :: i0 :: f1 :: f0 :: q1 :: q0 :: a1 :: a0 :: n1 :: n0 :: r1 :: r0 :: body =>
    match readSections (be16 q1 q0) (be16 a1 a0) (be16 n1 n0) (be16 r1 r0) body 0 with
    | some (s, next) => if next = body.length then some ⟨s, be16 i1 i0, (f1, f0)⟩ else none
    | none => none
  | _ => none

/-- A message is a header and a body that the sections fill. -/
theorem parse_eq_some_iff {buf : List UInt8} {m : Message} : parse buf = some m ↔
    ∃ i1 i0 f1 f0 q1 q0 a1 a0 n1 n0 r1 r0 body s,
      buf = i1 :: i0 :: f1 :: f0 :: q1 :: q0 :: a1 :: a0 :: n1 :: n0 :: r1 :: r0 :: body ∧
      readSections (be16 q1 q0) (be16 a1 a0) (be16 n1 n0) (be16 r1 r0) body 0
        = some (s, body.length) ∧ m = ⟨s, be16 i1 i0, (f1, f0)⟩ := by
  constructor
  · intro h
    unfold parse at h
    split at h
    · next i1 i0 f1 f0 q1 q0 a1 a0 n1 n0 r1 r0 body =>
      split at h
      · next s next hsections =>
        split_ifs at h with hend
        subst hend
        exact ⟨i1, i0, f1, f0, q1, q0, a1, a0, n1, n0, r1, r0, body, s, rfl, hsections,
          (Option.some.inj h).symm⟩
      · simp at h
    · simp at h
  · rintro ⟨i1, i0, f1, f0, q1, q0, a1, a0, n1, n0, r1, r0, body, s, rfl, hsections, rfl⟩
    simp only [parse, hsections, if_true]

/-! ### A record at the end -/

section AtEnd
variable (body : List UInt8) {bytes : List UInt8}

theorem getElem?_atEnd {j : ℕ} {b : UInt8} (hb : bytes[j]? = some b) :
    (body ++ bytes)[body.length + j]? = some b := by
  rw [List.getElem?_append_right (Nat.le_add_right _ _), Nat.add_sub_cancel_left, hb]

theorem readU16_atEnd {k : ℕ} {hi lo : UInt8} (hhi : bytes[k]? = some hi)
    (hlo : bytes[k + 1]? = some lo) :
    readU16 (body ++ bytes) (body.length + k) = some (be16 hi lo, body.length + (k + 2)) := by
  have hbyte : ∀ {j : ℕ} {b : UInt8}, bytes[j]? = some b →
      readByte (body ++ bytes) (body.length + j) = some (b, body.length + (j + 1)) := by
    intro j b hb
    rw [readByte, getElem?_atEnd body hb]
    rfl
  exact bind_eq_some_iff.mpr ⟨hi, _, hbyte hhi, bind_eq_some_iff.mpr ⟨lo, _, hbyte hlo, rfl⟩⟩

theorem readBytes_atEnd {k n : ℕ} (hn : k + n ≤ bytes.length) :
    readBytes n (body ++ bytes) (body.length + k)
      = some ((bytes.drop k).take n, body.length + (k + n)) := by
  rw [readBytes, if_pos (by rw [List.length_append]; omega), List.drop_append,
    List.drop_eq_nil_of_le (Nat.le_add_right _ _), Nat.add_sub_cancel_left, List.nil_append,
    Nat.add_assoc]

/-- A pointer to the start of the body is the name that is there. -/
theorem readDomain_atEnd {name : Name} {next : ℕ} (hname : readDomain body 0 = some (name, next))
    (hbody : 0 < body.length) (h0 : bytes[0]? = some 0xC0) (h1 : bytes[1]? = some 0x0C) :
    readDomain (body ++ bytes) body.length = some (name, body.length + 2) := by
  obtain ⟨hname, hsize⟩ := Option.filter_eq_some_iff.mp (stable_readDomain body bytes 0 _ hname)
  have hlen : 0 < bytes.length := (List.getElem?_eq_some_iff.mp h0).1
  have hlabels : readLabels (body ++ bytes) body.length
      = some (([], some headerSize), body.length + 2) := by
    have h0' : (body ++ bytes)[body.length]? = some 0xC0 := getElem?_atEnd body h0
    rw [readLabels, if_pos (by rw [List.length_append]; omega), h0']
    simp only [Option.bind_eq_bind, Option.bind_some]
    rw [if_neg (by decide), if_neg (by decide), if_pos (by decide),
      getElem?_atEnd body h1]
    rfl
  refine Option.filter_eq_some_iff.mpr ⟨?_, hsize⟩
  rw [readName, hlabels]
  simp only [Option.bind_eq_bind, Option.bind_some]
  rw [if_pos ⟨Nat.le_refl _, by omega⟩, Nat.sub_self, hname]
  rfl

end AtEnd

/-- A record is appended to a message and counted as an answer: it is the answer only if there is no
    other record. -/
theorem readSections_append {qd an ns ar : ℕ} {body extra : List UInt8} {qs : List Question}
    {rs : List Record} {r : Record} {last : ℕ}
    (h : readSections qd an ns ar body 0 = some (⟨qs, [], [], rs⟩, body.length))
    (hr : readRecord (body ++ extra) body.length = some (r, last)) :
    readSections qd 1 ns ar (body ++ extra) 0
      = some (⟨qs, (rs ++ [r]).take 1, [], (rs ++ [r]).drop 1⟩, last) := by
  obtain ⟨-, rfl, rfl, -⟩ := of_readSections h
  obtain ⟨questions, p, hqs, h⟩ := bind_eq_some_iff.mp h
  obtain ⟨answers, p₁, han, h⟩ := bind_eq_some_iff.mp h
  obtain ⟨authority, p₂, hns, h⟩ := bind_eq_some_iff.mp h
  obtain ⟨additional, p₃, har, h⟩ := bind_eq_some_iff.mp h
  obtain ⟨hs, rfl⟩ := Prod.mk.inj (Option.some.inj h)
  obtain ⟨rfl, rfl, rfl, rfl⟩ := Sections.mk.inj hs
  obtain ⟨-, rfl⟩ := Prod.mk.inj (Option.some.inj han)
  obtain ⟨-, rfl⟩ := Prod.mk.inj (Option.some.inj hns)
  have hqs' := stable_readQuestion.readMany qd body extra 0 _ hqs
  have har' := stable_readRecord.readMany ar body extra p _ har
  -- all records behind the question section, the appended one last
  have hall : readMany readRecord (ar + 1) (body ++ extra) p = some (additional ++ [r], last) :=
    readMany_add.mpr ⟨additional, body.length, [r], har', readMany_one.mpr ⟨r, hr, rfl⟩, rfl⟩
  rw [Nat.add_comm] at hall
  obtain ⟨as, mid, bs, hone, hrest, heq⟩ := readMany_add.mp hall
  obtain ⟨a, -, rfl⟩ := readMany_one.mp hone
  have heq' : additional ++ [r] = [a] ++ bs := heq
  rw [heq']
  refine bind_eq_some_iff.mpr ⟨_, _, hqs', bind_eq_some_iff.mpr ⟨_, _, hone, ?_⟩⟩
  exact bind_eq_some_iff.mpr ⟨_, _, rfl, bind_eq_some_iff.mpr ⟨_, _, hrest, rfl⟩⟩

end SeeedMote.Lib.Dns
