import Mathlib.Data.List.Flatten
import Mathlib.Data.List.TakeWhile
import Mathlib.Data.Nat.Notation

/-! Python text as a list of code points (lone surrogates included, as `json` can produce them), and
    the decoding of bytes that `json.loads` starts with: `detect_encoding`, then
    `decode(encoding, 'surrogatepass')`. -/

namespace SeeedMote.Lib

abbrev PyStr := List ℕ

/-- The Python string spelled by a literal. -/
def py (s : String) : PyStr := s.toList.map Char.toNat

/-! ### Surrogates -/

def isHigh (c : ℕ) : Prop := 0xD800 ≤ c ∧ c ≤ 0xDBFF
def isLow (c : ℕ) : Prop := 0xDC00 ≤ c ∧ c ≤ 0xDFFF

instance (c : ℕ) : Decidable (isHigh c) := inferInstanceAs (Decidable (_ ∧ _))
instance (c : ℕ) : Decidable (isLow c) := inferInstanceAs (Decidable (_ ∧ _))

/-- The code point of a surrogate pair. -/
def joinPair (hi lo : ℕ) : ℕ := 0x10000 + (hi - 0xD800) * 0x400 + (lo - 0xDC00)

/-! ### Encodings -/

inductive Encoding where
  | utf8 | utf8Sig | utf16 | utf16be | utf16le | utf32 | utf32be | utf32le
  deriving DecidableEq

/-- `json.detect_encoding`. -/
def detectEncoding (b : List UInt8) : Encoding :=
  if [0, 0, 0xFE, 0xFF].isPrefixOf b ∨ [0xFF, 0xFE, 0, 0].isPrefixOf b then .utf32
  else if [0xFE, 0xFF].isPrefixOf b ∨ [0xFF, 0xFE].isPrefixOf b then .utf16
  else if [0xEF, 0xBB, 0xBF].isPrefixOf b then .utf8Sig
  else
    match b with
    | b0 :: b1 :: b2 :: b3 :: _ =>
      if b0 = 0 then if b1 ≠ 0 then .utf16be else .utf32be
      else if b1 = 0 then if b2 ≠ 0 ∨ b3 ≠ 0 then .utf16le else .utf32le
      else .utf8
    | [b0, b1] => if b0 = 0 then .utf16be else if b1 = 0 then .utf16le else .utf8
    | _ => .utf8

def isTail (b : UInt8) : Prop := 0x80 ≤ b ∧ b ≤ 0xBF

instance (b : UInt8) : Decidable (isTail b) := inferInstanceAs (Decidable (_ ∧ _))

/-- UTF-8, encoded surrogates let through. -/
def utf8Decode : List UInt8 → Option PyStr
  | [] => some []
  | a :: s =>
    if a < 0x80 then (utf8Decode s).map (a.toNat :: ·)
    else
      match s with
      | [] => none
      | b :: s =>
        if 0xC2 ≤ a ∧ a ≤ 0xDF then
          if isTail b then
            (utf8Decode s).map (((a.toNat - 0xC0) * 0x40 + (b.toNat - 0x80)) :: ·)
          else none
        else
          match s with
          | [] => none
          | c :: s =>
            if 0xE0 ≤ a ∧ a ≤ 0xEF then
              if isTail b ∧ isTail c ∧ (a = 0xE0 → 0xA0 ≤ b) then
                (utf8Decode s).map (((a.toNat - 0xE0) * 0x1000 + (b.toNat - 0x80) * 0x40 +
                  (c.toNat - 0x80)) :: ·)
              else none
            else
              match s with
              | [] => none
              | d :: s =>
                if 0xF0 ≤ a ∧ a ≤ 0xF4 ∧ isTail b ∧ isTail c ∧ isTail d ∧ (a = 0xF0 → 0x90 ≤ b) ∧
                    (a = 0xF4 → b ≤ 0x8F) then
                  (utf8Decode s).map (((a.toNat - 0xF0) * 0x40000 + (b.toNat - 0x80) * 0x1000 +
                    (c.toNat - 0x80) * 0x40 + (d.toNat - 0x80)) :: ·)
                else none

/-- The 16-bit units; `none` for a truncated one. -/
def units16 (bigEndian : Bool) : List UInt8 → Option (List ℕ)
  | [] => some []
  | [_] => none
  | a :: b :: s =>
    (units16 bigEndian s).map
      ((if bigEndian then a.toNat * 0x100 + b.toNat else b.toNat * 0x100 + a.toNat) :: ·)

/-- UTF-16 units to code points, lone surrogates let through. -/
def joinSurrogates : List ℕ → PyStr
  | hi :: lo :: s =>
    if isHigh hi ∧ isLow lo then joinPair hi lo :: joinSurrogates s
    else hi :: joinSurrogates (lo :: s)
  | [c] => [c]
  | [] => []

/-- UTF-32, encoded surrogates let through. -/
def utf32Decode (bigEndian : Bool) : List UInt8 → Option PyStr
  | [] => some []
  | a :: b :: c :: d :: s =>
    let code := if bigEndian
      then a.toNat * 0x1000000 + b.toNat * 0x10000 + c.toNat * 0x100 + d.toNat
      else d.toNat * 0x1000000 + c.toNat * 0x10000 + b.toNat * 0x100 + a.toNat
    if code ≤ 0x10FFFF then (utf32Decode bigEndian s).map (code :: ·) else none
  | _ => none

/-- `b.decode(encoding, 'surrogatepass')`; `none` is a `UnicodeDecodeError`. -/
def decodeBytes (encoding : Encoding) (b : List UInt8) : Option PyStr :=
  match encoding with
  | .utf8 => utf8Decode b
  | .utf8Sig => utf8Decode (b.drop 3)
  | .utf16 => (units16 (b.head? = some 0xFE) (b.drop 2)).map joinSurrogates
  | .utf16be => (units16 true b).map joinSurrogates
  | .utf16le => (units16 false b).map joinSurrogates
  | .utf32 => utf32Decode (b.head? = some 0) (b.drop 4)
  | .utf32be => utf32Decode true b
  | .utf32le => utf32Decode false b

/-- ASCII bytes decode to themselves. -/
theorem utf8Decode_ascii : ∀ {b : List UInt8}, (∀ a ∈ b, a < 0x80) →
    utf8Decode b = some (b.map UInt8.toNat)
  | [], _ => rfl
  | a :: s, h => by
      have ih := utf8Decode_ascii fun c hc => h c (List.mem_cons_of_mem a hc)
      unfold utf8Decode
      rw [if_pos (h a (List.mem_cons_self ..)), ih]
      rfl

/-! ### Encoding -/

/-- The bytes of a code point. -/
def utf8Char (c : ℕ) : List UInt8 :=
  if c < 0x80 then [c.toUInt8]
  else if c < 0x800 then [(0xC0 + c / 0x40).toUInt8, (0x80 + c % 0x40).toUInt8]
  else if c < 0x10000 then
    [(0xE0 + c / 0x1000).toUInt8, (0x80 + c / 0x40 % 0x40).toUInt8, (0x80 + c % 0x40).toUInt8]
  else
    [(0xF0 + c / 0x40000).toUInt8, (0x80 + c / 0x1000 % 0x40).toUInt8,
      (0x80 + c / 0x40 % 0x40).toUInt8, (0x80 + c % 0x40).toUInt8]

def utf8Encode (s : PyStr) : List UInt8 := s.flatMap utf8Char

theorem length_utf8Encode_le {s t : PyStr} (h : s.Sublist t) :
    (utf8Encode s).length ≤ (utf8Encode t).length :=
  (h.flatMap utf8Char).length_le

theorem zero_notMem_of_utf8Encode {s : PyStr} (h : 0 ∉ utf8Encode s) : 0 ∉ s := fun hmem =>
  h (List.mem_flatMap.mpr ⟨0, hmem, List.mem_singleton_self _⟩)

theorem toNat_byte {n : ℕ} (h : n < 0x100) : n.toUInt8.toNat = n :=
  UInt8.toNat_ofNat_of_lt' (by simpa [UInt8.size] using h)

/-- A code point outside ASCII has no ASCII byte. -/
theorem utf8Char_high {c : ℕ} (h : 0x80 ≤ c) (hlt : c < 0x110000) :
    utf8Char c ≠ [] ∧ ∀ b ∈ utf8Char c, 0x80 ≤ b.toNat := by
  have hbyte : ∀ n, 0x80 ≤ n → n < 0x100 → 0x80 ≤ n.toUInt8.toNat := by
    intro n hlo hhi
    rwa [toNat_byte hhi]
  rw [utf8Char, if_neg (by omega)]
  split_ifs with h2 h3
  · refine ⟨by simp, ?_⟩
    simp only [List.forall_mem_cons, List.not_mem_nil, false_imp_iff, implies_true, and_true]
    exact ⟨hbyte _ (by omega) (by omega), hbyte _ (by omega) (by omega)⟩
  · refine ⟨by simp, ?_⟩
    simp only [List.forall_mem_cons, List.not_mem_nil, false_imp_iff, implies_true, and_true]
    exact ⟨hbyte _ (by omega) (by omega), hbyte _ (by omega) (by omega), hbyte _ (by omega) (by omega)⟩
  · refine ⟨by simp, ?_⟩
    simp only [List.forall_mem_cons, List.not_mem_nil, false_imp_iff, implies_true, and_true]
    exact ⟨hbyte _ (by omega) (by omega), hbyte _ (by omega) (by omega),
      hbyte _ (by omega) (by omega), hbyte _ (by omega) (by omega)⟩

/-- ASCII bytes are the encoding of one text only. -/
theorem utf8Encode_eq_iff {s : PyStr} (hs : ∀ c ∈ s, c < 0x110000) {b : List UInt8}
    (hb : ∀ a ∈ b, a.toNat < 0x80) : utf8Encode s = b ↔ s = b.map UInt8.toNat := by
  have hchar : ∀ {c : ℕ}, c < 0x80 → utf8Char c = [c.toUInt8] ∧ c.toUInt8.toNat = c := by
    intro c hc
    exact ⟨if_pos hc, toNat_byte (by omega)⟩
  induction s generalizing b with
  | nil => cases b <;> simp [utf8Encode]
  | cons c s ih =>
    have ih := fun {b} => @ih (fun d hd => hs d (List.mem_cons_of_mem _ hd)) b
    rw [utf8Encode, List.flatMap_cons]
    by_cases hc : c < 0x80
    · obtain ⟨hone, hback⟩ := hchar hc
      rw [hone, List.singleton_append]
      cases b with
      | nil => simp
      | cons a b =>
        rw [List.cons_eq_cons, List.map_cons, List.cons_eq_cons]
        refine and_congr ⟨?_, ?_⟩ (ih fun d hd => hb d (List.mem_cons_of_mem _ hd))
        · rintro rfl
          exact hback.symm
        · rintro rfl
          exact UInt8.toNat_inj.mp hback
    · obtain ⟨hne, hhigh⟩ := utf8Char_high (Nat.not_lt.mp hc) (hs c (List.mem_cons_self ..))
      obtain ⟨a, t, ht⟩ := List.exists_cons_of_ne_nil hne
      rw [ht, List.cons_append]
      have ha : 0x80 ≤ a.toNat := hhigh a (ht ▸ List.mem_cons_self ..)
      refine ⟨fun h => ?_, fun h => ?_⟩
      · have hlow := hb a (h ▸ List.mem_cons_self ..)
        omega
      · obtain ⟨d, b, rfl⟩ : ∃ d b', b = d :: b' := by
          cases b with
          | nil => simp at h
          | cons d b => exact ⟨d, b, rfl⟩
        have hlow := hb d (List.mem_cons_self ..)
        obtain ⟨rfl, -⟩ := List.cons.inj h
        omega

/-- Cutting at the first NUL commutes with the encoding. -/
theorem takeWhile_utf8Encode {s : PyStr} (hs : ∀ c ∈ s, c < 0x110000) :
    (utf8Encode s).takeWhile (· ≠ 0) = utf8Encode (s.takeWhile (· ≠ 0)) := by
  induction s with
  | nil => rfl
  | cons c s ih =>
    have ih := ih fun d hd => hs d (List.mem_cons_of_mem _ hd)
    by_cases hc : c = 0
    · rw [hc, List.takeWhile_cons_of_neg (by simp)]
      rfl
    · have hnz : ∀ b ∈ utf8Char c, b ≠ 0 := by
        intro b hb hzero
        by_cases hlow : c < 0x80
        · rw [utf8Char, if_pos hlow, List.mem_singleton] at hb
          have hback : c.toUInt8.toNat = c := toNat_byte (by omega)
          rw [← hb, hzero] at hback
          exact hc hback.symm
        · have hge := (utf8Char_high (Nat.not_lt.mp hlow) (hs c (List.mem_cons_self ..))).2 b hb
          rw [hzero] at hge
          exact absurd hge (by decide)
      rw [List.takeWhile_cons_of_pos (by simpa using hc), utf8Encode, utf8Encode, List.flatMap_cons,
        List.flatMap_cons, List.takeWhile_append_of_pos fun b hb => by simpa using hnz b hb,
        ← utf8Encode, ih, utf8Encode]

/-- A trailing byte. -/
theorem isTail_byte (n : ℕ) : isTail (0x80 + n % 0x40).toUInt8 := by
  have hn := toNat_byte (n := 0x80 + n % 0x40) (by omega)
  simp only [isTail, UInt8.le_iff_toNat_le, hn, UInt8.reduceToNat]
  omega

/-- Decoding takes the bytes of a code point off. -/
theorem utf8Decode_char {c : ℕ} (h : c < 0x110000) (r : List UInt8) :
    utf8Decode (utf8Char c ++ r) = (utf8Decode r).map (c :: ·) := by
  have hlow : ∀ k, (0x80 + k % 0x40).toUInt8.toNat = 0x80 + k % 0x40 := fun k =>
    toNat_byte (by omega)
  rw [utf8Char]
  split_ifs with h1 h2 h3
  · have hlead := toNat_byte (n := c) (by omega)
    have hascii : c.toUInt8 < 0x80 := by
      simp only [UInt8.lt_iff_toNat_lt, hlead, UInt8.reduceToNat]
      omega
    rw [List.singleton_append, utf8Decode.eq_def]
    simp only [if_pos hascii, hlead]
  · have hlead := toNat_byte (n := 0xC0 + c / 0x40) (by omega)
    have hascii : ¬(0xC0 + c / 0x40).toUInt8 < 0x80 := by
      simp only [UInt8.lt_iff_toNat_lt, hlead, UInt8.reduceToNat]
      omega
    have htwo : 0xC2 ≤ (0xC0 + c / 0x40).toUInt8 ∧ (0xC0 + c / 0x40).toUInt8 ≤ 0xDF := by
      simp only [UInt8.le_iff_toNat_le, hlead, UInt8.reduceToNat]
      omega
    have hcode : (0xC0 + c / 0x40 - 0xC0) * 0x40 + (0x80 + c % 0x40 - 0x80) = c := by omega
    rw [List.cons_append, List.singleton_append, utf8Decode.eq_def]
    simp only [if_neg hascii, if_pos htwo, if_pos (isTail_byte c), hlead, hlow, hcode]
  · have hlead := toNat_byte (n := 0xE0 + c / 0x1000) (by omega)
    have hascii : ¬(0xE0 + c / 0x1000).toUInt8 < 0x80 := by
      simp only [UInt8.lt_iff_toNat_lt, hlead, UInt8.reduceToNat]
      omega
    have htwo : ¬(0xC2 ≤ (0xE0 + c / 0x1000).toUInt8 ∧ (0xE0 + c / 0x1000).toUInt8 ≤ 0xDF) := by
      simp only [UInt8.le_iff_toNat_le, hlead, UInt8.reduceToNat]
      omega
    have hthree : 0xE0 ≤ (0xE0 + c / 0x1000).toUInt8 ∧ (0xE0 + c / 0x1000).toUInt8 ≤ 0xEF := by
      simp only [UInt8.le_iff_toNat_le, hlead, UInt8.reduceToNat]
      omega
    have htails : isTail (0x80 + c / 0x40 % 0x40).toUInt8 ∧ isTail (0x80 + c % 0x40).toUInt8 ∧
        ((0xE0 + c / 0x1000).toUInt8 = 0xE0 → 0xA0 ≤ (0x80 + c / 0x40 % 0x40).toUInt8) := by
      refine ⟨isTail_byte _, isTail_byte _, ?_⟩
      simp only [← UInt8.toNat_inj, UInt8.le_iff_toNat_le, hlead, hlow, UInt8.reduceToNat]
      omega
    have hcode : (0xE0 + c / 0x1000 - 0xE0) * 0x1000 + (0x80 + c / 0x40 % 0x40 - 0x80) * 0x40 +
        (0x80 + c % 0x40 - 0x80) = c := by omega
    rw [List.cons_append, List.cons_append, List.singleton_append, utf8Decode.eq_def]
    simp only [if_neg hascii, if_neg htwo, if_pos hthree, if_pos htails, hlead, hlow, hcode]
  · have hlead := toNat_byte (n := 0xF0 + c / 0x40000) (by omega)
    have hascii : ¬(0xF0 + c / 0x40000).toUInt8 < 0x80 := by
      simp only [UInt8.lt_iff_toNat_lt, hlead, UInt8.reduceToNat]
      omega
    have htwo : ¬(0xC2 ≤ (0xF0 + c / 0x40000).toUInt8 ∧ (0xF0 + c / 0x40000).toUInt8 ≤ 0xDF) := by
      simp only [UInt8.le_iff_toNat_le, hlead, UInt8.reduceToNat]
      omega
    have hthree : ¬(0xE0 ≤ (0xF0 + c / 0x40000).toUInt8 ∧ (0xF0 + c / 0x40000).toUInt8 ≤ 0xEF) := by
      simp only [UInt8.le_iff_toNat_le, hlead, UInt8.reduceToNat]
      omega
    have hfour : 0xF0 ≤ (0xF0 + c / 0x40000).toUInt8 ∧ (0xF0 + c / 0x40000).toUInt8 ≤ 0xF4 ∧
        isTail (0x80 + c / 0x1000 % 0x40).toUInt8 ∧ isTail (0x80 + c / 0x40 % 0x40).toUInt8 ∧
        isTail (0x80 + c % 0x40).toUInt8 ∧
        ((0xF0 + c / 0x40000).toUInt8 = 0xF0 → 0x90 ≤ (0x80 + c / 0x1000 % 0x40).toUInt8) ∧
        ((0xF0 + c / 0x40000).toUInt8 = 0xF4 → (0x80 + c / 0x1000 % 0x40).toUInt8 ≤ 0x8F) := by
      refine ⟨?_, ?_, isTail_byte _, isTail_byte _, isTail_byte _, ?_, ?_⟩
      all_goals
        simp only [← UInt8.toNat_inj, UInt8.le_iff_toNat_le, hlead, hlow, UInt8.reduceToNat]
        omega
    have hcode : (0xF0 + c / 0x40000 - 0xF0) * 0x40000 + (0x80 + c / 0x1000 % 0x40 - 0x80) * 0x1000 +
        (0x80 + c / 0x40 % 0x40 - 0x80) * 0x40 + (0x80 + c % 0x40 - 0x80) = c := by omega
    rw [List.cons_append, List.cons_append, List.cons_append, List.singleton_append, utf8Decode.eq_def]
    simp only [if_neg hascii, if_neg htwo, if_neg hthree, if_pos hfour, hlead, hlow, hcode]

/-- Encoded text decodes to itself. -/
theorem utf8Decode_encode {s : PyStr} (h : ∀ c ∈ s, c < 0x110000) :
    utf8Decode (utf8Encode s) = some s := by
  induction s with
  | nil => rfl
  | cons c s ih =>
    have ih := ih fun d hd => h d (List.mem_cons_of_mem _ hd)
    rw [utf8Encode, List.flatMap_cons, utf8Decode_char (h c (List.mem_cons_self ..)), ← utf8Encode, ih]
    rfl

theorem utf8Encode_injective {s t : PyStr} (hs : ∀ c ∈ s, c < 0x110000) (ht : ∀ c ∈ t, c < 0x110000)
    (h : utf8Encode s = utf8Encode t) : s = t := by
  have hback := utf8Decode_encode hs
  rw [h, utf8Decode_encode ht] at hback
  exact (Option.some.inj hback).symm

end SeeedMote.Lib
