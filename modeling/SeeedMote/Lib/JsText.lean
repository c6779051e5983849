import Mathlib.Data.List.DropRight
import SeeedMote.Lib.PyDumps

/-! What a web page does to text before it sends it: `trim`, `parseInt` and `JSON.stringify`. Trimming
    twice is trimming once, `parseInt` undoes the printing of a number, and a JSON reader undoes
    `JSON.stringify`. -/

namespace SeeedMote.Lib

/-! ### Trimming -/

/-- `WhiteSpace` and `LineTerminator`. -/
def jsSpace (c : ℕ) : Bool :=
  (9 ≤ c ∧ c ≤ 13) ∨ c = 32 ∨ c = 0xA0 ∨ c = 0x1680 ∨ (0x2000 ≤ c ∧ c ≤ 0x200A) ∨ c = 0x2028 ∨
    c = 0x2029 ∨ c = 0x202F ∨ c = 0x205F ∨ c = 0x3000 ∨ c = 0xFEFF

/-- `s.trim()`. -/
def jsTrim (s : PyStr) : PyStr := (s.dropWhile jsSpace).rdropWhile jsSpace

/-- What is left of a list that starts with no dropped element starts so too. -/
theorem dropWhile_rdropWhile {α : Type*} (p : α → Bool) {l : List α} (h : l.dropWhile p = l) :
    (l.rdropWhile p).dropWhile p = l.rdropWhile p := by
  obtain ⟨t, ht⟩ := List.rdropWhile_prefix p l
  cases hu : l.rdropWhile p with
  | nil => rfl
  | cons a u =>
    rw [hu] at ht
    rw [← ht, List.dropWhile_eq_self_iff] at h
    exact List.dropWhile_cons_of_neg (h (Nat.succ_pos _))

theorem jsTrim_jsTrim (s : PyStr) : jsTrim (jsTrim s) = jsTrim s := by
  rw [jsTrim, jsTrim, dropWhile_rdropWhile jsSpace (List.dropWhile_idempotent jsSpace s),
    List.rdropWhile_idempotent]

theorem jsTrim_sublist (s : PyStr) : (jsTrim s).Sublist s :=
  (List.rdropWhile_prefix _ _).sublist.trans (List.dropWhile_suffix _).sublist

/-! ### Numbers -/

/-- The value of the digits `s` starts with. -/
def leadingDigits (base : ℕ) (digit : ℕ → Option ℕ) (s : PyStr) : Option ℕ :=
  let ds := (s.takeWhile fun c => (digit c).isSome).filterMap digit
  if ds = [] then none else some (Nat.ofDigits base ds.reverse)

def decDigit (c : ℕ) : Option ℕ := if isDigit c then some (c - 48) else none

/-- `parseInt(s)`, `none` for NaN; a value above 2^53 is not rounded. -/
def parseInt (s : PyStr) : Option ℤ :=
  let s := s.dropWhile jsSpace
  let negative := s.head? = some 45
  let s := if s.head? = some 45 ∨ s.head? = some 43 then s.tail else s
  let hex := s[0]? = some 48 ∧ (s[1]? = some 120 ∨ s[1]? = some 88)
  let n := if hex then leadingDigits 16 hexDigit (s.drop 2) else leadingDigits 10 decDigit s
  n.map fun n : ℕ => if negative then -(n : ℤ) else n

/-- The text of a natural number. -/
def jsNumber (n : ℕ) : PyStr := asciiText (fmtUnsigned n)

theorem parseInt_jsNumber (n : ℕ) : parseInt (jsNumber n) = some (n : ℤ) := by
  obtain ⟨ds, hds, hne, hlt, hzero, hval⟩ := fmtUnsigned_spec n
  have htext : jsNumber n = digitText ds := by rw [jsNumber, hds, asciiText_digits hlt]
  have hlead : leadingDigits 10 decDigit (digitText ds) = some n := by
    have hread : ∀ c ∈ digitText ds, decDigit c = some (c - 48) := fun c hc =>
      if_pos (mem_digitText hlt c hc)
    have hall : (digitText ds).takeWhile (fun c => (decDigit c).isSome) = digitText ds :=
      List.takeWhile_eq_self_iff.mpr fun c hc => by rw [hread c hc]; rfl
    have hone : ∀ d ∈ ds, (decDigit ∘ (48 + ·)) d = some d := fun d hd => by
      simp [decDigit, isDigit_of_lt (hlt d hd)]
    have hback : (digitText ds).filterMap decDigit = ds := by
      rw [digitText, List.filterMap_map, List.filterMap_congr hone, List.filterMap_some]
    rw [leadingDigits, hall, hback, hval]
    exact if_neg hne
  obtain ⟨d, tl, rfl⟩ := List.exists_cons_of_ne_nil hne
  have hd : d < 10 := hlt d (List.mem_cons_self ..)
  have hcons : digitText (d :: tl) = (48 + d) :: digitText tl := rfl
  have hspace : (digitText (d :: tl)).dropWhile jsSpace = digitText (d :: tl) := by
    rw [hcons]
    refine List.dropWhile_cons_of_neg ?_
    simp only [jsSpace, decide_eq_true_eq]
    omega
  have hminus : ¬(digitText (d :: tl)).head? = some 45 := by
    rw [hcons, List.head?_cons, Option.some.injEq]
    omega
  have hplus : ¬(digitText (d :: tl)).head? = some 43 := by
    rw [hcons, List.head?_cons, Option.some.injEq]
    omega
  -- A number that starts with 0 is that digit alone.
  have hhex : ¬((digitText (d :: tl))[0]? = some 48 ∧
      ((digitText (d :: tl))[1]? = some 120 ∨ (digitText (d :: tl))[1]? = some 88)) := by
    rintro ⟨h0, hx⟩
    obtain rfl : d = 0 := by
      rw [hcons, List.getElem?_cons_zero, Option.some.injEq] at h0
      omega
    obtain rfl : tl = [] := by simpa using hzero rfl
    simp [digitText] at hx
  rw [htext, parseInt]
  simp only [hspace, hminus, hplus, or_self, if_false, if_neg hhex, hlead, Option.map_some]

/-! ### `JSON.stringify` -/

inductive JsValue where
  | str (s : PyStr)
  | int (z : ℤ)

/-- One character of `QuoteJSONString`. -/
def jsEscape (c : ℕ) : PyStr :=
  if c = 8 then [92, 98]
  else if c = 9 then [92, 116]
  else if c = 10 then [92, 110]
  else if c = 12 then [92, 102]
  else if c = 13 then [92, 114]
  else if c = 34 then [92, 34]
  else if c = 92 then [92, 92]
  else if c < 32 ∨ isHigh c ∨ isLow c then unicodeEscape c
  else [c]

def JsValue.text : JsValue → PyStr
  | .str s => quoteWith jsEscape s
  | .int z => asciiText (fmtSigned z)

/-- `JSON.stringify` of an object. -/
def stringify (ms : List (PyStr × JsValue)) : PyStr :=
  objectText (ms.map fun m => (quoteWith jsEscape m.1, m.2.text))

/-- The value as a JSON reader has it. -/
def JsValue.val : JsValue → PyVal
  | .str s => .str s
  | .int z => .int z

/-- A string without surrogates, or a number within the reader's digit limit. -/
def JsValue.Reads (rt : PyRuntime) : JsValue → Prop
  | .str s => Scalar s
  | .int z => tooManyDigits rt (fmtUnsigned z.natAbs).length = false

theorem unescapes_jsEscape {c : ℕ} (hscalar : ¬(0xD800 ≤ c ∧ c ≤ 0xDFFF)) : Unescapes jsEscape c := by
  rw [Unescapes, jsEscape]
  split_ifs with h1 h2 h3 h4 h5 h6 h7 h8
  · exact .inr ⟨[98], rfl, fun r => by rw [h1]; rfl⟩
  · exact .inr ⟨[116], rfl, fun r => by rw [h2]; rfl⟩
  · exact .inr ⟨[110], rfl, fun r => by rw [h3]; rfl⟩
  · exact .inr ⟨[102], rfl, fun r => by rw [h4]; rfl⟩
  · exact .inr ⟨[114], rfl, fun r => by rw [h5]; rfl⟩
  · exact .inr ⟨[34], rfl, fun r => by rw [h6]; rfl⟩
  · exact .inr ⟨[92], rfl, fun r => by rw [h7]; rfl⟩
  · have hlow : c < 32 := by
      simp only [isHigh, isLow] at h8
      omega
    have hhigh : ¬isHigh c := fun hh => by
      have := hh.1
      omega
    exact .inr ⟨(unicodeEscape c).tail, rfl, escape_unicodeEscape (by omega) hhigh⟩
  · exact .inl ⟨rfl, h6, h7, by omega⟩

theorem readsKey_jsEscape {s : PyStr} (h : Scalar s) : ReadsKey (quoteWith jsEscape s) s :=
  readsKey_quoteWith fun c hc => unescapes_jsEscape (h c hc).2

theorem JsValue.Reads.readsValue {rt : PyRuntime} {v : JsValue} (h : v.Reads rt) :
    ReadsValue rt v.text v.val := by
  cases v with
  | str s => exact (readsKey_jsEscape h).readsValue rt
  | int z => exact fun nested r hr => ⟨skipWs_field (.int z) r, scanWith_fmtSigned nested h hr⟩

/-! ### The characters of the text -/

/-- A character of Unicode that is no NUL. -/
def TextChar (c : ℕ) : Prop := 0 < c ∧ c < 0x110000

instance (c : ℕ) : Decidable (TextChar c) := inferInstanceAs (Decidable (_ ∧ _))

/-- A string without surrogates, or a number. -/
def JsValue.IsScalar : JsValue → Prop
  | .str s => Scalar s
  | .int _ => True

theorem JsValue.Reads.isScalar {rt : PyRuntime} {v : JsValue} (h : v.Reads rt) : v.IsScalar := by
  cases v with
  | str s => exact h
  | int z => trivial

theorem jsEscape_textChar {c : ℕ} (h : c < 0x110000) : ∀ d ∈ jsEscape c, TextChar d := by
  rw [jsEscape]
  split_ifs with h1 h2 h3 h4 h5 h6 h7 h8
  · decide
  · decide
  · decide
  · decide
  · decide
  · decide
  · decide
  · intro d hd
    obtain ⟨hlo, hhi⟩ := unicodeEscape_printable c d hd
    exact ⟨by omega, by omega⟩
  · intro d hd
    obtain rfl := List.mem_singleton.mp hd
    exact ⟨by omega, h⟩

theorem quote_textChar {s : PyStr} (h : Scalar s) : ∀ c ∈ quoteWith jsEscape s, TextChar c :=
  forall_quoteWith (by decide) fun c hc => jsEscape_textChar (h c hc).1

theorem JsValue.IsScalar.textChar {v : JsValue} (h : v.IsScalar) : ∀ c ∈ v.text, TextChar c := by
  cases v with
  | str s => exact quote_textChar h
  | int z =>
    intro c hc
    obtain ⟨b, hb, rfl⟩ := List.mem_map.mp hc
    refine ⟨?_, b.toNat_lt.trans (by norm_num)⟩
    rw [fmtSigned] at hb
    split at hb
    · rcases List.mem_append.mp hb with hminus | hb
      · rw [List.mem_singleton.mp hminus]
        decide
      · exact lt_of_lt_of_le (by norm_num) (mem_fmtUnsigned hb).1
    · exact lt_of_lt_of_le (by norm_num) (mem_fmtUnsigned hb).1

/-- The text has no NUL, even where a string does. -/
theorem stringify_textChar {ms : List (PyStr × JsValue)} (h : ∀ m ∈ ms, Scalar m.1 ∧ m.2.IsScalar) :
    ∀ c ∈ stringify ms, TextChar c := by
  refine forall_objectText (by decide) (by decide) (forall_membersText (by decide) (by decide) ?_)
  intro m hm
  obtain ⟨m', hm', rfl⟩ := List.mem_map.mp hm
  exact ⟨quote_textChar (h m' hm').1, (h m' hm').2.textChar⟩

/-! ### Reading back -/

/-- A JSON reader undoes `JSON.stringify`. -/
theorem loads_stringify {rt : PyRuntime} (hdepth : 0 < rt.jsonDepth) {ms : List (PyStr × JsValue)}
    (hne : ms ≠ []) (h : ∀ m ∈ ms, Scalar m.1 ∧ m.2.Reads rt) :
    loads rt (utf8Encode (stringify ms)) = .ok (.dict (entriesOf [] (ms.map fun m => (m.1, m.2.val)))) := by
  have hmembers : List.Forall₂ (ReadsMember rt) (ms.map fun m => (quoteWith jsEscape m.1, m.2.text))
      (ms.map fun m => (m.1, m.2.val)) := by
    rw [List.forall₂_map_left_iff, List.forall₂_map_right_iff, List.forall₂_same]
    exact fun m hm => ⟨readsKey_jsEscape (h m hm).1, (h m hm).2.readsValue⟩
  obtain ⟨t, ht⟩ := membersText_head hmembers (by simpa using hne) [125]
  have hbytes : utf8Encode (stringify ms) = 123 :: 34 :: utf8Encode t := by
    rw [stringify, objectText, List.cons_append, ht]
    rfl
  have hdecode : utf8Decode (utf8Encode (stringify ms)) = some (stringify ms) :=
    utf8Decode_encode fun c hc =>
      (stringify_textChar (fun m hm => ⟨(h m hm).1, (h m hm).2.isScalar⟩) c hc).2
  rw [hbytes, stringify] at hdecode
  rw [hbytes, loads_objectText hdepth hmembers (by simpa using hne) hdecode]

end SeeedMote.Lib
