import SeeedMote.Lib.JsonObject

/-! `json.dumps` of a dict of strings, with `ensure_ascii` and no blanks, and that `json.loads` reads it
    back. Every character outside printable ASCII is escaped, so the text is ASCII whatever the strings
    hold; a character above the basic plane becomes two escapes. -/

namespace SeeedMote.Lib

/-! ### Strings -/

/-- A digit of `{0:04x}`. -/
def hexChar (d : ℕ) : ℕ := if d < 10 then 48 + d else 87 + d

/-- `'\\u{0:04x}'.format(n)`. -/
def unicodeEscape (n : ℕ) : PyStr :=
  [92, 117, hexChar (n / 4096 % 16), hexChar (n / 256 % 16), hexChar (n / 16 % 16), hexChar (n % 16)]

/-- One character of `py_encode_basestring_ascii`. -/
def escapeChar (c : ℕ) : PyStr :=
  if c = 34 then [92, 34]
  else if c = 92 then [92, 92]
  else if c = 10 then [92, 110]
  else if c = 13 then [92, 114]
  else if c = 9 then [92, 116]
  else if c = 12 then [92, 102]
  else if c = 8 then [92, 98]
  else if 32 ≤ c ∧ c ≤ 126 then [c]
  else if c < 0x10000 then unicodeEscape c
  else unicodeEscape (0xD800 + (c - 0x10000) / 0x400) ++
    unicodeEscape (0xDC00 + (c - 0x10000) % 0x400)

/-- `py_encode_basestring_ascii`. -/
def quoteAscii (s : PyStr) : PyStr := 34 :: s.flatMap escapeChar ++ [34]

/-- Text without surrogates. -/
def Scalar (s : PyStr) : Prop := ∀ c ∈ s, c < 0x110000 ∧ ¬(0xD800 ≤ c ∧ c ≤ 0xDFFF)

instance (s : PyStr) : Decidable (Scalar s) := List.decidableBAll _ s

theorem hexDigit_hexChar {d : ℕ} (h : d < 16) : hexDigit (hexChar d) = some d := by
  interval_cases d <;> rfl

/-- Four hex digits give the number back. -/
theorem hex4_unicodeEscape {n : ℕ} (h : n < 0x10000) (r : PyStr) :
    hex4 (((unicodeEscape n).drop 2) ++ r) = some (n, r) := by
  have hlt : ∀ k, k % 16 < 16 := fun k => Nat.mod_lt _ (by norm_num)
  simp only [unicodeEscape, List.drop_succ_cons, List.drop_zero, List.cons_append, List.nil_append,
    hex4, hexDigit_hexChar (hlt _)]
  have hback : n / 4096 % 16 * 0x1000 + n / 256 % 16 * 0x100 + n / 16 % 16 * 0x10 + n % 16 = n := by
    omega
  rw [hback]

/-- One `\uXXXX` that is no high surrogate. -/
theorem escape_unicodeEscape {n : ℕ} (h : n < 0x10000) (hhigh : ¬isHigh n) (r : PyStr) :
    escape ((unicodeEscape n).tail ++ r) = some (n, r) := by
  have h4 := hex4_unicodeEscape h r
  simp only [unicodeEscape, List.drop_succ_cons, List.drop_zero] at h4
  simp only [unicodeEscape, List.tail_cons, List.cons_append] at h4 ⊢
  simp only [escape, h4, if_neg hhigh]

/-- The two escapes of a character above the basic plane. -/
theorem escape_surrogates {n : ℕ} (h : n < 0x100000) (r : PyStr) :
    escape ((unicodeEscape (0xD800 + n / 0x400)).tail ++
      (unicodeEscape (0xDC00 + n % 0x400) ++ r)) = some (0x10000 + n, r) := by
  have hhi := hex4_unicodeEscape (n := 0xD800 + n / 0x400) (by omega)
    (unicodeEscape (0xDC00 + n % 0x400) ++ r)
  have hlo := hex4_unicodeEscape (n := 0xDC00 + n % 0x400) (by omega) r
  have hhigh : isHigh (0xD800 + n / 0x400) := ⟨by omega, by omega⟩
  have hislow : isLow (0xDC00 + n % 0x400) := ⟨by omega, by omega⟩
  have hlow : lowEscape (unicodeEscape (0xDC00 + n % 0x400) ++ r)
      = some (0xDC00 + n % 0x400, r) := by
    have hhead : unicodeEscape (0xDC00 + n % 0x400) ++ r
        = 92 :: 117 :: ((unicodeEscape (0xDC00 + n % 0x400)).drop 2 ++ r) := rfl
    rw [hhead, lowEscape, hlo]
    simp only [if_pos hislow]
  have hhead : (unicodeEscape (0xD800 + n / 0x400)).tail ++ (unicodeEscape (0xDC00 + n % 0x400) ++ r)
      = 117 :: ((unicodeEscape (0xD800 + n / 0x400)).drop 2 ++
          (unicodeEscape (0xDC00 + n % 0x400) ++ r)) := rfl
  have hjoin : joinPair (0xD800 + n / 0x400) (0xDC00 + n % 0x400) = 0x10000 + n := by
    unfold joinPair
    omega
  rw [hhead, escape, hhi]
  simp only [if_pos hhigh, hlow, hjoin]

/-- The scanner undoes an escaped character. -/
theorem unescapes_escapeChar {c : ℕ} (hlt : c < 0x110000) (hscalar : ¬(0xD800 ≤ c ∧ c ≤ 0xDFFF)) :
    Unescapes escapeChar c := by
  rw [Unescapes]
  rw [escapeChar]
  split_ifs with h1 h2 h3 h4 h5 h6 h7 hprint hbmp
  · exact .inr ⟨[34], rfl, fun r => by rw [h1]; rfl⟩
  · exact .inr ⟨[92], rfl, fun r => by rw [h2]; rfl⟩
  · exact .inr ⟨[110], rfl, fun r => by rw [h3]; rfl⟩
  · exact .inr ⟨[114], rfl, fun r => by rw [h4]; rfl⟩
  · exact .inr ⟨[116], rfl, fun r => by rw [h5]; rfl⟩
  · exact .inr ⟨[102], rfl, fun r => by rw [h6]; rfl⟩
  · exact .inr ⟨[98], rfl, fun r => by rw [h7]; rfl⟩
  · exact .inl ⟨rfl, h1, h2, hprint.1⟩
  · refine .inr ⟨(unicodeEscape c).tail, rfl, escape_unicodeEscape hbmp ?_⟩
    rintro ⟨hlo, hhi⟩
    exact hscalar ⟨hlo, by omega⟩
  · refine .inr ⟨(unicodeEscape (0xD800 + (c - 0x10000) / 0x400)).tail ++
      unicodeEscape (0xDC00 + (c - 0x10000) % 0x400), rfl, fun r => ?_⟩
    have hback : 0x10000 + (c - 0x10000) = c := by omega
    rw [List.append_assoc, escape_surrogates (by omega), hback]

theorem readsKey_quoteAscii {s : PyStr} (h : Scalar s) : ReadsKey (quoteAscii s) s :=
  readsKey_quoteWith fun c hc => unescapes_escapeChar (h c hc).1 (h c hc).2

/-- The characters of the text: printable ASCII. -/
def Printable (c : ℕ) : Prop := 32 ≤ c ∧ c < 127

instance (c : ℕ) : Decidable (Printable c) := inferInstanceAs (Decidable (_ ∧ _))

theorem hexChar_printable {d : ℕ} (h : d < 16) : Printable (hexChar d) := by
  rw [hexChar, Printable]
  split <;> omega

theorem unicodeEscape_printable (n : ℕ) : ∀ c ∈ unicodeEscape n, Printable c := by
  have hdigit : ∀ k, Printable (hexChar (k % 16)) := fun k =>
    hexChar_printable (Nat.mod_lt _ (by norm_num))
  intro c hc
  simp only [unicodeEscape, List.mem_cons, List.not_mem_nil, or_false] at hc
  rcases hc with rfl | rfl | rfl | rfl | rfl | rfl
  · decide
  · decide
  all_goals exact hdigit _

theorem escapeChar_printable (c : ℕ) : ∀ d ∈ escapeChar c, Printable d := by
  rw [escapeChar]
  split_ifs with h1 h2 h3 h4 h5 h6 h7 hprint hbmp
  · decide
  · decide
  · decide
  · decide
  · decide
  · decide
  · decide
  · intro d hd
    rw [List.mem_singleton.mp hd]
    exact ⟨hprint.1, Nat.lt_succ_of_le hprint.2⟩
  · exact unicodeEscape_printable _
  · intro d hd
    rcases List.mem_append.mp hd with hd | hd
    · exact unicodeEscape_printable _ d hd
    · exact unicodeEscape_printable _ d hd

theorem quoteAscii_printable (s : PyStr) : ∀ c ∈ quoteAscii s, Printable c :=
  forall_quoteWith (by decide) fun c _ => escapeChar_printable c

/-! ### Objects -/

def dumpsMember (m : PyStr × PyStr) : PyStr := quoteAscii m.1 ++ 58 :: quoteAscii m.2

/-- The members with `separators=(",", ":")`. -/
def dumpsMembers : List (PyStr × PyStr) → PyStr
  | [] => []
  | [m] => dumpsMember m
  | m :: ms => dumpsMember m ++ 44 :: dumpsMembers ms

/-- `json.dumps` of a dict of strings. -/
def dumps (ms : List (PyStr × PyStr)) : PyStr := 123 :: dumpsMembers ms ++ [125]

/-- A str payload, as it is sent. -/
def asciiBytes (s : PyStr) : CStr := s.map Nat.toUInt8

theorem asciiText_asciiBytes {s : PyStr} (h : ∀ c ∈ s, c < 128) : asciiText (asciiBytes s) = s := by
  rw [asciiText, asciiBytes, List.map_map]
  refine (List.map_congr_left fun c hc => ?_).trans (List.map_id s)
  exact toNat_byte ((h c hc).trans (by norm_num))

/-- The members as a dict. -/
def strEntries (entries : List (PyStr × PyVal)) (ms : List (PyStr × PyStr)) : List (PyStr × PyVal) :=
  ms.foldl (fun es m => Dict.assign m.1 (.str m.2) es) entries

/-- The text of a dict of strings, as the text of its keys and values. -/
theorem dumpsMembers_eq : ∀ ms : List (PyStr × PyStr),
    dumpsMembers ms = membersText (ms.map fun m => (quoteAscii m.1, quoteAscii m.2))
  | [] => rfl
  | [_] => rfl
  | m :: m' :: ms => by
      change dumpsMember m ++ 44 :: dumpsMembers (m' :: ms) = _
      rw [dumpsMembers_eq (m' :: ms)]
      rfl

theorem dumps_eq (ms : List (PyStr × PyStr)) :
    dumps ms = objectText (ms.map fun m => (quoteAscii m.1, quoteAscii m.2)) := by
  rw [dumps, dumpsMembers_eq, objectText]

theorem dumps_printable (ms : List (PyStr × PyStr)) : ∀ c ∈ dumps ms, Printable c := by
  rw [dumps_eq]
  refine forall_objectText (by decide) (by decide) (forall_membersText (by decide) (by decide) ?_)
  intro m hm
  obtain ⟨m', -, rfl⟩ := List.mem_map.mp hm
  exact ⟨quoteAscii_printable _, quoteAscii_printable _⟩

/-- `json.loads` undoes `json.dumps`, whatever text the strings hold. -/
theorem loads_dumps {rt : PyRuntime} (hdepth : 0 < rt.jsonDepth) {ms : List (PyStr × PyStr)}
    (hne : ms ≠ []) (h : ∀ m ∈ ms, Scalar m.1 ∧ Scalar m.2) :
    loads rt (asciiBytes (dumps ms)) = .ok (.dict (strEntries [] ms)) := by
  have hmembers : List.Forall₂ (ReadsMember rt) (ms.map fun m => (quoteAscii m.1, quoteAscii m.2))
      (ms.map fun m => (m.1, .str m.2)) := by
    rw [List.forall₂_map_left_iff, List.forall₂_map_right_iff, List.forall₂_same]
    intro m hm
    exact ⟨readsKey_quoteAscii (h m hm).1, (readsKey_quoteAscii (h m hm).2).readsValue rt⟩
  have htext := dumps_eq ms
  have hascii : ∀ c ∈ dumps ms, c < 128 := fun c hc => (dumps_printable ms c hc).2.trans (by norm_num)
  obtain ⟨t, ht⟩ := membersText_head hmembers (by simpa using hne) [125]
  have hbytes : asciiBytes (dumps ms) = 123 :: 34 :: asciiBytes t := by
    rw [htext, objectText, List.cons_append, ht]
    rfl
  have hdecode : utf8Decode (asciiBytes (dumps ms)) = some (dumps ms) := by
    have hsmall : ∀ b ∈ asciiBytes (dumps ms), b < 0x80 := by
      intro b hb
      have hmem : b.toNat ∈ asciiText (asciiBytes (dumps ms)) := List.mem_map_of_mem hb
      rw [asciiText_asciiBytes hascii] at hmem
      exact UInt8.lt_iff_toNat_lt.mpr (hascii _ hmem)
    rw [utf8Decode_ascii hsmall]
    exact congrArg some (asciiText_asciiBytes hascii)
  rw [hbytes, htext] at hdecode
  rw [hbytes, loads_objectText hdepth hmembers (by simpa using hne) hdecode, entriesOf, List.foldl_map]
  rfl

end SeeedMote.Lib
