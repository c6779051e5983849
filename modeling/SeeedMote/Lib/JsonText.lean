import SeeedMote.Lib.CBytes
import SeeedMote.Lib.PyJson

/-! JSON objects that a C program prints with `snprintf` and a Python program reads with `json.loads`:
    members with plain ASCII keys, whose values are plain ASCII strings or integers. The reader gets
    back the members that were printed. -/

namespace SeeedMote.Lib

/-! ### What is printed -/

/-- A member's value. -/
inductive Field where
  | int (z : ℤ)
  | str (s : CStr)
  deriving DecidableEq

def Field.print : Field → CStr
  | .int z => fmtSigned z
  | .str s => 34 :: s ++ [34]

/-- `"key":value`. -/
def printMember (m : CStr × Field) : CStr := 34 :: m.1 ++ 34 :: 58 :: m.2.print

/-- The members with commas between them. -/
def printMembers : List (CStr × Field) → CStr
  | [] => []
  | [m] => printMember m
  | m :: ms => printMember m ++ 44 :: printMembers ms

def printObject (ms : List (CStr × Field)) : CStr := 123 :: printMembers ms ++ [125]

/-- ASCII bytes as text. -/
def asciiText (b : CStr) : PyStr := b.map UInt8.toNat

@[simp] theorem asciiText_nil : asciiText [] = [] := rfl

@[simp] theorem asciiText_append (a b : CStr) : asciiText (a ++ b) = asciiText a ++ asciiText b :=
  List.map_append

@[simp] theorem asciiText_cons (a : UInt8) (b : CStr) :
    asciiText (a :: b) = a.toNat :: asciiText b := rfl

/-- The value a field is read as. -/
def Field.val : Field → PyVal
  | .int z => .int z
  | .str s => .str (asciiText s)

/-- Bytes that stand for themselves between quotes. -/
def Plain (s : CStr) : Prop := ∀ c ∈ s, 32 ≤ c.toNat ∧ c.toNat < 128 ∧ c ≠ 34 ∧ c ≠ 92

instance (s : CStr) : Decidable (Plain s) := List.decidableBAll _ s

/-- A field that reads back: a plain string, or an integer within the interpreter's digit limit. -/
def Field.Reads (rt : PyRuntime) : Field → Prop
  | .int z => tooManyDigits rt (fmtUnsigned z.natAbs).length = false
  | .str s => Plain s

/-! ### Strings -/

theorem scanString_plain : ∀ {s : CStr}, Plain s → ∀ r,
    scanString (asciiText s ++ 34 :: r) = some (asciiText s, r)
  | [], _, r => by
      unfold scanString
      rfl
  | c :: s, h, r => by
      obtain ⟨hlo, -, hquote, hback⟩ := h c (List.mem_cons_self ..)
      have ih := scanString_plain (fun d hd => h d (List.mem_cons_of_mem _ hd)) r
      have hq : c.toNat ≠ 34 := fun hc => hquote (UInt8.toNat_inj.mp hc)
      have hb : c.toNat ≠ 92 := fun hc => hback (UInt8.toNat_inj.mp hc)
      rw [asciiText_cons, List.cons_append]
      rw [scanString]
      simp only [if_neg hq, if_neg hb, if_neg (Nat.not_lt.mpr hlo), ih, Option.map_some]

/-! ### Numbers -/

/-- What follows a number does not continue it. -/
def EndsNumber (r : PyStr) : Prop :=
  ∀ c, r.head? = some c → isDigit c = false ∧ c ≠ 46 ∧ c ≠ 101 ∧ c ≠ 69

theorem fracPart_of_ends {r : PyStr} (h : EndsNumber r) : fracPart r = ([], r) := by
  simp only [fracPart]
  split
  · exact absurd rfl (h 46 rfl).2.1
  · rfl

theorem expPart_of_ends {r : PyStr} (h : EndsNumber r) : expPart r = ([], r) := by
  cases r with
  | nil => rfl
  | cons c r =>
    obtain ⟨-, -, he, hE⟩ := h c rfl
    rw [expPart, if_neg]
    rintro ⟨hc, -⟩
    exact hc.elim he hE

/-- The digit characters of `ds`. -/
def digitText (ds : List ℕ) : PyStr := ds.map (48 + ·)

theorem asciiText_digits {ds : List ℕ} (h : ∀ d ∈ ds, d < 10) :
    asciiText (ds.map digitByte) = digitText ds := by
  rw [asciiText, List.map_map]
  exact List.map_congr_left fun d hd => digitByte_toNat (h d hd)

theorem isDigit_of_lt {d : ℕ} (h : d < 10) : isDigit (48 + d) = true := by
  simp only [isDigit, Bool.and_eq_true, decide_eq_true_eq]
  omega

theorem mem_digitText {ds : List ℕ} (h : ∀ d ∈ ds, d < 10) : ∀ c ∈ digitText ds, isDigit c = true := by
  intro c hc
  obtain ⟨d, hd, rfl⟩ := List.mem_map.mp hc
  exact isDigit_of_lt (h d hd)

theorem intPart_digits {ds : List ℕ} (hne : ds ≠ []) (h : ∀ d ∈ ds, d < 10)
    (hzero : ds.head? = some 0 → ds = [0]) {r : PyStr} (hr : EndsNumber r) :
    intPart (digitText ds ++ r) = some (digitText ds, r) := by
  obtain ⟨d, tl, rfl⟩ := List.exists_cons_of_ne_nil hne
  by_cases hd : d = 0
  · obtain rfl : tl = [] := by simpa [hd] using hzero
    rw [hd]
    rfl
  · have hdigit := isDigit_of_lt (h d (List.mem_cons_self ..))
    have hstop : r.takeWhile isDigit = [] ∧ r.dropWhile isDigit = r := by
      cases r with
      | nil => exact ⟨rfl, rfl⟩
      | cons c r => simp [(hr c rfl).1]
    have hall := mem_digitText h
    have hcons : digitText (d :: tl) ++ r = (48 + d) :: (digitText tl ++ r) := rfl
    rw [hcons, intPart, if_neg (by omega), if_pos hdigit, ← hcons,
      List.takeWhile_append_of_pos hall, List.dropWhile_append_of_pos hall, hstop.1, hstop.2,
      List.append_nil]

theorem scanUnsigned_fmtUnsigned {rt : PyRuntime} {n : ℕ}
    (hn : tooManyDigits rt (fmtUnsigned n).length = false) (negative : Bool) {r : PyStr}
    (hr : EndsNumber r) :
    scanUnsigned rt negative (asciiText (fmtUnsigned n) ++ r)
      = .ok (.int (if negative then -(n : ℤ) else n), r) := by
  obtain ⟨ds, hds, hne, hlt, hzero, hval⟩ := fmtUnsigned_spec n
  have hback : (digitText ds).map (· - 48) = ds := by
    rw [digitText, List.map_map]
    exact (List.map_congr_left fun d _ => by simp).trans (List.map_id ds)
  have hval' : Nat.ofDigits (10 : ℤ) ds.reverse = n := by
    rw [← hval, Nat.coe_ofDigits]
    rfl
  rw [hds, List.length_map] at hn
  rw [hds, asciiText_digits hlt, scanUnsigned, intPart_digits hne hlt hzero hr]
  simp only [fracPart_of_ends hr, expPart_of_ends hr, and_self, if_true]
  rw [digitText, List.length_map, hn]
  simp only [Bool.false_eq_true, if_false]
  rw [← digitText, hback, hval']

/-- A printed number starts with a digit, or with a minus and a digit. -/
theorem fmtUnsigned_head (n : ℕ) (r : PyStr) :
    ∃ d t, d < 10 ∧ asciiText (fmtUnsigned n) ++ r = (48 + d) :: t := by
  obtain ⟨ds, hds, hne, hlt, -, -⟩ := fmtUnsigned_spec n
  obtain ⟨d, tl, rfl⟩ := List.exists_cons_of_ne_nil hne
  rw [hds, asciiText_digits hlt]
  exact ⟨d, digitText tl ++ r, hlt d (List.mem_cons_self ..), rfl⟩

theorem scanLiteral_digit {d : ℕ} (h : d < 10) (s : PyStr) :
    scanLiteral ((48 + d) :: s) = none ∧ scanLiteral (45 :: (48 + d) :: s) = none := by
  have hne : ∀ c ∈ [110, 116, 102, 78, 73, 45], c ≠ 48 + d := by
    intro c hc
    simp only [List.mem_cons, List.not_mem_nil, or_false] at hc
    omega
  have hlit : literals.map Prod.fst = [[110, 117, 108, 108], [116, 114, 117, 101],
      [102, 97, 108, 115, 101], [78, 97, 78], [73, 110, 102, 105, 110, 105, 116, 121],
      [45, 73, 110, 102, 105, 110, 105, 116, 121]] := by decide
  have hnone : ∀ t : PyStr, (∀ p ∈ literals.map Prod.fst, afterPrefix p t = none) →
      scanLiteral t = none := by
    intro t ht
    rw [scanLiteral, List.findSome?_eq_none_iff]
    rintro ⟨name, v⟩ hm
    simp only [ht name (List.mem_map_of_mem hm), Option.map_none]
  constructor
  · refine hnone _ ?_
    intro p hp
    rw [hlit] at hp
    simp only [List.mem_cons, List.not_mem_nil, or_false] at hp
    rcases hp with rfl | rfl | rfl | rfl | rfl | rfl
    all_goals exact if_neg (hne _ (by simp))
  · refine hnone _ ?_
    intro p hp
    rw [hlit] at hp
    simp only [List.mem_cons, List.not_mem_nil, or_false] at hp
    rcases hp with rfl | rfl | rfl | rfl | rfl | rfl
    · rfl
    · rfl
    · rfl
    · rfl
    · rfl
    · simp only [afterPrefix, if_true]
      exact if_neg (hne _ (by simp))

/-- Text that starts like a number is scanned as one. -/
theorem scanWith_number (rt : PyRuntime) (nested : Option (PyStr → Scan)) {c : ℕ} {s : PyStr}
    (hc : c ≠ 34 ∧ c ≠ 123 ∧ c ≠ 91) (hs : scanLiteral (c :: s) = none) :
    scanWith rt nested (c :: s) = scanNumber rt (c :: s) := by
  obtain ⟨hquote, hbrace, hbracket⟩ := hc
  simp only [scanWith]
  split
  · next heq => exact absurd (List.cons.inj heq).1 hquote
  · next heq => exact absurd (List.cons.inj heq).1 hbrace
  · next heq => exact absurd (List.cons.inj heq).1 hbracket
  · rw [hs]

theorem scanWith_fmtSigned {rt : PyRuntime} (nested : Option (PyStr → Scan)) {z : ℤ}
    (hz : tooManyDigits rt (fmtUnsigned z.natAbs).length = false) {r : PyStr} (hr : EndsNumber r) :
    scanWith rt nested (asciiText (fmtSigned z) ++ r) = .ok (.int z, r) := by
  obtain ⟨d, t, hd, hhead⟩ := fmtUnsigned_head z.natAbs r
  have hscan := scanUnsigned_fmtUnsigned hz (z < 0) hr
  rw [hhead] at hscan
  rw [fmtSigned]
  by_cases hneg : z < 0
  · have hminus : asciiText (lit "-" ++ fmtUnsigned z.natAbs) ++ r = 45 :: (48 + d) :: t := by
      rw [← hhead]
      rfl
    rw [if_pos hneg, hminus, scanWith_number rt nested (by decide) (scanLiteral_digit hd t).2]
    simp only [hneg, decide_true, if_true] at hscan
    rw [scanNumber, hscan, Int.ofNat_natAbs_of_nonpos hneg.le, neg_neg]
  · rw [if_neg hneg, hhead, scanWith_number rt nested (by omega) (scanLiteral_digit hd t).1]
    simp only [hneg, decide_false, Bool.false_eq_true, if_false] at hscan
    have hnum : scanNumber rt ((48 + d) :: t) = scanUnsigned rt false ((48 + d) :: t) := by
      simp only [scanNumber]
      split
      · next heq => exact absurd (List.cons.inj heq).1 (by omega)
      · rfl
    rw [hnum, hscan, Int.natAbs_of_nonneg (Int.not_lt.mp hneg)]

/-! ### Members and objects -/

/-- A printed field is read as its value, up to the comma or brace behind it. -/
theorem scanWith_field {rt : PyRuntime} (nested : Option (PyStr → Scan)) {f : Field}
    (hf : f.Reads rt) {r : PyStr} (hr : EndsNumber r) :
    scanWith rt nested (asciiText f.print ++ r) = .ok (f.val, r) := by
  cases f with
  | int z => exact scanWith_fmtSigned nested hf hr
  | str s =>
    have htext : asciiText (Field.str s).print ++ r = 34 :: (asciiText s ++ 34 :: r) := by
      simp [Field.print]
    rw [htext, scanWith, scanString_plain hf r]
    rfl

/-- The characters that can follow a value in an object. -/
theorem endsNumber_of {c : ℕ} (h : c = 44 ∨ c = 125) (r : PyStr) : EndsNumber (c :: r) := by
  intro d hd
  obtain rfl : c = d := Option.some.inj hd
  rcases h with rfl | rfl
  · decide
  · decide

/-- Members in the order of the text, later keys over earlier ones. -/
def assignAll (entries : List (PyStr × PyVal)) (ms : List (CStr × Field)) : List (PyStr × PyVal) :=
  ms.foldl (fun es m => Dict.assign (asciiText m.1) m.2.val es) entries

/-- A member that reads back. -/
def MemberReads (rt : PyRuntime) (m : CStr × Field) : Prop := Plain m.1 ∧ m.2.Reads rt

theorem skipWs_of_head {c : ℕ} (h : ¬(c = 32 ∨ c = 9 ∨ c = 10 ∨ c = 13)) (s : PyStr) :
    skipWs (c :: s) = c :: s := by
  rw [skipWs, List.dropWhile_cons_of_neg]
  simp only [Bool.or_eq_true, decide_eq_true_eq]
  omega

/-- No white space starts a printed field. -/
theorem skipWs_field (f : Field) (r : PyStr) :
    skipWs (asciiText f.print ++ r) = asciiText f.print ++ r := by
  cases f with
  | str s => exact skipWs_of_head (by decide) _
  | int z =>
    obtain ⟨d, t, hd, hhead⟩ := fmtUnsigned_head z.natAbs r
    simp only [Field.print, fmtSigned]
    split
    · exact skipWs_of_head (by decide) _
    · rw [hhead]
      exact skipWs_of_head (by omega) _

/-- The object loop reads one member and stops at the character behind it. -/
theorem objectLoop_member {rt : PyRuntime} (nested : Option (PyStr → Scan)) {m : CStr × Field}
    (hm : MemberReads rt m) {c : ℕ} (hc : c = 44 ∨ c = 125) (fuel : ℕ)
    (entries : List (PyStr × PyVal)) (r : PyStr) :
    objectLoop (scanWith rt nested) (fuel + 1) entries (asciiText (printMember m) ++ c :: r)
      = if c = 125 then .ok (.dict (assignAll entries [m]), r)
        else objectLoop (scanWith rt nested) fuel (assignAll entries [m]) (skipWs r) := by
  obtain ⟨hkey, hval⟩ := hm
  have htext : asciiText (printMember m) ++ c :: r
      = 34 :: (asciiText m.1 ++ 34 :: 58 :: (asciiText m.2.print ++ c :: r)) := by
    simp [printMember]
  have hcolon : ∀ s, skipWs (58 :: s) = 58 :: s := skipWs_of_head (by decide)
  have hend : skipWs (c :: r) = c :: r := skipWs_of_head (by omega) r
  rw [htext, objectLoop, scanString_plain hkey]
  simp only [hcolon, skipWs_field, scanWith_field nested hval (endsNumber_of hc r)]
  simp only [bind, Except.bind, hend]
  rcases hc with rfl | rfl
  · rfl
  · rfl

theorem objectLoop_members {rt : PyRuntime} (nested : Option (PyStr → Scan)) :
    ∀ (ms : List (CStr × Field)) (fuel : ℕ) (entries : List (PyStr × PyVal)), ms ≠ [] →
      ms.length ≤ fuel → (∀ m ∈ ms, MemberReads rt m) →
      objectLoop (scanWith rt nested) fuel entries (asciiText (printMembers ms) ++ [125])
        = .ok (.dict (assignAll entries ms), [])
  | [], _, _, hne, _, _ => absurd rfl hne
  | [m], fuel + 1, entries, _, _, h =>
      objectLoop_member nested (h m (List.mem_cons_self ..)) (.inr rfl) fuel entries []
  | m :: m' :: ms, fuel + 1, entries, _, hlen, h => by
      have htext : asciiText (printMembers (m :: m' :: ms)) ++ [125]
          = asciiText (printMember m) ++ 44 :: (asciiText (printMembers (m' :: ms)) ++ [125]) := by
        simp [printMembers]
      have hquote : skipWs (asciiText (printMembers (m' :: ms)) ++ [125])
          = asciiText (printMembers (m' :: ms)) ++ [125] := by
        cases ms with
        | nil => exact skipWs_of_head (by decide) _
        | cons m'' ms => exact skipWs_of_head (by decide) _
      have ih := objectLoop_members nested (m' :: ms) fuel (assignAll entries [m]) (by simp)
        (Nat.le_of_succ_le_succ hlen) fun x hx => h x (List.mem_cons_of_mem _ hx)
      rw [htext, objectLoop_member nested (h m (List.mem_cons_self ..)) (.inl rfl), if_neg (by decide),
        hquote, ih]
      rfl

/-! ### `json.loads` of a printed object -/

theorem ascii_print {rt : PyRuntime} {f : Field} (hf : f.Reads rt) : ∀ c ∈ f.print, c.toNat < 128 := by
  have hdigits : ∀ n, ∀ c ∈ fmtUnsigned n, c.toNat < 128 := fun n c hc => by
    have := (mem_fmtUnsigned hc).2
    omega
  cases f with
  | int z =>
    intro c hc
    simp only [Field.print, fmtSigned] at hc
    split at hc
    · rcases List.mem_append.mp hc with hc | hc
      · obtain rfl : c = 45 := by simpa [lit] using hc
        decide
      · exact hdigits _ c hc
    · exact hdigits _ c hc
  | str s =>
    intro c hc
    simp only [Field.print, List.cons_append, List.mem_cons, List.mem_append, List.not_mem_nil,
      or_false] at hc
    rcases hc with rfl | hc | rfl
    · decide
    · exact (hf c hc).2.1
    · decide

theorem ascii_printMembers {rt : PyRuntime} : ∀ {ms : List (CStr × Field)},
    (∀ m ∈ ms, MemberReads rt m) → ∀ c ∈ printMembers ms, c.toNat < 128 := by
  have hone : ∀ {m : CStr × Field}, MemberReads rt m → ∀ c ∈ printMember m, c.toNat < 128 := by
    rintro m ⟨hkey, hval⟩ c hc
    simp only [printMember, List.cons_append, List.mem_cons, List.mem_append] at hc
    rcases hc with rfl | hc | rfl | rfl | hc
    · decide
    · exact (hkey c hc).2.1
    · decide
    · decide
    · exact ascii_print hval c hc
  intro ms h
  induction ms with
  | nil => simp [printMembers]
  | cons m ms ih =>
    intro c hc
    cases ms with
    | nil => exact hone (h m (List.mem_cons_self ..)) c hc
    | cons m' ms =>
      rcases List.mem_append.mp hc with hc | hc
      · exact hone (h m (List.mem_cons_self ..)) c hc
      · rcases List.mem_cons.mp hc with rfl | hc
        · decide
        · exact ih (fun x hx => h x (List.mem_cons_of_mem _ hx)) c hc

theorem length_le_printMembers : ∀ ms : List (CStr × Field), ms.length ≤ (printMembers ms).length
  | [] => Nat.le_refl _
  | [m] => by simp [printMembers, printMember]
  | m :: m' :: ms => by
      have ih := length_le_printMembers (m' :: ms)
      simp only [printMembers, List.length_append, List.length_cons] at ih ⊢
      omega

/-- Text that starts with a brace and a quote is UTF-8. -/
theorem detectEncoding_object (s : List UInt8) : detectEncoding (123 :: 34 :: s) = .utf8 := by
  cases s with
  | nil => rfl
  | cons c s =>
    cases s with
    | nil => simp [detectEncoding]
    | cons d s => simp [detectEncoding]

theorem scanOnce_eq_scanWith (rt : PyRuntime) (depth : ℕ) :
    ∃ nested, scanOnce rt depth = scanWith rt nested := by
  cases depth with
  | zero => exact ⟨none, rfl⟩
  | succ depth => exact ⟨_, rfl⟩

/-- `json.loads` reads a printed object as the dict of its members. -/
theorem loads_printObject {rt : PyRuntime} (hdepth : 0 < rt.jsonDepth) {ms : List (CStr × Field)}
    (hne : ms ≠ []) (h : ∀ m ∈ ms, MemberReads rt m) :
    loads rt (printObject ms) = .ok (.dict (assignAll [] ms)) := by
  obtain ⟨depth, hd⟩ := Nat.exists_eq_succ_of_ne_zero hdepth.ne'
  obtain ⟨tail, htail⟩ : ∃ tail, printMembers ms ++ [125] = 34 :: tail := by
    obtain ⟨m, tl, rfl⟩ := List.exists_cons_of_ne_nil hne
    cases tl with
    | nil => exact ⟨_, rfl⟩
    | cons m' tl => exact ⟨_, rfl⟩
  have hbytes : printObject ms = 123 :: 34 :: tail := by
    rw [printObject, List.cons_append, htail]
  have hascii : ∀ c ∈ printObject ms, c < 0x80 := by
    intro c hc
    simp only [printObject, List.cons_append, List.mem_cons, List.mem_append, List.not_mem_nil,
      or_false] at hc
    rcases hc with rfl | hc | rfl
    · decide
    · exact UInt8.lt_iff_toNat_lt.mpr (ascii_printMembers h c hc)
    · decide
  have htext : (printObject ms).map UInt8.toNat = 123 :: (asciiText (printMembers ms) ++ [125]) := by
    simp [printObject, asciiText]
  have hhead : asciiText (printMembers ms) ++ [125] = 34 :: asciiText tail := by
    have := congrArg asciiText htail
    simpa using this
  have hlen : ms.length ≤ (34 :: asciiText tail).length + 1 := by
    have := length_le_printMembers ms
    rw [← hhead, asciiText, List.length_append, List.length_map]
    omega
  obtain ⟨nested, hnested⟩ := scanOnce_eq_scanWith rt depth
  have hloop := objectLoop_members nested ms _ [] hne hlen h
  have hopen : ∀ t, skipWs (123 :: t) = 123 :: t := skipWs_of_head (by decide)
  have hquote : skipWs (34 :: asciiText tail) = 34 :: asciiText tail := skipWs_of_head (by decide) _
  have hscan : scanOnce rt rt.jsonDepth (skipWs ((printObject ms).map UInt8.toNat))
      = .ok (.dict (assignAll [] ms), []) := by
    rw [hhead, ← hnested] at hloop
    rw [hd, htext, hopen, hhead, scanOnce, scanWith]
    simp only [hquote]
    exact hloop
  rw [loads, hbytes, detectEncoding_object, ← hbytes, decodeBytes, utf8Decode_ascii hascii]
  simp only [hscan]
  rfl

/-! ### An object that is cut off -/

/-- Without a closing quote there is no string. -/
theorem scanString_unclosed : ∀ {s : CStr}, Plain s → scanString (asciiText s) = none
  | [], _ => by
      unfold scanString
      rfl
  | c :: s, h => by
      obtain ⟨hlo, -, hquote, hback⟩ := h c (List.mem_cons_self ..)
      have ih := scanString_unclosed fun d hd => h d (List.mem_cons_of_mem _ hd)
      have hq : c.toNat ≠ 34 := fun hc => hquote (UInt8.toNat_inj.mp hc)
      have hb : c.toNat ≠ 92 := fun hc => hback (UInt8.toNat_inj.mp hc)
      rw [asciiText_cons, scanString]
      simp only [if_neg hq, if_neg hb, if_neg (Nat.not_lt.mpr hlo), ih, Option.map_none]

/-- The object loop reads members up to the comma behind them. -/
theorem objectLoop_members_comma {rt : PyRuntime} (nested : Option (PyStr → Scan)) :
    ∀ (ms : List (CStr × Field)) (fuel : ℕ) (entries : List (PyStr × PyVal)) (r : PyStr), ms ≠ [] →
      (∀ m ∈ ms, MemberReads rt m) →
      objectLoop (scanWith rt nested) (fuel + ms.length) entries
          (asciiText (printMembers ms) ++ 44 :: r)
        = objectLoop (scanWith rt nested) fuel (assignAll entries ms) (skipWs r)
  | [], _, _, _, hne, _ => absurd rfl hne
  | [m], fuel, entries, r, _, h => by
      have hone := objectLoop_member nested (h m (List.mem_cons_self ..)) (.inl rfl : 44 = 44 ∨ _) fuel
        entries r
      rwa [if_neg (by decide)] at hone
  | m :: m' :: ms, fuel, entries, r, _, h => by
      have htext : asciiText (printMembers (m :: m' :: ms)) ++ 44 :: r
          = asciiText (printMember m) ++ 44 :: (asciiText (printMembers (m' :: ms)) ++ 44 :: r) := by
        simp [printMembers]
      have hquote : skipWs (asciiText (printMembers (m' :: ms)) ++ 44 :: r)
          = asciiText (printMembers (m' :: ms)) ++ 44 :: r := by
        cases ms with
        | nil => exact skipWs_of_head (by decide) _
        | cons m'' ms => exact skipWs_of_head (by decide) _
      have ih := objectLoop_members_comma nested (m' :: ms) fuel (assignAll entries [m]) r (by simp)
        fun x hx => h x (List.mem_cons_of_mem _ hx)
      have hfuel : fuel + (m :: m' :: ms).length = fuel + (m' :: ms).length + 1 := rfl
      rw [htext, hfuel, objectLoop_member nested (h m (List.mem_cons_self ..)) (.inl rfl),
        if_neg (by decide), hquote, ih]
      rfl

/-- In the string value of its last member a text is cut off, before the closing quote or right behind
    it. -/
theorem objectLoop_cut {rt : PyRuntime} (nested : Option (PyStr → Scan)) {key value : CStr}
    (hkey : Plain key) (hvalue : Plain value) {rest : PyStr} (hrest : rest = [] ∨ rest = [34])
    (fuel : ℕ) (entries : List (PyStr × PyVal)) :
    objectLoop (scanWith rt nested) (fuel + 1) entries
        (34 :: (asciiText key ++ 34 :: 58 :: 34 :: (asciiText value ++ rest)))
      = .error .jsonDecodeError := by
  have hcolon : ∀ s, skipWs (58 :: s) = 58 :: s := skipWs_of_head (by decide)
  have hquote : ∀ s, skipWs (34 :: s) = 34 :: s := skipWs_of_head (by decide)
  rw [objectLoop, scanString_plain hkey]
  simp only [hcolon, hquote]
  rcases hrest with rfl | rfl
  · rw [scanWith, List.append_nil, scanString_unclosed hvalue]
    rfl
  · rw [scanWith, scanString_plain hvalue []]
    rfl

/-- `json.loads` of ASCII text that begins as an object does, in terms of its members. -/
theorem loads_object {rt : PyRuntime} (hdepth : 0 < rt.jsonDepth) {b : CStr}
    (hascii : ∀ c ∈ b, c.toNat < 128) : ∃ nested, loads rt (123 :: 34 :: b) = (do
      let (v, r) ← objectLoop (scanWith rt nested) (b.length + 2) [] (34 :: asciiText b)
      if skipWs r = [] then return v else throw .jsonDecodeError) := by
  obtain ⟨depth, hd⟩ := Nat.exists_eq_succ_of_ne_zero hdepth.ne'
  obtain ⟨nested, hnested⟩ := scanOnce_eq_scanWith rt depth
  refine ⟨nested, ?_⟩
  have hall : ∀ c ∈ 123 :: 34 :: b, c < 0x80 := by
    intro c hc
    simp only [List.mem_cons] at hc
    rcases hc with rfl | rfl | hc
    · decide
    · decide
    · exact UInt8.lt_iff_toNat_lt.mpr (hascii c hc)
  have hopen : ∀ t, skipWs (123 :: t) = 123 :: t := skipWs_of_head (by decide)
  have hquote : ∀ t, skipWs (34 :: t) = 34 :: t := skipWs_of_head (by decide)
  have htext : (123 :: 34 :: b).map UInt8.toNat = 123 :: 34 :: asciiText b := rfl
  have hscan : scanOnce rt rt.jsonDepth (skipWs (123 :: 34 :: asciiText b))
      = objectLoop (scanWith rt nested) (b.length + 2) [] (34 :: asciiText b) := by
    rw [hd, hopen, scanOnce, scanWith]
    simp only [hquote, hnested]
    rw [show (34 :: asciiText b).length + 1 = b.length + 2 by simp [asciiText]]
  rw [loads, detectEncoding_object, decodeBytes, utf8Decode_ascii hall]
  simp only [htext, hscan]

/-- An object cut off in its last string is no JSON text. -/
theorem loads_cut {rt : PyRuntime} (hdepth : 0 < rt.jsonDepth) {ms : List (CStr × Field)}
    (hne : ms ≠ []) (h : ∀ m ∈ ms, MemberReads rt m) {key value rest : CStr} (hkey : Plain key)
    (hvalue : Plain value) (hrest : rest = [] ∨ rest = [34]) :
    loads rt (123 :: (printMembers ms ++
        44 :: 34 :: (key ++ 34 :: 58 :: 34 :: (value ++ rest)))) = .error .jsonDecodeError := by
  obtain ⟨tail, htail⟩ : ∃ tail, printMembers ms = 34 :: tail := by
    obtain ⟨m, tl, rfl⟩ := List.exists_cons_of_ne_nil hne
    cases tl with
    | nil => exact ⟨_, rfl⟩
    | cons m' tl => exact ⟨_, rfl⟩
  set last : CStr := 34 :: (key ++ 34 :: 58 :: 34 :: (value ++ rest)) with hlast
  have hplain : ∀ {s : CStr}, Plain s → ∀ c ∈ s, c.toNat < 128 := fun hs c hc => (hs c hc).2.1
  have hascii : ∀ c ∈ tail ++ 44 :: last, c.toNat < 128 := by
    intro c hc
    simp only [hlast, List.mem_append, List.mem_cons] at hc
    rcases hc with hc | rfl | rfl | hc | rfl | rfl | rfl | hc | hc
    · exact ascii_printMembers h c (htail ▸ List.mem_cons_of_mem _ hc)
    · decide
    · decide
    · exact hplain hkey c hc
    · decide
    · decide
    · decide
    · exact hplain hvalue c hc
    · rcases hrest with rfl | rfl
      · exact absurd hc List.not_mem_nil
      · rw [List.mem_singleton.mp hc]
        decide
  obtain ⟨nested, hloads⟩ := loads_object hdepth hascii
  have htext : 34 :: asciiText (tail ++ 44 :: last)
      = asciiText (printMembers ms) ++ 44 :: asciiText last := by
    rw [htail]
    simp [asciiText]
  have hlen : ms.length ≤ tail.length + 1 := by
    have := length_le_printMembers ms
    rwa [htail] at this
  obtain ⟨fuel, hfuel⟩ : ∃ fuel, (tail ++ 44 :: last).length + 2 = fuel + 1 + ms.length := by
    refine ⟨(tail ++ 44 :: last).length + 1 - ms.length, ?_⟩
    simp only [List.length_append, List.length_cons]
    omega
  have hcut : skipWs (asciiText last)
      = 34 :: (asciiText key ++ 34 :: 58 :: 34 :: (asciiText value ++ asciiText rest)) := by
    have heq : asciiText last
        = 34 :: (asciiText key ++ 34 :: 58 :: 34 :: (asciiText value ++ asciiText rest)) := by
      simp [hlast, asciiText]
    rw [heq]
    exact skipWs_of_head (by decide) _
  have hend : asciiText rest = [] ∨ asciiText rest = [34] := by
    rcases hrest with rfl | rfl
    · exact .inl rfl
    · exact .inr rfl
  rw [htail, List.cons_append, hloads, htext, hfuel, objectLoop_members_comma nested ms _ _ _ hne h, hcut,
    objectLoop_cut nested hkey hvalue hend]
  rfl

end SeeedMote.Lib
