import Mathlib.Data.Nat.Digits.Lemmas
import Mathlib.Data.List.TakeWhile

/-! C byte buffers and strings: reads that fault outside the buffer, and the three `printf`
    conversions `%02x`, `%u`, `%d` with the truncation of `snprintf`. A string is the list of its
    bytes before the terminating NUL. -/

namespace SeeedMote.Lib

/-! ### Checked reads -/

/-- A read outside its buffer. -/
inductive Fault where | outOfBounds
  deriving DecidableEq, Repr

/-- A computation that reads memory. -/
abbrev Mem := Except Fault

@[simp] theorem ok_bind {α β : Type} (a : α) (f : α → Mem β) :
    ((Except.ok a : Mem α) >>= f) = f a := rfl

/-- `buf[i]`. -/
def rd (buf : List UInt8) (i : ℕ) : Mem UInt8 :=
  match buf[i]? with
  | some b => .ok b
  | none => .error .outOfBounds

/-- `buf[i] = b`. -/
def wr (buf : List UInt8) (i : ℕ) (b : UInt8) : Mem (List UInt8) :=
  if i < buf.length then .ok (buf.set i b) else .error .outOfBounds

/-- `buf[i++] = b` for one byte after the other, as `memcpy` does. -/
def wrs (buf : List UInt8) (i : ℕ) : List UInt8 → Mem (List UInt8)
  | [] => .ok buf
  | b :: bs => do
    let buf ← wr buf i b
    wrs buf (i + 1) bs

theorem wr_ok {buf : List UInt8} {i : ℕ} (h : i < buf.length) (b : UInt8) :
    wr buf i b = .ok (buf.set i b) := if_pos h

/-- Writes that stay inside the buffer replace a stretch of it. -/
theorem wrs_ok (bs : List UInt8) {pre old post : List UInt8} (h : old.length = bs.length) :
    wrs (pre ++ (old ++ post)) pre.length bs = .ok (pre ++ (bs ++ post)) := by
  induction bs generalizing pre old with
  | nil => rw [List.length_eq_zero_iff.mp h, wrs]
  | cons b bs ih =>
    obtain ⟨o, os, rfl⟩ := List.exists_cons_of_length_eq_add_one h
    rw [wrs, wr_ok (by simp), List.set_append_right _ _ (Nat.le_refl _), Nat.sub_self]
    have hrest := @ih (pre ++ [b]) os (Nat.succ.inj h)
    simpa using hrest

/-! ### Strings -/

/-- The bytes of a C string before its NUL. -/
abbrev CStr := List UInt8

/-- An ASCII literal. -/
def lit (s : String) : CStr := s.toList.map fun c => c.toNat.toUInt8

/-- The character of a digit, `0`..`9` then `a`..`f`. -/
def digitByte (d : ℕ) : UInt8 := if d < 10 then (48 + d).toUInt8 else (87 + d).toUInt8

/-- `%02x` of a byte. -/
def fmtHex2 (b : UInt8) : CStr := [digitByte (b.toNat / 16), digitByte (b.toNat % 16)]

/-- `%u`. -/
def fmtUnsigned (n : ℕ) : CStr :=
  if n = 0 then [digitByte 0] else (Nat.digits 10 n).reverse.map digitByte

/-- `%d`. -/
def fmtSigned (z : ℤ) : CStr :=
  if z < 0 then lit "-" ++ fmtUnsigned z.natAbs else fmtUnsigned z.natAbs

/-- What `snprintf(buf, size, ..)` leaves in `buf`: at most `size - 1` bytes. -/
def snprintf (size : ℕ) (text : CStr) : CStr := text.take (size - 1)

theorem snprintf_of_lt {size : ℕ} {text : CStr} (h : text.length < size) :
    snprintf size text = text := List.take_of_length_le (by omega)

@[simp] theorem length_fmtHex2 (b : UInt8) : (fmtHex2 b).length = 2 := rfl

/-- `%u` of a number below `10 ^ k` has at most `k` digits. -/
theorem length_fmtUnsigned_le {n k : ℕ} (hk : 0 < k) (h : n < 10 ^ k) :
    (fmtUnsigned n).length ≤ k := by
  rw [fmtUnsigned]
  split
  · exact hk
  · rw [List.length_map, List.length_reverse]
    exact (Nat.digits_length_le_iff (by norm_num) n).mpr h

/-- `%u` prints the decimal digits, most significant first, without leading zeros. -/
theorem fmtUnsigned_spec (n : ℕ) : ∃ ds : List ℕ, fmtUnsigned n = ds.map digitByte ∧ ds ≠ [] ∧
    (∀ d ∈ ds, d < 10) ∧ (ds.head? = some 0 → ds = [0]) ∧ Nat.ofDigits 10 ds.reverse = n := by
  rw [fmtUnsigned]
  split
  · next h => exact ⟨[0], rfl, by simp, by simp, by simp, by simp [h]⟩
  · next h =>
    refine ⟨(Nat.digits 10 n).reverse, rfl, ?_, ?_, ?_, ?_⟩
    · rw [Ne, List.reverse_eq_nil_iff, Nat.digits_eq_nil_iff_eq_zero]
      exact h
    · intro d hd
      exact Nat.digits_lt_base (by norm_num) (List.mem_reverse.mp hd)
    · intro hhead
      have hne : Nat.digits 10 n ≠ [] := Nat.digits_ne_nil_iff_ne_zero.mpr h
      rw [List.head?_reverse, List.getLast?_eq_getLast_of_ne_nil hne] at hhead
      exact absurd (Option.some.inj hhead) (Nat.getLast_digit_ne_zero 10 h)
    · rw [List.reverse_reverse, Nat.ofDigits_digits]

theorem digitByte_toNat {d : ℕ} (h : d < 10) : (digitByte d).toNat = 48 + d := by
  rw [digitByte, if_pos h, UInt8.toNat_ofNat_of_lt' (by simp [UInt8.size]; omega)]

theorem digitByte_injOn {d e : ℕ} (hd : d < 10) (he : e < 10) (h : digitByte d = digitByte e) :
    d = e := by
  have := congrArg UInt8.toNat h
  rw [digitByte_toNat hd, digitByte_toNat he] at this
  omega

theorem map_digitByte_inj : ∀ {ds es : List ℕ}, (∀ d ∈ ds, d < 10) → (∀ e ∈ es, e < 10) →
    ds.map digitByte = es.map digitByte → ds = es
  | [], [], _, _, _ => rfl
  | [], _ :: _, _, _, h => by simp at h
  | _ :: _, [], _, _, h => by simp at h
  | d :: ds, e :: es, hd, he, h => by
      rw [List.map_cons, List.map_cons, List.cons.injEq] at h
      rw [digitByte_injOn (hd d (by simp)) (he e (by simp)) h.1,
        map_digitByte_inj (fun x hx => hd x (by simp [hx])) (fun x hx => he x (by simp [hx])) h.2]

theorem fmtUnsigned_inj {n m : ℕ} (h : fmtUnsigned n = fmtUnsigned m) : n = m := by
  obtain ⟨ds, hds, -, hd, -, hn⟩ := fmtUnsigned_spec n
  obtain ⟨es, hes, -, he, -, hm⟩ := fmtUnsigned_spec m
  rw [hds, hes] at h
  rw [← hn, ← hm, map_digitByte_inj hd he h]

/-- A byte of printed digits is a digit. -/
theorem mem_fmtUnsigned {n : ℕ} {b : UInt8} (h : b ∈ fmtUnsigned n) :
    48 ≤ b.toNat ∧ b.toNat ≤ 57 := by
  obtain ⟨ds, hds, -, hd, -, -⟩ := fmtUnsigned_spec n
  rw [hds, List.mem_map] at h
  obtain ⟨d, hmem, rfl⟩ := h
  have hlt := hd d hmem
  rw [digitByte_toNat hlt]
  omega

example : fmtSigned (-107) = lit "-107" := by decide +kernel

/-! ### Decimal text -/

def isSpaceByte (b : UInt8) : Bool := b = 32 ∨ (9 ≤ b ∧ b ≤ 13)

def isDigitByte (b : UInt8) : Bool := 48 ≤ b ∧ b ≤ 57

/-- An optional sign, and what follows it. -/
def splitSign : CStr → ℤ × CStr
  | [] => (1, [])
  | b :: s => if b = 43 then (1, s) else if b = 45 then (-1, s) else (1, b :: s)

/-- The number a list of digits denotes. -/
def digitsValue (s : CStr) : ℕ := Nat.ofDigits 10 (s.map fun b => b.toNat - 48).reverse

/-- `atoi` of a 32-bit C library, `strtol` in base 10: white space, a sign, then all digits that
    follow, with a value outside the type replaced by its nearest bound. -/
def atoi (s : CStr) : ℤ :=
  let text := splitSign (s.dropWhile isSpaceByte)
  max (-2147483648) (min 2147483647 (text.1 * digitsValue (text.2.takeWhile isDigitByte)))

/-- The integer whose numeral `s` is, from the first byte to the last. -/
def decimal? (s : CStr) : Option ℤ :=
  let text := splitSign s
  if text.2 ≠ [] ∧ text.2.all isDigitByte then some (text.1 * digitsValue text.2) else none

theorem decimal_eq_some {s : CStr} {n : ℤ} : decimal? s = some n ↔
    ((splitSign s).2 ≠ [] ∧ (splitSign s).2.all isDigitByte) ∧
      (splitSign s).1 * digitsValue (splitSign s).2 = n :=
  Option.ite_some_none_eq_some

/-- `%u` prints a numeral. -/
theorem decimal_fmtUnsigned (n : ℕ) : decimal? (fmtUnsigned n) = some (n : ℤ) := by
  obtain ⟨ds, hds, hne, hlt, -, hn⟩ := fmtUnsigned_spec n
  have hbyte : ∀ b ∈ fmtUnsigned n, 48 ≤ b ∧ b ≤ 57 := fun b hb => mem_fmtUnsigned hb
  have hsign : splitSign (fmtUnsigned n) = (1, fmtUnsigned n) := by
    obtain ⟨d, t, rfl⟩ := List.exists_cons_of_ne_nil hne
    have hd := hbyte (digitByte d) (by rw [hds]; exact List.mem_cons_self ..)
    have h43 : digitByte d ≠ 43 := by rintro heq; rw [heq] at hd; exact absurd hd.1 (by decide)
    have h45 : digitByte d ≠ 45 := by rintro heq; rw [heq] at hd; exact absurd hd.1 (by decide)
    rw [hds, List.map_cons, splitSign, if_neg h43, if_neg h45]
  have hvalue : digitsValue (fmtUnsigned n) = n := by
    have hback : (fmtUnsigned n).map (fun b => b.toNat - 48) = ds := by
      rw [hds, List.map_map]
      refine (List.map_congr_left fun d hd => ?_).trans (List.map_id ds)
      simp [digitByte_toNat (hlt d hd)]
    rw [digitsValue, hback, hn]
  rw [decimal_eq_some, hsign, hvalue]
  refine ⟨⟨?_, ?_⟩, one_mul _⟩
  · rw [hds]
    simpa using hne
  · rw [List.all_eq_true]
    intro b hb
    simpa [isDigitByte] using hbyte b hb

/-- A numeral starts with a sign or a digit, so `atoi` skips nothing. -/
theorem dropWhile_space_of_decimal {s : CStr} {n : ℤ} (h : decimal? s = some n) :
    s.dropWhile isSpaceByte = s := by
  obtain ⟨⟨-, hall⟩, -⟩ := decimal_eq_some.mp h
  cases s with
  | nil => rfl
  | cons b s =>
    have hb : isSpaceByte b = false := by
      rw [splitSign] at hall
      split at hall
      · next h43 => rw [h43]; rfl
      · split at hall
        · next h45 => rw [h45]; rfl
        · rw [List.all_cons, Bool.and_eq_true] at hall
          have hdigit : 48 ≤ b ∧ b ≤ 57 := by simpa [isDigitByte] using hall.1
          simp only [UInt8.le_iff_toNat_le, UInt8.toNat_ofNat] at hdigit
          simp only [isSpaceByte, ← UInt8.toNat_inj, UInt8.le_iff_toNat_le, UInt8.toNat_ofNat,
            decide_eq_false_iff_not]
          omega
    rw [List.dropWhile_cons_of_neg (by simp [hb])]

/-- On a numeral within the type, `atoi` is its integer. -/
theorem atoi_of_decimal {s : CStr} {n : ℤ} (h : decimal? s = some n) (hlo : -2147483648 ≤ n)
    (hhi : n ≤ 2147483647) : atoi s = n := by
  obtain ⟨⟨-, hall⟩, hn⟩ := decimal_eq_some.mp h
  have hdigits : (splitSign s).2.takeWhile isDigitByte = (splitSign s).2 :=
    List.takeWhile_eq_self_iff.mpr (List.all_eq_true.mp hall)
  simp only [atoi, dropWhile_space_of_decimal h, hdigits, hn]
  omega

/-! ### Fixed-size fields -/

/-- The string in a field of `size` bytes: up to the first NUL, or the whole field. -/
def fieldText {size : ℕ} (field : Vector UInt8 size) : CStr := field.toList.takeWhile (· ≠ 0)

/-- `strncpy(dst, src, n)`: the first `n` bytes are `src`, cut or padded with NULs. -/
def strncpy {size : ℕ} (dst : Vector UInt8 size) (src : CStr) (n : ℕ) : Vector UInt8 size :=
  .ofFn fun i => if i.val < n then src[i.val]?.getD 0 else dst.get i

theorem takeWhile_padded {s : CStr} (h : 0 ∉ s) (k : ℕ) :
    (s ++ List.replicate k 0).takeWhile (· ≠ 0) = s := by
  rw [List.takeWhile_append_of_pos]
  · cases k <;> simp [List.replicate_succ]
  · intro b hb
    have hne : b ≠ 0 := ne_of_mem_of_not_mem hb h
    simpa using hne

/-- A copy into a zeroed field that keeps room for the NUL: the field denotes the first `n` bytes. -/
theorem fieldText_strncpy {size n : ℕ} (hn : n < size) {src : CStr} (h : 0 ∉ src) :
    fieldText (strncpy (.replicate size 0) src n) = src.take n := by
  have hlist : (strncpy (.replicate size 0) src n).toList =
      src.take n ++ List.replicate (size - (src.take n).length) 0 := by
    refine List.ext_getElem ?_ ?_
    · simp; omega
    · intro i h1 h2
      have hzero : ∀ j, (Vector.replicate size (0 : UInt8)).get j = 0 := by simp [Vector.get]
      simp only [strncpy, Vector.getElem_toList, Vector.getElem_ofFn, hzero, List.getElem_append,
        List.getElem_take, List.getElem_replicate, List.length_take, lt_min_iff]
      by_cases hi : i < n <;> by_cases hs : i < src.length <;> simp [hi, hs]
  rw [fieldText, hlist]
  exact takeWhile_padded (fun h0 => h (List.mem_of_mem_take h0)) _

end SeeedMote.Lib
