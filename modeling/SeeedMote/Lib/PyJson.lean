import Mathlib.Data.Nat.Digits.Defs
import Mathlib.Data.Rat.Floor
import SeeedMote.Lib.Dict
import SeeedMote.Lib.PyText

/-! The Python values `json.loads` can return, `json.loads` itself, and the conversions `bool`, `int`
    and `str` of such values, each with the exception it can raise. What depends on Unicode tables,
    on the printing and rounding of floats, or on the interpreter's limits is a field of
    `PyRuntime`. -/

namespace SeeedMote.Lib

/-- An IEEE double. -/
inductive PyFloat where
  | finite (q : ℚ)
  | inf (negative : Bool)
  | nan
  deriving DecidableEq

inductive PyVal where
  | none
  | bool (b : Bool)
  | int (z : ℤ)
  | float (f : PyFloat)
  | str (s : PyStr)
  | list (vs : List PyVal)
  | dict (entries : List (PyStr × PyVal))

/-- Exceptions by class; `outOfFuel` is none of Python's (`loads_ne_outOfFuel`). -/
inductive PyExc where
  | jsonDecodeError | unicodeDecodeError | valueError | overflowError | recursionError
  | attributeError | typeError | outOfFuel
  deriving DecidableEq

structure PyRuntime where
  /-- `str.isspace` of a code point. -/
  isSpace : ℕ → Bool
  /-- `unicodedata.decimal`. -/
  decimal : ℕ → Option ℕ
  /-- `str.lower`. -/
  lower : PyStr → PyStr
  /-- `str(v)` of a value that is not a string. -/
  strOf : PyVal → Except PyExc PyStr
  /-- `float(text)` of a float literal. -/
  floatOf : PyStr → PyFloat
  /-- `sys.get_int_max_str_digits()`, 0 for no limit. -/
  intMaxStrDigits : ℕ
  /-- Nesting at which the JSON scanner raises `RecursionError`. -/
  jsonDepth : ℕ

/-- `str.lower` of an ASCII character. -/
def asciiLower (c : ℕ) : ℕ := if 65 ≤ c ∧ c ≤ 90 then c + 32 else c

/-- What the Python documentation says of every interpreter: `lower` of ASCII text, the lowest digit
    limit that can be set, and room for one JSON container. -/
structure PyRuntime.Standard (rt : PyRuntime) : Prop where
  lower_ascii : ∀ s : PyStr, (∀ c ∈ s, c < 128) → rt.lower s = s.map asciiLower
  digits : rt.intMaxStrDigits = 0 ∨ 640 ≤ rt.intMaxStrDigits
  depth : 0 < rt.jsonDepth

/-! ### Conversions -/

/-- `bool(v)`. -/
def PyVal.truthy : PyVal → Bool
  | .none => false
  | .bool b => b
  | .int z => z ≠ 0
  | .float f => f ≠ .finite 0
  | .str s => s ≠ []
  | .list vs => !vs.isEmpty
  | .dict entries => !entries.isEmpty

/-- `v.get(key)`; only a dict has the attribute. -/
def PyVal.get (v : PyVal) (key : PyStr) : Except PyExc (Option PyVal) :=
  match v with
  | .dict entries => .ok (Dict.assoc key entries)
  | _ => .error .attributeError

/-- `str(v)`. -/
def pyStr (rt : PyRuntime) : PyVal → Except PyExc PyStr
  | .str s => .ok s
  | v => rt.strOf v

def isDigit (c : ℕ) : Bool := 48 ≤ c && c ≤ 57

/-- The digit value of a decimal code point, other scripts included. -/
def digitOf (rt : PyRuntime) (c : ℕ) : Option ℕ :=
  if isDigit c then some (c - 48) else if c < 127 then none else rt.decimal c

/-- White space around an integer. -/
def isIntSpace (rt : PyRuntime) (c : ℕ) : Bool :=
  if c < 127 then c = 32 || (9 ≤ c && c ≤ 13) else rt.isSpace c

/-- Digits, with single underscores between them. -/
def intDigits (rt : PyRuntime) : PyStr → Option (List ℕ)
  | [] => none
  | [c] => (digitOf rt c).map ([·])
  | c :: 95 :: s => (digitOf rt c).bind fun d => (intDigits rt s).map (d :: ·)
  | c :: s => (digitOf rt c).bind fun d => (intDigits rt s).map (d :: ·)

/-- More digits than `int` converts. -/
def tooManyDigits (rt : PyRuntime) (n : ℕ) : Bool :=
  rt.intMaxStrDigits ≠ 0 && rt.intMaxStrDigits < n

/-- `int(s)` of a string. -/
def intOfStr (rt : PyRuntime) (s : PyStr) : Except PyExc ℤ :=
  let t := ((s.dropWhile (isIntSpace rt)).reverse.dropWhile (isIntSpace rt)).reverse
  let (negative, t) := match t with
    | 45 :: t => (true, t)
    | 43 :: t => (false, t)
    | t => (false, t)
  match intDigits rt t with
  | none => .error .valueError
  | some ds =>
    if tooManyDigits rt ds.length then .error .valueError
    else
      let n : ℤ := Nat.ofDigits 10 ds.reverse
      .ok (if negative then -n else n)

/-- `int(v)`. -/
def pyInt (rt : PyRuntime) : PyVal → Except PyExc ℤ
  | .none => .error .typeError
  | .bool b => .ok (if b then 1 else 0)
  | .int z => .ok z
  | .float (.finite q) => .ok (if 0 ≤ q then ⌊q⌋ else ⌈q⌉)
  | .float (.inf _) => .error .overflowError
  | .float .nan => .error .valueError
  | .str s => intOfStr rt s
  | .list _ => .error .typeError
  | .dict _ => .error .typeError

/-! ### The JSON scanner -/

/-- A value and the text after it. -/
abbrev Scan := Except PyExc (PyVal × PyStr)

def skipWs (s : PyStr) : PyStr := s.dropWhile fun c => c = 32 || c = 9 || c = 10 || c = 13

def hexDigit (c : ℕ) : Option ℕ :=
  if isDigit c then some (c - 48)
  else if 97 ≤ c ∧ c ≤ 102 then some (c - 87)
  else if 65 ≤ c ∧ c ≤ 70 then some (c - 55)
  else none

/-- The four hex digits of `\uXXXX`. -/
def hex4 : PyStr → Option (ℕ × PyStr)
  | a :: b :: c :: d :: s =>
    match hexDigit a, hexDigit b, hexDigit c, hexDigit d with
    | some a, some b, some c, some d => some (a * 0x1000 + b * 0x100 + c * 0x10 + d, s)
    | _, _, _, _ => none
  | _ => none

/-- A low surrogate escaped right after a high one. -/
def lowEscape : PyStr → Option (ℕ × PyStr)
  | 92 :: 117 :: s =>
    match hex4 s with
    | some (lo, s) => if isLow lo then some (lo, s) else none
    | none => none
  | _ => none

/-- The escape after a backslash. -/
def escape : PyStr → Option (ℕ × PyStr)
  | 34 :: s => some (34, s)
  | 92 :: s => some (92, s)
  | 47 :: s => some (47, s)
  | 98 :: s => some (8, s)
  | 102 :: s => some (12, s)
  | 110 :: s => some (10, s)
  | 114 :: s => some (13, s)
  | 116 :: s => some (9, s)
  | 117 :: s =>
    match hex4 s with
    | none => none
    | some (u, s) =>
      if isHigh u then
        match lowEscape s with
        | some (lo, s) => some (joinPair u lo, s)
        | none => some (u, s)
      else some (u, s)
  | _ => none

theorem hex4_length {s r : PyStr} {u : ℕ} (h : hex4 s = some (u, r)) : r.length < s.length := by
  simp only [hex4] at h
  split at h
  · split at h
    · obtain ⟨-, rfl⟩ := Prod.mk.inj (Option.some.inj h)
      simp only [List.length_cons]; omega
    · simp at h
  · simp at h

theorem lowEscape_length {s r : PyStr} {u : ℕ} (h : lowEscape s = some (u, r)) :
    r.length < s.length := by
  simp only [lowEscape] at h
  split at h
  · split at h
    · next hx =>
      split at h
      · obtain ⟨-, rfl⟩ := Prod.mk.inj (Option.some.inj h)
        have := hex4_length hx
        simp only [List.length_cons]; omega
      · simp at h
    · simp at h
  · simp at h

theorem escape_length {s r : PyStr} {u : ℕ} (h : escape s = some (u, r)) :
    r.length < s.length := by
  simp only [escape] at h
  split at h
  case h_9 =>
    split at h
    · simp at h
    · next hx =>
      have h4 := hex4_length hx
      split at h
      · split at h
        · next hl =>
          have hlow := lowEscape_length hl
          obtain ⟨-, rfl⟩ := Prod.mk.inj (Option.some.inj h)
          simp only [List.length_cons]; omega
        · obtain ⟨-, rfl⟩ := Prod.mk.inj (Option.some.inj h)
          simp only [List.length_cons]; omega
      · obtain ⟨-, rfl⟩ := Prod.mk.inj (Option.some.inj h)
        simp only [List.length_cons]; omega
  case h_10 => simp at h
  all_goals
    obtain ⟨-, rfl⟩ := Prod.mk.inj (Option.some.inj h)
    simp

/-- `scanstring` after the opening quote: the string and the text after the closing one. -/
def scanString (s : PyStr) : Option (PyStr × PyStr) :=
  match s with
  | [] => none
  | c :: s =>
    if c = 34 then some ([], s)
    else if c = 92 then
      match h : escape s with
      | none => none
      | some (u, r) =>
        have := escape_length h
        (scanString r).map fun (t, r) => (u :: t, r)
    else if c < 32 then none
    else (scanString s).map fun (t, r) => (c :: t, r)
termination_by s.length
decreasing_by all_goals (simp only [List.length_cons]; omega)

/-- The names of constants. -/
def literals : List (PyStr × PyVal) :=
  [(py "null", .none), (py "true", .bool true), (py "false", .bool false), (py "NaN", .float .nan),
    (py "Infinity", .float (.inf false)), (py "-Infinity", .float (.inf true))]

/-- `text` after the prefix `p`. -/
def afterPrefix : PyStr → PyStr → Option PyStr
  | [], s => some s
  | _ :: _, [] => none
  | c :: p, d :: s => if c = d then afterPrefix p s else none

def scanLiteral (s : PyStr) : Option (PyVal × PyStr) :=
  literals.findSome? fun (name, v) => (afterPrefix name s).map fun r => (v, r)

/-- The integer part: `0`, or digits that do not start with it. -/
def intPart : PyStr → Option (PyStr × PyStr)
  | [] => none
  | c :: s =>
    if c = 48 then some ([48], s)
    else if isDigit c then some ((c :: s).takeWhile isDigit, (c :: s).dropWhile isDigit)
    else none

/-- `\.[0-9]+`, if it is there. -/
def fracPart : PyStr → PyStr × PyStr
  | 46 :: d :: s =>
    if isDigit d then (46 :: (d :: s).takeWhile isDigit, (d :: s).dropWhile isDigit)
    else ([], 46 :: d :: s)
  | s => ([], s)

/-- `[-+]?`. -/
def expSign : PyStr → PyStr × PyStr
  | 45 :: s => ([45], s)
  | 43 :: s => ([43], s)
  | s => ([], s)

/-- `[eE][-+]?[0-9]+`, if it is there. -/
def expPart : PyStr → PyStr × PyStr
  | e :: s =>
    if (e = 101 ∨ e = 69) ∧ (expSign s).2.head?.any isDigit then
      (e :: (expSign s).1 ++ (expSign s).2.takeWhile isDigit, (expSign s).2.dropWhile isDigit)
    else ([], e :: s)
  | [] => ([], [])

/-- `NUMBER_RE` after its sign, with `parse_int` and `parse_float`. -/
def scanUnsigned (rt : PyRuntime) (negative : Bool) (s : PyStr) : Scan :=
  match intPart s with
  | none => .error .jsonDecodeError
  | some (integer, s) =>
    let (frac, s) := fracPart s
    let (exp, s) := expPart s
    if frac = [] ∧ exp = [] then
      if tooManyDigits rt integer.length then .error .valueError
      else
        let n : ℤ := Nat.ofDigits 10 (integer.map (· - 48)).reverse
        .ok (.int (if negative then -n else n), s)
    else .ok (.float (rt.floatOf ((if negative then [45] else []) ++ integer ++ frac ++ exp)), s)

def scanNumber (rt : PyRuntime) : PyStr → Scan
  | 45 :: s => scanUnsigned rt true s
  | s => scanUnsigned rt false s

/-- The members of an object, from a key on; `fuel` bounds their number. -/
def objectLoop (value : PyStr → Scan) : ℕ → List (PyStr × PyVal) → PyStr → Scan
  | 0, _, _ => .error .outOfFuel
  | fuel + 1, entries, s =>
    match s with
    | 34 :: s =>
      match scanString s with
      | none => .error .jsonDecodeError
      | some (key, s) =>
        match skipWs s with
        | 58 :: s => do
          let (v, s) ← value (skipWs s)
          let entries := Dict.assign key v entries
          match skipWs s with
          | 125 :: s => return (.dict entries, s)
          | 44 :: s => objectLoop value fuel entries (skipWs s)
          | _ => throw .jsonDecodeError
        | _ => .error .jsonDecodeError
    | _ => .error .jsonDecodeError

/-- The elements of an array; `fuel` bounds their number. -/
def arrayLoop (value : PyStr → Scan) : ℕ → List PyVal → PyStr → Scan
  | 0, _, _ => .error .outOfFuel
  | fuel + 1, vs, s => do
    let (v, s) ← value s
    match skipWs s with
    | 93 :: s => return (.list (vs ++ [v]), s)
    | 44 :: s => arrayLoop value fuel (vs ++ [v]) (skipWs s)
    | _ => throw .jsonDecodeError

/-- `scan_once` with `nested` for the values of containers; `none` at the recursion limit. -/
def scanWith (rt : PyRuntime) (nested : Option (PyStr → Scan)) (s : PyStr) : Scan :=
  match s with
  | 34 :: s =>
    match scanString s with
    | none => .error .jsonDecodeError
    | some (t, s) => .ok (.str t, s)
  | 123 :: s =>
    match nested with
    | none => .error .recursionError
    | some value =>
      match skipWs s with
      | 125 :: s => .ok (.dict [], s)
      | s => objectLoop value (s.length + 1) [] s
  | 91 :: s =>
    match nested with
    | none => .error .recursionError
    | some value =>
      match skipWs s with
      | 93 :: s => .ok (.list [], s)
      | s => arrayLoop value (s.length + 1) [] s
  | s =>
    match scanLiteral s with
    | some r => .ok r
    | none => scanNumber rt s

/-- `scan_once` at most `depth` containers deep. -/
def scanOnce (rt : PyRuntime) : ℕ → PyStr → Scan
  | 0 => scanWith rt none
  | depth + 1 => scanWith rt (some (scanOnce rt depth))

/-- `json.loads` of bytes. -/
def loads (rt : PyRuntime) (b : List UInt8) : Except PyExc PyVal :=
  match decodeBytes (detectEncoding b) b with
  | none => .error .unicodeDecodeError
  | some s => do
    let (v, r) ← scanOnce rt rt.jsonDepth (skipWs s)
    if skipWs r = [] then return v else throw .jsonDecodeError

/-! ### The scanner never runs out of fuel -/

theorem skipWs_length (s : PyStr) : (skipWs s).length ≤ s.length :=
  (List.dropWhile_sublist _).length_le

theorem scanString_length {s t r : PyStr} (h : scanString s = some (t, r)) :
    r.length < s.length := by
  fun_induction scanString s generalizing t r with
  | case1 => simp at h
  | case2 s => obtain ⟨-, rfl⟩ := Prod.mk.inj (Option.some.inj h); simp
  | case3 => simp at h
  | case4 s _ u r' hesc hlen ih =>
    obtain ⟨⟨t', r''⟩, hr, heq⟩ := Option.map_eq_some_iff.mp h
    obtain ⟨-, rfl⟩ := Prod.mk.inj heq
    have := ih hr
    simp only [List.length_cons]; omega
  | case5 => simp at h
  | case6 c s _ _ _ ih =>
    obtain ⟨⟨t', r''⟩, hr, heq⟩ := Option.map_eq_some_iff.mp h
    obtain ⟨-, rfl⟩ := Prod.mk.inj heq
    have := ih hr
    simp only [List.length_cons]; omega

theorem afterPrefix_length : ∀ {p s r : PyStr}, afterPrefix p s = some r →
    s.length = p.length + r.length
  | [], s, r, h => by obtain rfl := Option.some.inj h; simp
  | _ :: _, [], _, h => by simp [afterPrefix] at h
  | c :: p, d :: s, r, h => by
      rw [afterPrefix] at h
      split at h
      · have := afterPrefix_length h
        simp only [List.length_cons]; omega
      · simp at h

theorem scanLiteral_length {s r : PyStr} {v : PyVal} (h : scanLiteral s = some (v, r)) :
    r.length < s.length := by
  obtain ⟨⟨name, w⟩, hmem, hl⟩ := List.exists_of_findSome?_eq_some h
  obtain ⟨r', hr, heq⟩ := Option.map_eq_some_iff.mp hl
  obtain ⟨-, rfl⟩ := Prod.mk.inj heq
  have hpos : 0 < name.length := by
    have hall : ∀ e ∈ literals, 0 < e.1.length := by decide
    exact hall _ hmem
  have := afterPrefix_length hr
  omega

theorem intPart_length {s t r : PyStr} (h : intPart s = some (t, r)) : r.length < s.length := by
  simp only [intPart] at h
  split at h
  · simp at h
  · split at h
    · obtain ⟨-, rfl⟩ := Prod.mk.inj (Option.some.inj h); simp
    · split at h
      · next c s _ hd =>
        obtain ⟨-, rfl⟩ := Prod.mk.inj (Option.some.inj h)
        rw [List.dropWhile_cons_of_pos hd]
        exact Nat.lt_succ_of_le (List.dropWhile_sublist _).length_le
      · simp at h

theorem fracPart_length (s : PyStr) : (fracPart s).2.length ≤ s.length := by
  simp only [fracPart]
  split
  · split
    · exact (List.dropWhile_sublist _).length_le.trans (by simp)
    · exact Nat.le_refl _
  · exact Nat.le_refl _

theorem expSign_length (s : PyStr) : (expSign s).2.length ≤ s.length := by
  simp only [expSign]
  split
  · exact Nat.le_succ _
  · exact Nat.le_succ _
  · exact Nat.le_refl _

theorem expPart_length (s : PyStr) : (expPart s).2.length ≤ s.length := by
  simp only [expPart]
  split
  · next e s =>
    split
    · have hdrop : ((expSign s).2.dropWhile isDigit).length ≤ (expSign s).2.length :=
        (List.dropWhile_sublist _).length_le
      exact (hdrop.trans (expSign_length s)).trans (Nat.le_succ _)
    · exact Nat.le_refl _
  · exact Nat.le_refl _

/-- A scan that does not run out of fuel and, if it succeeds, leaves less than `n` characters. -/
def Shrinks (n : ℕ) (r : Scan) : Prop :=
  r ≠ .error .outOfFuel ∧ ∀ v t, r = .ok (v, t) → t.length < n

theorem Shrinks.ok {n : ℕ} {v : PyVal} {t : PyStr} (h : t.length < n) : Shrinks n (.ok (v, t)) := by
  refine ⟨by simp, fun w u heq => ?_⟩
  obtain ⟨-, rfl⟩ := Prod.mk.inj (Except.ok.inj heq)
  exact h

theorem Shrinks.error {n : ℕ} {e : PyExc} (h : e ≠ .outOfFuel) : Shrinks n (.error e) :=
  ⟨by simpa using h, fun _ _ heq => by simp at heq⟩

theorem Shrinks.mono {n m : ℕ} {r : Scan} (h : Shrinks n r) (hle : n ≤ m) : Shrinks m r :=
  ⟨h.1, fun v t heq => (h.2 v t heq).trans_le hle⟩

/-- Every scan of the scanner consumes something. -/
def Consumes (value : PyStr → Scan) : Prop := ∀ s, Shrinks s.length (value s)

/-- Going on after a nested value. -/
theorem Shrinks.bind {value : PyStr → Scan} (hv : Consumes value) {s : PyStr} {n : ℕ}
    {f : PyVal × PyStr → Scan} (hf : ∀ v r, r.length < s.length → Shrinks n (f (v, r))) :
    Shrinks n (value s >>= f) := by
  obtain ⟨hne, hlen⟩ := hv s
  cases h : value s with
  | error e =>
    rw [h] at hne
    exact Shrinks.error fun he => hne (he ▸ rfl)
  | ok p => exact hf p.1 p.2 (hlen p.1 p.2 h)

theorem scanUnsigned_consumes (rt : PyRuntime) (negative : Bool) :
    Consumes (scanUnsigned rt negative) := by
  intro s
  rw [scanUnsigned]
  cases hi : intPart s with
  | none => exact .error (by simp)
  | some p =>
    obtain ⟨integer, t⟩ := p
    have h1 := intPart_length hi
    have h2 := fracPart_length t
    have h3 := expPart_length (fracPart t).2
    simp only
    split
    · split
      · exact .error (by simp)
      · exact .ok (by omega)
    · exact .ok (by omega)

theorem scanNumber_consumes (rt : PyRuntime) : Consumes (scanNumber rt) := by
  intro s
  simp only [scanNumber]
  split
  · next t => exact (scanUnsigned_consumes rt true t).mono (Nat.le_succ _)
  · exact scanUnsigned_consumes rt false s

theorem arrayLoop_consumes {value : PyStr → Scan} (hv : Consumes value) :
    ∀ (fuel : ℕ) (vs : List PyVal) (s : PyStr), s.length < fuel →
      Shrinks s.length (arrayLoop value fuel vs s)
  | 0, _, _, h => absurd h (Nat.not_lt_zero _)
  | fuel + 1, vs, s, h => by
      rw [arrayLoop]
      refine .bind hv ?_
      intro v r hr
      have hws := skipWs_length r
      simp only
      split
      · next t hskip =>
        rw [hskip, List.length_cons] at hws
        exact .ok (by omega)
      · next t hskip =>
        rw [hskip, List.length_cons] at hws
        have hws' := skipWs_length t
        exact (arrayLoop_consumes hv fuel _ (skipWs t) (by omega)).mono (by omega)
      · exact .error (by simp)

theorem objectLoop_consumes {value : PyStr → Scan} (hv : Consumes value) :
    ∀ (fuel : ℕ) (entries : List (PyStr × PyVal)) (s : PyStr), s.length < fuel →
      Shrinks s.length (objectLoop value fuel entries s)
  | 0, _, _, h => absurd h (Nat.not_lt_zero _)
  | fuel + 1, entries, s, h => by
      simp only [objectLoop]
      split
      · next s =>
        rw [List.length_cons] at h ⊢
        cases hk : scanString s with
        | none => exact .error (by simp)
        | some p =>
          obtain ⟨key, r⟩ := p
          have hkey := scanString_length hk
          have hws := skipWs_length r
          simp only
          split
          · next u hskip =>
            rw [hskip, List.length_cons] at hws
            have hu := skipWs_length u
            refine .bind hv ?_
            intro v r hr
            have hws := skipWs_length r
            simp only
            split
            · next t hskip =>
              rw [hskip, List.length_cons] at hws
              exact .ok (by omega)
            · next t hskip =>
              rw [hskip, List.length_cons] at hws
              have hws' := skipWs_length t
              exact (objectLoop_consumes hv fuel _ (skipWs t) (by omega)).mono (by omega)
            · exact .error (by simp)
          · exact .error (by simp)
      · exact .error (by simp)

theorem scanWith_consumes (rt : PyRuntime) {nested : Option (PyStr → Scan)}
    (hv : ∀ value ∈ nested, Consumes value) : Consumes (scanWith rt nested) := by
  intro s
  simp only [scanWith]
  split
  · next s =>
    cases hs : scanString s with
    | none => exact .error (by simp)
    | some p => exact .ok (Nat.lt_succ_of_lt (scanString_length hs))
  · next s =>
    cases nested with
    | none => exact .error (by simp)
    | some value =>
      have hws := skipWs_length s
      rw [List.length_cons]
      simp only
      split
      · next t hskip =>
        rw [hskip, List.length_cons] at hws
        exact .ok (by omega)
      · exact (objectLoop_consumes (hv value rfl) _ [] (skipWs s) (Nat.lt_succ_self _)).mono
          (by omega)
  · next s =>
    cases nested with
    | none => exact .error (by simp)
    | some value =>
      have hws := skipWs_length s
      rw [List.length_cons]
      simp only
      split
      · next t hskip =>
        rw [hskip, List.length_cons] at hws
        exact .ok (by omega)
      · exact (arrayLoop_consumes (hv value rfl) _ [] (skipWs s) (Nat.lt_succ_self _)).mono
          (by omega)
  · cases hl : scanLiteral s with
    | none => exact scanNumber_consumes rt s
    | some p => exact .ok (scanLiteral_length hl)

theorem scanOnce_consumes (rt : PyRuntime) : ∀ depth, Consumes (scanOnce rt depth)
  | 0 => scanWith_consumes rt (by simp)
  | depth + 1 => scanWith_consumes rt fun value hv => by
      obtain rfl := Option.some.inj hv
      exact scanOnce_consumes rt depth

/-- The fuel of the two loops suffices for every text. -/
theorem loads_ne_outOfFuel (rt : PyRuntime) (b : List UInt8) : loads rt b ≠ .error .outOfFuel := by
  rw [loads]
  cases decodeBytes (detectEncoding b) b with
  | none => simp
  | some s =>
    have hne := (scanOnce_consumes rt rt.jsonDepth (skipWs s)).1
    cases h : scanOnce rt rt.jsonDepth (skipWs s) with
    | error e =>
      rw [h] at hne
      simpa [h, bind, Except.bind] using hne
    | ok p =>
      simp only [h, bind, Except.bind]
      split
      · simp [pure, Except.pure]
      · simp [throw, throwThe, MonadExceptOf.throw]

end SeeedMote.Lib
