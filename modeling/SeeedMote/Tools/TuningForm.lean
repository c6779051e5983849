import Mathlib.Algebra.Order.Ring.Rat
import SeeedMote.Lib.JsonText

/-! The form of the Web Bluetooth tool: the texts of two inputs, the bytes `parseU8` takes from them, and
    the texts `applyValues` puts there. -/

namespace SeeedMote.Tools
open Lib

/-- The inputs `ths` and `dur`, by their `value`. -/
structure Form where
  ths : PyStr
  dur : PyStr

/-- `String(v)`. -/
def jsString (v : UInt8) : PyStr := asciiText (fmtUnsigned v.toNat)

/-- The inputs after `applyValues`. -/
def applyValues (ths dur : UInt8) : Form := ⟨jsString ths, jsString dur⟩

/-- `PRESETS.standard`. -/
def standardThs : UInt8 := 0x03
def standardDur : UInt8 := 0x21

section Parse
variable (number : PyStr → Option ℚ)

/-- `parseU8`, as the byte that is sent; `number` is `Number`, `none` where it is not finite. -/
def parseU8 (value : PyStr) (max : ℕ) : Option UInt8 :=
  match number value with
  | some q => if q.isInt ∧ 0 ≤ q ∧ q ≤ max then some q.num.toNat.toUInt8 else none
  | none => none

/-- The values `writeValues` takes from the form. -/
def Form.parse (form : Form) : Option (UInt8 × UInt8) :=
  match parseU8 number form.ths 63, parseU8 number form.dur 255 with
  | some ths, some dur => some (ths, dur)
  | _, _ => none

/-- `Number` undoes `String` on bytes. -/
def UndoesString : Prop := ∀ v : UInt8, number (jsString v) = some (v.toNat : ℚ)

variable {number}

theorem parseU8_jsString (h : UndoesString number) {v : UInt8} {max : ℕ} (hv : v.toNat ≤ max) :
    parseU8 number (jsString v) max = some v := by
  have hint : (v.toNat : ℚ).isInt = true := rfl
  have hle : (v.toNat : ℚ) ≤ max := Nat.cast_le.mpr hv
  rw [parseU8, h v]
  simp [hint, hle]

/-- What the page shows can be sent back. -/
theorem parse_applyValues (h : UndoesString number) {ths : UInt8} (hths : ths ≤ 63) (dur : UInt8) :
    (applyValues ths dur).parse number = some (ths, dur) := by
  have hths' : ths.toNat ≤ 63 := hths
  have hdur : dur.toNat ≤ 255 := Nat.le_of_lt_succ dur.toNat_lt
  rw [Form.parse, applyValues]
  simp only [parseU8_jsString h hths', parseU8_jsString h hdur]

end Parse

/-- `Number` on numerals. -/
def decimalNumber (s : PyStr) : Option ℚ := (decimal? (s.map Nat.toUInt8)).map fun z => (z : ℚ)

theorem decimalNumber_undoes : UndoesString decimalNumber := by
  intro v
  have hback : (jsString v).map Nat.toUInt8 = fmtUnsigned v.toNat := by
    rw [jsString, asciiText, List.map_map]
    exact (List.map_congr_left fun b _ => UInt8.ofNat_toNat).trans (List.map_id _)
  rw [decimalNumber, hback, decimal_fmtUnsigned]
  rfl

end SeeedMote.Tools
