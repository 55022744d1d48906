import Appspine.JsText

/-!
# White space and integer literals

`String.prototype.trim` and `BigInt(value)`, as the language defines them on code units.
-/
namespace Appspine.JsText

/-- `WhiteSpace` and `LineTerminator` of the grammar. -/
def isWhiteSpace (u : CodeUnit) : Bool :=
  decide ((0x9 ≤ u.val ∧ u.val ≤ 0xD) ∨ u.val = 0x20 ∨ u.val = 0xA0 ∨ u.val = 0x1680 ∨
    (0x2000 ≤ u.val ∧ u.val ≤ 0x200A) ∨ u.val = 0x2028 ∨ u.val = 0x2029 ∨ u.val = 0x202F ∨
    u.val = 0x205F ∨ u.val = 0x3000 ∨ u.val = 0xFEFF)

/-- `s.trim()`. -/
def trim (s : JsString) : JsString :=
  ((s.dropWhile isWhiteSpace).reverse.dropWhile isWhiteSpace).reverse

/-- `toLowerCase` of an ASCII character. -/
def asciiLowerUnit (u : CodeUnit) : CodeUnit :=
  if unit 'A' ≤ u ∧ u ≤ unit 'Z' then u + 32 else u

/-- `s.toLowerCase()` of a text of ASCII characters. -/
def asciiLower (s : JsString) : JsString := s.map asciiLowerUnit

/-- The value of one digit, in any base up to 36. -/
def digitValue (u : CodeUnit) : Option ℕ :=
  if unit '0' ≤ u ∧ u ≤ unit '9' then some (u.val - (unit '0').val)
  else if unit 'a' ≤ u ∧ u ≤ unit 'z' then some (u.val - (unit 'a').val + 10)
  else if unit 'A' ≤ u ∧ u ≤ unit 'Z' then some (u.val - (unit 'A').val + 10)
  else none

/-- A digit sequence read from its start, `acc` being what stands before it. -/
def readDigits (base : ℕ) (acc : ℕ) : JsString → Option ℕ
  | [] => some acc
  | u :: us => do
    let d ← digitValue u
    if d < base then readDigits base (acc * base + d) us else none

/-- One or more digits. -/
def digits (base : ℕ) (s : JsString) : Option ℕ := if s = [] then none else readDigits base 0 s

/-- `StringToBigInt`: a signed decimal or an unsigned prefixed literal between white space. -/
def stringToBigInt (s : JsString) : Option ℤ :=
  match trim s with
  | [] => some 0
  | u :: us =>
    if u = unit '-' then (digits 10 us).map (fun n => -(n : ℤ))
    else if u = unit '+' then (digits 10 us).map (fun n => (n : ℤ))
    else if startsWith (u :: us) (js "0x") || startsWith (u :: us) (js "0X") then
      (digits 16 us.tail).map (fun n => (n : ℤ))
    else if startsWith (u :: us) (js "0o") || startsWith (u :: us) (js "0O") then
      (digits 8 us.tail).map (fun n => (n : ℤ))
    else if startsWith (u :: us) (js "0b") || startsWith (u :: us) (js "0B") then
      (digits 2 us.tail).map (fun n => (n : ℤ))
    else (digits 10 (u :: us)).map (fun n => (n : ℤ))

example : [" 42 ", "0x1F", "-7", "", "1n", "-0x1"].map (fun s => stringToBigInt (js s)) =
    [some 42, some 31, some (-7), some 0, none, none] := by decide +kernel

end Appspine.JsText
