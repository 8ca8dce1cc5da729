import Mathlib.Data.List.Basic

/-!
# Texts of JavaScript

What the source uses of its texts where Lean's differ: a text that is missing or empty is false, the
length counts units of UTF-16, `trim` has white space of its own, and `parseInt` reads the digits that a
text begins with.
-/

namespace AlsaqiBackend.Lib

/-- `a || b` on texts that can be undefined: an empty one counts as missing. -/
def orElse (text : Option String) (other : Option String) : Option String :=
  match text with
  | some value => if value = "" then other else some value
  | none => other

/-- `text.length`, in units of UTF-16. -/
def utf16Length (text : String) : ℕ :=
  text.toList.foldl (fun length c => length + if c.toNat < 0x10000 then 1 else 2) 0

/-- The white space of `String.prototype.trim`. -/
def isJsWhitespace (c : Char) : Bool :=
  let n := c.toNat
  (9 ≤ n && n ≤ 13) || n = 32 || n = 0xA0 || n = 0x1680 || (0x2000 ≤ n && n ≤ 0x200A) ||
    n = 0x2028 || n = 0x2029 || n = 0x202F || n = 0x205F || n = 0x3000 || n = 0xFEFF

/-- `text.trim()`. -/
def trimJs (text : List Char) : List Char :=
  ((text.dropWhile isJsWhitespace).reverse.dropWhile isJsWhitespace).reverse

/-- The number that digits stand for; there is none without a digit. -/
def digitsValue : List Char → Option ℕ
  | [] => none
  | c :: cs => some ((c :: cs).foldl (fun n c => 10 * n + (c.toNat - 48)) 0)

/-- `parseInt(text, 10)`; `none` stands for `NaN`. -/
def parseInt10 (text : List Char) : Option Int :=
  match text.dropWhile isJsWhitespace with
  | '-' :: rest => (digitsValue (rest.takeWhile Char.isDigit)).map fun n => -Int.ofNat n
  | '+' :: rest => (digitsValue (rest.takeWhile Char.isDigit)).map Int.ofNat
  | rest => (digitsValue (rest.takeWhile Char.isDigit)).map Int.ofNat

end AlsaqiBackend.Lib
