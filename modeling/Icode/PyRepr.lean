import Icode.JsonDumps

/-!
# `str` of a value

`pyStr` is Python's `str(value)` of a JSON value, and `pyRepr` its `repr`, which
quotes the strings inside a list or a dict. Which characters outside ASCII a
`repr` shows as they are is decided by the Unicode tables (`str.isprintable`),
which are an argument.
-/

namespace Py

/-! ## Strings -/

/-- `\xXX` -/
def hexEscape (n : ℕ) : PyStr :=
  ofChars ['\\', 'x', hexDigit (n / 16), hexDigit (n % 16)]

/-- `\UXXXXXXXX` -/
def longEscape (n : ℕ) : PyStr :=
  ofChars ('\\' :: 'U' :: (List.range 8).map fun i => hexDigit (n >>> (4 * (7 - i)) % 16))

/-- One character inside a `repr` between the quotes `q`. -/
def reprChar (printable : CodePoint → Bool) (q c : CodePoint) : PyStr :=
  let n := c.ord
  if c = q || n == 0x5C then ['\\', c]
  else if n == 0x0A then lit "\\n"
  else if n == 0x0D then lit "\\r"
  else if n == 0x09 then lit "\\t"
  else if n < 0x20 || n == 0x7F then hexEscape n
  else if n < 0x7F || printable c then [c]
  else if n < 0x100 then hexEscape n
  else if n < 0x10000 then Json.unicodeEscape n
  else longEscape n

/-- `repr` of a string: between single quotes, unless only those occur in it. -/
def reprStr (printable : CodePoint → Bool) (s : PyStr) : PyStr :=
  let q : CodePoint := if s.contains '\'' && !s.contains '"' then '"' else '\''
  q :: (s.flatMap (reprChar printable q) ++ [q])

/-! ## Values -/

namespace Json

mutual

/-- `repr(value)`. -/
def pyRepr (printable : CodePoint → Bool) : Json → PyStr
  | .null => lit "None"
  | .bool b => lit (if b then "True" else "False")
  | .int n => ofChars (intText n)
  | .float x => ofChars x.repr
  | .str s => reprStr printable s
  | .arr xs => lit "[" ++ joinComma (pyReprList printable xs) ++ lit "]"
  | .obj ms => lit "\x7b" ++ joinComma (pyReprMembers printable ms) ++ lit "\x7d"

def pyReprList (printable : CodePoint → Bool) : List Json → List PyStr
  | [] => []
  | x :: xs => pyRepr printable x :: pyReprList printable xs

def pyReprMembers (printable : CodePoint → Bool) : Members → List PyStr
  | [] => []
  | (k, x) :: ms =>
    (reprStr printable k ++ lit ": " ++ pyRepr printable x) :: pyReprMembers printable ms

end

/-- `str(value)`. -/
def pyStr (printable : CodePoint → Bool) : Json → PyStr
  | .str s => s
  | v => v.pyRepr printable

end Json

end Py
