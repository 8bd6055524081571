/-
# Text as Python handles it

`str.strip` and `repr` of a string. Of the characters past Latin-1, `repr`
here escapes none.

Key definitions: `strip`, `repr`.
-/
import Mathlib.Data.List.Basic

namespace ScanLedger

/-- `str.isspace` for one character. -/
def isSpace (c : Char) : Bool :=
  let n := c.toNat
  decide (9 ≤ n ∧ n ≤ 13) || decide (0x1c ≤ n ∧ n ≤ 0x20) || n == 0x85 || n == 0xa0 ||
    n == 0x1680 || decide (0x2000 ≤ n ∧ n ≤ 0x200a) || n == 0x2028 || n == 0x2029 ||
    n == 0x202f || n == 0x205f || n == 0x3000

@[irreducible] def strip (s : String) : String :=
  String.ofList (((s.toList.dropWhile isSpace).reverse.dropWhile isSpace).reverse)

def isPrintable (c : Char) : Bool :=
  let n := c.toNat
  decide (0x20 ≤ n ∧ n ≤ 0x7e) || (decide (0xa1 ≤ n) && n != 0xad)

def escapeChar (quote c : Char) : List Char :=
  if c = quote ∨ c = '\\' then ['\\', c]
  else if c = '\n' then ['\\', 'n']
  else if c = '\r' then ['\\', 'r']
  else if c = '\t' then ['\\', 't']
  else if isPrintable c then [c]
  else ['\\', 'x', Nat.digitChar (c.toNat / 16), Nat.digitChar (c.toNat % 16)]

/-- `repr(s)`: double quotes only where there are single quotes and no double
ones. -/
def repr (s : String) : String :=
  let quote := if '\'' ∈ s.toList ∧ '"' ∉ s.toList then '"' else '\''
  String.ofList (quote :: s.toList.flatMap (escapeChar quote) ++ [quote])

end ScanLedger
