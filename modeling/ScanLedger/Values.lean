/-
# Values as Python reads and writes them

What the modules use of `repr`, `str` and `int` on a value decoded from JSON. A
float is written with the fewest digits that read back as it, and `int` of a
value is a number or one of three exceptions. A text is read as decimal digits
of any script, with single underscores between them and white space around.

Key definitions: `reprFloat`, `reprOf`, `strOf`, `intOf`.
-/
import Mathlib.Data.Int.Log
import Mathlib.Data.Rat.Floor
import ScanLedger.IpAddress
import ScanLedger.Lib.Json
import ScanLedger.Text

namespace ScanLedger

/-! ### Writing -/

def roundHalfEven (x : ℚ) : ℤ :=
  let below := ⌊x⌋
  if x - below < 1 / 2 ∨ (x - below = 1 / 2 ∧ below % 2 = 0) then below else below + 1

/-- The double nearest to a positive number: 53 bits, or a multiple of the least
one. -/
def nearestDouble (x : ℚ) : ℚ :=
  let e := max (Int.log 2 x - 52) (-1074)
  roundHalfEven (x / 2 ^ e) * 2 ^ e

/-- The digits and the exponent of the last one, of at most `k + 1` digits that
read back as the double `x`. -/
def shortDigits (x : ℚ) (k : ℕ) : Option (ℤ × ℤ) :=
  let e : ℤ := Int.log 10 x - k
  let below := ⌊x / 10 ^ e⌋
  let reads (digits : ℤ) : Bool := decide (nearestDouble (digits * 10 ^ e) = x)
  if reads below ∧ (!reads (below + 1) ∨ x - below * 10 ^ e ≤ (below + 1) * 10 ^ e - x) then
    some (below, e)
  else if reads (below + 1) then some (below + 1, e)
  else none

/-- Digits with the point after the first `point` of them. -/
def fixedText (digits : List Char) (point : ℤ) : List Char :=
  if point ≤ 0 then '0' :: '.' :: List.replicate (-point).toNat '0' ++ digits
  else if digits.length ≤ point.toNat then
    digits ++ List.replicate (point.toNat - digits.length) '0' ++ ['.', '0']
  else digits.take point.toNat ++ '.' :: digits.drop point.toNat

/-- An exponent has two digits at least. -/
def exponentText (digits : List Char) (e : ℤ) : List Char :=
  let size := Nat.toDigits 10 e.natAbs
  digits.take 1 ++ (if digits.length ≤ 1 then [] else '.' :: digits.drop 1) ++
    'e' :: (if e < 0 then '-' else '+') :: (if size.length = 1 then '0' :: size else size)

def positiveText (x : ℚ) : List Char :=
  let (number, e) := ((List.range 17).findSome? (shortDigits x)).getD (⌊x⌋, 0)
  let all := Nat.toDigits 10 number.toNat
  let digits := (all.reverse.dropWhile (· == '0')).reverse
  let point := all.length + e
  if -4 < point ∧ point ≤ 16 then fixedText digits point else exponentText digits (point - 1)

/-- `repr` of a float. -/
def reprFloat : FloatValue → String
  | .finite q =>
    if q = 0 then "0.0"
    else if 0 < q then String.ofList (positiveText q)
    else String.ofList ('-' :: positiveText (-q))
  | .infinity negative => if negative then "-inf" else "inf"
  | .nan => "nan"

mutual

/-- `repr(value)`. -/
def reprOf : Json → String
  | .null => "None"
  | .bool b => if b then "True" else "False"
  | .int n => toString n
  | .float x => reprFloat x
  | .str s => repr s
  | .arr items => "[" ++ ", ".intercalate (reprItems items) ++ "]"
  | .obj fields => "\x7b" ++ ", ".intercalate (reprFields fields) ++ "\x7d"

def reprItems : JsonItems → List String
  | .nil => []
  | .cons item rest => reprOf item :: reprItems rest

def reprFields : JsonFields → List String
  | .nil => []
  | .cons name value rest => (repr name ++ ": " ++ reprOf value) :: reprFields rest

end

/-- `str(value)`. -/
def strOf : Json → String
  | .str s => s
  | value => reprOf value

/-! ### Reading a number -/

/-- The zeros of the scripts that have decimal digits. -/
def decimalZeros : List ℕ :=
  [0x30, 0x660, 0x6f0, 0x7c0, 0x966, 0x9e6, 0xa66, 0xae6, 0xb66, 0xbe6, 0xc66, 0xce6, 0xd66, 0xde6,
    0xe50, 0xed0, 0xf20, 0x1040, 0x1090, 0x17e0, 0x1810, 0x1946, 0x19d0, 0x1a80, 0x1a90, 0x1b50,
    0x1bb0, 0x1c40, 0x1c50, 0xa620, 0xa8d0, 0xa900, 0xa9d0, 0xa9f0, 0xaa50, 0xabf0, 0xff10,
    0x104a0, 0x10d30, 0x11066, 0x110f0, 0x11136, 0x111d0, 0x112f0, 0x11450, 0x114d0, 0x11650,
    0x116c0, 0x11730, 0x118e0, 0x11950, 0x11c50, 0x11d50, 0x11da0, 0x16a60, 0x16ac0, 0x16b50,
    0x1d7ce, 0x1d7d8, 0x1d7e2, 0x1d7ec, 0x1d7f6, 0x1e140, 0x1e2f0, 0x1e950, 0x1fbf0]

/-- Digits and white space past ASCII as those of ASCII; other characters there
are in no number. -/
def asciiNumeral (c : Char) : Char :=
  if c.toNat < 127 then c
  else if isSpace c then ' '
  else match decimalZeros.find? fun first => decide (first ≤ c.toNat ∧ c.toNat < first + 10) with
    | some first => Nat.digitChar (c.toNat - first)
    | none => '?'

/-- C's `isspace`. -/
def isAsciiSpace (c : Char) : Bool := decide (9 ≤ c.toNat ∧ c.toNat ≤ 13) || c == ' '

/-- The digits of a numeral without its sign: groups of them with underscores
in between. -/
def numeralDigits (s : List Char) : Option (List Char) :=
  let groups := s.splitOn '_'
  if groups.all asciiDigits then some groups.flatten else none

/-- `int(text)`. -/
def intOfText (text : String) : Option ℤ :=
  let s := text.toList.map asciiNumeral
  let s := ((s.dropWhile isAsciiSpace).reverse.dropWhile isAsciiSpace).reverse
  let (negative, s) := match s with
    | '+' :: rest => (false, rest)
    | '-' :: rest => (true, rest)
    | s => (false, s)
  match numeralDigits s with
  | none => none
  | some digits =>
    if maxStrDigits < digits.length then none
    else some (if negative then -(readInt 10 digits : ℤ) else readInt 10 digits)

/-- The exceptions of `int`. -/
inductive IntError
  | typeError
  | valueError
  | overflowError
  deriving DecidableEq, Repr

/-- `int(value)`. -/
def intOf : Json → Except IntError ℤ
  | .null | .arr _ | .obj _ => .error .typeError
  | .bool b => .ok (if b then 1 else 0)
  | .int n => .ok n
  | .float (.finite q) => .ok (if 0 ≤ q then ⌊q⌋ else ⌈q⌉)
  | .float (.infinity _) => .error .overflowError
  | .float .nan => .error .valueError
  | .str s => match intOfText s with
    | some n => .ok n
    | none => .error .valueError

end ScanLedger
