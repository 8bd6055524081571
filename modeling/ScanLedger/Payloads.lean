/-
# Values decoded from a provider's answer

What the provider clients use of Python on a value of which they do not know the
type: `get` of a dictionary, the items of a `for` loop, truth, the first item and
`float`. Each can raise.

Key definitions: `PayloadError`, `getField`, `iterate`, `truthyValue`, `firstItem`,
`floatOf`.
Key theorem: `getField_obj`.
-/
import ScanLedger.Values

namespace ScanLedger

inductive PayloadError
  | attributeError
  | typeError
  | keyError
  | indexError
  | valueError
  | overflowError
  deriving DecidableEq, Repr

def IntError.toPayload : IntError → PayloadError
  | .typeError => .typeError
  | .valueError => .valueError
  | .overflowError => .overflowError

/-- `value.get(name, default)`. -/
def getField (value : Json) (name : String) (default : Json) : Except PayloadError Json :=
  match value with
  | .obj fields => .ok ((fields.lookup name).getD default)
  | .null | .bool _ | .int _ | .float _ | .str _ | .arr _ => .error .attributeError

/-- The items that `for item in value` goes through. -/
def iterate : Json → Except PayloadError (List Json)
  | .arr items => .ok items.toList
  | .obj fields => .ok (fields.names.map .str)
  | .str s => .ok (s.toList.map fun c => .str (String.singleton c))
  | .null | .bool _ | .int _ | .float _ => .error .typeError

/-- `bool(value)`. -/
def truthyValue : Json → Bool
  | .null => false
  | .bool b => b
  | .int n => decide (n ≠ 0)
  | .float x => decide (x ≠ .finite 0)
  | .str s => !s.isEmpty
  | .arr .nil | .obj .nil => false
  | .arr (.cons _ _) | .obj (.cons _ _ _) => true

/-- `value or default`. -/
def orElse (value default : Json) : Json := if truthyValue value then value else default

/-- `value[0]`. -/
def firstItem : Json → Except PayloadError Json
  | .arr (.cons item _) => .ok item
  | .arr .nil => .error .indexError
  | .obj _ => .error .keyError
  | .str s => match s.toList with
    | c :: _ => .ok (.str (String.singleton c))
    | [] => .error .indexError
  | .null | .bool _ | .int _ | .float _ => .error .typeError

/-- `float(n)`. -/
def floatOfInt (n : ℤ) : Except PayloadError FloatValue :=
  if n = 0 then .ok (.finite 0)
  else
    let size := nearestDouble n.natAbs
    if 2 ^ 1024 ≤ size then .error .overflowError
    else .ok (.finite (if n < 0 then -size else size))

/-- `float(value) if isinstance(value, int | float) else None`. A `bool` is an
`int`. -/
def floatOf : Json → Except PayloadError (Option FloatValue)
  | .bool b => .ok (some (.finite (if b then 1 else 0)))
  | .int n => (floatOfInt n).map some
  | .float x => .ok (some x)
  | .null | .str _ | .arr _ | .obj _ => .ok none

theorem getField_obj (fields : JsonFields) (name : String) (default : Json) :
    getField (.obj fields) name default = .ok (((Json.obj fields).field name).getD default) := rfl

theorem iterate_array (items : List Json) : iterate (.array items) = .ok items :=
  congrArg Except.ok (Json.toList_array items)

end ScanLedger
