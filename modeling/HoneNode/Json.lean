import HoneNode.Entry

/-!
# Json — reading a JSON value

A reader of `serde_json` returns nothing for a value of another kind. Indexing with a
key reads null where there is no such field.
-/

namespace HoneNode.Json

/-- The value of a field; only objects have any. -/
def get (key : String) : Json → Option Json
  | .obj fields => (fields.find? (·.1 = key)).map (·.2)
  | _ => none

/-- `value[key]`. -/
def index (v : Json) (key : String) : Json := (v.get key).getD .null

def asArray : Json → Option (List Json)
  | .arr items => some items
  | _ => none

def asStr : Json → Option String
  | .str t => some t
  | _ => none

def asBool : Json → Option Bool
  | .bool b => some b
  | _ => none

def asU64 : Json → Option ℕ
  | .num n => if 0 ≤ n then some n.toNat else none
  | _ => none

def asI64 : Json → Option ℤ
  | .num n => if n < 2 ^ 63 then some n else none
  | _ => none

def asF64 : Json → Option F64
  | .num n =>
    some (if 0 ≤ n then n.toNat.toUInt64.toFloat else n.toInt64.toFloat).toBits
  | .float x => some x
  | _ => none

def isNull : Json → Bool
  | .null => true
  | _ => false

end HoneNode.Json
