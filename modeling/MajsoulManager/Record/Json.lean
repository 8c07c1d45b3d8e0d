/-
# Record.Json — JSON values as the record pipeline reads them

`serde_json::Value` without the `preserve_order` and `arbitrary_precision`
features: a number is a `u64`, a negative `i64` or a float, and an object is a
map, read here through `get` alone.

The JSON reader and printer themselves are the third-party ones; `Serde` is what
the pipeline calls of them.
-/
import MajsoulManager.Theory.Time

namespace MajsoulManager.Record

open MajsoulManager.Theory

set_option autoImplicit false

inductive Number where
  | posInt (n : UInt64)
  | negInt (n : Int64)
  | float (bits : UInt64)
  deriving DecidableEq, Repr

inductive Value where
  | null
  | bool (b : Bool)
  | number (n : Number)
  | string (s : String)
  | array (items : List Value)
  | object (fields : List (String × Value))

namespace Value

/-- A member of an object; nothing else has members. -/
def get : Value → String → Option Value
  | object fields, name => fields.lookup name
  | _, _ => none

def asStr : Value → Option String
  | string s => some s
  | _ => none

def asArray : Value → Option (List Value)
  | array items => some items
  | _ => none

def asBool : Value → Option Bool
  | bool b => some b
  | _ => none

def asU64 : Value → Option UInt64
  | number (.posInt n) => some n
  | _ => none

/-- A `u64` past `i64::MAX` has no `i64` reading. -/
def asI64 : Value → Option Int64
  | number (.posInt n) => if n.toNat < 2 ^ 63 then some n.toInt64 else none
  | number (.negInt n) => some n
  | _ => none

def isObject : Value → Bool
  | object _ => true
  | _ => false

/-- An unsigned number, as `json!` writes one. -/
def nat (n : Nat) : Value := number (.posInt (UInt64.ofNat n))

/-- A signed number, as `json!` writes one. -/
def int (n : Int32) : Value :=
  if n < 0 then number (.negInt n.toInt64) else number (.posInt (UInt64.ofNat n.toNatClampNeg))

/-- `value[name] = item`: only an object takes a member, and `null` becomes one. -/
def set {ε : Type} (value : Value) (name : String) (item : Value) : Outcome ε Value :=
  match value with
  | object fields => .ok (object ((fields.filter (·.1 != name)) ++ [(name, item)]))
  | null => .ok (object [(name, item)])
  | _ => .panic

/-- An object with one member replaced or added. -/
def insert (value : Value) (name : String) (item : Value) : Value :=
  match value with
  | object fields => object ((fields.filter (·.1 != name)) ++ [(name, item)])
  | _ => object [(name, item)]

theorem set_of_isObject {ε : Type} {value : Value} (isObj : value.isObject = true) (name : String)
    (item : Value) : (value.set name item : Outcome ε Value) = .ok (value.insert name item) := by
  cases value with
  | object fields => rfl
  | _ => cases isObj

end Value

/-- The JSON reader and printer. -/
structure Serde where
  fromStr : String → Except String Value
  fromStrVec : String → Except String (List Value)
  print : Value → String

end MajsoulManager.Record
