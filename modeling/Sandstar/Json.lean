import Mathlib

set_option autoImplicit false

namespace Sandstar

inductive JsonScalar
  | null
  | bool (b : Bool)
  | posInt (n : UInt64)
  | negInt (n : Int64)
  | float (x : ℚ)
  | str (s : String)
deriving DecidableEq

inductive Json
  | scalar (s : JsonScalar)
  | arr (items : List Json)
  | obj (fields : List (String × Json))

/-- `Value::from` of a signed integer. -/
def JsonScalar.ofInt64 (n : Int64) : JsonScalar := if n < 0 then .negInt n else .posInt n.toUInt64

namespace Json

def asBool : Json → Option Bool
  | .scalar (.bool b) => some b
  | _ => none

def asU64 : Json → Option UInt64
  | .scalar (.posInt n) => some n
  | _ => none

def asI64 : Json → Option Int64
  | .scalar (.posInt n) => if n.toNat < 2 ^ 63 then some n.toInt64 else none
  | .scalar (.negInt n) => some n
  | _ => none

def asStr : Json → Option String
  | .scalar (.str s) => some s
  | _ => none

def asArray : Json → Option (List Json)
  | .arr items => some items
  | _ => none

def asObject : Json → Option (List (String × Json))
  | .obj fields => some fields
  | _ => none

/-- The value of a field; what is not an object has none. -/
def get (msg : Json) (key : String) : Option Json :=
  (msg.asObject.bind fun fields => fields.find? fun f => f.1 = key).map Prod.snd

end Json

end Sandstar
