import Mathlib.Tactic.Common

/-!
# JSON values

The part of `serde_json` that the SDK's own code looks into: `Value`, its three kinds
of number, and the members of an object. An object keeps its members in key order, as
the `BTreeMap` behind `serde_json::Map` does.
-/

namespace Rmcp

/-- `serde_json::Number`. A negative integer is always below zero, and a float is
finite and given by its bits. -/
inductive Number
  | posInt (n : UInt64)
  | negInt (n : {n : Int64 // n < 0})
  | float (bits : UInt64)
deriving DecidableEq

/-- `Number::as_u64`: only a non-negative integer is one. -/
def Number.asU64 : Number → Option UInt64
  | .posInt n => some n
  | .negInt _ => none
  | .float _ => none

/-- `serde_json::Value`. -/
inductive Value
  | null
  | bool (b : Bool)
  | number (n : Number)
  | string (s : String)
  | array (items : List Value)
  | object (members : List (String × Value))

/-- `serde_json::Map<String, Value>`. -/
abbrev JsonObject := List (String × Value)

namespace JsonObject

/-- The value of member `key`. -/
def get (key : String) : JsonObject → Option Value
  | [] => none
  | (k, v) :: rest => if key = k then some v else get key rest

/-- Set member `key`, replacing its value or adding it in key order. -/
def insert (key : String) (value : Value) : JsonObject → JsonObject
  | [] => [(key, value)]
  | (k, v) :: rest =>
    if key = k then (key, value) :: rest
    else if key < k then (key, value) :: (k, v) :: rest
    else (k, v) :: insert key value rest

@[simp] theorem get_insert_self (key : String) (value : Value) (o : JsonObject) :
    get key (insert key value o) = some value := by
  induction o with
  | nil => simp [insert, get]
  | cons m rest ih =>
    obtain ⟨k, v⟩ := m
    by_cases hk : key = k
    · simp [insert, get, hk]
    · by_cases hlt : key < k <;> simp [insert, get, hk, hlt, ih]

end JsonObject

end Rmcp
