import Rmcp.Model.Message
import Mathlib.Data.Set.Basic
import Mathlib.Algebra.Group.Nat.Defs

/-!
# Ids on the wire

What happens to an id between the JSON value a peer sends and the one sent back to it.
A string survives. A number is read as a `u64` and then cast to `u32`, so it survives
exactly when it is below `2^32`, and two numbers that agree modulo `2^32` become one id.

Results:
1. `serialize_deserialize_iff`: one id survives decoding and encoding exactly when it
   fits.
2. `idsSurvive_iff`: the ids a peer uses are kept, echoed and told apart exactly when all
   of them fit.
3. `not_idsSurvive`: the id `4294967296` comes back as `0`.
-/

namespace Rmcp

/-- The ids that decode without loss: strings, and integers of 32 bits. -/
def FitsU32 : Value → Prop
  | .string _ => True
  | .number (.posInt n) => n.toNat < 2 ^ 32
  | _ => False

/-- What a peer that uses the values `ids` as request ids and progress tokens relies on,
for those of them that `NumberOrString` accepts: encoding the decoded id gives the value
back, a response carries it in its `id` member, different values stay different, and the
token read from the metadata stands for the value stored there. -/
structure IdsSurvive (ids : Set Value) : Prop where
  roundTrip : ∀ v ∈ ids, ∀ id, NumberOrString.deserialize v = .ok id → id.serialize = v
  echoed : ∀ v ∈ ids, ∀ id, NumberOrString.deserialize v = .ok id →
    ∀ (Resp : Type) (serializeResult : Resp → Value) (result : Resp),
      JsonObject.get "id" (JsonRpcResponse.serialize serializeResult ⟨id, result⟩) = some v
  distinct : ∀ v ∈ ids, ∀ v' ∈ ids, ∀ id, NumberOrString.deserialize v = .ok id →
    NumberOrString.deserialize v' = .ok id → v = v'
  progressToken : ∀ v ∈ ids, ∀ id, NumberOrString.deserialize v = .ok id →
    ∀ m : Meta, JsonObject.get Meta.progressTokenField m.members = some v →
      ∃ token, m.getProgressToken = some token ∧ token.serialize = v

/-- A 64-bit number is what it was before a cast to 32 bits exactly when it fits. -/
theorem toUInt32_toUInt64_iff (n : UInt64) : n.toUInt32.toUInt64 = n ↔ n.toNat < 2 ^ 32 := by
  rw [← UInt64.toNat_inj, UInt32.toNat_toUInt64, UInt64.toNat_toUInt32, Nat.mod_eq_iff_lt (by decide)]

theorem serialize_deserialize_iff {v : Value} {id : NumberOrString}
    (h : NumberOrString.deserialize v = .ok id) : id.serialize = v ↔ FitsU32 v := by
  cases v with
  | number n =>
    cases n with
    | posInt n =>
      cases h
      simp only [NumberOrString.serialize, FitsU32, Value.number.injEq, Number.posInt.injEq]
      exact toUInt32_toUInt64_iff n
    | negInt _ | float _ => cases h
  | string s =>
    cases h
    simp [NumberOrString.serialize, FitsU32]
  | null | bool _ | array _ | object _ => cases h

/-- The metadata reads a progress token just as `NumberOrString` reads an id. -/
theorem getProgressToken_eq {m : Meta} {v : Value} {id : NumberOrString}
    (hm : JsonObject.get Meta.progressTokenField m.members = some v)
    (h : NumberOrString.deserialize v = .ok id) : m.getProgressToken = some ⟨id⟩ := by
  unfold Meta.getProgressToken
  rw [hm]
  cases v with
  | number n =>
    cases n with
    | posInt n =>
      cases h
      rfl
    | negInt _ | float _ => cases h
  | string s =>
    cases h
    rfl
  | null | bool _ | array _ | object _ => cases h

/-- The ids of a peer survive exactly when every one that is accepted is a string or
fits 32 bits. -/
theorem idsSurvive_iff (ids : Set Value) :
    IdsSurvive ids ↔ ∀ v ∈ ids, ∀ id, NumberOrString.deserialize v = .ok id → FitsU32 v := by
  constructor
  · intro h v hv id hid
    exact (serialize_deserialize_iff hid).mp (h.roundTrip v hv id hid)
  · intro h
    have hround : ∀ v ∈ ids, ∀ id, NumberOrString.deserialize v = .ok id → id.serialize = v :=
      fun v hv id hid => (serialize_deserialize_iff hid).mpr (h v hv id hid)
    refine ⟨hround, ?_, ?_, ?_⟩
    · intro v hv id hid Resp serializeResult result
      simp [JsonRpcResponse.serialize, JsonObject.get, hround v hv id hid]
    · intro v hv v' hv' id hid hid'
      rw [← hround v hv id hid, hround v' hv' id hid']
    · intro v hv id hid m hm
      exact ⟨⟨id⟩, getProgressToken_eq hm hid, hround v hv id hid⟩

/-- The id `2^32` is accepted, is answered as `0`, and cannot be told from `0`. -/
theorem not_idsSurvive :
    NumberOrString.deserialize (.number (.posInt 4294967296)) = .ok (.number 0) ∧
    NumberOrString.deserialize (.number (.posInt 0)) = .ok (.number 0) ∧
    (NumberOrString.number 0).serialize = .number (.posInt 0) ∧
    ¬ IdsSurvive {.number (.posInt 4294967296)} := by
  refine ⟨rfl, rfl, rfl, fun h => ?_⟩
  have hfits := (serialize_deserialize_iff rfl).mp (h.roundTrip _ rfl (.number 0) rfl)
  exact absurd (show (4294967296 : UInt64).toNat < 2 ^ 32 from hfits) (by decide)

end Rmcp
