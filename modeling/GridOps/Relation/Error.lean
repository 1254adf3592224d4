import GridOps.Device.Error
import GridOps.Key

/-!
What can go wrong in filling a relation with keys, as causes.
-/
namespace GridOps

inductive RelationError
  | keyDomain (key : Nat) (type : KeyType)
  | emptyRange (first last : Nat)
  | rangeEnd (last largest : Nat)
  | zipfParameters
  | setLengths (name : String) (primary foreign gotPrimary gotForeign : Nat)
  | skewLengths (build probe : Nat)
deriving DecidableEq, Repr

namespace RelationError

def kind : RelationError → ErrorKind
  | keyDomain .. | rangeEnd .. => .integerOverflow
  | emptyRange .. | zipfParameters | setLengths .. | skewLengths .. => .invalidArgument

def message : RelationError → String
  | keyDomain key type => s!"Aborted with: Key {key} exceeds the {type.name} key domain"
  | emptyRange first last => s!"Aborted with: Empty key range {first}..={last}"
  | rangeEnd last largest =>
    s!"Aborted with: Key range ends at {last}, but the key type ends at {largest}"
  | zipfParameters =>
    "Aborted with: ZipfDistribution requires num_elements and exponent greater than 0"
  | setLengths name primary foreign gotPrimary gotForeign =>
    s!"Aborted with: The {name} data set requires {primary} primary and {foreign} foreign keys, " ++
      s!"but got {gotPrimary} and {gotForeign}"
  | skewLengths build probe =>
    "Aborted with: PrefixSkew requires 2 <= build_len < probe_len, " ++
      s!"but got {build} and {probe}"

end RelationError

def keyOfNat (K : Type) [JoinKey K] (n : Nat) : Except RelationError K :=
  match JoinKey.ofNat? n with
  | some key => .ok key
  | none => .error (.keyDomain n (JoinKey.type K))

theorem keyOfNat_ok {K : Type} [JoinKey K] {n : Nat} (h : n ≤ (JoinKey.type K).largestKey) :
    keyOfNat K n = .ok (JoinKey.ofInt n) := by
  rw [keyOfNat, JoinKey.ofNat?, if_pos h]

theorem keyOfNat_error {K : Type} [JoinKey K] {n : Nat} (h : (JoinKey.type K).largestKey < n) :
    keyOfNat K n = .error (.keyDomain n (JoinKey.type K)) := by
  rw [keyOfNat, JoinKey.ofNat?, if_neg (Nat.not_le_of_lt h)]

end GridOps
