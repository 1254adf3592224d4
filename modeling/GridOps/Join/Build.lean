import GridOps.Join.Multimap

/-!
Building a hash table: one thread per row inserts the row under its key.
-/
namespace GridOps

/-- The table that the threads of a build fill, with the number of reserved keys and of entries
that found no free slot. -/
structure BuildState (K S : Type) where
  table : Multimap K S
  reserved : UInt64
  rejected : UInt64

namespace Multimap

variable {K S : Type} [JoinKey K] [Word S]

/-- The thread of row `i` inserts that row; reserved keys are counted instead. -/
def buildKernel (keys : Array K) : Kernel (BuildState K S) := fun t s =>
  match keys[t.global]? with
  | none => .ok () s
  | some key =>
    if key = JoinKey.reserved K then .ok () { s with reserved := s.reserved + 1 }
    else
      match s with
      | ⟨table, reserved, rejected⟩ =>
        match table.insert key (Word.ofNat t.global) with
        | (table, true) => .ok () ⟨table, reserved, rejected⟩
        | (table, false) => .ok () ⟨table, reserved, rejected + 1⟩

/-- Launches the build.  Its counters are on the device meanwhile. -/
def fill (m : Multimap K S) (block : UInt32) (keys : Array K) :
    DeviceM DeviceError (Outcome (BuildState K S)) := do
  let l ← DeviceM.ofExcept (Launch.forLen (UInt64.ofNat keys.size) block)
  DeviceM.withCounter (DeviceM.withCounter fun d =>
    let (outcome, d) := d.run "build_hash_table" l (buildKernel keys) ⟨m, 0, 0⟩
    .ok outcome d)

def build (m : Multimap K S) (block : UInt32) (keys : Array K) (d : Device) :
    Except JoinError Unit × Multimap K S × Device :=
  if Word.toNat (Word.top S) ≤ keys.size then (.error (.buildRows keys.size), m, d)
  else if keys.isEmpty then (.ok (), m, d)
  else
    match m.fill block keys d with
    | .error e d => (.error (.device e), m, d)
    | .ok ⟨s, some e⟩ d => (.error (.device e), s.table, d)
    | .ok ⟨s, none⟩ d =>
      let result :=
        if s.reserved ≠ 0 then
          .error (.reservedKeys s.reserved.toNat (JoinKey.type K).largest)
        else if s.rejected ≠ 0 then .error (.tableFull s.table.capacity)
        else .ok ()
      (result, s.table, d)

def buildOrFail (m : Multimap K S) (block : UInt32) (keys : Array K) :
    DeviceM JoinError (Multimap K S) := fun d =>
  match m.build block keys d with
  | (.ok _, m, d) => .ok m d
  | (.error e, _, d) => .error e d

end Multimap
end GridOps
