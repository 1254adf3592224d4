import GridOps.Join.Probe

/-!
Estimating the size of a join's result by probing a sample.

If the probe side is much longer than the build side, a prefix of it is probed and the count is
multiplied by the ratio of the lengths.  While a sample finds nothing, it is doubled and the ratio
halved, until the whole probe side has been probed.
-/
namespace GridOps

/-- A prefix of the probe side, and the factor from its count to the whole. -/
structure Sample where
  len : Nat
  ratio : Nat
deriving DecidableEq, Repr

/-- The estimated number of result rows, the sample it comes from and the number of probes. -/
structure Estimate where
  rows : Nat
  sample : Sample
  rounds : Nat
deriving DecidableEq, Repr

structure Estimator where
  prober : Prober
  threshold : Nat
deriving DecidableEq, Repr

namespace Estimate

/-- Nothing was probed. -/
def none : Estimate := ⟨0, ⟨0, 0⟩, 0⟩

end Estimate

namespace Sample

/-- The first sample.  The probe side is sampled if it is more than `threshold` times as long as a
build side that has rows. -/
def first (probeLen buildLen threshold : Nat) : Sample :=
  if 0 < buildLen ∧ buildLen * threshold ≤ Device.maxBytes ∧ buildLen * threshold < probeLen then
    ⟨buildLen, probeLen / buildLen + 1⟩
  else ⟨probeLen, 1⟩

/-- Twice the sample, at most the whole probe side, at half the ratio. -/
def double (probeLen : Nat) (s : Sample) : Sample :=
  ⟨min (2 * s.len) probeLen, max (s.ratio / 2) 1⟩

/-- The samples after `s`, up to the whole probe side; at most `fuel`. -/
def doublings (probeLen : Nat) : (fuel : Nat) → Sample → List Sample
  | 0, _ => []
  | fuel + 1, s =>
    if s.len = probeLen then []
    else s.double probeLen :: doublings probeLen fuel (s.double probeLen)

end Sample

namespace Estimator

variable {K S : Type} [JoinKey K] [Word S]

/-- Probes the samples in order and stops at the first that finds a result row, or at the last. -/
def extrapolate (count : Nat → DeviceM JoinError UInt64) :
    Sample → List Sample → (rounds : Nat) → DeviceM JoinError Estimate
  | s, rest, rounds => do
    let rows := (← count s.len).toNat * s.ratio
    if Device.maxBytes < rows then DeviceM.fail .extrapolationOverflow
    else if 0 < rows then return ⟨rows, s, rounds + 1⟩
    else match rest with
      | [] => return ⟨rows, s, rounds + 1⟩
      | next :: rest => extrapolate count next rest (rounds + 1)

/-- Estimates the number of result rows of probing `table`.  A sample at least doubles, so one
doubling per probe row is enough. -/
def estimate (e : Estimator) (table : Multimap K S) (probe build : KeyColumns K) :
    DeviceM JoinError Estimate := do
  if probe.len = 0 then return Estimate.none
  else
    let first := Sample.first probe.len build.len e.threshold
    DeviceM.mapError .device (DeviceM.reserveItems 1 DeviceM.counterBytes)
    DeviceM.withBytes DeviceM.counterBytes <|
      extrapolate (e.prober.count table probe build) first
        (Sample.doublings probe.len probe.len first) 0

end Estimator
end GridOps
