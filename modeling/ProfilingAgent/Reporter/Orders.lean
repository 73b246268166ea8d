import ProfilingAgent.Reporter.TimeRange
import Mathlib.Data.Multiset.Basic

/-!
# The iteration order of a report

Go leaves the order of a `range` over a map unspecified, and `getProfile` ranges over the drained
samples, the function map and the string map. The tables are flattened by index, so their order
does not show; the sample loop's order does. Whatever the order, a report drains the same
entries, decodes to the same multiset of samples and, over nonzero timestamps, starts at the same
time, the least of them. The mapping of a file depends on the order: the first frame of the file
the loop meets makes its mapping (a native frame the executable's, a kernel or interpreted frame
the dummy one, with the offset of the frame that made it).
-/

namespace ProfilingAgent.Reporter

open Pprofextended

variable {TraceHash FileID : Type} [DecidableEq TraceHash] [DecidableEq FileID]

omit [DecidableEq FileID] in
/-- Two orders drain the same entries. -/
theorem drainedSamples_perm (order order' : MapOrder) (r : OTLPReporter TraceHash FileID) :
    (drainedSamples order r).2.Perm (drainedSamples order' r).2 :=
  (List.perm_ext_iff_of_nodup ((nodup_drainedSamples order r).of_map _)
    ((nodup_drainedSamples order' r).of_map _)).mpr fun e => by
      rw [mem_drainedSamples, mem_drainedSamples]

/-- An `Option` traversal of permuted lists gives permuted results. -/
theorem mapM_map_coe_of_perm {α β : Type} (f : α → Option β) {l₁ l₂ : List α}
    (hperm : l₁.Perm l₂) :
    (l₁.mapM f).map (fun bs : List β => (bs : Multiset β)) =
      (l₂.mapM f).map fun bs : List β => (bs : Multiset β) := by
  rw [mapM_eq_ite, mapM_eq_ite]
  simp only [hperm.mem_iff]
  split
  · exact congrArg some (Multiset.coe_eq_coe.mpr (hperm.filterMap f))
  · rfl

omit [DecidableEq FileID] in
/-- Two orders visit the same timestamps. -/
theorem emittedTimestamps_perm (order order' : MapOrder) (r : OTLPReporter TraceHash FileID) :
    (emittedTimestamps order r).Perm (emittedTimestamps order' r) :=
  (drainedSamples_perm order order' r).flatMap_right _

/-- Over nonzero timestamps, two orders start a report at the same time: the least timestamp
drained, or zero when none is. -/
theorem getProfile_start_eq {lib : Libpf TraceHash FileID} {order order' : MapOrder}
    {samplesPerSecond : ℕ+} {r : OTLPReporter TraceHash FileID}
    {res res' : OTLPReporter TraceHash FileID × Profile × UInt64 × UInt64}
    (h : getProfile lib order samplesPerSecond r = some res)
    (h' : getProfile lib order' samplesPerSecond r = some res')
    (hnz : ∀ t ∈ emittedTimestamps order r, t ≠ 0) : res.2.2.1 = res'.2.2.1 := by
  have hperm := emittedTimestamps_perm order order' r
  rw [(getProfile_range h).1, (getProfile_range h').1]
  by_cases hne : emittedTimestamps order r = []
  · rw [hne] at hperm ⊢
    rw [← hperm.nil_eq]
  have hne' : emittedTimestamps order' r ≠ [] := fun hnil =>
    hne (List.Perm.eq_nil (hnil ▸ hperm))
  obtain ⟨⟨hmem, hle⟩, -⟩ := foldl_trackTimestamp_range hne hnz
  obtain ⟨⟨hmem', hle'⟩, -⟩ :=
    foldl_trackTimestamp_range hne' fun t ht => hnz t (hperm.mem_iff.mpr ht)
  exact UInt64.toNat.inj
    (Nat.le_antisymm (hle _ (hperm.mem_iff.mpr hmem')) (hle' _ (hperm.mem_iff.mp hmem)))

/-- Whatever the order of the sample loop, a report succeeds or fails alike, its profile decodes
to the same multiset of samples, and over nonzero timestamps it starts at the same time. -/
theorem getProfile_decode_orders (lib : Libpf TraceHash FileID) (order order' : MapOrder)
    (samplesPerSecond : ℕ+) (r : OTLPReporter TraceHash FileID) :
    (getProfile lib order samplesPerSecond r).isSome =
        (getProfile lib order' samplesPerSecond r).isSome ∧
      ((getProfile lib order samplesPerSecond r).bind fun res => res.2.1.decode).map
          (fun ds : List DecodedSample => (ds : Multiset DecodedSample)) =
        ((getProfile lib order' samplesPerSecond r).bind fun res => res.2.1.decode).map
          (fun ds : List DecodedSample => (ds : Multiset DecodedSample)) ∧
      ((∀ t ∈ emittedTimestamps order r, t ≠ 0) →
        (getProfile lib order samplesPerSecond r).map (fun res => res.2.2.1) =
          (getProfile lib order' samplesPerSecond r).map fun res => res.2.2.1) := by
  have hperm := drainedSamples_perm order order' r
  have hsome : (getProfile lib order samplesPerSecond r).isSome =
      (getProfile lib order' samplesPerSecond r).isSome := by
    rw [(getProfile_bind_decode lib order samplesPerSecond r).2,
      (getProfile_bind_decode lib order' samplesPerSecond r).2, mapM_eq_ite, mapM_eq_ite]
    simp only [hperm.mem_iff]
    split <;> rfl
  refine ⟨hsome, ?_, fun hnz => ?_⟩
  · rw [(getProfile_bind_decode lib order samplesPerSecond r).1,
      (getProfile_bind_decode lib order' samplesPerSecond r).1]
    exact mapM_map_coe_of_perm (expectedSample lib r) hperm
  cases h : getProfile lib order samplesPerSecond r <;>
    cases h' : getProfile lib order' samplesPerSecond r <;> simp only [h, h'] at hsome ⊢
  · cases hsome
  · cases hsome
  · exact congrArg some (getProfile_start_eq h h' hnz)

theorem getProfile_decode_orders_twoTraces :
    (∀ t ∈ emittedTimestamps MapOrder.stored twoTraceReporter, t ≠ 0) ∧
      (getProfile Libpf.decimal MapOrder.stored 20 twoTraceReporter).map (fun res => res.2.2.1) =
        (getProfile Libpf.decimal MapOrder.reversed 20 twoTraceReporter).map
          fun res => res.2.2.1 := by
  have hnz : ∀ t ∈ emittedTimestamps MapOrder.stored twoTraceReporter, t ≠ 0 := by decide
  exact ⟨hnz, (getProfile_decode_orders Libpf.decimal MapOrder.stored MapOrder.reversed 20
    twoTraceReporter).2.2 hnz⟩

/-- In one order the sample loop meets file 1 first in its native frame and gives it the
executable's mapping at offset 4096; in the reverse order it meets the file first in its kernel
frame and gives it the dummy mapping at offset 0, with the file's hash as build ID. -/
theorem getProfile_orderDependent :
    (getProfile Libpf.decimal MapOrder.stored 20 twoTraceReporter).map
        (fun res => res.2.1.mapping.mapM res.2.1.decodeMapping) =
        some (some [⟨4096, "UNKNOWN", "", .buildIdLinker⟩]) ∧
      (getProfile Libpf.decimal MapOrder.reversed 20 twoTraceReporter).map
        (fun res => res.2.1.mapping.mapM res.2.1.decodeMapping) =
        some (some [⟨0, "DUMMY", "1", .buildIdBinaryHash⟩]) :=
  ⟨by decide, by decide⟩

end ProfilingAgent.Reporter
