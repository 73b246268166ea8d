import ProfilingAgent.Reporter.Resource
import ProfilingAgent.Reporter.Samples

/-!
# The request a report sends

`reportOTLPProfile` takes a profile from `getProfile`, sends nothing when it has no sample, and
otherwise wraps it with its start and end times, the resource and the scope into one export
request. The times come from the running range of the sample loop (`Reporter/TimeRange.lean`),
whose end misses the first timestamp visited: with a single timestamp the request ends before it
starts.
-/

namespace ProfilingAgent.Reporter

open Pprofextended

variable {TraceHash FileID : Type} [DecidableEq TraceHash] [DecidableEq FileID]

/-! ### `reportOTLPProfile` -/

/-- `profiles.ProfileContainer`: the fields `reportOTLPProfile` sets. -/
structure ProfileContainer where
  profileId : String
  startTimeUnixNano : UInt64
  endTimeUnixNano : UInt64
  profile : Profile
  deriving DecidableEq, Repr

/-- `otlpcollector.ExportProfilesServiceRequest` as `reportOTLPProfile` builds it: one resource
profile with one scope profile with one container. -/
structure ExportRequest where
  resource : List (Option KeyValue)
  scopeName : String
  scopeVersion : String
  container : ProfileContainer
  deriving DecidableEq, Repr

/-- Go's `uint64(x)` of an `int64`. -/
def int64ToUint64 (x : Int) : UInt64 := UInt64.ofNat (x % 2 ^ 64).toNat

/-- `reportOTLPProfile`: the reporter after `getProfile`, and the request sent, or `none` when the
profile has no sample. `reportInterval` is in nanoseconds; `version` and `revision` are what
`vc.Version()` and `vc.Revision()` return. -/
def reportOTLPProfile (lib : Libpf TraceHash FileID) (order : MapOrder) (samplesPerSecond : ℕ+)
    (reportInterval : Int) (version revision : String) (r : OTLPReporter TraceHash FileID) :
    Option (OTLPReporter TraceHash FileID × Option ExportRequest) :=
  (getProfile lib order samplesPerSecond r).map fun (r, profile, startTS, endTS) =>
    if profile.sample.isEmpty then (r, none) else
      let profile :=
        if profile.durationNanos = 0 then { profile with durationNanos := reportInterval }
        else profile
      (r, some
        { resource := getResource r.hostmetadata
          scopeName := "Elastic-Universal-Profiling"
          scopeVersion := version ++ "@" ++ revision
          container :=
            { profileId := "ELASTIC"
              startTimeUnixNano := int64ToUint64 (unixNano startTS)
              endTimeUnixNano := int64ToUint64 (unixNano endTS)
              profile } })

/-- One sample with one timestamp: the loop's only turn moves the start and skips the end, so the
request's duration is negative and its end time lies before its start time. -/
theorem reportOTLPProfile_oneTimestamp :
    (getProfile Libpf.decimal MapOrder.stored 20 oneFrameReporter).map (fun res => res.2.2) =
        some (1700000000, 0) ∧
      (reportOTLPProfile Libpf.decimal MapOrder.stored 20 10000000000 "v1" "abc"
          oneFrameReporter).map (fun res => res.2.map fun req =>
            (req.container.startTimeUnixNano, req.container.endTimeUnixNano,
              req.container.profile.durationNanos)) =
        some (some (1700000000000000000, 0, -1700000000000000000)) := by
  decide

/-- When every `traces` entry has as many files and addresses as frame types, a report returns,
and it sends a request exactly when it drains a sample. The request's profile decodes to the
caches' reading of the drained samples, whatever duration it was given; its resource is the host
metadata's entries followed by the name; and its scope is the agent's, with its version and
revision. -/
theorem reportOTLPProfile_request (lib : Libpf TraceHash FileID) (order : MapOrder)
    (samplesPerSecond : ℕ+) (reportInterval : Int) (version revision : String)
    (r : OTLPReporter TraceHash FileID)
    (hshape : ∀ h t, r.traces.lookup h = some t →
      t.files.length = t.frameTypes.length ∧ t.linenos.length = t.frameTypes.length) :
    ∃ r' request?, reportOTLPProfile lib order samplesPerSecond reportInterval version revision r =
        some (r', request?) ∧
      (request?.isSome ↔ (drainedSamples order r).2 ≠ []) ∧
      ∀ request ∈ request?,
        request.container.profile.decode = (drainedSamples order r).2.mapM (expectedSample lib r) ∧
        request.resource = r.hostmetadata.entries.map entryAttribute ++ [some nameAttribute] ∧
        request.scopeName = "Elastic-Universal-Profiling" ∧
        request.scopeVersion = version ++ "@" ++ revision := by
  obtain ⟨ds, hds⟩ : ∃ ds, (drainedSamples order r).2.mapM (expectedSample lib r) = some ds :=
    Option.isSome_iff_exists.mp (mapM_isSome_of_forall fun e _ => expectedSample_isSome lib hshape e)
  obtain ⟨enc, henc⟩ := encodeSamples_of_mapM lib order r hds
  obtain ⟨p, ds', hp, -, hds', hdec⟩ := getProfile_of_encodeSamples lib order samplesPerSecond r henc
  have hlen : p.sample.length = (drainedSamples order r).2.length := (getProfile_samples hp).1.length_eq
  dsimp only [reportOTLPProfile]
  rw [hp, Option.map_some']
  split
  · next hempty =>
    refine ⟨_, none, rfl, ?_, fun _ h => nomatch h⟩
    rw [List.isEmpty_iff.mp hempty, List.length_nil, eq_comm, List.length_eq_zero] at hlen
    simp [hlen]
  · next hsample =>
    refine ⟨_, _, rfl, ?_, ?_⟩
    · simp only [Option.isSome_some, true_iff, ne_eq, ← List.length_eq_zero, ← hlen]
      simpa using hsample
    · intro request hrequest
      obtain rfl := Option.mem_some_iff.mp hrequest
      refine ⟨?_, getResource_eq r.hostmetadata, rfl, rfl⟩
      dsimp only
      split <;> exact hdec.trans hds'.symm

theorem reportOTLPProfile_request_oneFrame :
    ∃ r' request?, reportOTLPProfile Libpf.decimal MapOrder.stored 20 10000000000 "v1" "abc"
        oneFrameReporter = some (r', request?) ∧
      (request?.isSome ↔ (drainedSamples MapOrder.stored oneFrameReporter).2 ≠ []) ∧
      ∀ request ∈ request?,
        request.container.profile.decode =
          (drainedSamples MapOrder.stored oneFrameReporter).2.mapM
            (expectedSample Libpf.decimal oneFrameReporter) ∧
        request.resource =
          oneFrameReporter.hostmetadata.entries.map entryAttribute ++ [some nameAttribute] ∧
        request.scopeName = "Elastic-Universal-Profiling" ∧
        request.scopeVersion = "v1" ++ "@" ++ "abc" :=
  reportOTLPProfile_request Libpf.decimal MapOrder.stored 20 10000000000 "v1" "abc"
    oneFrameReporter oneFrameReporter_shape

end ProfilingAgent.Reporter
