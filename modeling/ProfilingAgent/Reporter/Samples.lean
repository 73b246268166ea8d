import ProfilingAgent.Reporter.Orders
import Mathlib.Algebra.BigOperators.Group.List

/-!
# The samples of a report

What a turn of the sample loop writes into its sample from the drained entry: the count as the
value, the stored timestamps in milliseconds, and a location range that starts at the running
`locationIndex` and holds one location per frame type of the entry's trace. The index then moves
past the range, so the ranges of consecutive samples follow one another from 0; since the loop
appends exactly the locations it counts, they cover `profile.Location` in order, and
`LocationIndices` is the identity over it.
-/

namespace ProfilingAgent.Reporter

open Pprofextended

variable {TraceHash FileID : Type} [DecidableEq TraceHash] [DecidableEq FileID]

/-- The fields a turn of the sample loop writes from its entry: one location per frame type of
the entry's trace, the count, and the timestamps in milliseconds. -/
def SampleFields (r : OTLPReporter TraceHash FileID) (s : Pprofextended.Sample)
    (entry : Σ _ : TraceHash, Sample) : Prop :=
  s.locationsLength = ((r.traces.lookup entry.1).getD {}).frameTypes.length ∧
    s.value = [entry.2.count.toNat] ∧ s.timestamps = entry.2.timestamps.map unixMilli

/-- Location ranges that follow one another from 0 and end at `next`. -/
def Tiled (samples : List Pprofextended.Sample) (next : Nat) : Prop :=
  (∀ k (hk : k < samples.length),
      samples[k].locationsStartIndex = ((samples.take k).map (·.locationsLength)).sum) ∧
    (samples.map (·.locationsLength)).sum = next

/-- A sample whose range starts where the ranges end extends the tiling. -/
theorem Tiled.push {samples : List Pprofextended.Sample} {next : Nat} (htiled : Tiled samples next)
    {s : Pprofextended.Sample} (hstart : s.locationsStartIndex = next) :
    Tiled (samples ++ [s]) (next + s.locationsLength) := by
  obtain ⟨hstarts, hsum⟩ := htiled
  refine ⟨fun k hk => ?_, by rw [List.map_append, List.sum_append, hsum]; rfl⟩
  rw [List.length_append, List.length_singleton] at hk
  rcases Nat.lt_succ_iff_lt_or_eq.mp hk with hk | rfl
  · simp [List.getElem_append_left hk, List.take_append_of_le_length hk.le, hstarts k hk]
  · simp [hstart, hsum]

namespace Encoder

/-- One turn of the sample loop appends one sample with the entry's fields, whose range starts at
the running index, and moves the index past the range. -/
theorem encodeSample_sample (lib : Libpf TraceHash FileID) (r : OTLPReporter TraceHash FileID)
    {enc enc' : Encoder FileID} (hwf : enc.WellFormed) {entry : Σ _ : TraceHash, Sample}
    (h : encodeSample lib r enc entry = some enc') :
    ∃ s, enc'.sample = enc.sample ++ [s] ∧ s.locationsStartIndex = enc.locationIndex ∧
      enc'.locationIndex = enc.locationIndex + s.locationsLength ∧ SampleFields r s entry := by
  dsimp only [encodeSample] at h
  split at h
  · cases h
  · rename_i framed hframes
    cases h
    obtain ⟨-, -, -, -, -, -, -, hsample, hidx, -, -⟩ :=
      encodeFrames_spec lib r _ _ ((hwf.intern _).withRange _ _) hframes
    exact ⟨_, by rw [hsample]; rfl, rfl, by rw [hidx]; rfl, rfl, rfl, rfl⟩

/-- A run of the sample loop appends one sample per entry, with the entry's fields, and keeps the
location ranges tiled up to the running index. -/
theorem encodeSamples_samples (lib : Libpf TraceHash FileID) (r : OTLPReporter TraceHash FileID) :
    ∀ (entries : List (Σ _ : TraceHash, Sample)) {enc enc' : Encoder FileID}, enc.WellFormed →
      enc.location.length = enc.locationIndex → encodeSamples lib r entries enc = some enc' →
      ∃ ss, enc'.sample = enc.sample ++ ss ∧ List.Forall₂ (SampleFields r) ss entries ∧
        (Tiled enc.sample enc.locationIndex → Tiled enc'.sample enc'.locationIndex)
  | [], enc, enc', _, _, h => by
    cases h
    exact ⟨[], by simp, .nil, id⟩
  | entry :: rest, enc, enc', hwf, hidx, h => by
    obtain ⟨e₁, hsample, h⟩ := encodeSamples_cons_eq_some h
    obtain ⟨s, hs, hstart, hnext, hfields⟩ := encodeSample_sample lib r hwf hsample
    obtain ⟨-, -, -, -, -, hwf₁, -, hidx₁, -⟩ := encodeSample_spec lib r hwf hidx hsample
    obtain ⟨ss, hss, hfields', htiled⟩ := encodeSamples_samples lib r rest hwf₁ hidx₁ h
    refine ⟨s :: ss, by rw [hss, hs, List.append_assoc]; rfl, .cons hfields hfields',
      fun ht => htiled ?_⟩
    rw [hs, hnext]
    exact ht.push hstart

end Encoder

/-- The samples of a report, one per drained entry in the loop's order, carry the entries'
fields, and their location ranges cover the profile's locations in order. -/
theorem getProfile_samples {lib : Libpf TraceHash FileID} {order : MapOrder}
    {samplesPerSecond : ℕ+} {r : OTLPReporter TraceHash FileID}
    {res : OTLPReporter TraceHash FileID × Profile × UInt64 × UInt64}
    (h : getProfile lib order samplesPerSecond r = some res) :
    List.Forall₂ (SampleFields r) res.2.1.sample (drainedSamples order r).2 ∧
      Tiled res.2.1.sample res.2.1.location.length := by
  obtain ⟨enc, henc, -, hsample, hlocation, -⟩ := getProfile_eq_some h
  obtain ⟨ss, hss, hfields, htiled⟩ :=
    Encoder.encodeSamples_samples lib _ _ wellFormed_initial rfl henc
  obtain ⟨-, -, -, -, -, -, -, hidx, -⟩ :=
    Encoder.encodeSamples_spec lib _ _ wellFormed_initial rfl henc
  have hss : enc.sample = ss := by simpa using hss
  rw [hsample, hlocation, hidx, hss]
  exact ⟨hfields, hss ▸ htiled ⟨fun k hk => absurd hk (Nat.not_lt_zero k), rfl⟩⟩

/-- The location ranges of a report's samples tile `profile.Location` in order: the `k`-th sample
starts where the ranges before it end and has one location per frame type of its entry's trace,
abort frames included; the last range ends at `len(profile.Location)`; and `LocationIndices` is
the identity over the locations. -/
theorem getProfile_locationRanges (lib : Libpf TraceHash FileID) (order : MapOrder)
    (samplesPerSecond : ℕ+) (r : OTLPReporter TraceHash FileID)
    {res : OTLPReporter TraceHash FileID × Profile × UInt64 × UInt64}
    (h : getProfile lib order samplesPerSecond r = some res) :
    List.Forall₂ (fun s e => ∃ t, r.traces.lookup e.1 = some t ∧
        s.locationsLength = t.frameTypes.length) res.2.1.sample (drainedSamples order r).2 ∧
      (∀ k (hk : k < res.2.1.sample.length), res.2.1.sample[k].locationsStartIndex =
        ((res.2.1.sample.take k).map (·.locationsLength)).sum) ∧
      (res.2.1.sample.map (·.locationsLength)).sum = res.2.1.location.length ∧
      res.2.1.locationIndices.length = res.2.1.location.length ∧
      ∀ i (hi : i < res.2.1.locationIndices.length), res.2.1.locationIndices[i] = i := by
  obtain ⟨hfields, hstarts, hend⟩ := getProfile_samples h
  obtain ⟨_, -, -, -, hlocation, hindices, -⟩ := getProfile_eq_some h
  refine ⟨(forall₂_and_mem_right hfields fun e he => ((mem_drainedSamples order r e).mp he).2).imp
    fun s e ⟨⟨hlen, _⟩, htrace⟩ => ?_, hstarts, hend, by rw [hindices, List.length_range, hlocation],
    fun i hi => by simp only [hindices, List.getElem_range]⟩
  obtain ⟨t, ht⟩ := Option.isSome_iff_exists.mp htrace
  exact ⟨t, ht, by rw [hlen, ht]; rfl⟩

theorem getProfile_locationRanges_twoTraces :
    ∃ res, getProfile Libpf.decimal MapOrder.stored 20 twoTraceReporter = some res ∧
      List.Forall₂ (fun s e => ∃ t, twoTraceReporter.traces.lookup e.1 = some t ∧
        s.locationsLength = t.frameTypes.length) res.2.1.sample
          (drainedSamples MapOrder.stored twoTraceReporter).2 ∧
      (∀ k (hk : k < res.2.1.sample.length), res.2.1.sample[k].locationsStartIndex =
        ((res.2.1.sample.take k).map (·.locationsLength)).sum) ∧
      (res.2.1.sample.map (·.locationsLength)).sum = res.2.1.location.length ∧
      res.2.1.locationIndices.length = res.2.1.location.length ∧
      ∀ i (hi : i < res.2.1.locationIndices.length), res.2.1.locationIndices[i] = i := by
  obtain ⟨res, hres⟩ : ∃ res, getProfile Libpf.decimal MapOrder.stored 20 twoTraceReporter =
      some res := ⟨_, rfl⟩
  exact ⟨res, hres, getProfile_locationRanges _ _ _ _ hres⟩

/-! ### Exactly once per round -/

/-- A decoded sample keeps the sample's value and timestamps. -/
theorem decodeSample_eq_some {p : Profile} {s : Pprofextended.Sample} {d : DecodedSample}
    (h : p.decodeSample s = some d) : d.value = s.value ∧ d.timestamps = s.timestamps := by
  unfold Profile.decodeSample at h
  split at h
  · cases h
    exact ⟨rfl, rfl⟩
  · cases h

/-- The expected sample of an entry has the entry's hash as stack trace ID, its count as value and
its timestamps in milliseconds. -/
theorem expectedSample_eq_some {lib : Libpf TraceHash FileID} {r : OTLPReporter TraceHash FileID}
    {e : Σ _ : TraceHash, Sample} {d : DecodedSample} (h : expectedSample lib r e = some d) :
    d.stacktraceId = lib.traceHashString e.1 ∧ d.value = [e.2.count.toNat] ∧
      d.timestamps = e.2.timestamps.map unixMilli := by
  obtain ⟨_, -, rfl⟩ := Option.map_eq_some'.mp h
  exact ⟨rfl, rfl, rfl⟩

/-- When every `traces` entry has as many files and addresses as frame types, a report returns,
and the samples of its profile are, in order, those of the entries it drains: the hash's text as
stack trace ID, the count as value and the timestamps in milliseconds. -/
theorem getProfile_forall₂_drained (lib : Libpf TraceHash FileID) (order : MapOrder)
    (samplesPerSecond : ℕ+) (r : OTLPReporter TraceHash FileID)
    (hshape : ∀ h t, r.traces.lookup h = some t →
      t.files.length = t.frameTypes.length ∧ t.linenos.length = t.frameTypes.length) :
    ∃ res, getProfile lib order samplesPerSecond r = some res ∧
      List.Forall₂ (fun (s : Pprofextended.Sample) (e : Σ _ : TraceHash, Sample) =>
          (res.2.1.decodeSample s).map DecodedSample.stacktraceId =
            some (lib.traceHashString e.1) ∧
          s.value = [e.2.count.toNat] ∧ s.timestamps = e.2.timestamps.map unixMilli)
        res.2.1.sample (drainedSamples order r).2 := by
  obtain ⟨ds, hds⟩ : ∃ ds, (drainedSamples order r).2.mapM (expectedSample lib r) = some ds :=
    Option.isSome_iff_exists.mp (mapM_isSome_of_forall fun e _ => expectedSample_isSome lib hshape e)
  obtain ⟨enc, henc⟩ := encodeSamples_of_mapM lib order r hds
  obtain ⟨p, ds', hp, -, hds', hdec⟩ := getProfile_of_encodeSamples lib order samplesPerSecond r henc
  obtain rfl : ds = ds' := Option.some.inj (hds.symm.trans hds')
  refine ⟨_, hp, (forall₂_join (mapM_eq_some_iff_forall₂.mp hdec)
    (mapM_eq_some_iff_forall₂.mp hds)).imp fun s e ⟨d, hs, he⟩ => ?_⟩
  obtain ⟨hid, hvalue, htimestamps⟩ := expectedSample_eq_some he
  obtain ⟨hvalue', htimestamps'⟩ := decodeSample_eq_some hs
  exact ⟨by rw [hs, Option.map_some', hid], hvalue'.symm.trans hvalue,
    htimestamps'.symm.trans htimestamps⟩

/-- When every `traces` entry has as many files and addresses as frame types, a report returns.
In its loop's order it emits one sample per drained entry, with the entry's hash as stack trace
ID, its count as value and its timestamps in milliseconds; the drained entries are exactly the
cached samples whose hash has a `traces` entry, each once; and the cache it leaves holds exactly
the other samples, unchanged. -/
theorem getProfile_drainsOnce (lib : Libpf TraceHash FileID) (order : MapOrder)
    (samplesPerSecond : ℕ+) (r : OTLPReporter TraceHash FileID)
    (hshape : ∀ h t, r.traces.lookup h = some t →
      t.files.length = t.frameTypes.length ∧ t.linenos.length = t.frameTypes.length) :
    ∃ res, getProfile lib order samplesPerSecond r = some res ∧
      List.Forall₂ (fun (s : Pprofextended.Sample) (e : Σ _ : TraceHash, Sample) =>
          (res.2.1.decodeSample s).map DecodedSample.stacktraceId =
            some (lib.traceHashString e.1) ∧
          s.value = [e.2.count.toNat] ∧ s.timestamps = e.2.timestamps.map unixMilli)
        res.2.1.sample (drainedSamples order r).2 ∧
      (∀ e, e ∈ (drainedSamples order r).2 ↔
        r.samples.lookup e.1 = some e.2 ∧ (r.traces.lookup e.1).isSome) ∧
      ((drainedSamples order r).2.map Sigma.fst).Nodup ∧
      ∀ k, res.1.samples.lookup k =
        if (r.traces.lookup k).isSome then none else r.samples.lookup k := by
  obtain ⟨res, hp, hsamples⟩ := getProfile_forall₂_drained lib order samplesPerSecond r hshape
  obtain ⟨-, -, hres, -⟩ := getProfile_eq_some hp
  exact ⟨res, hp, hsamples, mem_drainedSamples order r, nodup_drainedSamples order r,
    hres ▸ lookup_drainedSamples order r⟩

theorem getProfile_drainsOnce_oneFrame :
    (∀ h t, oneFrameReporter.traces.lookup h = some t →
      t.files.length = t.frameTypes.length ∧ t.linenos.length = t.frameTypes.length) ∧
    ∃ res, getProfile Libpf.decimal MapOrder.stored 20 oneFrameReporter = some res ∧
      List.Forall₂ (fun (s : Pprofextended.Sample) (e : Σ _ : Nat, Sample) =>
          (res.2.1.decodeSample s).map DecodedSample.stacktraceId =
            some (Libpf.decimal.traceHashString e.1) ∧
          s.value = [e.2.count.toNat] ∧ s.timestamps = e.2.timestamps.map unixMilli)
        res.2.1.sample (drainedSamples MapOrder.stored oneFrameReporter).2 ∧
      (∀ e, e ∈ (drainedSamples MapOrder.stored oneFrameReporter).2 ↔
        oneFrameReporter.samples.lookup e.1 = some e.2 ∧
          (oneFrameReporter.traces.lookup e.1).isSome) ∧
      ((drainedSamples MapOrder.stored oneFrameReporter).2.map Sigma.fst).Nodup ∧
      ∀ k, res.1.samples.lookup k =
        if (oneFrameReporter.traces.lookup k).isSome then none
        else oneFrameReporter.samples.lookup k :=
  ⟨oneFrameReporter_shape,
    getProfile_drainsOnce Libpf.decimal MapOrder.stored 20 oneFrameReporter oneFrameReporter_shape⟩

/-- The reporter of one frame whose trace entry lost its address. -/
def noAddressReporter : OTLPReporter Nat Nat :=
  { oneFrameReporter with
    traces := (∅ : Cache Nat (TraceInfo Nat)).insert 7
      { files := [1], linenos := [], frameTypes := [.nativeFrame] } }

/-- A sample whose trace entry has a frame but no address for it: the frame loop reads
`trace.linenos[0]` out of range, and the report panics without emitting the sample. -/
theorem getProfile_noAddress :
    (noAddressReporter.samples.lookup 7).isSome ∧ (noAddressReporter.traces.lookup 7).isSome ∧
      (getProfile Libpf.decimal MapOrder.stored 20 noAddressReporter).isNone := by
  decide

end ProfilingAgent.Reporter
