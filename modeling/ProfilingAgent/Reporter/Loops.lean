import ProfilingAgent.Reporter.EncoderSpec

/-!
# The frame loop and the sample loop

From one frame at a time to whole runs of the two loops of `getProfile`. A run of the frame
loop appends one location per frame, each representing that frame's reading of the caches; a
run of the sample loop appends one sample per drained entry, representing the entry's expected
sample. Both loops fail exactly when some frame lacks an address or a file it reads, whatever
state the encoder is in.
-/

namespace ProfilingAgent.Reporter

open Pprofextended (Location Label)

variable {TraceHash FileID : Type} [DecidableEq FileID]

namespace Encoder

/-- `enc'` is `enc` with more entries in the maps and more mappings, locations and samples. -/
structure Grows (enc enc' : Encoder FileID) : Prop where
  string : Cache.Extends enc.stringMap enc'.stringMap
  function : Cache.Extends enc.funcMap enc'.funcMap
  fileIDs : Cache.Extends enc.fileIDtoMapping enc'.fileIDtoMapping
  mapping : enc.mapping <+: enc'.mapping
  location : enc.location <+: enc'.location
  sample : enc.sample <+: enc'.sample

theorem Grows.refl (enc : Encoder FileID) : enc.Grows enc :=
  ⟨Cache.Extends.refl _, Cache.Extends.refl _, Cache.Extends.refl _, List.prefix_refl _,
    List.prefix_refl _, List.prefix_refl _⟩

theorem Grows.trans {enc enc' enc'' : Encoder FileID} (h : enc.Grows enc') (h' : enc'.Grows enc'') :
    enc.Grows enc'' :=
  ⟨h.string.trans h'.string, h.function.trans h'.function, h.fileIDs.trans h'.fileIDs,
    h.mapping.trans h'.mapping, h.location.trans h'.location, h.sample.trans h'.sample⟩

theorem Extends.grows {enc enc' : Encoder FileID} (h : enc.Extends enc') : enc.Grows enc' :=
  ⟨h.string, h.function, h.fileIDs, h.mapping, h.location ▸ List.prefix_refl _,
    h.sample ▸ List.prefix_refl _⟩

theorem grows_pushLocation (enc : Encoder FileID) (loc : Location) :
    enc.Grows (enc.pushLocation loc) :=
  ⟨Cache.Extends.refl _, Cache.Extends.refl _, Cache.Extends.refl _, List.prefix_refl _,
    List.prefix_append _ _, List.prefix_refl _⟩

theorem LocationRep.grow {enc enc' : Encoder FileID} (h : enc.Grows enc') {loc : Location}
    {dl : Pprofextended.DecodedLocation}
    (hrep : LocationRep enc.stringMap enc.funcMap enc.mapping.length loc dl) :
    LocationRep enc'.stringMap enc'.funcMap enc'.mapping.length loc dl :=
  hrep.mono h.string h.function h.mapping.length_le

theorem SampleRep.grow {enc enc' : Encoder FileID} (h : enc.Grows enc')
    {s : Pprofextended.Sample} {ds : Pprofextended.DecodedSample}
    (hrep : SampleRep enc.stringMap enc.funcMap enc.location enc.mapping.length s ds) :
    SampleRep enc'.stringMap enc'.funcMap enc'.location enc'.mapping.length s ds :=
  hrep.mono h.string h.function h.location h.mapping.length_le

/-! ### The frame loop -/

/-- A frame loop that completes completes its first frame, then the rest from there. -/
theorem encodeFrames_cons_eq_some {lib : Libpf TraceHash FileID}
    {r : OTLPReporter TraceHash FileID} {t : TraceInfo FileID} {j : Nat} {frameKind : FrameType}
    {rest : List (Nat × FrameType)} {enc enc' : Encoder FileID}
    (h : encodeFrames lib r t ((j, frameKind) :: rest) enc = some enc') :
    ∃ e₁, encodeFrame lib r t enc j frameKind = some e₁ ∧ encodeFrames lib r t rest e₁ = some enc' := by
  simp only [encodeFrames] at h
  split at h
  · exact ⟨_, ‹_›, h⟩
  · cases h

/-- A run of the frame loop appends one location per frame, representing the frames' readings
of the caches, and leaves the samples, the location index and the time range alone. -/
theorem encodeFrames_spec (lib : Libpf TraceHash FileID) (r : OTLPReporter TraceHash FileID)
    (t : TraceInfo FileID) :
    ∀ (frames : List (Nat × FrameType)) {enc enc' : Encoder FileID}, enc.WellFormed →
      encodeFrames lib r t frames enc = some enc' →
      ∃ locs dls, frames.mapM (fun f => expectedLocationAt lib r t f.1 f.2) = some dls ∧
        enc'.location = enc.location ++ locs ∧
        List.Forall₂ (LocationRep enc'.stringMap enc'.funcMap enc'.mapping.length) locs dls ∧
        enc'.WellFormed ∧ enc.Grows enc' ∧ enc'.sample = enc.sample ∧
        enc'.locationIndex = enc.locationIndex ∧ enc'.startTS = enc.startTS ∧
        enc'.endTS = enc.endTS
  | [], enc, enc', hwf, h => by
    cases h
    exact ⟨[], [], rfl, by simp, .nil, hwf, Grows.refl _, rfl, rfl, rfl, rfl⟩
  | (j, frameKind) :: rest, enc, enc', hwf, h => by
    obtain ⟨e₁, hframe, h⟩ := encodeFrames_cons_eq_some h
    obtain ⟨e, loc, dl, hext, rfl, hdl, hrep, hwf₁⟩ := encodeFrame_spec lib r t hwf hframe
    obtain ⟨locs, dls, hdls, hloc, hreps, hwf', hgrow, hsample, hidx, hstart, hend⟩ :=
      encodeFrames_spec lib r t rest hwf₁ h
    refine ⟨loc :: locs, dl :: dls, ?_, ?_, .cons ?_ hreps, hwf',
      hext.grows.trans ((grows_pushLocation e loc).trans hgrow), ?_, ?_, ?_, ?_⟩
    · rw [List.mapM_cons, hdl, hdls]
      rfl
    · simp [hloc, pushLocation, hext.location]
    · exact LocationRep.grow ((grows_pushLocation e loc).trans hgrow) hrep
    · rw [hsample]; exact hext.sample
    · rw [hidx]; exact hext.locationIndex
    · rw [hstart]; exact hext.startTS
    · rw [hend]; exact hext.endTS

/-- The frame loop fails exactly when the reading of some frame does. -/
theorem encodeFrames_eq_none_iff (lib : Libpf TraceHash FileID)
    (r : OTLPReporter TraceHash FileID) (t : TraceInfo FileID) :
    ∀ (frames : List (Nat × FrameType)) (enc : Encoder FileID),
      encodeFrames lib r t frames enc = none ↔
        frames.mapM (fun f => expectedLocationAt lib r t f.1 f.2) = none
  | [], _ => by simp only [encodeFrames, List.mapM_nil]; simp
  | (j, frameKind) :: rest, enc => by
    simp only [encodeFrames, List.mapM_cons]
    cases hframe : encodeFrame lib r t enc j frameKind with
    | none => simp [(encodeFrame_eq_none_iff lib r t enc j frameKind).mp hframe]
    | some e₁ =>
      obtain ⟨dl, hdl⟩ := Option.ne_none_iff_exists'.mp
        (mt (encodeFrame_eq_none_iff lib r t enc j frameKind).mpr (by simp [hframe]))
      rw [encodeFrames_eq_none_iff lib r t rest e₁]
      cases frames_rest : rest.mapM (fun f => expectedLocationAt lib r t f.1 f.2) <;> simp [hdl]

end Encoder

/-! ### Labels -/

theorem LabelRep.lt {stringMap : Cache String Nat} (hdense : Dense stringMap) {l : Label}
    {field : String × String} (h : LabelRep stringMap l field) :
    l.key < stringMap.entries.length ∧ l.str < stringMap.entries.length :=
  ⟨hdense.lookup_lt h.1, hdense.lookup_lt h.2⟩

/-- The label blocks emit one label per non-empty field, each representing its field. -/
theorem foldl_appendLabel_spec :
    ∀ (fields : List (String × String)) (acc : List Label × Cache String Nat)
      (emitted : List (String × String)), Dense acc.2 → List.Forall₂ (LabelRep acc.2) acc.1 emitted →
      Dense (fields.foldl appendLabel acc).2 ∧ Cache.Extends acc.2 (fields.foldl appendLabel acc).2 ∧
        List.Forall₂ (LabelRep (fields.foldl appendLabel acc).2) (fields.foldl appendLabel acc).1
          (emitted ++ fields.filter (·.2 ≠ ""))
  | [], acc, emitted, hdense, hrep => ⟨hdense, Cache.Extends.refl _, by simpa using hrep⟩
  | field :: fields, acc, emitted, hdense, hrep => by
    rw [List.foldl_cons]
    by_cases hempty : field.2 = ""
    · have := foldl_appendLabel_spec fields acc emitted hdense hrep
      simpa [appendLabel, hempty] using this
    · have hkey := (hdense.intern field.1)
      obtain ⟨hdense', hext', hrep'⟩ := foldl_appendLabel_spec fields
        (acc.1 ++ [⟨(getStringMapIndex acc.2 field.1).1,
          (getStringMapIndex (getStringMapIndex acc.2 field.1).2 field.2).1⟩],
          (getStringMapIndex (getStringMapIndex acc.2 field.1).2 field.2).2)
        (emitted ++ [field]) (hkey.intern field.2)
        (List.rel_append
          (hrep.imp fun _ _ => LabelRep.mono
            ((extends_internIndex _ _).trans (extends_internIndex _ _)))
          (.cons ⟨extends_internIndex _ _ (lookup_internIndex _ _), lookup_internIndex _ _⟩ .nil))
      have hstep : appendLabel acc field =
          (acc.1 ++ [⟨(getStringMapIndex acc.2 field.1).1,
            (getStringMapIndex (getStringMapIndex acc.2 field.1).2 field.2).1⟩],
            (getStringMapIndex (getStringMapIndex acc.2 field.1).2 field.2).2) := by
        simp [appendLabel, hempty]
      rw [hstep]
      refine ⟨hdense', ((extends_internIndex _ _).trans (extends_internIndex _ _)).trans hext', ?_⟩
      simpa [List.filter_cons, hempty] using hrep'

omit [DecidableEq FileID] in
/-- `getTraceLabels` emits the non-empty labels of the trace, in order. -/
theorem getTraceLabels_spec {stringMap : Cache String Nat} (hdense : Dense stringMap)
    (t : TraceInfo FileID) :
    Dense (getTraceLabels stringMap t).2 ∧ Cache.Extends stringMap (getTraceLabels stringMap t).2 ∧
      List.Forall₂ (LabelRep (getTraceLabels stringMap t).2) (getTraceLabels stringMap t).1
        ((traceLabelFields t).filter (·.2 ≠ "")) := by
  simpa using foldl_appendLabel_spec (traceLabelFields t) ([], stringMap) [] hdense .nil

/-! ### The sample loop -/

namespace Encoder

variable [DecidableEq TraceHash]

theorem WellFormed.withRange {enc : Encoder FileID} (hwf : enc.WellFormed) (startTS endTS : UInt64) :
    ({ enc with startTS, endTS } : Encoder FileID).WellFormed :=
  ⟨hwf.dense_string, hwf.dense_function, hwf.dense_mapping, hwf.length_mapping,
    hwf.frameIDtoFunction_eq, hwf.mapping_lt, hwf.location_lt, hwf.sample_lt⟩

theorem grows_withRange (enc : Encoder FileID) (startTS endTS : UInt64) :
    enc.Grows { enc with startTS, endTS } :=
  ⟨Cache.Extends.refl _, Cache.Extends.refl _, Cache.Extends.refl _, List.prefix_refl _,
    List.prefix_refl _, List.prefix_refl _⟩

/-- Appending a sample whose indices are in range keeps the invariant. -/
theorem WellFormed.pushSample {enc : Encoder FileID} (hwf : enc.WellFormed)
    {s : Pprofextended.Sample} (locationIndex : Nat)
    (hs : s.stacktraceIdIndex < enc.stringMap.entries.length ∧
      ∀ l ∈ s.label, l.key < enc.stringMap.entries.length ∧ l.str < enc.stringMap.entries.length) :
    ({ enc with locationIndex, sample := enc.sample ++ [s] } : Encoder FileID).WellFormed :=
  ⟨hwf.dense_string, hwf.dense_function, hwf.dense_mapping, hwf.length_mapping,
    hwf.frameIDtoFunction_eq, hwf.mapping_lt, hwf.location_lt,
    fun s' hs' => (List.mem_append.mp hs').elim (hwf.sample_lt s') fun h => by
      rw [List.mem_singleton.mp h]; exact hs⟩

/-- One turn of the sample loop appends one sample, which represents the entry's expected
sample and covers exactly the locations the turn appended; the time range takes in the entry's
timestamps. -/
theorem encodeSample_spec (lib : Libpf TraceHash FileID) (r : OTLPReporter TraceHash FileID)
    {enc enc' : Encoder FileID} (hwf : enc.WellFormed)
    (hidx : enc.location.length = enc.locationIndex) {entry : Σ _ : TraceHash, Sample}
    (h : encodeSample lib r enc entry = some enc') :
    ∃ s ds, expectedSample lib r entry = some ds ∧ enc'.sample = enc.sample ++ [s] ∧
      SampleRep enc'.stringMap enc'.funcMap enc'.location enc'.mapping.length s ds ∧
      enc'.WellFormed ∧ enc.Grows enc' ∧ enc'.location.length = enc'.locationIndex ∧
      (enc'.startTS, enc'.endTS) =
        entry.2.timestamps.foldl trackTimestamp (enc.startTS, enc.endTS) := by
  dsimp only [encodeSample] at h
  split at h
  · cases h
  · rename_i framed hframes
    cases h
    obtain ⟨locs, dls, hdls, hloc, hreps, hwf₂, hgrow, hsample, hidx₂, hstart, hend⟩ :=
      encodeFrames_spec lib r _ _ ((hwf.intern _).withRange _ _) hframes
    obtain ⟨hdense, hext, hlabels⟩ :=
      getTraceLabels_spec hwf₂.dense_string ((r.traces.lookup entry.1).getD {})
    have hlocs : framed.location = enc.location ++ locs := hloc
    have hlen : locs.length = ((r.traces.lookup entry.1).getD {}).frameTypes.length :=
      hreps.length_eq.trans ((mapM_eq_some_iff_forall₂.mp hdls).length_eq.symm.trans List.enum_length)
    have hid := (hgrow.string.trans hext) (lookup_intern enc (lib.traceHashString entry.1))
    refine ⟨_, _, by simp only [expectedSample]; rw [hdls]; rfl, by rw [hsample]; rfl,
      ⟨hid, rfl, rfl, hlabels, ?_, ?_⟩, ?_, ?_, ?_, ?_⟩
    · rw [hlocs, List.length_append, hidx, hlen]
    · rw [hlocs, ← hidx, List.drop_left, ← hlen, List.take_length]
      exact hreps.imp fun _ _ => LocationRep.mono hext (Cache.Extends.refl _) le_rfl
    · exact (hwf₂.withStringMap hext hdense).pushSample _ ⟨hdense.lookup_lt hid, fun l hl =>
        let ⟨_, _, hrep⟩ := exists_of_mem_of_forall₂ hlabels l hl
        LabelRep.lt hdense hrep⟩
    · exact ((extends_intern enc _).grows.trans ((grows_withRange _ _ _).trans hgrow)).trans
        ⟨hext, Cache.Extends.refl _, Cache.Extends.refl _, List.prefix_refl _, List.prefix_refl _,
          List.prefix_append _ _⟩
    · show framed.location.length = framed.locationIndex + _
      rw [hlocs, hidx₂, List.length_append, hidx, hlen]
      rfl
    · show (framed.startTS, framed.endTS) = _
      rw [hstart, hend]

/-- A turn of the sample loop fails exactly when the entry's expected sample does not exist. -/
theorem encodeSample_eq_none_iff (lib : Libpf TraceHash FileID) (r : OTLPReporter TraceHash FileID)
    (enc : Encoder FileID) (entry : Σ _ : TraceHash, Sample) :
    encodeSample lib r enc entry = none ↔ expectedSample lib r entry = none := by
  dsimp only [encodeSample, expectedSample]
  split
  · next hframes => simpa using (encodeFrames_eq_none_iff lib r _ _ _).mp hframes
  · next framed hframes =>
    simp only [reduceCtorEq, false_iff, Option.map_eq_none']
    rw [← encodeFrames_eq_none_iff, hframes]
    simp

/-- A sample loop that completes completes its first entry, then the rest from there. -/
theorem encodeSamples_cons_eq_some {lib : Libpf TraceHash FileID}
    {r : OTLPReporter TraceHash FileID} {entry : Σ _ : TraceHash, Sample}
    {rest : List (Σ _ : TraceHash, Sample)} {enc enc' : Encoder FileID}
    (h : encodeSamples lib r (entry :: rest) enc = some enc') :
    ∃ e₁, encodeSample lib r enc entry = some e₁ ∧ encodeSamples lib r rest e₁ = some enc' := by
  simp only [encodeSamples] at h
  split at h
  · exact ⟨_, ‹_›, h⟩
  · cases h

/-- A run of the sample loop appends one sample per entry, each representing the entry's
expected sample, and its time range takes in the entries' timestamps in turn. -/
theorem encodeSamples_spec (lib : Libpf TraceHash FileID) (r : OTLPReporter TraceHash FileID) :
    ∀ (entries : List (Σ _ : TraceHash, Sample)) {enc enc' : Encoder FileID}, enc.WellFormed →
      enc.location.length = enc.locationIndex → encodeSamples lib r entries enc = some enc' →
      ∃ ss ds, entries.mapM (expectedSample lib r) = some ds ∧ enc'.sample = enc.sample ++ ss ∧
        List.Forall₂ (SampleRep enc'.stringMap enc'.funcMap enc'.location enc'.mapping.length)
          ss ds ∧
        enc'.WellFormed ∧ enc.Grows enc' ∧ enc'.location.length = enc'.locationIndex ∧
        (enc'.startTS, enc'.endTS) =
          (entries.flatMap (·.2.timestamps)).foldl trackTimestamp (enc.startTS, enc.endTS)
  | [], enc, enc', hwf, hidx, h => by
    cases h
    exact ⟨[], [], rfl, by simp, .nil, hwf, Grows.refl _, hidx, rfl⟩
  | entry :: rest, enc, enc', hwf, hidx, h => by
    obtain ⟨e₁, hsample, h⟩ := encodeSamples_cons_eq_some h
    obtain ⟨s, d, hd, hs, hrep, hwf₁, hgrow₁, hidx₁, hrange₁⟩ :=
      encodeSample_spec lib r hwf hidx hsample
    obtain ⟨ss, ds, hds, hss, hreps, hwf', hgrow, hidx', hrange⟩ :=
      encodeSamples_spec lib r rest hwf₁ hidx₁ h
    refine ⟨s :: ss, d :: ds, ?_, ?_, .cons (SampleRep.grow hgrow hrep) hreps, hwf',
      hgrow₁.trans hgrow, hidx', ?_⟩
    · rw [List.mapM_cons, hd, hds]
      rfl
    · rw [hss, hs, List.append_assoc]
      rfl
    · rw [hrange, List.flatMap_cons, List.foldl_append, ← hrange₁]

/-- The sample loop fails exactly when some entry's expected sample does not exist. -/
theorem encodeSamples_eq_none_iff (lib : Libpf TraceHash FileID)
    (r : OTLPReporter TraceHash FileID) :
    ∀ (entries : List (Σ _ : TraceHash, Sample)) (enc : Encoder FileID),
      encodeSamples lib r entries enc = none ↔ entries.mapM (expectedSample lib r) = none
  | [], _ => by simp only [encodeSamples, List.mapM_nil]; simp
  | entry :: rest, enc => by
    simp only [encodeSamples, List.mapM_cons]
    cases hsample : encodeSample lib r enc entry with
    | none => simp [(encodeSample_eq_none_iff lib r enc entry).mp hsample]
    | some e₁ =>
      obtain ⟨d, hd⟩ := Option.ne_none_iff_exists'.mp
        (mt (encodeSample_eq_none_iff lib r enc entry).mpr (by simp [hsample]))
      rw [encodeSamples_eq_none_iff lib r rest e₁]
      cases rest.mapM (expectedSample lib r) <;> simp [hd]

end Encoder

end ProfilingAgent.Reporter
