import ProfilingAgent.Reporter.Loops
import ProfilingAgent.Reporter.Drain

/-!
# What a report contains

The end of `getProfile`: the function table is flattened from the function map (interning the
functions' names and files), then the string table from the string map. Under the encoder's
invariant both loops fill every slot in range, so a report whose sample loop completes returns a
profile; that profile's references are all in range and it decodes to the caches' reading of the
samples the report drained.
-/

namespace ProfilingAgent.Reporter

open Pprofextended

variable {TraceHash FileID : Type} [DecidableEq TraceHash] [DecidableEq FileID]

/-- Under the invariant every function slot is filled with the function's two strings, interned
into a string map that stays dense and only grows. -/
theorem flattenFunctions_spec (order : MapOrder) {funcMap : Cache FuncInfo Nat}
    {stringMap : Cache String Nat} (hfunc : Dense funcMap) (hstring : Dense stringMap) :
    ∃ function stringMap',
      flattenFunctions order funcMap stringMap = some (function, stringMap') ∧
      function.length = funcMap.entries.length ∧ Dense stringMap' ∧
      Cache.Extends stringMap stringMap' ∧
      ∀ ⦃fi : FuncInfo⦄ ⦃i : Nat⦄, funcMap.lookup fi = some i →
        ∃ f, function[i]? = some (some f) ∧ stringMap'.lookup fi.name = some f.name ∧
          stringMap'.lookup fi.fileName = some f.filename := by
  have hperm := order.perm funcMap.entries
  obtain ⟨function, stringMap', hfill, hlen, ⟨hext, hdense⟩, -, hwritten⟩ :=
    fillTable_spec functionSlot (fun s s' => Cache.Extends s s' ∧ (Dense s → Dense s'))
      (fun s => ⟨Cache.Extends.refl s, id⟩) (fun h h' => ⟨h.1.trans h'.1, h'.2 ∘ h.2⟩)
      (fun _ _ => ⟨(extends_internIndex _ _).trans (extends_internIndex _ _),
        fun hs => (hs.intern _).intern _⟩)
      (order.arrange funcMap.entries) (List.replicate funcMap.entries.length none) stringMap
      ((hperm.map Sigma.snd).nodup_iff.mpr hfunc.nodup_indices)
      (fun e he => by
        simpa using hfunc.lookup_lt (AList.mem_lookup_iff.mpr (hperm.subset he)))
  refine ⟨function, stringMap', hfill, by simpa using hlen, hdense hstring, hext,
    fun fi i hfi => ?_⟩
  obtain ⟨s₀, ⟨hext₀, -⟩, hslot⟩ :=
    hwritten ⟨fi, i⟩ (hperm.symm.subset (AList.mem_lookup_iff.mp hfi))
  exact ⟨_, hslot, hext₀ (extends_internIndex _ _ (lookup_internIndex _ _)),
    hext₀ (lookup_internIndex _ _)⟩

/-- Every sequence of `getStringMapIndex` calls from `{"": 0}` and of `createFunctionEntry` calls
from the empty map keeps each map's indices exactly `0, …, len - 1` after every prefix, keeps
every key at the index it had, and has each call return the index its key ends at. The two
flatten loops then fill every slot of both tables, each with the one key whose index it is. -/
theorem callAll_flattenTables (order : MapOrder) (values : List String)
    (functions : List FuncInfo) :
    let strings := callAll getStringMapIndex ((∅ : Cache String Nat).insert "" 0)
    let funcs := callAll (fun funcMap (fi : FuncInfo) =>
      createFunctionEntry funcMap fi.name fi.fileName) ∅
    (∀ pre post, pre ++ post = values →
      Dense (strings pre).2 ∧ Cache.Extends (strings pre).2 (strings values).2) ∧
    (∀ pre post, pre ++ post = functions →
      Dense (funcs pre).2 ∧ Cache.Extends (funcs pre).2 (funcs functions).2) ∧
    List.Forall₂ (fun value i => (strings values).2.lookup value = some i)
      values (strings values).1 ∧
    List.Forall₂ (fun fi i => (funcs functions).2.lookup fi = some i)
      functions (funcs functions).1 ∧
    ∃ function stringMap table,
      flattenFunctions order (funcs functions).2 (strings values).2 =
        some (function, stringMap) ∧
      flattenStrings order stringMap = some table ∧
      function.length = (funcs functions).2.entries.length ∧
      table.length = stringMap.entries.length ∧
      (∀ i < function.length, ∃! fi, (funcs functions).2.lookup fi = some i ∧
        ∃ f, function[i]? = some (some f) ∧
          table[f.name]? = some fi.name ∧ table[f.filename]? = some fi.fileName) ∧
      ∀ i < table.length, ∃! s, stringMap.lookup s = some i ∧ table[i]? = some s := by
  intro strings funcs
  have hfempty : Dense (∅ : Cache FuncInfo Nat) := dense_empty
  obtain ⟨hsd, -, hscalls⟩ := callAll_internIndex (dense_singleton "") values
  obtain ⟨hfd, -, hfcalls⟩ := callAll_internIndex hfempty functions
  obtain ⟨function, stringMap, hfun, hflen, hdense, -, hslots⟩ :=
    flattenFunctions_spec order hfd hsd
  obtain ⟨table, htable, htlen, hstr⟩ := flattenStrings_spec order hdense
  refine ⟨fun _ _ h => callAll_prefix (dense_singleton "") h,
    fun _ _ h => callAll_prefix hfempty h, hscalls, hfcalls,
    function, stringMap, table, hfun, htable, hflen, htlen, fun i hi => ?_, fun i hi => ?_⟩
  · obtain ⟨fi, hfi, huniq⟩ := hfd.existsUnique_lookup (hflen ▸ hi)
    obtain ⟨f, hf, hname, hfile⟩ := hslots hfi
    exact ⟨fi, ⟨hfi, f, hf, hstr hname, hstr hfile⟩, fun fi' h => huniq fi' h.1⟩
  · obtain ⟨s, hs, huniq⟩ := hdense.existsUnique_lookup (htlen ▸ hi)
    exact ⟨s, ⟨hs, hstr hs⟩, fun s' h => huniq s' h.1⟩

/-- The four header strings sit at 1 to 4, after the empty string. -/
theorem headerStrings_lt :
    headerStrings.2.1.type < headerStrings.1.entries.length ∧
      headerStrings.2.1.unit < headerStrings.1.entries.length ∧
      headerStrings.2.2.type < headerStrings.1.entries.length ∧
      headerStrings.2.2.unit < headerStrings.1.entries.length := by
  decide

/-- The encoder `getProfile` starts its sample loop with. -/
theorem wellFormed_initial : ({ stringMap := headerStrings.1 } : Encoder FileID).WellFormed where
  dense_string :=
    ((((dense_singleton "").intern "samples").intern "count").intern "cpu").intern "nanoseconds"
  dense_function := dense_empty
  dense_mapping := dense_empty
  length_mapping := rfl
  frameIDtoFunction_eq := rfl
  mapping_lt := by simp
  location_lt := by simp
  sample_lt := by simp

/-- Once the sample loop completes the rest of a report cannot fail: it returns a profile whose
references are in range and which decodes to the caches' reading of the drained samples. -/
theorem getProfile_of_encodeSamples (lib : Libpf TraceHash FileID) (order : MapOrder)
    (samplesPerSecond : ℕ+) (r : OTLPReporter TraceHash FileID) {enc : Encoder FileID}
    (henc : encodeSamples lib { r with samples := (drainedSamples order r).1 }
      (drainedSamples order r).2 { stringMap := headerStrings.1 } = some enc) :
    ∃ p ds, getProfile lib order samplesPerSecond r =
        some ({ r with samples := (drainedSamples order r).1 }, p, enc.startTS, enc.endTS) ∧
      p.WellIndexed ∧ (drainedSamples order r).2.mapM (expectedSample lib r) = some ds ∧
      p.decode = some ds := by
  obtain ⟨ss, ds, hds, hss, hreps, hwf, hgrow, -, -⟩ :=
    Encoder.encodeSamples_spec lib _ _ wellFormed_initial rfl henc
  rw [expectedSample_withSamples] at hds
  have hss : enc.sample = ss := by simpa using hss
  obtain ⟨function, stringMap, hfun, hflen, hdense, hext, hslots⟩ :=
    flattenFunctions_spec order hwf.dense_function hwf.dense_string
  obtain ⟨table, htable, htlen, hstr⟩ := flattenStrings_spec order hdense
  have hlen : enc.stringMap.entries.length ≤ table.length := htlen ▸ hext.length_le
  have hheader : headerStrings.1.entries.length ≤ table.length :=
    hgrow.string.length_le.trans hlen
  simp only [getProfile, henc, hfun, htable]
  refine ⟨_, ds, rfl, ⟨?_, ?_, ?_, ?_, ?_, ?_⟩, hds, ?_⟩
  · intro vt hvt
    rw [List.mem_singleton.mp hvt]
    exact ⟨headerStrings_lt.1.trans_le hheader, headerStrings_lt.2.1.trans_le hheader⟩
  · exact ⟨headerStrings_lt.2.2.1.trans_le hheader, headerStrings_lt.2.2.2.trans_le hheader⟩
  · intro s hs
    obtain ⟨hid, hlabels⟩ := hwf.sample_lt s hs
    obtain ⟨_, _, hrep⟩ := exists_of_mem_of_forall₂ hreps s (hss ▸ hs)
    exact ⟨hid.trans_le hlen, fun l hl => ⟨(hlabels l hl).1.trans_le hlen,
      (hlabels l hl).2.trans_le hlen⟩, hrep.2.2.2.2.1⟩
  · intro loc hloc
    obtain ⟨htype, hmap, hlines⟩ := hwf.location_lt loc hloc
    exact ⟨htype.trans_le hlen, hmap, fun l hl => ⟨(hlines l hl).1,
      (hlines l hl).2.trans_eq hflen.symm⟩⟩
  · intro m hm
    exact ⟨(hwf.mapping_lt m hm).1.trans_le hlen, (hwf.mapping_lt m hm).2.trans_le hlen⟩
  · intro f hf
    obtain ⟨i, hi⟩ := List.mem_iff_getElem?.mp hf
    obtain ⟨fi, hfi⟩ := hwf.dense_function.exists_lookup i
      (hflen ▸ (List.getElem?_eq_some_iff.mp hi).1)
    obtain ⟨fn, hfn, hname, hfile⟩ := hslots hfi
    exact ⟨fn, Option.some.inj (hi.symm.trans hfn), (hdense.lookup_lt hname).trans_eq htlen.symm,
      (hdense.lookup_lt hfile).trans_eq htlen.symm⟩
  · refine decode_eq_of_forall₂
      (show TablesHold _ stringMap enc.funcMap from ⟨hstr, fun fi i hfi => ?_⟩) le_rfl ?_
    · obtain ⟨f, hf, hname, hfile⟩ := hslots hfi
      exact ⟨f, hf, hstr hname, hstr hfile⟩
    · show List.Forall₂ _ enc.sample ds
      rw [hss]
      exact hreps.imp fun _ _ => SampleRep.mono hext (Cache.Extends.refl _) (List.prefix_refl _) le_rfl

/-- What a report that returns is made of: the encoder its sample loop ends with, over the
drained samples, whose samples, locations and time range the profile carries. -/
theorem getProfile_eq_some {lib : Libpf TraceHash FileID} {order : MapOrder}
    {samplesPerSecond : ℕ+} {r : OTLPReporter TraceHash FileID}
    {res : OTLPReporter TraceHash FileID × Profile × UInt64 × UInt64}
    (h : getProfile lib order samplesPerSecond r = some res) :
    ∃ enc, encodeSamples lib { r with samples := (drainedSamples order r).1 }
        (drainedSamples order r).2 { stringMap := headerStrings.1 } = some enc ∧
      res.1 = { r with samples := (drainedSamples order r).1 } ∧
      res.2.1.sample = enc.sample ∧ res.2.1.location = enc.location ∧
      res.2.1.locationIndices = List.range enc.location.length ∧
      res.2.1.timeNanos = unixNano enc.startTS ∧
      res.2.1.durationNanos = Int.bmod (unixNano enc.endTS - unixNano enc.startTS) (2 ^ 64) ∧
      res.2.2 = (enc.startTS, enc.endTS) := by
  dsimp only [getProfile] at h
  split at h
  · cases h
  rename_i enc henc
  refine ⟨enc, henc, ?_⟩
  repeat' split at h
  all_goals cases h
  dsimp only
  exact ⟨rfl, rfl, rfl, rfl, rfl, rfl, rfl⟩

/-- A report's sample loop completes when the caches' reading of the samples it drains exists. -/
theorem encodeSamples_of_mapM (lib : Libpf TraceHash FileID) (order : MapOrder)
    (r : OTLPReporter TraceHash FileID) {ds : List DecodedSample}
    (hds : (drainedSamples order r).2.mapM (expectedSample lib r) = some ds) :
    ∃ enc, encodeSamples lib { r with samples := (drainedSamples order r).1 }
      (drainedSamples order r).2 ({ stringMap := headerStrings.1 } : Encoder FileID) = some enc :=
  Option.ne_none_iff_exists'.mp <| (Encoder.encodeSamples_eq_none_iff lib _ _ _).not.mpr
    (by rw [expectedSample_withSamples, hds]; exact Option.some_ne_none ds)

/-- A report decodes to the caches' reading of the samples it drains, and fails exactly when that
reading does (a frame whose trace lacks its address or its file). -/
theorem getProfile_bind_decode (lib : Libpf TraceHash FileID) (order : MapOrder)
    (samplesPerSecond : ℕ+) (r : OTLPReporter TraceHash FileID) :
    (getProfile lib order samplesPerSecond r).bind (fun res => res.2.1.decode) =
        (drainedSamples order r).2.mapM (expectedSample lib r) ∧
      (getProfile lib order samplesPerSecond r).isSome =
        ((drainedSamples order r).2.mapM (expectedSample lib r)).isSome := by
  cases hds : (drainedSamples order r).2.mapM (expectedSample lib r) with
  | none =>
    have henc := (Encoder.encodeSamples_eq_none_iff lib { r with samples := (drainedSamples order r).1 }
      (drainedSamples order r).2 ({ stringMap := headerStrings.1 } : Encoder FileID)).mpr
      (by rw [expectedSample_withSamples, hds])
    simp [getProfile, henc]
  | some ds =>
    obtain ⟨enc, henc⟩ := encodeSamples_of_mapM lib order r hds
    obtain ⟨p, ds', hp, -, hds', hdec⟩ := getProfile_of_encodeSamples lib order samplesPerSecond r henc
    rw [hds, Option.some.injEq] at hds'
    subst hds'
    simp [hp, hdec]

/-- When every `traces` entry has as many files and addresses as frames, a report completes,
every reference in its profile is in range, every sample it encodes has a `traces` entry, and
the profile decodes to the caches' reading of the samples it drained. -/
theorem getProfile_decodes (lib : Libpf TraceHash FileID) (order : MapOrder)
    (samplesPerSecond : ℕ+) (r : OTLPReporter TraceHash FileID)
    (hshape : ∀ h t, r.traces.lookup h = some t →
      t.files.length = t.frameTypes.length ∧ t.linenos.length = t.frameTypes.length) :
    ∃ r' p startTS endTS ds,
      getProfile lib order samplesPerSecond r = some (r', p, startTS, endTS) ∧ p.WellIndexed ∧
      (∀ e ∈ (drainedSamples order r).2, ∃ t, r.traces.lookup e.1 = some t) ∧
      (drainedSamples order r).2.mapM (expectedSample lib r) = some ds ∧ p.decode = some ds := by
  obtain ⟨ds, hds⟩ : ∃ ds, (drainedSamples order r).2.mapM (expectedSample lib r) = some ds :=
    Option.isSome_iff_exists.mp (mapM_isSome_of_forall fun e _ => expectedSample_isSome lib hshape e)
  obtain ⟨enc, henc⟩ := encodeSamples_of_mapM lib order r hds
  obtain ⟨p, ds', hp, hwi, hds', hdec⟩ := getProfile_of_encodeSamples lib order samplesPerSecond r henc
  exact ⟨_, p, _, _, ds', hp, hwi,
    fun e he => Option.isSome_iff_exists.mp ((mem_drainedSamples order r e).mp he).2, hds', hdec⟩

/-- A reporter with one trace of one native frame, and a count of 3 for it. -/
def oneFrameReporter : OTLPReporter Nat Nat where
  hostmetadata := ∅
  traces := (∅ : Cache Nat (TraceInfo Nat)).insert 7
    { files := [1], linenos := [4096], frameTypes := [.nativeFrame] }
  samples := (∅ : Cache Nat Sample).insert 7 { timestamps := [1700000000], count := 3 }
  fallbackSymbols := ∅
  executables := ∅
  frames := ∅
  otlpBuildIDMode := "hash"

/-- Its one trace has one file and one address for its one frame. -/
theorem oneFrameReporter_shape : ∀ h t, oneFrameReporter.traces.lookup h = some t →
    t.files.length = t.frameTypes.length ∧ t.linenos.length = t.frameTypes.length := by
  intro h t ht
  by_cases hh : h = 7
  · subst hh
    simp only [oneFrameReporter, AList.lookup_insert, Option.some.injEq] at ht
    subst ht
    exact ⟨rfl, rfl⟩
  · simp only [oneFrameReporter, AList.lookup_insert_ne hh, AList.lookup_empty] at ht
    cases ht

theorem getProfile_decodes_oneFrame :
    (∀ h t, oneFrameReporter.traces.lookup h = some t →
      t.files.length = t.frameTypes.length ∧ t.linenos.length = t.frameTypes.length) ∧
    ∃ r' p startTS endTS ds,
      getProfile Libpf.decimal MapOrder.stored 20 oneFrameReporter = some (r', p, startTS, endTS) ∧
      p.WellIndexed ∧
      (∀ e ∈ (drainedSamples MapOrder.stored oneFrameReporter).2,
        ∃ t, oneFrameReporter.traces.lookup e.1 = some t) ∧
      (drainedSamples MapOrder.stored oneFrameReporter).2.mapM
        (expectedSample Libpf.decimal oneFrameReporter) = some ds ∧ p.decode = some ds :=
  ⟨oneFrameReporter_shape,
    getProfile_decodes Libpf.decimal MapOrder.stored 20 oneFrameReporter oneFrameReporter_shape⟩

end ProfilingAgent.Reporter
