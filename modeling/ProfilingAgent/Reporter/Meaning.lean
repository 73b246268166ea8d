import ProfilingAgent.Reporter.GetProfile

/-!
# What a profile should say

`expectedSample` reads straight from the caches what the sample `getProfile` emits for a trace
hash should decode to: the hash's text, the count, the timestamps in milliseconds, the non-empty
labels, and for each frame its address, the name of its type and, for kernel and interpreted
frames, the function its line resolves to.

The encoder cannot be compared with that reading directly, since its indices point into tables
that are only flattened at the end. The `…Rep` relations say that a partly built location,
label or sample represents its reading relative to the dedup maps built so far; they survive any
growth of the maps, and once the tables are flattened they become `decode` equations.
-/

namespace ProfilingAgent.Reporter

open Pprofextended

variable {TraceHash FileID : Type} [DecidableEq TraceHash] [DecidableEq FileID]

/-- The lines a frame resolves to, read from the caches: none for native and abort frames, the
fallback symbol (or `UNKNOWN`) in `vmlinux` for a kernel frame, and for an interpreted frame
`UNREPORTED` or `UNRESOLVED` in the frame type's name, or the stored function and line. -/
def expectedLines (lib : Libpf TraceHash FileID) (r : OTLPReporter TraceHash FileID)
    (frameKind : FrameType) (fileID : FileID) (address : AddressOrLineno) : List DecodedLine :=
  match frameKind with
  | .nativeFrame => []
  | .abortFrame => []
  | .kernelFrame =>
    [⟨(r.fallbackSymbols.lookup (newFrameID fileID address)).getD "UNKNOWN", "vmlinux", 0⟩]
  | .other _ =>
    match r.frames.lookup fileID with
    | none => [⟨"UNREPORTED", lib.frameTypeString frameKind, 0⟩]
    | some fileIDInfo =>
      match fileIDInfo.lookup address with
      | none => [⟨"UNRESOLVED", lib.frameTypeString frameKind, 0⟩]
      | some si => [⟨si.functionName, si.filePath, Int.bmod si.lineNumber.toNat (2 ^ 64)⟩]

/-- Frame `j` of a trace, read from the caches; `none` when the trace lacks the address, or
the file of a frame that is not an abort frame. -/
def expectedLocationAt (lib : Libpf TraceHash FileID) (r : OTLPReporter TraceHash FileID)
    (t : TraceInfo FileID) (j : Nat) (frameKind : FrameType) : Option DecodedLocation :=
  match t.linenos[j]? with
  | none => none
  | some address =>
    match frameKind with
    | .abortFrame => some ⟨address, lib.frameTypeString frameKind, [], false⟩
    | _ => t.files[j]?.map fun fileID =>
      ⟨address, lib.frameTypeString frameKind, expectedLines lib r frameKind fileID address, true⟩

/-- The sample a drained entry should decode to. -/
def expectedSample (lib : Libpf TraceHash FileID) (r : OTLPReporter TraceHash FileID)
    (entry : Σ _ : TraceHash, Sample) : Option DecodedSample :=
  let t := (r.traces.lookup entry.1).getD {}
  (t.frameTypes.enum.mapM fun f => expectedLocationAt lib r t f.1 f.2).map fun locations =>
    { stacktraceId := lib.traceHashString entry.1
      value := [entry.2.count.toNat]
      timestamps := entry.2.timestamps.map unixMilli
      labels := (traceLabelFields t).filter (·.2 ≠ "")
      locations }

/-- The reading does not look at the sample cache. -/
@[simp]
theorem expectedSample_withSamples (lib : Libpf TraceHash FileID)
    (r : OTLPReporter TraceHash FileID) (samples : Cache TraceHash Sample) :
    expectedSample lib { r with samples } = expectedSample lib r :=
  rfl

omit [DecidableEq TraceHash] in
/-- A frame has a reading when the trace has its address and its file. -/
theorem expectedLocationAt_isSome (lib : Libpf TraceHash FileID)
    (r : OTLPReporter TraceHash FileID) {t : TraceInfo FileID} {j : Nat} (frameKind : FrameType)
    (hlinenos : j < t.linenos.length) (hfiles : j < t.files.length) :
    (expectedLocationAt lib r t j frameKind).isSome := by
  rw [expectedLocationAt, List.getElem?_eq_getElem hlinenos]
  cases frameKind <;> simp [List.getElem?_eq_getElem hfiles]

/-- Every sample has a reading when every `traces` entry has as many files and addresses as
frames. -/
theorem expectedSample_isSome (lib : Libpf TraceHash FileID) {r : OTLPReporter TraceHash FileID}
    (hshape : ∀ h t, r.traces.lookup h = some t →
      t.files.length = t.frameTypes.length ∧ t.linenos.length = t.frameTypes.length)
    (entry : Σ _ : TraceHash, Sample) : (expectedSample lib r entry).isSome := by
  have hlen : ((r.traces.lookup entry.1).getD {}).files.length =
        ((r.traces.lookup entry.1).getD {}).frameTypes.length ∧
      ((r.traces.lookup entry.1).getD {}).linenos.length =
        ((r.traces.lookup entry.1).getD {}).frameTypes.length := by
    cases hlookup : r.traces.lookup entry.1 with
    | none => exact ⟨rfl, rfl⟩
    | some t => exact hshape entry.1 t hlookup
  rw [expectedSample, Option.isSome_map']
  exact mapM_isSome_of_forall fun f hf =>
    have hj := List.fst_lt_of_mem_enum hf
    expectedLocationAt_isSome lib r f.2 (by omega) (by omega)

/-! ### Representation relative to the dedup maps -/

/-- A line whose function the function map holds at `functionIndex - 1`. -/
def LineRep (funcMap : Cache FuncInfo Nat) (l : Line) (dl : DecodedLine) : Prop :=
  ∃ i, funcMap.lookup ⟨dl.functionName, dl.fileName⟩ = some i ∧ l = ⟨i + 1, dl.line⟩

/-- A location whose type string, lines and mapping reference represent `dl`. -/
def LocationRep (stringMap : Cache String Nat) (funcMap : Cache FuncInfo Nat) (mappings : Nat)
    (loc : Location) (dl : DecodedLocation) : Prop :=
  stringMap.lookup dl.frameType = some loc.typeIndex ∧ loc.address = dl.address ∧
    List.Forall₂ (LineRep funcMap) loc.line dl.lines ∧
    decide (loc.mappingIndex ≠ 0) = dl.mapped ∧ loc.mappingIndex ≤ mappings

/-- A label whose key and value the string map holds at its two indices. -/
def LabelRep (stringMap : Cache String Nat) (l : Label) (field : String × String) : Prop :=
  stringMap.lookup field.1 = some l.key ∧ stringMap.lookup field.2 = some l.str

/-- A sample whose fields, and the locations of whose range, represent `ds`. -/
def SampleRep (stringMap : Cache String Nat) (funcMap : Cache FuncInfo Nat)
    (locations : List Location) (mappings : Nat) (s : Pprofextended.Sample) (ds : DecodedSample) :
    Prop :=
  stringMap.lookup ds.stacktraceId = some s.stacktraceIdIndex ∧ s.value = ds.value ∧
    s.timestamps = ds.timestamps ∧ List.Forall₂ (LabelRep stringMap) s.label ds.labels ∧
    s.locationsStartIndex + s.locationsLength ≤ locations.length ∧
    List.Forall₂ (LocationRep stringMap funcMap mappings)
      ((locations.drop s.locationsStartIndex).take s.locationsLength) ds.locations

section Mono

variable {stringMap stringMap' : Cache String Nat} {funcMap funcMap' : Cache FuncInfo Nat}

theorem LineRep.mono (hfunc : Cache.Extends funcMap funcMap') {l : Line} {dl : DecodedLine}
    (h : LineRep funcMap l dl) : LineRep funcMap' l dl :=
  let ⟨i, hi, hl⟩ := h
  ⟨i, hfunc hi, hl⟩

theorem LocationRep.mono (hstring : Cache.Extends stringMap stringMap')
    (hfunc : Cache.Extends funcMap funcMap') {mappings mappings' : Nat}
    (hmappings : mappings ≤ mappings') {loc : Location} {dl : DecodedLocation}
    (h : LocationRep stringMap funcMap mappings loc dl) :
    LocationRep stringMap' funcMap' mappings' loc dl :=
  ⟨hstring h.1, h.2.1, h.2.2.1.imp fun _ _ => LineRep.mono hfunc, h.2.2.2.1,
    h.2.2.2.2.trans hmappings⟩

theorem LabelRep.mono (hstring : Cache.Extends stringMap stringMap') {l : Label}
    {field : String × String} (h : LabelRep stringMap l field) : LabelRep stringMap' l field :=
  ⟨hstring h.1, hstring h.2⟩

/-- A range of locations is unchanged by appending after it. -/
theorem take_drop_of_append {γ : Type} {xs ys : List γ} (hpre : xs <+: ys) {start len : Nat}
    (hle : start + len ≤ xs.length) : (ys.drop start).take len = (xs.drop start).take len := by
  obtain ⟨rest, rfl⟩ := hpre
  rw [List.drop_append_of_le_length (by omega), List.take_append_of_le_length (by simp; omega)]

theorem SampleRep.mono (hstring : Cache.Extends stringMap stringMap')
    (hfunc : Cache.Extends funcMap funcMap') {locations locations' : List Location}
    (hlocations : locations <+: locations') {mappings mappings' : Nat}
    (hmappings : mappings ≤ mappings') {s : Pprofextended.Sample} {ds : DecodedSample}
    (h : SampleRep stringMap funcMap locations mappings s ds) :
    SampleRep stringMap' funcMap' locations' mappings' s ds := by
  obtain ⟨hid, hvalue, htimestamps, hlabels, hle, hlocs⟩ := h
  refine ⟨hstring hid, hvalue, htimestamps, hlabels.imp fun _ _ => LabelRep.mono hstring,
    hle.trans hlocations.length_le, ?_⟩
  rw [take_drop_of_append hlocations hle]
  exact hlocs.imp fun _ _ => LocationRep.mono hstring hfunc hmappings

end Mono

/-! ### From representation to decoding -/

/-- The flattened tables of a profile hold every string and every function of the final dedup
maps at its index. -/
structure TablesHold (p : Profile) (stringMap : Cache String Nat) (funcMap : Cache FuncInfo Nat) :
    Prop where
  string : ∀ ⦃s : String⦄ ⦃i : Nat⦄, stringMap.lookup s = some i → p.stringTable[i]? = some s
  function : ∀ ⦃fi : FuncInfo⦄ ⦃i : Nat⦄, funcMap.lookup fi = some i →
    ∃ f, p.function[i]? = some (some f) ∧ p.stringTable[f.name]? = some fi.name ∧
      p.stringTable[f.filename]? = some fi.fileName

section Decode

variable {p : Profile} {stringMap : Cache String Nat} {funcMap : Cache FuncInfo Nat}

theorem LineRep.decode (htables : TablesHold p stringMap funcMap) {l : Line} {dl : DecodedLine}
    (h : LineRep funcMap l dl) : p.decodeLine l = some dl := by
  obtain ⟨i, hi, rfl⟩ := h
  obtain ⟨f, hf, hname, hfile⟩ := htables.function hi
  simp [Profile.decodeLine, hf, hname, hfile]

theorem LocationRep.decode (htables : TablesHold p stringMap funcMap)
    (hmappings : mappings ≤ p.mapping.length) {loc : Location} {dl : DecodedLocation}
    (h : LocationRep stringMap funcMap mappings loc dl) : p.decodeLocation loc = some dl := by
  obtain ⟨htype, haddress, hlines, hmapped, hle⟩ := h
  have hdecoded : loc.line.mapM p.decodeLine = some dl.lines :=
    mapM_eq_some_iff_forall₂.mpr (hlines.imp fun _ _ => LineRep.decode htables)
  rw [Profile.decodeLocation, if_pos (hle.trans hmappings), htables.string htype, hdecoded,
    haddress, hmapped]

theorem LabelRep.decode (htables : TablesHold p stringMap funcMap) {l : Label}
    {field : String × String} (h : LabelRep stringMap l field) :
    p.decodeLabel l = some field := by
  simp [Profile.decodeLabel, htables.string h.1, htables.string h.2]

/-- A range of a list, read element by element, is the slice `take len (drop start xs)`. -/
theorem mapM_range'_eq_some {γ δ : Type} {g : γ → Option δ} {xs : List γ} :
    ∀ {start len : Nat} {ds : List δ}, start + len ≤ xs.length →
      List.Forall₂ (fun x d => g x = some d) ((xs.drop start).take len) ds →
      (List.range' start len).mapM (fun i => xs[i]?.bind g) = some ds
  | _, 0, ds, _, h => by cases h; rfl
  | start, len + 1, ds, hle, h => by
    rw [List.drop_eq_getElem_cons (by omega), List.take_succ_cons] at h
    obtain ⟨d, ds, hd, hrest, rfl⟩ : ∃ d ds', g xs[start] = some d ∧
        List.Forall₂ (fun x d => g x = some d) ((xs.drop (start + 1)).take len) ds' ∧
        ds = d :: ds' := by
      cases h with
      | cons hd hrest => exact ⟨_, _, hd, hrest, rfl⟩
    rw [List.range'_succ, List.mapM_cons, List.getElem?_eq_getElem (by omega), Option.some_bind,
      hd, mapM_range'_eq_some (by omega) hrest]
    rfl

theorem SampleRep.decode (htables : TablesHold p stringMap funcMap)
    (hmappings : mappings ≤ p.mapping.length) {s : Pprofextended.Sample} {ds : DecodedSample}
    (h : SampleRep stringMap funcMap p.location mappings s ds) : p.decodeSample s = some ds := by
  obtain ⟨hid, hvalue, htimestamps, hlabels, hle, hlocs⟩ := h
  have hlabels' : s.label.mapM p.decodeLabel = some ds.labels :=
    mapM_eq_some_iff_forall₂.mpr (hlabels.imp fun _ _ => LabelRep.decode htables)
  have hlocs' := mapM_range'_eq_some hle
    (hlocs.imp fun _ _ => LocationRep.decode htables hmappings)
  rw [Profile.decodeSample, htables.string hid, hlabels', hlocs', hvalue, htimestamps]

/-- A profile whose samples represent `ds` decodes to `ds`. -/
theorem decode_eq_of_forall₂ (htables : TablesHold p stringMap funcMap)
    (hmappings : mappings ≤ p.mapping.length) {ds : List DecodedSample}
    (h : List.Forall₂ (SampleRep stringMap funcMap p.location mappings) p.sample ds) :
    p.decode = some ds :=
  mapM_eq_some_iff_forall₂.mpr (h.imp fun _ _ => SampleRep.decode htables hmappings)

end Decode

end ProfilingAgent.Reporter
