import ProfilingAgent.Reporter.Minimal

/-!
# The mapping table of a report

`getProfile` gives a file its mapping the first time a frame names the file, and every later
frame of the file reuses it, whatever its kind:

* a native frame appends the executable's mapping: its base name (or `UNKNOWN`), the build ID the
  build-ID mode selects, and the frame's own address as the file offset;
* a kernel or an interpreted frame appends the `DUMMY` mapping, with the file's hash as build ID
  (`getDummyMappingIndex`).

So `profile.Mapping` is one mapping per file, in the order the loops first meet the files, and
the kind of mapping a file gets is decided by the kind of its first frame in the map's iteration
order. This module reads the table back through the string table and shows it is exactly that.
-/

namespace ProfilingAgent.Reporter

open Pprofextended (Profile Mapping DecodedMapping)

variable {TraceHash FileID : Type} [DecidableEq TraceHash] [DecidableEq FileID]

/-! ### The files the loops meet -/

/-- The file, address and kind of a frame that names a file; an abort frame names none. -/
def fileFrame (t : TraceInfo FileID) (j : Nat) (frameKind : FrameType) :
    Option (FileID × AddressOrLineno × FrameType) :=
  (frameFile t j frameKind).bind fun fileID =>
    t.linenos[j]?.map fun address => (fileID, address, frameKind)

/-- The frames of a trace that name a file, in the frame loop's order. -/
def traceFileFrames (t : TraceInfo FileID) : List (FileID × AddressOrLineno × FrameType) :=
  t.frameTypes.enum.flatMap fun f => (fileFrame t f.1 f.2).toList

/-- The frames that name a file, over the samples a report drains, in the loops' order. -/
def emittedFileFrames (order : MapOrder) (r : OTLPReporter TraceHash FileID) :
    List (FileID × AddressOrLineno × FrameType) :=
  (drainedSamples order r).2.flatMap fun e => traceFileFrames ((r.traces.lookup e.1).getD {})

/-- Keep a frame when it is the first to name its file. -/
def addFirst {β : Type} (firsts : List (FileID × β)) (x : FileID × β) : List (FileID × β) :=
  if x.1 ∈ firsts.map Prod.fst then firsts else firsts ++ [x]

/-- Each file once, with the first frame that names it. -/
def firstFrames {β : Type} (frames : List (FileID × β)) : List (FileID × β) :=
  frames.foldl addFirst []

/-- The mapping a report gives a file, read from the caches, from the first frame that names it:
for a native frame the executable's name (or `UNKNOWN`) and the build ID the mode selects, at the
frame's address; for any other frame the `DUMMY` mapping with the file's hash. -/
def expectedMapping (lib : Libpf TraceHash FileID) (r : OTLPReporter TraceHash FileID) :
    FileID × AddressOrLineno × FrameType → DecodedMapping
  | (fileID, address, .nativeFrame) =>
    let fileName := match r.executables.lookup fileID with
      | some execInfo => execInfo.fileName
      | none => "UNKNOWN"
    let buildID := nativeBuildID lib r.otlpBuildIDMode fileID ((r.executables.lookup fileID).getD {})
    ⟨address, fileName, buildID.1, buildID.2⟩
  | (fileID, _, _) => ⟨0, "DUMMY", lib.fileIDString fileID, .buildIdBinaryHash⟩

/-- A mapping written with the string map's indices for a decoded mapping's two strings. -/
def MappingRep (stringMap : Cache String Nat) (m : Mapping) (dm : DecodedMapping) : Prop :=
  m.fileOffset = dm.fileOffset ∧ stringMap.lookup dm.filename = some m.filename ∧
    stringMap.lookup dm.buildId = some m.buildId ∧ m.buildIdKind = dm.buildIdKind

omit [DecidableEq TraceHash] [DecidableEq FileID] in
theorem MappingRep.mono {stringMap stringMap' : Cache String Nat} (h : Cache.Extends stringMap stringMap')
    {m : Mapping} {dm : DecodedMapping} (hrep : MappingRep stringMap m dm) :
    MappingRep stringMap' m dm :=
  ⟨hrep.1, h hrep.2.1, h hrep.2.2.1, hrep.2.2.2⟩

omit [DecidableEq TraceHash] [DecidableEq FileID] in
/-- Through a string table that holds each string at its index, a mapping reads back as the one
it represents. -/
theorem MappingRep.decode {stringMap : Cache String Nat} {p : Profile}
    (hat : ∀ ⦃s : String⦄ ⦃i : Nat⦄, stringMap.lookup s = some i → p.stringTable[i]? = some s)
    {m : Mapping} {dm : DecodedMapping} (hrep : MappingRep stringMap m dm) :
    p.decodeMapping m = some dm := by
  obtain ⟨hoffset, hname, hbuild, hkind⟩ := hrep
  simp only [Profile.decodeMapping, hat hname, hat hbuild, hoffset, hkind]

namespace Encoder

/-- What the loops keep of the mapping table, for the frames `firsts` that first named each file
met so far: the table is their mappings, in order, and the files with a mapping are theirs. -/
structure MappingsHold (lib : Libpf TraceHash FileID) (r : OTLPReporter TraceHash FileID)
    (enc : Encoder FileID) (firsts : List (FileID × AddressOrLineno × FrameType)) : Prop where
  rep : List.Forall₂ (MappingRep enc.stringMap) enc.mapping (firsts.map (expectedMapping lib r))
  files : ∀ fileID, (enc.fileIDtoMapping.lookup fileID).isSome ↔ fileID ∈ firsts.map Prod.fst

variable {lib : Libpf TraceHash FileID} {r : OTLPReporter TraceHash FileID}

omit [DecidableEq TraceHash] in
theorem mappingsHold_initial (stringMap : Cache String Nat) :
    MappingsHold lib r ({ stringMap } : Encoder FileID) [] :=
  ⟨.nil, by simp⟩

omit [DecidableEq TraceHash] in
/-- A step that only adds strings keeps what the table holds. -/
theorem MappingsHold.of_maps {enc enc' : Encoder FileID}
    {firsts : List (FileID × AddressOrLineno × FrameType)} (hold : MappingsHold lib r enc firsts)
    (hstring : Cache.Extends enc.stringMap enc'.stringMap) (hmapping : enc'.mapping = enc.mapping)
    (hfiles : enc'.fileIDtoMapping = enc.fileIDtoMapping) : MappingsHold lib r enc' firsts :=
  ⟨hmapping ▸ hold.rep.imp fun _ _ => MappingRep.mono hstring, hfiles ▸ hold.files⟩

omit [DecidableEq TraceHash] in
/-- The look-up-or-create step on the frame `x`: a file met before keeps its mapping, and a new
file gets the mapping built for it, appended to the table. -/
theorem MappingsHold.mappingIndex {enc : Encoder FileID}
    {firsts : List (FileID × AddressOrLineno × FrameType)} (hold : MappingsHold lib r enc firsts)
    (hdense : Dense enc.stringMap) {newMapping : Encoder FileID → Mapping × Encoder FileID}
    (hnew : ∀ e : Encoder FileID, Dense e.stringMap → InternsOnly e (newMapping e))
    (x : FileID × AddressOrLineno × FrameType)
    (hbuilt : ∀ e, MappingRep (newMapping e).2.stringMap (newMapping e).1 (expectedMapping lib r x)) :
    MappingsHold lib r (enc.mappingIndex x.1 newMapping).2 (addFirst firsts x) := by
  cases hkey : enc.fileIDtoMapping.lookup x.1 with
  | some idx =>
    have hmem : x.1 ∈ firsts.map Prod.fst := (hold.files x.1).mp (by rw [hkey]; rfl)
    simpa only [Encoder.mappingIndex, hkey, addFirst, if_pos hmem] using hold
  | none =>
    have hmem : x.1 ∉ firsts.map Prod.fst := fun h => by
      simpa [hkey] using (hold.files x.1).mpr h
    simp only [Encoder.mappingIndex, hkey, addFirst, if_neg hmem]
    set e₁ : Encoder FileID :=
      { enc with fileIDtoMapping := enc.fileIDtoMapping.insert x.1 enc.fileIDtoMapping.entries.length }
    have hI : InternsOnly e₁ (newMapping e₁) := hnew e₁ hdense
    rw [hI.appendMapping_eq]
    refine ⟨?_, fun fileID => ?_⟩
    · rw [List.map_append]
      exact List.rel_append (hold.rep.imp fun _ _ => MappingRep.mono hI.string) (.cons (hbuilt e₁) .nil)
    · by_cases hf : fileID = x.1
      · subst hf
        simp [e₁]
      · simp [e₁, AList.lookup_insert_ne hf, hold.files fileID, hf]

omit [DecidableEq TraceHash] in
/-- A mapping built from two interned strings represents its two strings. -/
theorem mappingRep_intern_intern (enc : Encoder FileID) (s₁ s₂ : String) (fileOffset : UInt64)
    (kind : Pprofextended.BuildIdKind) :
    MappingRep ((enc.intern s₁).2.intern s₂).2.stringMap
      ⟨fileOffset, (enc.intern s₁).1, ((enc.intern s₁).2.intern s₂).1, kind⟩
      ⟨fileOffset, s₁, s₂, kind⟩ :=
  ⟨rfl, (extends_intern _ s₂).string (lookup_intern enc s₁), lookup_intern _ s₂, rfl⟩

omit [DecidableEq TraceHash] [DecidableEq FileID] in
/-- The line builders of kernel and interpreted frames touch only the function map. -/
theorem lineFrame_maps {enc : Encoder FileID} {line : Pprofextended.Line × Encoder FileID}
    (hline : line.2 = { enc with funcMap := line.2.funcMap }) :
    line.2.stringMap = enc.stringMap ∧ line.2.mapping = enc.mapping ∧
      line.2.fileIDtoMapping = enc.fileIDtoMapping := by
  rw [hline]
  exact ⟨rfl, rfl, rfl⟩

omit [DecidableEq TraceHash] in
theorem kernelLine_only (r : OTLPReporter TraceHash FileID) (enc : Encoder FileID)
    (fileID : FileID) (address : AddressOrLineno) :
    (kernelLine r enc fileID address).2 = { enc with funcMap := (kernelLine r enc fileID address).2.funcMap } := by
  dsimp only [kernelLine]
  split <;> rfl

omit [DecidableEq TraceHash] in
theorem interpretedLine_only (lib : Libpf TraceHash FileID) (r : OTLPReporter TraceHash FileID)
    (enc : Encoder FileID) (frameKind : FrameType) (fileID : FileID) (address : AddressOrLineno) :
    (interpretedLine lib r enc frameKind fileID address).2 =
      { enc with funcMap := (interpretedLine lib r enc frameKind fileID address).2.funcMap } := by
  dsimp only [interpretedLine]
  repeat' split
  all_goals rfl

omit [DecidableEq TraceHash] in
/-- The tail kernel and interpreted frames share: after the line, the file's dummy mapping. -/
theorem MappingsHold.dummyMapping {enc : Encoder FileID}
    {firsts : List (FileID × AddressOrLineno × FrameType)} (hold : MappingsHold lib r enc firsts)
    (hdense : Dense enc.stringMap) {line : Pprofextended.Line × Encoder FileID}
    (hline : line.2 = { enc with funcMap := line.2.funcMap }) {fileID : FileID}
    {address : AddressOrLineno} {frameKind : FrameType} (hkind : frameKind ≠ .nativeFrame) :
    MappingsHold lib r (getDummyMappingIndex lib line.2 fileID).2
      (addFirst firsts (fileID, address, frameKind)) := by
  obtain ⟨hstring, hmapping, hfiles⟩ := lineFrame_maps hline
  have hbuilt : ∀ e, MappingRep (Reporter.dummyMapping lib fileID e).2.stringMap
      (Reporter.dummyMapping lib fileID e).1 (expectedMapping lib r (fileID, address, frameKind)) := by
    intro e
    cases frameKind with
    | nativeFrame => exact absurd rfl hkind
    | _ => exact mappingRep_intern_intern e _ _ _ _
  exact (hold.of_maps (hstring ▸ Cache.Extends.refl _) hmapping hfiles).mappingIndex
    (hstring ▸ hdense) (fun _ hd => internsOnly_dummyMapping lib fileID hd) _ hbuilt

omit [DecidableEq TraceHash] in
theorem MappingsHold.pushLocation {enc : Encoder FileID}
    {firsts : List (FileID × AddressOrLineno × FrameType)} (hold : MappingsHold lib r enc firsts)
    (loc : Pprofextended.Location) : MappingsHold lib r (enc.pushLocation loc) firsts :=
  hold.of_maps (Cache.Extends.refl _) rfl rfl

/-! ### The loops -/

omit [DecidableEq TraceHash] in
/-- One turn of the frame loop meets the frame's file, if it names one. -/
theorem MappingsHold.of_encodeFrame {enc enc' : Encoder FileID}
    {firsts : List (FileID × AddressOrLineno × FrameType)} (hold : MappingsHold lib r enc firsts)
    (hdense : Dense enc.stringMap) {t : TraceInfo FileID} {j : Nat} {frameKind : FrameType}
    (h : encodeFrame lib r t enc j frameKind = some enc') :
    MappingsHold lib r enc' ((fileFrame t j frameKind).toList.foldl addFirst firsts) := by
  have htyped := hold.of_maps (extends_intern enc (lib.frameTypeString frameKind)).string rfl rfl
  have hdtyped : Dense (enc.intern (lib.frameTypeString frameKind)).2.stringMap := hdense.intern _
  obtain ⟨address, haddr, ⟨rfl, rfl⟩ |
    ⟨fileID, hfile, ⟨rfl, rfl⟩ | ⟨rfl, rfl⟩ | ⟨marker, rfl, rfl⟩⟩⟩ := encodeFrame_eq_some h
  · exact htyped.pushLocation _
  all_goals simp only [fileFrame, frameFile, hfile, haddr, Option.some_bind, Option.map_some',
    Option.toList_some, List.foldl_cons, List.foldl_nil]
  · exact (htyped.mappingIndex hdtyped (fun _ hd => internsOnly_nativeMapping lib r fileID address hd)
      (fileID, address, .nativeFrame) fun e => mappingRep_intern_intern e _ _ _ _).pushLocation _
  · exact (htyped.dummyMapping hdtyped (kernelLine_only r _ fileID address) (by simp)).pushLocation _
  · exact (htyped.dummyMapping hdtyped (interpretedLine_only lib r _ _ fileID address)
      (by simp)).pushLocation _

omit [DecidableEq TraceHash] in
/-- A run of the frame loop meets the files of its frames in turn. -/
theorem MappingsHold.of_encodeFrames (t : TraceInfo FileID) :
    ∀ (frames : List (Nat × FrameType)) {enc enc' : Encoder FileID}
      {firsts : List (FileID × AddressOrLineno × FrameType)}, MappingsHold lib r enc firsts →
      enc.WellFormed → encodeFrames lib r t frames enc = some enc' →
      MappingsHold lib r enc' ((frames.flatMap fun f => (fileFrame t f.1 f.2).toList).foldl addFirst firsts)
  | [], _, _, _, hold, _, h => by
    cases h
    exact hold
  | (j, frameKind) :: rest, _, _, _, hold, hwf, h => by
    obtain ⟨e₁, h₁, hrest⟩ := encodeFrames_cons_eq_some h
    obtain ⟨-, -, -, -, -, -, -, hwf₁⟩ := encodeFrame_spec lib r t hwf h₁
    rw [List.flatMap_cons, List.foldl_append]
    exact of_encodeFrames t rest (hold.of_encodeFrame hwf.dense_string h₁) hwf₁ hrest

/-- One turn of the sample loop meets the files of the entry's trace, in frame order; the
stack-trace ID and the labels it interns add strings only. -/
theorem MappingsHold.of_encodeSample {enc enc' : Encoder FileID}
    {firsts : List (FileID × AddressOrLineno × FrameType)} (hold : MappingsHold lib r enc firsts)
    (hwf : enc.WellFormed) {entry : Σ _ : TraceHash, Sample}
    (h : encodeSample lib r enc entry = some enc') :
    MappingsHold lib r enc' ((traceFileFrames ((r.traces.lookup entry.1).getD {})).foldl addFirst firsts) := by
  dsimp only [encodeSample] at h
  split at h
  · cases h
  · rename_i framed hframes
    cases h
    have hwf₁ := (hwf.intern (lib.traceHashString entry.1)).withRange
      (entry.2.timestamps.foldl trackTimestamp (enc.startTS, enc.endTS)).1
      (entry.2.timestamps.foldl trackTimestamp (enc.startTS, enc.endTS)).2
    obtain ⟨-, -, -, -, -, hwf₂, -⟩ := encodeFrames_spec lib r _ _ hwf₁ hframes
    refine (MappingsHold.of_encodeFrames _ _ ?_ hwf₁ hframes).of_maps
      (getTraceLabels_spec hwf₂.dense_string _).2.1 rfl rfl
    exact hold.of_maps (extends_intern enc _).string rfl rfl

/-- A run of the sample loop meets the files of its entries' traces in turn. -/
theorem MappingsHold.of_encodeSamples :
    ∀ (entries : List (Σ _ : TraceHash, Sample)) {enc enc' : Encoder FileID}
      {firsts : List (FileID × AddressOrLineno × FrameType)}, MappingsHold lib r enc firsts →
      enc.WellFormed → enc.location.length = enc.locationIndex →
      encodeSamples lib r entries enc = some enc' →
      MappingsHold lib r enc'
        ((entries.flatMap fun e => traceFileFrames ((r.traces.lookup e.1).getD {})).foldl addFirst firsts)
  | [], _, _, _, hold, _, _, h => by
    cases h
    exact hold
  | entry :: rest, _, _, _, hold, hwf, hidx, h => by
    obtain ⟨e₁, h₁, hrest⟩ := encodeSamples_cons_eq_some h
    obtain ⟨-, -, -, -, -, hwf₁, -, hidx₁, -⟩ := encodeSample_spec lib r hwf hidx h₁
    rw [List.flatMap_cons, List.foldl_append]
    exact of_encodeSamples rest (hold.of_encodeSample hwf h₁) hwf₁ hidx₁ hrest

end Encoder

/-! ### The table a report returns -/

/-- Entry by entry, the mapping table of a report decodes to the mapping its file's first frame
gives it. -/
theorem getProfile_decodeMapping {lib : Libpf TraceHash FileID} {order : MapOrder}
    {samplesPerSecond : ℕ+} {r : OTLPReporter TraceHash FileID}
    {res : OTLPReporter TraceHash FileID × Profile × UInt64 × UInt64}
    (h : getProfile lib order samplesPerSecond r = some res) :
    List.Forall₂ (fun m dm => res.2.1.decodeMapping m = some dm) res.2.1.mapping
      ((firstFrames (emittedFileFrames order r)).map (expectedMapping lib r)) := by
  obtain ⟨enc, henc, -⟩ := getProfile_eq_some h
  obtain ⟨-, -, -, -, -, hwf, -⟩ := Encoder.encodeSamples_spec lib _ _ wellFormed_initial rfl henc
  have hold := (Encoder.mappingsHold_initial headerStrings.1).of_encodeSamples _ wellFormed_initial
    rfl henc
  obtain ⟨function, stringMap, hfun, -, hdense, hext, -⟩ :=
    flattenFunctions_spec order hwf.dense_function hwf.dense_string
  obtain ⟨table, htable, -, hstr⟩ := flattenStrings_spec order hdense
  simp only [getProfile, henc, hfun, htable, Option.some.injEq] at h
  subst h
  exact hold.rep.imp fun _ _ hrep => (hrep.mono hext).decode hstr

/-- The mapping table of a report reads back, through its string table, as one mapping per file
that a drained sample's frames name, in the order the loops first meet the files: the native
mapping of the executable at the address of the file's first frame when that frame is native, and
the file's `DUMMY` mapping when it is a kernel or interpreted frame. That every later frame of the
file references the same mapping, whatever its kind, is the `mapping_files` field of
`MinimalTables`: each location references the one mapping of its frame's file. -/
theorem getProfile_mappings {lib : Libpf TraceHash FileID} {order : MapOrder}
    {samplesPerSecond : ℕ+} {r : OTLPReporter TraceHash FileID}
    {res : OTLPReporter TraceHash FileID × Profile × UInt64 × UInt64}
    (h : getProfile lib order samplesPerSecond r = some res) :
    res.2.1.mapping.mapM res.2.1.decodeMapping =
      some ((firstFrames (emittedFileFrames order r)).map (expectedMapping lib r)) :=
  mapM_eq_some_iff_forall₂.mpr (getProfile_decodeMapping h)

theorem getProfile_mappings_twoTraces :
    ∃ res, getProfile Libpf.decimal MapOrder.reversed 20 twoTraceReporter = some res ∧
      res.2.1.mapping.mapM res.2.1.decodeMapping =
        some ((firstFrames (emittedFileFrames MapOrder.reversed twoTraceReporter)).map
          (expectedMapping Libpf.decimal twoTraceReporter)) ∧
      (firstFrames (emittedFileFrames MapOrder.reversed twoTraceReporter)).map
          (expectedMapping Libpf.decimal twoTraceReporter) =
        [⟨0, "DUMMY", "1", .buildIdBinaryHash⟩] := by
  obtain ⟨res, hres⟩ : ∃ res, getProfile Libpf.decimal MapOrder.reversed 20 twoTraceReporter =
      some res := ⟨_, rfl⟩
  exact ⟨res, hres, getProfile_mappings hres, by decide⟩

end ProfilingAgent.Reporter
