import ProfilingAgent.Reporter.Orders

/-!
# Minimal tables

A profile holds nothing twice and nothing unused. Its string table starts with the empty string
and has distinct entries, each but the first referenced by a string field; its functions are
distinct, each referenced by a line; and it has one mapping per file of the frames it encodes
(abort frames apart), referenced by the locations of exactly those frames.

The dedup maps give a new value the next index, so the work is to show that every entry a map
gains is referenced by what the encoder writes. `Encoder.Adds` says which entries a step may add;
each helper of the frame switch adds only what the location, mapping or line it returns
references, and `Encoder.Referenced` is the invariant the two loops keep.
-/

namespace ProfilingAgent.Reporter

open Pprofextended (Profile Location Mapping Line DecodedLine)

variable {TraceHash FileID : Type} [DecidableEq TraceHash] [DecidableEq FileID]

/-- The file of frame `j` of a trace, for every frame but an abort frame, which has no mapping. -/
def frameFile (t : TraceInfo FileID) (j : Nat) : FrameType → Option FileID
  | .abortFrame => none
  | _ => t.files[j]?

/-- The files of the frames of a trace, one per location the frame loop writes for it. -/
def traceFiles (t : TraceInfo FileID) : List (Option FileID) :=
  t.frameTypes.enum.map fun f => frameFile t f.1 f.2

/-- The files of the frames of the samples a report encodes, one per location. -/
def emittedFrameFiles (order : MapOrder) (r : OTLPReporter TraceHash FileID) :
    List (Option FileID) :=
  (drainedSamples order r).2.flatMap fun e => traceFiles ((r.traces.lookup e.1).getD {})

/-- A location references the mapping that `fileIDtoMapping` gives its frame's file, and the
location of an abort frame references none. -/
def LocatedAt (fileIDtoMapping : Cache FileID Nat) (loc : Location) : Option FileID → Prop
  | none => loc.mappingIndex = 0
  | some fileID => 0 < loc.mappingIndex ∧ fileIDtoMapping.lookup fileID = some (loc.mappingIndex - 1)

theorem LocatedAt.mono {m m' : Cache FileID Nat} (hext : Cache.Extends m m') {loc : Location}
    {file : Option FileID} (h : LocatedAt m loc file) : LocatedAt m' loc file := by
  cases file with
  | none => exact h
  | some fileID => exact ⟨h.1, hext h.2⟩

/-- The tables of a profile hold nothing twice and nothing unused, for the files `files` of the
frames its locations encode. -/
structure MinimalTables (p : Profile) (files : List (Option FileID)) : Prop where
  string_zero : p.stringTable[0]? = some ""
  string_nodup : p.stringTable.Nodup
  string_referenced : ∀ i, 0 < i → i < p.stringTable.length → i ∈ p.stringRefs
  function_nodup : p.function.Nodup
  function_referenced : ∀ i < p.function.length, i + 1 ∈ p.functionRefs
  mapping_files : ∃ fileIDtoMapping : Cache FileID Nat, Dense fileIDtoMapping ∧
    p.mapping.length = fileIDtoMapping.entries.length ∧
    (∀ ⦃fileID : FileID⦄ ⦃i : Nat⦄, fileIDtoMapping.lookup fileID = some i → some fileID ∈ files) ∧
    List.Forall₂ (LocatedAt fileIDtoMapping) p.location files
  mapping_referenced : ∀ i < p.mapping.length, i + 1 ∈ p.location.map Location.mappingIndex

theorem decodeLine_eq_some {p : Profile} {l : Line} {dl : DecodedLine}
    (h : p.decodeLine l = some dl) :
    ∃ idx fn, l.functionIndex = idx + 1 ∧ p.function[idx]? = some (some fn) ∧
      p.stringTable[fn.name]? = some dl.functionName ∧
      p.stringTable[fn.filename]? = some dl.fileName := by
  unfold Profile.decodeLine at h
  split at h
  · cases h
  · rename_i idx hidx
    split at h
    · rename_i fn hfn
      split at h
      · cases h
        exact ⟨idx, fn, hidx, hfn, ‹_›, ‹_›⟩
      · cases h
    · cases h

/-- In minimal tables two lines that resolve to the same function name and file name reference
the same function; so kernel frames of one `FrameID`, which resolve to the frame's symbol in
`vmlinux`, share one function. -/
theorem MinimalTables.functionIndex_eq {p : Profile} {files : List (Option FileID)}
    (hmin : MinimalTables p files) {l l' : Line} {dl dl' : DecodedLine}
    (hl : p.decodeLine l = some dl) (hl' : p.decodeLine l' = some dl')
    (hname : dl.functionName = dl'.functionName) (hfile : dl.fileName = dl'.fileName) :
    l.functionIndex = l'.functionIndex := by
  obtain ⟨idx, ⟨n, f⟩, hidx, hfn, hn, hf⟩ := decodeLine_eq_some hl
  obtain ⟨idx', ⟨n', f'⟩, hidx', hfn', hn', hf'⟩ := decodeLine_eq_some hl'
  obtain rfl : n = n' := List.getElem?_inj (List.getElem?_eq_some_iff.mp hn).1
    hmin.string_nodup (hn.trans (hname ▸ hn'.symm))
  obtain rfl : f = f' := List.getElem?_inj (List.getElem?_eq_some_iff.mp hf).1
    hmin.string_nodup (hf.trans (hfile ▸ hf'.symm))
  have hsame : idx = idx' := List.getElem?_inj (List.getElem?_eq_some_iff.mp hfn).1
    hmin.function_nodup (hfn.trans hfn'.symm)
  rw [hidx, hidx', hsame]

namespace Encoder

/-- Every string index the encoder has written. -/
def stringRefs (enc : Encoder FileID) : List Nat :=
  enc.sample.flatMap (fun s => s.stacktraceIdIndex :: s.label.flatMap fun l => [l.key, l.str]) ++
    enc.location.map Location.typeIndex ++ enc.mapping.flatMap fun m => [m.filename, m.buildId]

/-- Every function reference the encoder has written. -/
def functionRefs (enc : Encoder FileID) : List Nat :=
  enc.location.flatMap fun loc => loc.line.map Line.functionIndex

omit [DecidableEq FileID] in
theorem typeIndex_mem_stringRefs {enc : Encoder FileID} {loc : Location}
    (hloc : loc ∈ enc.location) : loc.typeIndex ∈ enc.stringRefs := by
  simp only [stringRefs, List.mem_append, List.mem_map]
  exact .inl (.inr ⟨loc, hloc, rfl⟩)

omit [DecidableEq FileID] in
theorem line_mem_functionRefs {enc : Encoder FileID} {loc : Location} (hloc : loc ∈ enc.location)
    {l : Line} (hl : l ∈ loc.line) : l.functionIndex ∈ enc.functionRefs :=
  List.mem_flatMap.mpr ⟨loc, hloc, List.mem_map_of_mem _ hl⟩

theorem Grows.stringRefs_subset {enc enc' : Encoder FileID} (h : enc.Grows enc') :
    enc.stringRefs ⊆ enc'.stringRefs := by
  obtain ⟨ss, hs⟩ := h.sample
  obtain ⟨ls, hl⟩ := h.location
  obtain ⟨ms, hm⟩ := h.mapping
  intro i hi
  simp only [stringRefs, ← hs, ← hl, ← hm, List.flatMap_append, List.map_append,
    List.mem_append] at hi ⊢
  tauto

theorem Grows.functionRefs_subset {enc enc' : Encoder FileID} (h : enc.Grows enc') :
    enc.functionRefs ⊆ enc'.functionRefs := by
  obtain ⟨ls, hl⟩ := h.location
  intro i hi
  rw [functionRefs, ← hl, List.flatMap_append]
  exact List.mem_append_left _ hi

/-- The entries `enc'` holds in its three maps beyond those of `enc`: the new strings' indices
satisfy `S`, the new functions' indices `F` and the new files `M`. -/
structure Adds (enc enc' : Encoder FileID) (S F : Nat → Prop) (M : FileID → Prop) : Prop where
  string : ∀ ⦃s : String⦄ ⦃i : Nat⦄, enc'.stringMap.lookup s = some i →
    enc.stringMap.lookup s = some i ∨ S i
  function : ∀ ⦃fi : FuncInfo⦄ ⦃i : Nat⦄, enc'.funcMap.lookup fi = some i →
    enc.funcMap.lookup fi = some i ∨ F i
  file : ∀ ⦃fileID : FileID⦄ ⦃i : Nat⦄, enc'.fileIDtoMapping.lookup fileID = some i →
    enc.fileIDtoMapping.lookup fileID = some i ∨ M fileID

/-- A step that leaves the three maps as they were. -/
theorem adds_of_maps {enc enc' : Encoder FileID} (hstring : enc'.stringMap = enc.stringMap)
    (hfunction : enc'.funcMap = enc.funcMap) (hfile : enc'.fileIDtoMapping = enc.fileIDtoMapping)
    (S F : Nat → Prop) (M : FileID → Prop) : enc.Adds enc' S F M :=
  ⟨fun _ _ h => .inl (hstring ▸ h), fun _ _ h => .inl (hfunction ▸ h), fun _ _ h => .inl (hfile ▸ h)⟩

theorem Adds.trans {enc enc' enc'' : Encoder FileID} {S F S' F' : Nat → Prop}
    {M M' : FileID → Prop} (h : enc.Adds enc' S F M) (h' : enc'.Adds enc'' S' F' M') :
    enc.Adds enc'' (fun i => S i ∨ S' i) (fun i => F i ∨ F' i) (fun f => M f ∨ M' f) where
  string _ _ hs := (h'.string hs).elim (fun hs => (h.string hs).imp_right .inl) (.inr ∘ .inr)
  function _ _ hf := (h'.function hf).elim (fun hf => (h.function hf).imp_right .inl) (.inr ∘ .inr)
  file _ _ hf := (h'.file hf).elim (fun hf => (h.file hf).imp_right .inl) (.inr ∘ .inr)

theorem Adds.mono {enc enc' : Encoder FileID} {S F S' F' : Nat → Prop} {M M' : FileID → Prop}
    (h : enc.Adds enc' S F M) (hS : ∀ i, S i → S' i) (hF : ∀ i, F i → F' i)
    (hM : ∀ f, M f → M' f) : enc.Adds enc' S' F' M' where
  string _ _ hs := (h.string hs).imp_right (hS _)
  function _ _ hf := (h.function hf).imp_right (hF _)
  file _ _ hf := (h.file hf).imp_right (hM _)

theorem adds_intern (enc : Encoder FileID) (s : String) :
    enc.Adds (enc.intern s).2 (· = (enc.intern s).1) (fun _ => False) (fun _ => False) :=
  ⟨fun _ _ h => (lookup_internIndex_cases _ _ h).imp_right And.right,
    fun _ _ h => .inl h, fun _ _ h => .inl h⟩

theorem adds_createFunction (enc : Encoder FileID) (name fileName : String) :
    enc.Adds (enc.createFunction name fileName).2 (fun _ => False)
      (· = (enc.createFunction name fileName).1) (fun _ => False) :=
  ⟨fun _ _ h => .inl h, fun _ _ h => (lookup_internIndex_cases _ _ h).imp_right And.right,
    fun _ _ h => .inl h⟩

theorem adds_pushLocation (enc : Encoder FileID) (loc : Location) (S F : Nat → Prop)
    (M : FileID → Prop) : enc.Adds (enc.pushLocation loc) S F M :=
  ⟨fun _ _ h => .inl h, fun _ _ h => .inl h, fun _ _ h => .inl h⟩

/-- The look-up-or-create step adds the strings of the mapping it appends and the file. -/
theorem adds_mappingIndex {enc : Encoder FileID} (hdense : Dense enc.stringMap) (fileID : FileID)
    {newMapping : Encoder FileID → Mapping × Encoder FileID}
    (hnew : ∀ e : Encoder FileID, Dense e.stringMap → InternsOnly e (newMapping e)) :
    enc.Adds (enc.mappingIndex fileID newMapping).2
      (· ∈ (enc.mappingIndex fileID newMapping).2.mapping.flatMap fun m => [m.filename, m.buildId])
      (fun _ => False) (· = fileID) := by
  cases hkey : enc.fileIDtoMapping.lookup fileID with
  | some idx =>
    simp only [mappingIndex, hkey]
    exact adds_of_maps rfl rfl rfl _ _ _
  | none =>
    simp only [mappingIndex, hkey]
    set e₁ : Encoder FileID :=
      { enc with fileIDtoMapping := enc.fileIDtoMapping.insert fileID enc.fileIDtoMapping.entries.length }
    have hI : InternsOnly e₁ (newMapping e₁) := hnew e₁ hdense
    rw [hI.appendMapping_eq]
    refine ⟨fun s i hs => ?_, fun _ _ hf => .inl hf, fun f i hf => ?_⟩
    · rcases hI.new hs with hs | hs | hs
      · exact .inl hs
      · exact .inr (by simp [hs])
      · exact .inr (by simp [hs])
    · simp only [e₁, lookup_insert_length] at hf
      split at hf
      · exact .inr ‹_›
      · exact .inl hf

omit [DecidableEq TraceHash] in
/-- A line builder adds at most the function its line references. -/
theorem adds_kernelLine (r : OTLPReporter TraceHash FileID) (enc : Encoder FileID)
    (fileID : FileID) (address : AddressOrLineno) :
    enc.Adds (kernelLine r enc fileID address).2 (fun _ => False)
      (fun i => i + 1 = (kernelLine r enc fileID address).1.functionIndex) (fun _ => False) := by
  dsimp only [kernelLine]
  split
  · exact adds_of_maps rfl rfl rfl _ _ _
  · exact (adds_createFunction enc _ _).mono (fun _ => id) (fun _ h => by rw [h]) (fun _ => id)

omit [DecidableEq TraceHash] in
theorem adds_interpretedLine (lib : Libpf TraceHash FileID) (r : OTLPReporter TraceHash FileID)
    (enc : Encoder FileID) (frameKind : FrameType) (fileID : FileID) (address : AddressOrLineno) :
    enc.Adds (interpretedLine lib r enc frameKind fileID address).2 (fun _ => False)
      (fun i => i + 1 = (interpretedLine lib r enc frameKind fileID address).1.functionIndex)
      (fun _ => False) := by
  dsimp only [interpretedLine]
  repeat' split
  all_goals exact (adds_createFunction enc _ _).mono (fun _ => id) (fun _ h => by rw [h]) (fun _ => id)

omit [DecidableEq FileID] in
theorem mem_pushLocation (enc : Encoder FileID) (loc : Location) :
    loc ∈ (enc.pushLocation loc).location :=
  List.mem_append_right _ (List.mem_singleton_self _)

omit [DecidableEq TraceHash] in
/-- The tail that kernel and interpreted frames share: after the frame's line, the file's dummy
mapping and the location that references both. -/
theorem adds_lineFrame (lib : Libpf TraceHash FileID) {enc typed enc' : Encoder FileID}
    {line : Line × Encoder FileID} {expected : List Pprofextended.DecodedLine} {typeIndex : Nat}
    (htyped : enc.Adds typed (· = typeIndex) (fun _ => False) (fun _ => False))
    (hloc : typed.location = enc.location) (hout : typed.LineOut line expected)
    (hline : typed.Adds line.2 (fun _ => False) (fun i => i + 1 = line.1.functionIndex)
      (fun _ => False))
    {file : Option FileID} {fileID : FileID} (hfile : file = some fileID) (address : AddressOrLineno)
    (henc' : enc' = (getDummyMappingIndex lib line.2 fileID).2.pushLocation
      ⟨(getDummyMappingIndex lib line.2 fileID).1 + 1, address, [line.1], typeIndex⟩) :
    ∃ loc, enc'.location = enc.location ++ [loc] ∧ LocatedAt enc'.fileIDtoMapping loc file ∧
      enc.Adds enc' (· ∈ enc'.stringRefs) (fun i => i + 1 ∈ enc'.functionRefs)
        (fun f => file = some f) := by
  subst henc' hfile
  have hnew := fun (e : Encoder FileID) (hd : Dense e.stringMap) =>
    internsOnly_dummyMapping lib fileID hd
  obtain ⟨-, hext, hlookup, -⟩ := mappingIndex_spec hout.wf fileID hnew
  refine ⟨_, congrArg (· ++ _) (hext.location.trans (hout.ext.location.trans hloc)),
    ⟨Nat.succ_pos _, hlookup⟩, (((htyped.trans hline).trans
      (adds_mappingIndex hout.wf.dense_string fileID hnew)).trans
      (adds_pushLocation _ _ (fun _ => False) (fun _ => False) (fun _ => False))).mono ?_ ?_ ?_⟩
  all_goals simp only [or_false, false_or]
  · rintro i (rfl | h)
    · exact typeIndex_mem_stringRefs (mem_pushLocation _ _)
    · exact List.mem_append_right _ h
  · rintro i h
    rw [h]
    exact line_mem_functionRefs (mem_pushLocation _ _) (List.mem_singleton_self _)
  · rintro f rfl
    rfl

omit [DecidableEq TraceHash] in
/-- One frame appends one location, which references the mapping of its frame's file, and adds
to the maps only strings, functions and the file that what it wrote references. -/
theorem encodeFrame_adds (lib : Libpf TraceHash FileID) (r : OTLPReporter TraceHash FileID)
    (t : TraceInfo FileID) {enc enc' : Encoder FileID} (hwf : enc.WellFormed) {j : Nat}
    {frameKind : FrameType} (h : encodeFrame lib r t enc j frameKind = some enc') :
    ∃ loc, enc'.location = enc.location ++ [loc] ∧
      LocatedAt enc'.fileIDtoMapping loc (frameFile t j frameKind) ∧
      enc.Adds enc' (· ∈ enc'.stringRefs) (fun i => i + 1 ∈ enc'.functionRefs)
        (fun f => frameFile t j frameKind = some f) := by
  have htyped := adds_intern enc (lib.frameTypeString frameKind)
  have hwf₁ := hwf.intern (lib.frameTypeString frameKind)
  obtain ⟨address, -, ⟨rfl, rfl⟩ |
    ⟨fileID, hfile, ⟨rfl, rfl⟩ | ⟨rfl, henc'⟩ | ⟨marker, rfl, henc'⟩⟩⟩ := encodeFrame_eq_some h
  · refine ⟨_, rfl, rfl, (htyped.trans (adds_pushLocation _ _ (fun _ => False) (fun _ => False)
      (fun _ => False))).mono ?_ (by simp) (by simp)⟩
    simp only [or_false]
    rintro i rfl
    exact typeIndex_mem_stringRefs (mem_pushLocation _ _)
  · have hnew := fun (e : Encoder FileID) (hd : Dense e.stringMap) =>
      internsOnly_nativeMapping lib r fileID address hd
    obtain ⟨-, hext, hlookup, -⟩ := mappingIndex_spec hwf₁ fileID hnew
    refine ⟨_, congrArg (· ++ _) hext.location,
      by rw [show frameFile t j .nativeFrame = some fileID from hfile]
         exact ⟨Nat.succ_pos _, hlookup⟩,
      ((htyped.trans (adds_mappingIndex hwf₁.dense_string fileID hnew)).trans
        (adds_pushLocation _ _ (fun _ => False) (fun _ => False) (fun _ => False))).mono
        ?_ (by simp) ?_⟩
    all_goals simp only [or_false, false_or]
    · rintro i (rfl | h)
      · exact typeIndex_mem_stringRefs (mem_pushLocation _ _)
      · exact List.mem_append_right _ h
    · rintro f rfl
      exact hfile
  · exact adds_lineFrame lib htyped rfl (lineOut_kernelLine lib hwf₁ r fileID address)
      (adds_kernelLine r _ fileID address) hfile address henc'
  · exact adds_lineFrame lib htyped rfl (lineOut_interpretedLine lib hwf₁ r marker fileID address)
      (adds_interpretedLine lib r _ (.other marker) fileID address) hfile address henc'

/-! ### The invariant of the loops -/

/-- What the loops keep, for the string indices `S` that may still be unreferenced and the files
`files` of the frames encoded so far: every entry of the three maps is referenced by what the
encoder wrote, and each location references the mapping of its frame's file. -/
structure Referenced (enc : Encoder FileID) (S : Nat → Prop) (files : List (Option FileID)) :
    Prop where
  string : ∀ ⦃s : String⦄ ⦃i : Nat⦄, enc.stringMap.lookup s = some i → S i ∨ i ∈ enc.stringRefs
  function : ∀ ⦃fi : FuncInfo⦄ ⦃i : Nat⦄, enc.funcMap.lookup fi = some i →
    i + 1 ∈ enc.functionRefs
  file : ∀ ⦃fileID : FileID⦄ ⦃i : Nat⦄, enc.fileIDtoMapping.lookup fileID = some i →
    some fileID ∈ files
  located : List.Forall₂ (LocatedAt enc.fileIDtoMapping) enc.location files

/-- A step keeps the invariant when what it adds to the maps is allowed or referenced after it,
and its new files are among the new frames' files. -/
theorem Referenced.of_adds {enc enc' : Encoder FileID} {S S' T F : Nat → Prop}
    {M : FileID → Prop} {files files' : List (Option FileID)} (href : enc.Referenced S files)
    (hgrow : enc.Grows enc') (hadds : enc.Adds enc' S' F M)
    (hS : ∀ i, S i ∨ S' i → T i ∨ i ∈ enc'.stringRefs)
    (hF : ∀ i, F i → i + 1 ∈ enc'.functionRefs) (hM : ∀ f, M f → some f ∈ files')
    (hfiles : files ⊆ files')
    (hlocated : List.Forall₂ (LocatedAt enc'.fileIDtoMapping) enc'.location files') :
    enc'.Referenced T files' where
  string _ _ hs := (hadds.string hs).elim
    (fun hs => (href.string hs).elim (fun h => hS _ (.inl h)) fun h =>
      .inr (hgrow.stringRefs_subset h))
    (fun h => hS _ (.inr h))
  function _ _ hf :=
    (hadds.function hf).elim (fun hf => hgrow.functionRefs_subset (href.function hf)) (hF _)
  file _ _ hf := (hadds.file hf).elim (fun hf => hfiles (href.file hf)) (hM _)
  located := hlocated

omit [DecidableEq TraceHash] in
/-- One frame keeps the invariant, adding its file. -/
theorem Referenced.frame (lib : Libpf TraceHash FileID) (r : OTLPReporter TraceHash FileID)
    (t : TraceInfo FileID) {S : Nat → Prop} {files : List (Option FileID)}
    {enc enc' : Encoder FileID} (hwf : enc.WellFormed) (href : enc.Referenced S files) {j : Nat}
    {frameKind : FrameType} (h : encodeFrame lib r t enc j frameKind = some enc') :
    enc'.Referenced S (files ++ [frameFile t j frameKind]) := by
  obtain ⟨e, loc, -, hext, heq, -⟩ := encodeFrame_spec lib r t hwf h
  have hgrow : enc.Grows enc' := heq ▸ hext.grows.trans (grows_pushLocation e loc)
  obtain ⟨loc', hloc, hat, hadds⟩ := encodeFrame_adds lib r t hwf h
  refine href.of_adds hgrow hadds (fun _ => id) (fun _ => id)
    (fun _ hf => List.mem_append_right _ (hf ▸ List.mem_singleton_self _))
    (List.subset_append_left _ _) ?_
  rw [hloc]
  exact List.rel_append (href.located.imp fun _ _ => LocatedAt.mono hgrow.fileIDs) (.cons hat .nil)

omit [DecidableEq TraceHash] in
/-- The frame loop keeps the invariant, adding the files of its frames. -/
theorem Referenced.frames (lib : Libpf TraceHash FileID) (r : OTLPReporter TraceHash FileID)
    (t : TraceInfo FileID) {S : Nat → Prop} :
    ∀ (frames : List (Nat × FrameType)) {enc enc' : Encoder FileID}
      {files : List (Option FileID)}, enc.WellFormed → enc.Referenced S files →
      encodeFrames lib r t frames enc = some enc' →
      enc'.Referenced S (files ++ frames.map fun f => frameFile t f.1 f.2)
  | [], enc, enc', files, _, href, h => by
    cases h
    simpa using href
  | (j, frameKind) :: rest, enc, enc', files, hwf, href, h => by
    obtain ⟨e₁, hframe, h⟩ := encodeFrames_cons_eq_some h
    obtain ⟨-, -, -, -, -, -, -, hwf₁⟩ := encodeFrame_spec lib r t hwf hframe
    simpa using Referenced.frames lib r t rest hwf₁ (href.frame lib r t hwf hframe) h

end Encoder

open Pprofextended (Label) in
/-- The label blocks add to the string map only the strings of the labels they emit. -/
theorem lookup_foldl_appendLabel (stringMap : Cache String Nat) :
    ∀ (fields : List (String × String)) (acc : List Label × Cache String Nat),
      (∀ ⦃s : String⦄ ⦃i : Nat⦄, acc.2.lookup s = some i →
        stringMap.lookup s = some i ∨ i ∈ acc.1.flatMap fun l => [l.key, l.str]) →
      ∀ ⦃s : String⦄ ⦃i : Nat⦄, (fields.foldl appendLabel acc).2.lookup s = some i →
        stringMap.lookup s = some i ∨
          i ∈ (fields.foldl appendLabel acc).1.flatMap fun l => [l.key, l.str]
  | [], _, hacc => hacc
  | field :: fields, acc, hacc => by
    refine lookup_foldl_appendLabel stringMap fields _ fun s i hs => ?_
    by_cases hempty : field.2 = ""
    · simp only [appendLabel, hempty, if_true] at hs ⊢
      exact hacc hs
    · simp only [appendLabel, hempty, if_false, List.flatMap_append, List.mem_append] at hs ⊢
      rcases lookup_internIndex_cases _ _ hs with hs | ⟨-, rfl⟩
      · rcases lookup_internIndex_cases _ _ hs with hs | ⟨-, rfl⟩
        · exact (hacc hs).imp_right .inl
        · simp [getStringMapIndex]
      · simp [getStringMapIndex]

namespace Encoder

omit [DecidableEq FileID] in
theorem sample_mem_stringRefs {enc : Encoder FileID} {s : Pprofextended.Sample}
    (hs : s ∈ enc.sample) :
    s.stacktraceIdIndex :: s.label.flatMap (fun l => [l.key, l.str]) ⊆ enc.stringRefs :=
  fun _ hi => List.mem_append_left _ (List.mem_append_left _ (List.mem_flatMap.mpr ⟨s, hs, hi⟩))

/-- The end of a turn of the sample loop, which interns the trace's labels and appends the
sample, adds the labels' strings. -/
theorem adds_traceLabels (enc : Encoder FileID) (t : TraceInfo FileID) (locationIndex : Nat)
    (sample : List Pprofextended.Sample) :
    enc.Adds { enc with stringMap := (getTraceLabels enc.stringMap t).2, locationIndex, sample }
      (· ∈ (getTraceLabels enc.stringMap t).1.flatMap fun l => [l.key, l.str]) (fun _ => False)
      (fun _ => False) :=
  ⟨lookup_foldl_appendLabel _ _ _ fun _ _ => .inl, fun _ _ => .inl, fun _ _ => .inl⟩

/-- One turn of the sample loop keeps the invariant, adding the files of its trace's frames. -/
theorem Referenced.sample (lib : Libpf TraceHash FileID) (r : OTLPReporter TraceHash FileID)
    {S : Nat → Prop} {files : List (Option FileID)} {enc enc' : Encoder FileID}
    (hwf : enc.WellFormed) (href : enc.Referenced S files) {entry : Σ _ : TraceHash, Sample}
    (h : encodeSample lib r enc entry = some enc') :
    enc'.Referenced S (files ++ traceFiles ((r.traces.lookup entry.1).getD {})) := by
  dsimp only [encodeSample] at h
  generalize entry.2.timestamps.foldl trackTimestamp (enc.startTS, enc.endTS) = range at h
  split at h
  · cases h
  · rename_i framed hframes
    cases h
    have hI := adds_intern enc (lib.traceHashString entry.1)
    have hwf₁ := (hwf.intern (lib.traceHashString entry.1)).withRange range.1 range.2
    have hframed := (href.of_adds
      ((extends_intern enc _).grows.trans (grows_withRange _ range.1 range.2))
      ⟨hI.string, hI.function, hI.file⟩ (fun _ => .inl) (fun _ h => h.elim) (fun _ h => h.elim)
      (List.Subset.refl _) href.located).frames lib r _ _ hwf₁ hframes
    obtain ⟨-, -, -, -, -, hwf₂, -⟩ := encodeFrames_spec lib r _ _ hwf₁ hframes
    obtain ⟨-, hext, -⟩ := getTraceLabels_spec hwf₂.dense_string ((r.traces.lookup entry.1).getD {})
    refine hframed.of_adds ⟨hext, Cache.Extends.refl _, Cache.Extends.refl _, List.prefix_refl _,
      List.prefix_refl _, List.prefix_append _ _⟩ (adds_traceLabels _ _ _ _) ?_ (fun _ h => h.elim)
      (fun _ h => h.elim) (List.Subset.refl _) hframed.located
    rintro i ((hS | rfl) | hl)
    · exact .inl hS
    all_goals refine .inr (sample_mem_stringRefs (List.mem_append_right _
      (List.mem_singleton_self _)) ?_)
    · exact List.mem_cons_self _ _
    · exact List.mem_cons_of_mem _ hl

/-- The sample loop keeps the invariant, adding the files of every entry's trace. -/
theorem Referenced.samples (lib : Libpf TraceHash FileID) (r : OTLPReporter TraceHash FileID)
    {S : Nat → Prop} :
    ∀ (entries : List (Σ _ : TraceHash, Sample)) {enc enc' : Encoder FileID}
      {files : List (Option FileID)}, enc.WellFormed → enc.location.length = enc.locationIndex →
      enc.Referenced S files → encodeSamples lib r entries enc = some enc' →
      enc'.Referenced S (files ++ entries.flatMap fun e => traceFiles ((r.traces.lookup e.1).getD {}))
  | [], enc, enc', files, _, _, href, h => by
    cases h
    simpa using href
  | entry :: rest, enc, enc', files, hwf, hidx, href, h => by
    obtain ⟨e₁, hsample, h⟩ := encodeSamples_cons_eq_some h
    obtain ⟨-, -, -, -, -, hwf₁, -, hidx₁, -⟩ := encodeSample_spec lib r hwf hidx hsample
    simpa using Referenced.samples lib r rest hwf₁ hidx₁ (href.sample lib r hwf hsample) h

omit [DecidableEq TraceHash] in
/-- Before the sample loop only the header strings are in the maps. -/
theorem referenced_initial :
    ({ stringMap := headerStrings.1 } : Encoder FileID).Referenced
      (· < headerStrings.1.entries.length) [] where
  string _ _ hs := .inl (wellFormed_initial.dense_string.lookup_lt hs)
  function _ _ hf := by simp at hf
  file _ _ hf := by simp at hf
  located := .nil

omit [DecidableEq TraceHash] [DecidableEq FileID] in
theorem stringRefs_subset_profile {enc : Encoder FileID} {p : Profile}
    (hsample : p.sample = enc.sample) (hlocation : p.location = enc.location)
    (hmapping : p.mapping = enc.mapping) : enc.stringRefs ⊆ p.stringRefs := by
  intro i hi
  simp only [stringRefs, Profile.stringRefs, hsample, hlocation, hmapping, List.mem_append] at hi ⊢
  tauto

end Encoder

/-- The function-table loop adds to the string map only the names and files of functions. -/
theorem flattenFunctions_adds (order : MapOrder) {funcMap : Cache FuncInfo Nat}
    {stringMap stringMap' : Cache String Nat} {function : List (Option Pprofextended.Function)}
    (h : flattenFunctions order funcMap stringMap = some (function, stringMap')) :
    ∀ ⦃s : String⦄ ⦃i : Nat⦄, stringMap'.lookup s = some i → stringMap.lookup s = some i ∨
      ∃ fi k, funcMap.lookup fi = some k ∧ (s = fi.name ∨ s = fi.fileName) := by
  refine fillTable_state functionSlot (fun st st' => ∀ ⦃s : String⦄ ⦃i : Nat⦄,
      st'.lookup s = some i → st.lookup s = some i ∨
        ∃ fi k, funcMap.lookup fi = some k ∧ (s = fi.name ∨ s = fi.fileName))
    (fun _ _ _ => .inl) (fun h h' _ _ hs => (h' hs).elim (fun hs => h hs) .inr) _ _ _ _ _ ?_ h
  intro e he st s i hs
  have hfi : funcMap.lookup e.1 = some e.2 :=
    AList.mem_lookup_iff.mpr ((order.perm funcMap.entries).subset he)
  rcases lookup_internIndex_cases _ _ hs with hs | ⟨rfl, -⟩
  · rcases lookup_internIndex_cases _ _ hs with hs | ⟨rfl, -⟩
    · exact .inl hs
    · exact .inr ⟨_, _, hfi, .inl rfl⟩
  · exact .inr ⟨_, _, hfi, .inr rfl⟩

/-- The strings interned before the sample loop, the empty one apart, are the strings of the
sample and period types. -/
theorem header_mem_stringRefs {p : Profile} (hsample : p.sampleType = [headerStrings.2.1])
    (hperiod : p.periodType = headerStrings.2.2) {i : Nat} (hpos : 0 < i)
    (hi : i < headerStrings.1.entries.length) : i ∈ p.stringRefs := by
  have hheader : headerStrings.2.1 = ⟨1, 2⟩ ∧ headerStrings.2.2 = ⟨3, 4⟩ ∧
      headerStrings.1.entries.length = 5 := by decide
  rw [hheader.2.2] at hi
  have hcases : i = 1 ∨ i = 2 ∨ i = 3 ∨ i = 4 := by omega
  rcases hcases with rfl | rfl | rfl | rfl <;>
    simp [Profile.stringRefs, hsample, hperiod, hheader.1, hheader.2.1]

/-- A profile `getProfile` returns holds nothing twice and nothing unused: a string table that
starts with the empty string, distinct and each referenced; distinct functions, each referenced by
a line; and one mapping per file of the encoded frames (abort frames apart), referenced by the
locations of exactly those frames. -/
theorem getProfile_minimalTables (lib : Libpf TraceHash FileID) (order : MapOrder)
    (samplesPerSecond : ℕ+) (r : OTLPReporter TraceHash FileID)
    {res : OTLPReporter TraceHash FileID × Profile × UInt64 × UInt64}
    (h : getProfile lib order samplesPerSecond r = some res) :
    MinimalTables res.2.1 (emittedFrameFiles order r) := by
  dsimp only [getProfile] at h
  split at h
  · cases h
  rename_i enc henc
  obtain ⟨-, -, -, -, -, hwf, hgrow, -⟩ := Encoder.encodeSamples_spec lib _ _ wellFormed_initial rfl henc
  have href := Encoder.referenced_initial.samples lib _ _ wellFormed_initial rfl henc
  rw [List.nil_append] at href
  obtain ⟨function, stringMap', hflat, hlen, hdense, hext, hslots⟩ :=
    flattenFunctions_spec order hwf.dense_function hwf.dense_string
  obtain ⟨table, hstrings, htlen, hat⟩ := flattenStrings_spec order hdense
  simp only [hflat, hstrings, Option.some.injEq] at h
  subst h
  refine ⟨hat (hext (hgrow.string (show headerStrings.1.lookup "" = some 0 by decide))),
    ?string_nodup, ?string_referenced, ?function_nodup, ?function_referenced,
    ⟨enc.fileIDtoMapping, hwf.dense_mapping, hwf.length_mapping, href.file, href.located⟩,
    ?mapping_referenced⟩
  case string_nodup =>
    exact hdense.nodup_table (fun s b => b = s) htlen (fun s _ hs => ⟨s, hat hs, rfl⟩)
      fun _ _ _ h h' => h.symm.trans h'
  case string_referenced =>
    intro i hpos hi
    obtain ⟨s, hs⟩ := hdense.exists_lookup i (htlen ▸ hi)
    rcases flattenFunctions_adds order hflat hs with hs | ⟨fi, k, hfi, hname⟩
    · rcases href.string hs with hheader | hrefs
      · exact header_mem_stringRefs rfl rfl hpos hheader
      · exact Encoder.stringRefs_subset_profile rfl rfl rfl hrefs
    · obtain ⟨f, hf, hn, hfn⟩ := hslots hfi
      refine List.mem_append_right _ (List.mem_flatMap.mpr ⟨some f, List.getElem?_mem hf, ?_⟩)
      rcases hname with rfl | rfl
      · simp [Option.some.inj (hs.symm.trans hn)]
      · simp [Option.some.inj (hs.symm.trans hfn)]
  case function_nodup =>
    refine hwf.dense_function.nodup_table (fun fi b => ∃ f, b = some f ∧
      stringMap'.lookup fi.name = some f.name ∧ stringMap'.lookup fi.fileName = some f.filename)
      hlen (fun fi i hfi => ?_) ?_
    · obtain ⟨f, hf, hn, hfn⟩ := hslots hfi
      exact ⟨_, hf, f, rfl, hn, hfn⟩
    · rintro ⟨n, fn⟩ ⟨n', fn'⟩ b ⟨f, rfl, hn, hfn⟩ ⟨f', hf', hn', hfn'⟩
      obtain rfl := Option.some.inj hf'
      obtain rfl : n = n' := hdense.lookup_inj hn hn'
      obtain rfl : fn = fn' := hdense.lookup_inj hfn hfn'
      rfl
  case function_referenced =>
    intro i hi
    obtain ⟨fi, hfi⟩ := hwf.dense_function.exists_lookup i (hlen ▸ hi)
    exact href.function hfi
  case mapping_referenced =>
    intro i hi
    obtain ⟨f, hf⟩ := hwf.dense_mapping.exists_lookup i (hwf.length_mapping ▸ hi)
    obtain ⟨loc, hloc, hpos, hat'⟩ := exists_of_mem_of_forall₂ href.located.flip _ (href.file hf)
    have hidx : i = loc.mappingIndex - 1 := Option.some.inj (hf.symm.trans hat')
    exact List.mem_map.mpr ⟨loc, hloc, by omega⟩

/-- The native and the kernel frame of the two traces share file 1, and so one mapping; the kernel
frame's function is the only function. -/
theorem getProfile_minimalTables_twoTraces :
    (getProfile Libpf.decimal MapOrder.stored 20 twoTraceReporter).map
        (fun res => (res.2.1.mapping.length, res.2.1.function.length)) = some (1, 1) ∧
      ∃ res, getProfile Libpf.decimal MapOrder.stored 20 twoTraceReporter = some res ∧
        MinimalTables res.2.1 (emittedFrameFiles MapOrder.stored twoTraceReporter) := by
  obtain ⟨res, hres⟩ : ∃ res, getProfile Libpf.decimal MapOrder.stored 20 twoTraceReporter =
      some res := ⟨_, rfl⟩
  exact ⟨by decide, res, hres, getProfile_minimalTables _ _ _ _ hres⟩

end ProfilingAgent.Reporter
