import ProfilingAgent.Reporter.Meaning

/-!
# One step of the encoder at a time

`Encoder.WellFormed` is the invariant of the sample loop: the three dedup maps are dense, there
is one mapping per file in `fileIDtoMapping`, the frame-to-function map stays empty, and every
index already written lies below the size of the table it points into. Each helper of the frame
switch keeps it, only grows the maps (`Encoder.Extends`), and returns an index the maps hold; a
frame then appends one location that represents its reading of the caches.
-/

namespace ProfilingAgent.Reporter

open Pprofextended (Location Mapping Line)

variable {TraceHash FileID : Type} [DecidableEq FileID]

namespace Encoder

/-- The invariant of the sample loop. -/
structure WellFormed (enc : Encoder FileID) : Prop where
  dense_string : Dense enc.stringMap
  dense_function : Dense enc.funcMap
  dense_mapping : Dense enc.fileIDtoMapping
  length_mapping : enc.mapping.length = enc.fileIDtoMapping.entries.length
  frameIDtoFunction_eq : enc.frameIDtoFunction = ∅
  mapping_lt : ∀ m ∈ enc.mapping, m.filename < enc.stringMap.entries.length ∧
    m.buildId < enc.stringMap.entries.length
  location_lt : ∀ loc ∈ enc.location, loc.typeIndex < enc.stringMap.entries.length ∧
    loc.mappingIndex ≤ enc.mapping.length ∧
    ∀ l ∈ loc.line, 0 < l.functionIndex ∧ l.functionIndex ≤ enc.funcMap.entries.length
  sample_lt : ∀ s ∈ enc.sample, s.stacktraceIdIndex < enc.stringMap.entries.length ∧
    ∀ l ∈ s.label, l.key < enc.stringMap.entries.length ∧ l.str < enc.stringMap.entries.length

/-- `enc'` comes from `enc` by interning strings, creating functions and adding mappings: the maps
only grow and nothing else changes. -/
structure Extends (enc enc' : Encoder FileID) : Prop where
  string : Cache.Extends enc.stringMap enc'.stringMap
  function : Cache.Extends enc.funcMap enc'.funcMap
  fileIDs : Cache.Extends enc.fileIDtoMapping enc'.fileIDtoMapping
  mapping : enc.mapping <+: enc'.mapping
  location : enc'.location = enc.location
  sample : enc'.sample = enc.sample
  locationIndex : enc'.locationIndex = enc.locationIndex
  startTS : enc'.startTS = enc.startTS
  endTS : enc'.endTS = enc.endTS

theorem Extends.refl (enc : Encoder FileID) : enc.Extends enc :=
  ⟨Cache.Extends.refl _, Cache.Extends.refl _, Cache.Extends.refl _, List.prefix_refl _, rfl,
    rfl, rfl, rfl, rfl⟩

theorem Extends.trans {enc enc' enc'' : Encoder FileID} (h : enc.Extends enc')
    (h' : enc'.Extends enc'') : enc.Extends enc'' :=
  ⟨h.string.trans h'.string, h.function.trans h'.function, h.fileIDs.trans h'.fileIDs,
    h.mapping.trans h'.mapping, h'.location.trans h.location, h'.sample.trans h.sample,
    h'.locationIndex.trans h.locationIndex, h'.startTS.trans h.startTS, h'.endTS.trans h.endTS⟩

/-- Bounds written against smaller tables hold against the larger ones. -/
theorem WellFormed.of_extends {enc enc' : Encoder FileID} (hwf : enc.WellFormed)
    (hext : enc.Extends enc') (hdense_string : Dense enc'.stringMap)
    (hdense_function : Dense enc'.funcMap) (hdense_mapping : Dense enc'.fileIDtoMapping)
    (hlength : enc'.mapping.length = enc'.fileIDtoMapping.entries.length)
    (hframe : enc'.frameIDtoFunction = ∅)
    (hmapping : ∀ m ∈ enc'.mapping, m.filename < enc'.stringMap.entries.length ∧
      m.buildId < enc'.stringMap.entries.length) : enc'.WellFormed := by
  have hs := hext.string.length_le
  have hf := hext.function.length_le
  have hm := hext.mapping.length_le
  refine ⟨hdense_string, hdense_function, hdense_mapping, hlength, hframe, hmapping, ?_, ?_⟩
  · intro loc hloc
    obtain ⟨htype, hmap, hlines⟩ := hwf.location_lt loc (hext.location ▸ hloc)
    exact ⟨by omega, by omega, fun l hl => ⟨(hlines l hl).1, by have := (hlines l hl).2; omega⟩⟩
  · intro s hsample
    obtain ⟨hid, hlabels⟩ := hwf.sample_lt s (hext.sample ▸ hsample)
    exact ⟨by omega, fun l hl => ⟨by have := (hlabels l hl).1; omega,
      by have := (hlabels l hl).2; omega⟩⟩

/-- A larger dense string map keeps the invariant. -/
theorem WellFormed.withStringMap {enc : Encoder FileID} (hwf : enc.WellFormed)
    {stringMap : Cache String Nat} (hext : Cache.Extends enc.stringMap stringMap)
    (hdense : Dense stringMap) : ({ enc with stringMap } : Encoder FileID).WellFormed :=
  hwf.of_extends ⟨hext, Cache.Extends.refl _, Cache.Extends.refl _, List.prefix_refl _, rfl, rfl,
    rfl, rfl, rfl⟩ hdense hwf.dense_function hwf.dense_mapping hwf.length_mapping
    hwf.frameIDtoFunction_eq fun m hm =>
      ⟨(hwf.mapping_lt m hm).1.trans_le hext.length_le,
        (hwf.mapping_lt m hm).2.trans_le hext.length_le⟩

/-! ### Interning a string and creating a function -/

theorem extends_intern (enc : Encoder FileID) (s : String) : enc.Extends (enc.intern s).2 :=
  ⟨extends_internIndex _ _, Cache.Extends.refl _, Cache.Extends.refl _, List.prefix_refl _, rfl,
    rfl, rfl, rfl, rfl⟩

omit [DecidableEq FileID] in
theorem lookup_intern (enc : Encoder FileID) (s : String) :
    (enc.intern s).2.stringMap.lookup s = some (enc.intern s).1 :=
  lookup_internIndex _ _

theorem WellFormed.intern {enc : Encoder FileID} (hwf : enc.WellFormed) (s : String) :
    (enc.intern s).2.WellFormed :=
  hwf.withStringMap (extends_internIndex _ _) (hwf.dense_string.intern s)

theorem intern_lt {enc : Encoder FileID} (hwf : enc.WellFormed) (s : String) :
    (enc.intern s).1 < (enc.intern s).2.stringMap.entries.length :=
  hwf.dense_string.internIndex_lt s

theorem extends_createFunction (enc : Encoder FileID) (name fileName : String) :
    enc.Extends (enc.createFunction name fileName).2 :=
  ⟨Cache.Extends.refl _, extends_internIndex _ _, Cache.Extends.refl _, List.prefix_refl _, rfl,
    rfl, rfl, rfl, rfl⟩

omit [DecidableEq FileID] in
theorem lookup_createFunction (enc : Encoder FileID) (name fileName : String) :
    (enc.createFunction name fileName).2.funcMap.lookup ⟨name, fileName⟩ =
      some (enc.createFunction name fileName).1 :=
  lookup_internIndex _ _

theorem WellFormed.createFunction {enc : Encoder FileID} (hwf : enc.WellFormed)
    (name fileName : String) : (enc.createFunction name fileName).2.WellFormed :=
  hwf.of_extends (extends_createFunction enc name fileName) hwf.dense_string
    (hwf.dense_function.intern _) hwf.dense_mapping hwf.length_mapping hwf.frameIDtoFunction_eq
    hwf.mapping_lt

theorem createFunction_lt {enc : Encoder FileID} (hwf : enc.WellFormed) (name fileName : String) :
    (enc.createFunction name fileName).1 < (enc.createFunction name fileName).2.funcMap.entries.length :=
  hwf.dense_function.internIndex_lt _

/-! ### Mappings -/

/-- `built` appends nothing and only interns the strings of the mapping it returns. -/
structure InternsOnly (enc : Encoder FileID) (built : Mapping × Encoder FileID) : Prop where
  only : built.2 = { enc with stringMap := built.2.stringMap }
  string : Cache.Extends enc.stringMap built.2.stringMap
  dense : Dense built.2.stringMap
  filename_lt : built.1.filename < built.2.stringMap.entries.length
  buildId_lt : built.1.buildId < built.2.stringMap.entries.length
  new : ∀ ⦃s : String⦄ ⦃i : Nat⦄, built.2.stringMap.lookup s = some i →
    enc.stringMap.lookup s = some i ∨ i = built.1.filename ∨ i = built.1.buildId

/-- A mapping built from two interned strings, as both mapping builders are. -/
theorem internsOnly_intern_intern {enc : Encoder FileID} (hdense : Dense enc.stringMap)
    (s₁ s₂ : String) (fileOffset : UInt64) (kind : Pprofextended.BuildIdKind) :
    InternsOnly enc (⟨fileOffset, (enc.intern s₁).1, ((enc.intern s₁).2.intern s₂).1, kind⟩,
      ((enc.intern s₁).2.intern s₂).2) := by
  have hd₁ : Dense (enc.intern s₁).2.stringMap := hdense.intern s₁
  refine ⟨rfl, (extends_intern enc s₁).string.trans (extends_intern _ s₂).string,
    hd₁.intern s₂, ?_, hd₁.internIndex_lt s₂, fun s i hs => ?_⟩
  swap
  · rcases lookup_internIndex_cases _ _ hs with hs | ⟨-, rfl⟩
    · rcases lookup_internIndex_cases _ _ hs with hs | ⟨-, rfl⟩
      · exact .inl hs
      · exact .inr (.inl rfl)
    · exact .inr (.inr rfl)
  have := hdense.internIndex_lt s₁
  have := length_le_internIndex (enc.intern s₁).2.stringMap s₂
  simp only [Encoder.intern, getStringMapIndex] at *
  omega

theorem internsOnly_nativeMapping (lib : Libpf TraceHash FileID)
    (r : OTLPReporter TraceHash FileID) (fileID : FileID) (address : AddressOrLineno)
    {enc : Encoder FileID} (hdense : Dense enc.stringMap) :
    InternsOnly enc (nativeMapping lib r fileID address enc) :=
  internsOnly_intern_intern hdense _ _ _ _

theorem internsOnly_dummyMapping (lib : Libpf TraceHash FileID) (fileID : FileID)
    {enc : Encoder FileID} (hdense : Dense enc.stringMap) :
    InternsOnly enc (dummyMapping lib fileID enc) :=
  internsOnly_intern_intern hdense _ _ _ _

omit [DecidableEq FileID] in
theorem InternsOnly.appendMapping_eq {e : Encoder FileID} {built : Mapping × Encoder FileID}
    (hI : InternsOnly e built) :
    built.2.appendMapping built.1 =
      { e with stringMap := built.2.stringMap, mapping := e.mapping ++ [built.1] } := by
  rw [appendMapping, hI.only]

/-- The look-up-or-create step keeps the invariant and returns the file's index in
`fileIDtoMapping`, which names an entry of `profile.Mapping`. -/
theorem mappingIndex_spec {enc : Encoder FileID} (hwf : enc.WellFormed) (fileID : FileID)
    {newMapping : Encoder FileID → Mapping × Encoder FileID}
    (hnew : ∀ e : Encoder FileID, Dense e.stringMap → InternsOnly e (newMapping e)) :
    (enc.mappingIndex fileID newMapping).2.WellFormed ∧
      enc.Extends (enc.mappingIndex fileID newMapping).2 ∧
      (enc.mappingIndex fileID newMapping).2.fileIDtoMapping.lookup fileID =
        some (enc.mappingIndex fileID newMapping).1 ∧
      (enc.mappingIndex fileID newMapping).1 < (enc.mappingIndex fileID newMapping).2.mapping.length := by
  cases hkey : enc.fileIDtoMapping.lookup fileID with
  | some idx =>
    simp only [mappingIndex, hkey]
    exact ⟨hwf, Extends.refl enc, trivial,
      hwf.length_mapping ▸ hwf.dense_mapping.lookup_lt hkey⟩
  | none =>
    simp only [mappingIndex, hkey]
    set fileIDs' := enc.fileIDtoMapping.insert fileID enc.fileIDtoMapping.entries.length
    set e₁ : Encoder FileID := { enc with fileIDtoMapping := fileIDs' }
    have hI : InternsOnly e₁ (newMapping e₁) := hnew e₁ hwf.dense_string
    rw [hI.appendMapping_eq]
    have hlen : fileIDs'.entries.length = enc.fileIDtoMapping.entries.length + 1 :=
      Cache.length_insert_of_lookup_eq_none hkey
    have hext : enc.Extends
        { e₁ with stringMap := (newMapping e₁).2.stringMap, mapping := e₁.mapping ++ [(newMapping e₁).1] } :=
      ⟨hI.string, Cache.Extends.refl _, Cache.extends_insert hkey, List.prefix_append _ _, rfl, rfl,
        rfl, rfl, rfl⟩
    have hdense_mapping : Dense fileIDs' := by
      simpa [internIndex_of_lookup_eq_none hkey] using hwf.dense_mapping.intern fileID
    refine ⟨hwf.of_extends hext hI.dense hwf.dense_function hdense_mapping ?_
      hwf.frameIDtoFunction_eq ?_, hext, by simp [fileIDs'], by simp [e₁, hwf.length_mapping]⟩
    · simp only [e₁, List.length_append, List.length_singleton, hwf.length_mapping, hlen]
    · intro m hm
      rcases List.mem_append.mp hm with hm | hm
      · exact ⟨(hwf.mapping_lt m hm).1.trans_le hI.string.length_le,
          (hwf.mapping_lt m hm).2.trans_le hI.string.length_le⟩
      · rw [List.mem_singleton.mp hm]
        exact ⟨hI.filename_lt, hI.buildId_lt⟩

/-! ### Lines and locations -/

/-- What a line builder returns: the encoder keeps the invariant and only grows, and the line
represents the frame's lines and points into the function table. -/
structure LineOut (enc : Encoder FileID) (res : Line × Encoder FileID)
    (expected : List Pprofextended.DecodedLine) : Prop where
  wf : res.2.WellFormed
  ext : enc.Extends res.2
  rep : List.Forall₂ (LineRep res.2.funcMap) [res.1] expected
  pos : 0 < res.1.functionIndex
  le : res.1.functionIndex ≤ res.2.funcMap.entries.length

theorem lineOut_createFunction {enc : Encoder FileID} (hwf : enc.WellFormed)
    (name fileName : String) (line : Int) :
    LineOut enc (⟨(enc.createFunction name fileName).1 + 1, line⟩, (enc.createFunction name fileName).2)
      [⟨name, fileName, line⟩] :=
  ⟨hwf.createFunction name fileName, extends_createFunction enc name fileName,
    List.Forall₂.cons ⟨_, lookup_createFunction enc name fileName, rfl⟩ List.Forall₂.nil,
    Nat.succ_pos _, createFunction_lt hwf name fileName⟩

theorem lineOut_kernelLine (lib : Libpf TraceHash FileID) {enc : Encoder FileID}
    (hwf : enc.WellFormed) (r : OTLPReporter TraceHash FileID) (fileID : FileID)
    (address : AddressOrLineno) :
    LineOut enc (kernelLine r enc fileID address) (expectedLines lib r .kernelFrame fileID address) := by
  simp only [kernelLine, hwf.frameIDtoFunction_eq, AList.lookup_empty, expectedLines]
  exact lineOut_createFunction hwf _ _ 0

theorem lineOut_interpretedLine (lib : Libpf TraceHash FileID) {enc : Encoder FileID}
    (hwf : enc.WellFormed) (r : OTLPReporter TraceHash FileID) (marker : Int) (fileID : FileID)
    (address : AddressOrLineno) :
    LineOut enc (interpretedLine lib r enc (.other marker) fileID address)
      (expectedLines lib r (.other marker) fileID address) := by
  simp only [interpretedLine, expectedLines]
  cases r.frames.lookup fileID with
  | none => exact lineOut_createFunction hwf _ _ 0
  | some fileIDInfo =>
    dsimp only
    cases fileIDInfo.lookup address with
    | none => exact lineOut_createFunction hwf _ _ 0
    | some si => exact lineOut_createFunction hwf _ _ _

theorem WellFormed.pushLocation {enc : Encoder FileID} (hwf : enc.WellFormed) {loc : Location}
    (hloc : loc.typeIndex < enc.stringMap.entries.length ∧ loc.mappingIndex ≤ enc.mapping.length ∧
      ∀ l ∈ loc.line, 0 < l.functionIndex ∧ l.functionIndex ≤ enc.funcMap.entries.length) :
    (enc.pushLocation loc).WellFormed :=
  ⟨hwf.dense_string, hwf.dense_function, hwf.dense_mapping, hwf.length_mapping,
    hwf.frameIDtoFunction_eq, hwf.mapping_lt,
    fun l hl => (List.mem_append.mp hl).elim (hwf.location_lt l) fun h => by
      rw [List.mem_singleton.mp h]; exact hloc,
    hwf.sample_lt⟩

/-- A frame that resolves to a line and a dummy mapping, as kernel and interpreted frames do. -/
theorem lineFrame_spec (lib : Libpf TraceHash FileID) {enc : Encoder FileID} (frameKind : FrameType)
    (address : AddressOrLineno) (fileID : FileID)
    {res : Line × Encoder FileID} {expected : List Pprofextended.DecodedLine}
    (hout : LineOut (enc.intern (lib.frameTypeString frameKind)).2 res expected) :
    enc.Extends (getDummyMappingIndex lib res.2 fileID).2 ∧
      LocationRep (getDummyMappingIndex lib res.2 fileID).2.stringMap
        (getDummyMappingIndex lib res.2 fileID).2.funcMap
        (getDummyMappingIndex lib res.2 fileID).2.mapping.length
        ⟨(getDummyMappingIndex lib res.2 fileID).1 + 1, address, [res.1],
          (enc.intern (lib.frameTypeString frameKind)).1⟩
        ⟨address, lib.frameTypeString frameKind, expected, true⟩ ∧
      ((getDummyMappingIndex lib res.2 fileID).2.pushLocation
        ⟨(getDummyMappingIndex lib res.2 fileID).1 + 1, address, [res.1],
          (enc.intern (lib.frameTypeString frameKind)).1⟩).WellFormed := by
  obtain ⟨hwf', hext, hlookup, hlt⟩ :=
    mappingIndex_spec hout.wf fileID fun _ => internsOnly_dummyMapping lib fileID
  have htyped := (extends_intern enc (lib.frameTypeString frameKind)).trans (hout.ext.trans hext)
  have htype := (hout.ext.trans hext).string (lookup_intern enc (lib.frameTypeString frameKind))
  refine ⟨htyped, ⟨htype, rfl, hout.rep.imp fun _ _ => LineRep.mono hext.function,
    by simp, hlt⟩, hwf'.pushLocation ⟨hwf'.dense_string.lookup_lt htype, hlt, ?_⟩⟩
  intro l hl
  rw [List.mem_singleton.mp hl]
  exact ⟨hout.pos, hout.le.trans hext.function.length_le⟩

/-! ### Frames -/

/-- What a frame that does not panic writes. It reads the frame's address and interns the frame
type's string; an abort frame then appends its location, and any other frame reads its file and
appends its location after the native mapping, or after its line and the file's dummy mapping. -/
theorem encodeFrame_eq_some {lib : Libpf TraceHash FileID} {r : OTLPReporter TraceHash FileID}
    {t : TraceInfo FileID} {enc enc' : Encoder FileID} {j : Nat} {frameKind : FrameType}
    (h : encodeFrame lib r t enc j frameKind = some enc') :
    ∃ address, t.linenos[j]? = some address ∧
      let typed := enc.intern (lib.frameTypeString frameKind)
      (frameKind = .abortFrame ∧ enc' = typed.2.pushLocation ⟨0, address, [], typed.1⟩) ∨
      ∃ fileID, t.files[j]? = some fileID ∧
        ((frameKind = .nativeFrame ∧
          let mapped := typed.2.mappingIndex fileID (nativeMapping lib r fileID address)
          enc' = mapped.2.pushLocation ⟨mapped.1 + 1, address, [], typed.1⟩) ∨
        (frameKind = .kernelFrame ∧
          let line := kernelLine r typed.2 fileID address
          let mapped := getDummyMappingIndex lib line.2 fileID
          enc' = mapped.2.pushLocation ⟨mapped.1 + 1, address, [line.1], typed.1⟩) ∨
        ∃ marker, frameKind = .other marker ∧
          let line := interpretedLine lib r typed.2 frameKind fileID address
          let mapped := getDummyMappingIndex lib line.2 fileID
          enc' = mapped.2.pushLocation ⟨mapped.1 + 1, address, [line.1], typed.1⟩) := by
  simp only [encodeFrame] at h
  cases haddr : t.linenos[j]? with
  | none => simp [haddr] at h
  | some address =>
    simp only [haddr] at h
    refine ⟨address, rfl, ?_⟩
    cases frameKind with
    | abortFrame => exact .inl ⟨rfl, (Option.some.inj h).symm⟩
    | nativeFrame | kernelFrame | other marker =>
      cases hfile : t.files[j]? with
      | none => simp [hfile] at h
      | some fileID =>
        simp only [hfile, Option.some.injEq] at h
        subst h
        simp

/-- One frame: the encoder appends one location, which represents the frame's reading of the
caches, and keeps its invariant. -/
theorem encodeFrame_spec (lib : Libpf TraceHash FileID) (r : OTLPReporter TraceHash FileID)
    (t : TraceInfo FileID) {enc enc' : Encoder FileID} (hwf : enc.WellFormed) {j : Nat}
    {frameKind : FrameType} (h : encodeFrame lib r t enc j frameKind = some enc') :
    ∃ e loc dl, enc.Extends e ∧ enc' = e.pushLocation loc ∧
      expectedLocationAt lib r t j frameKind = some dl ∧
      LocationRep e.stringMap e.funcMap e.mapping.length loc dl ∧ enc'.WellFormed := by
  obtain ⟨address, haddr, ⟨rfl, rfl⟩ |
    ⟨fileID, hfile, ⟨rfl, rfl⟩ | ⟨rfl, rfl⟩ | ⟨marker, rfl, rfl⟩⟩⟩ := encodeFrame_eq_some h
  · exact ⟨_, _, ⟨address, lib.frameTypeString .abortFrame, [], false⟩, extends_intern enc _, rfl,
      by simp [expectedLocationAt, haddr], ⟨lookup_intern enc _, rfl, .nil, rfl, Nat.zero_le _⟩,
      (hwf.intern _).pushLocation ⟨intern_lt hwf _, Nat.zero_le _, by simp⟩⟩
  · obtain ⟨hwf', hext, -, hlt⟩ := mappingIndex_spec (hwf.intern (lib.frameTypeString .nativeFrame))
      fileID fun _ => internsOnly_nativeMapping lib r fileID address
    have htype := hext.string (lookup_intern enc (lib.frameTypeString .nativeFrame))
    exact ⟨_, _, ⟨address, lib.frameTypeString .nativeFrame, [], true⟩,
      (extends_intern enc _).trans hext, rfl,
      by simp [expectedLocationAt, haddr, hfile, expectedLines], ⟨htype, rfl, .nil, by simp, hlt⟩,
      hwf'.pushLocation ⟨hwf'.dense_string.lookup_lt htype, hlt, by simp⟩⟩
  · obtain ⟨hext, hrep, hwf'⟩ := lineFrame_spec lib .kernelFrame address fileID
      (lineOut_kernelLine lib (hwf.intern _) r fileID address)
    exact ⟨_, _, _, hext, rfl, by simp [expectedLocationAt, haddr, hfile], hrep, hwf'⟩
  · obtain ⟨hext, hrep, hwf'⟩ := lineFrame_spec lib (.other marker) address fileID
      (lineOut_interpretedLine lib (hwf.intern _) r marker fileID address)
    exact ⟨_, _, _, hext, rfl, by simp [expectedLocationAt, haddr, hfile], hrep, hwf'⟩

/-- A frame fails (panics) exactly when its reading of the trace does: a missing address, or a
missing file for a frame that needs one. -/
theorem encodeFrame_eq_none_iff (lib : Libpf TraceHash FileID) (r : OTLPReporter TraceHash FileID)
    (t : TraceInfo FileID) (enc : Encoder FileID) (j : Nat) (frameKind : FrameType) :
    encodeFrame lib r t enc j frameKind = none ↔ expectedLocationAt lib r t j frameKind = none := by
  simp only [encodeFrame, expectedLocationAt]
  cases t.linenos[j]? with
  | none => simp
  | some address => cases frameKind <;> cases t.files[j]? <;> simp

end Encoder

end ProfilingAgent.Reporter
