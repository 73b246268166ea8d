import ProfilingAgent.Libpf

/-!
# The profile format and what a profile says

The messages of `pprofextended` that `getProfile` fills, with every reference field kept as the
index it is on the wire: string fields index `StringTable`, `Line.FunctionIndex` and
`Location.MappingIndex` are 1-based references into `Function` and `Mapping` (0 is unset), and a
sample owns the range of `Location` that starts at `LocationsStartIndex`.

`Profile.decode` resolves every reference and fails on one that is out of range; it is the
reading of a profile the correctness results are stated against.
-/

namespace ProfilingAgent.Pprofextended

/-- `BuildIdKind`; `BUILD_ID_LINKER` is the enum's zero value. -/
inductive BuildIdKind where
  | buildIdLinker
  | buildIdBinaryHash
  deriving DecidableEq, Repr

/-- `ValueType` -/
structure ValueType where
  type : Nat
  unit : Nat
  deriving DecidableEq, Repr

/-- `Label` with a string value. -/
structure Label where
  key : Nat
  str : Nat
  deriving DecidableEq, Repr

/-- `Line` -/
structure Line where
  functionIndex : Nat := 0
  line : Int := 0
  deriving DecidableEq, Repr

/-- `Location` -/
structure Location where
  mappingIndex : Nat := 0
  address : UInt64
  line : List Line := []
  typeIndex : Nat
  deriving DecidableEq, Repr

/-- `Mapping` -/
structure Mapping where
  fileOffset : UInt64 := 0
  filename : Nat
  buildId : Nat
  buildIdKind : BuildIdKind
  deriving DecidableEq, Repr

/-- `Function`. The function table of a profile is a slice of pointers, so its slots are
`Option Function`, and `none` is a nil pointer. -/
structure Function where
  name : Nat
  filename : Nat
  deriving DecidableEq, Repr

/-- `Sample` -/
structure Sample where
  locationsStartIndex : Nat
  locationsLength : Nat
  stacktraceIdIndex : Nat
  value : List Nat
  label : List Label
  timestamps : List UInt64
  deriving DecidableEq, Repr

/-- The fields of `Profile` that `getProfile` sets. -/
structure Profile where
  sampleType : List ValueType
  sample : List Sample
  mapping : List Mapping
  location : List Location
  locationIndices : List Nat
  function : List (Option Function)
  stringTable : List String
  periodType : ValueType
  period : Nat
  timeNanos : Int
  durationNanos : Int
  deriving DecidableEq, Repr

/-- A line with its function resolved to the function's name and file name. -/
structure DecodedLine where
  functionName : String
  fileName : String
  line : Int
  deriving DecidableEq, Repr

/-- A location with its type and lines resolved; `mapped` says whether it references a
mapping at all. -/
structure DecodedLocation where
  address : UInt64
  frameType : String
  lines : List DecodedLine
  mapped : Bool
  deriving DecidableEq, Repr

/-- A mapping with its file name and build ID resolved. -/
structure DecodedMapping where
  fileOffset : UInt64
  filename : String
  buildId : String
  buildIdKind : BuildIdKind
  deriving DecidableEq, Repr

/-- A sample with every reference resolved. -/
structure DecodedSample where
  stacktraceId : String
  value : List Nat
  timestamps : List UInt64
  labels : List (String × String)
  locations : List DecodedLocation
  deriving DecidableEq, Repr

namespace Profile

/-- Resolve a 1-based function reference and the function's two strings. -/
def decodeLine (p : Profile) (l : Line) : Option DecodedLine :=
  match l.functionIndex with
  | 0 => none
  | idx + 1 =>
    match p.function[idx]? with
    | some (some fn) =>
      match p.stringTable[fn.name]?, p.stringTable[fn.filename]? with
      | some name, some file => some ⟨name, file, l.line⟩
      | _, _ => none
    | _ => none

/-- Resolve a location; a mapping reference past the end of `Mapping` fails. -/
def decodeLocation (p : Profile) (loc : Location) : Option DecodedLocation :=
  if loc.mappingIndex ≤ p.mapping.length then
    match p.stringTable[loc.typeIndex]?, loc.line.mapM p.decodeLine with
    | some frameType, some lines => some ⟨loc.address, frameType, lines, loc.mappingIndex ≠ 0⟩
    | _, _ => none
  else none

/-- Resolve a mapping's two strings. -/
def decodeMapping (p : Profile) (m : Mapping) : Option DecodedMapping :=
  match p.stringTable[m.filename]?, p.stringTable[m.buildId]? with
  | some filename, some buildId => some ⟨m.fileOffset, filename, buildId, m.buildIdKind⟩
  | _, _ => none

/-- Resolve a label's key and value. -/
def decodeLabel (p : Profile) (l : Label) : Option (String × String) :=
  match p.stringTable[l.key]?, p.stringTable[l.str]? with
  | some key, some str => some (key, str)
  | _, _ => none

/-- Resolve a sample: its stack identity, its labels and the locations of its range. -/
def decodeSample (p : Profile) (s : Sample) : Option DecodedSample :=
  match p.stringTable[s.stacktraceIdIndex]?, s.label.mapM p.decodeLabel,
      (List.range' s.locationsStartIndex s.locationsLength).mapM
        (fun i => p.location[i]?.bind p.decodeLocation) with
  | some stacktraceId, some labels, some locations =>
    some ⟨stacktraceId, s.value, s.timestamps, labels, locations⟩
  | _, _, _ => none

/-- Every string index the profile holds: in its value types, its samples' stack IDs and labels,
its locations' types, its mappings' file names and build IDs and its functions. -/
def stringRefs (p : Profile) : List Nat :=
  p.sampleType.flatMap (fun vt => [vt.type, vt.unit]) ++ [p.periodType.type, p.periodType.unit] ++
    p.sample.flatMap (fun s => s.stacktraceIdIndex :: s.label.flatMap fun l => [l.key, l.str]) ++
    p.location.map Location.typeIndex ++ p.mapping.flatMap (fun m => [m.filename, m.buildId]) ++
    p.function.flatMap fun f => (f.map fun fn => [fn.name, fn.filename]).getD []

/-- Every function reference the profile holds, in the lines of its locations. -/
def functionRefs (p : Profile) : List Nat :=
  p.location.flatMap fun loc => loc.line.map Line.functionIndex

/-- Every sample of the profile, resolved. -/
def decode (p : Profile) : Option (List DecodedSample) :=
  p.sample.mapM p.decodeSample

/-- Every reference the profile holds is in range: string indices below `len(StringTable)`,
function references in `[1, len(Function)]`, mapping references at most `len(Mapping)`, no nil
function slot, and each sample's location range inside `Location`. -/
structure WellIndexed (p : Profile) : Prop where
  sampleType : ∀ vt ∈ p.sampleType,
    vt.type < p.stringTable.length ∧ vt.unit < p.stringTable.length
  periodType : p.periodType.type < p.stringTable.length ∧ p.periodType.unit < p.stringTable.length
  sample : ∀ s ∈ p.sample, s.stacktraceIdIndex < p.stringTable.length ∧
    (∀ l ∈ s.label, l.key < p.stringTable.length ∧ l.str < p.stringTable.length) ∧
    s.locationsStartIndex + s.locationsLength ≤ p.location.length
  location : ∀ loc ∈ p.location, loc.typeIndex < p.stringTable.length ∧
    loc.mappingIndex ≤ p.mapping.length ∧
    ∀ l ∈ loc.line, 0 < l.functionIndex ∧ l.functionIndex ≤ p.function.length
  mapping : ∀ m ∈ p.mapping, m.filename < p.stringTable.length ∧ m.buildId < p.stringTable.length
  function : ∀ f ∈ p.function, ∃ fn, f = some fn ∧ fn.name < p.stringTable.length ∧
    fn.filename < p.stringTable.length

end Profile

end ProfilingAgent.Pprofextended
