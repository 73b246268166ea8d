import ProfilingAgent.Libpf

/-!
# The reporter's caches and its ingestion API

`OTLPReporter` (src/reporter/otlp_reporter.go) keeps its facts in caches that the collector fills
through the methods modelled here: the shape of a trace and its labels arrive by two separate
calls, sample counts accumulate per trace hash until a report drains them, and the fallback
symbols, executables and per-frame source lines are looked up when a profile is encoded.

Each method is a function of the reporter's state. A method that reads a cache and writes the
entry back (`Peek` then `Add`) is split into the value it computes from what it read, so that the
interleaved model can run the read and the write as separate steps.
-/

namespace ProfilingAgent.Reporter

/-- `traceInfo`: static information about a trace. The defaults are Go's zero values, so a
structure literal that leaves fields out reads as the Go literal. -/
structure TraceInfo (FileID : Type) where
  files : List FileID := []
  linenos : List AddressOrLineno := []
  frameTypes : List FrameType := []
  comm : String := ""
  podName : String := ""
  podNamespace : String := ""
  containerName : String := ""
  apmServiceName : String := ""
  deriving DecidableEq, Repr

/-- `sample`: the count and the timestamps accumulated for a trace since the last report. -/
structure Sample where
  timestamps : List UInt64 := []
  count : UInt32 := 0
  deriving DecidableEq, Repr

/-- `execInfo` -/
structure ExecInfo where
  fileName : String := ""
  buildID : String := ""
  deriving DecidableEq, Repr

/-- `sourceInfo` -/
structure SourceInfo where
  lineNumber : SourceLineno := 0
  functionOffset : UInt32 := 0
  functionName : String := ""
  filePath : String := ""
  deriving DecidableEq, Repr

/-- `funcInfo`: the key of the function table. -/
structure FuncInfo where
  name : String
  fileName : String
  deriving DecidableEq, Repr

/-- The fields of `libpf.Trace` that `ReportFramesForTrace` reads. -/
structure Trace (TraceHash FileID : Type) where
  hash : TraceHash
  files : List FileID
  linenos : List AddressOrLineno
  frameTypes : List FrameType

/-- The caches of `OTLPReporter` and its build-ID mode. The gRPC client, the stop signal and the
statistics are left out; the symbol uploader is reached through the requests
`executableMetadata` returns. `StartOTLP` makes each cache an LRU of capacity `cacheSize`; here
none has a capacity, so a state stands for one in which no cache has yet evicted a key. -/
structure OTLPReporter (TraceHash FileID : Type) where
  hostmetadata : Cache String String
  traces : Cache TraceHash (TraceInfo FileID)
  samples : Cache TraceHash Sample
  fallbackSymbols : Cache (FrameID FileID) String
  executables : Cache FileID ExecInfo
  frames : Cache FileID (Cache AddressOrLineno SourceInfo)
  otlpBuildIDMode : String

variable {TraceHash FileID : Type} [DecidableEq TraceHash] [DecidableEq FileID]

/-- The reporter `StartOTLP` builds: every cache empty. -/
def startOTLP (otlpBuildIDMode : String) : OTLPReporter TraceHash FileID :=
  ⟨∅, ∅, ∅, ∅, ∅, ∅, otlpBuildIDMode⟩

/-- The entry `ReportFramesForTrace` writes, given what its `Peek` returned: the shape fields
are overwritten and the labels kept. -/
def framesEntry (peeked : Option (TraceInfo FileID)) (trace : Trace TraceHash FileID) :
    TraceInfo FileID :=
  match peeked with
  | some v => { v with files := trace.files, linenos := trace.linenos, frameTypes := trace.frameTypes }
  | none => { files := trace.files, linenos := trace.linenos, frameTypes := trace.frameTypes }

/-- `ReportFramesForTrace` -/
def reportFramesForTrace (r : OTLPReporter TraceHash FileID) (trace : Trace TraceHash FileID) :
    OTLPReporter TraceHash FileID :=
  { r with traces := r.traces.insert trace.hash (framesEntry (r.traces.lookup trace.hash) trace) }

/-- The `traces` entry `ReportCountForTrace` writes, given what its `Peek` returned: the labels
are overwritten and the shape kept. -/
def labelsEntry (peeked : Option (TraceInfo FileID))
    (comm podName podNamespace containerName : String) : TraceInfo FileID :=
  match peeked with
  | some v => { v with comm, podName, podNamespace, containerName }
  | none => { comm, podName, podNamespace, containerName }

/-- The `samples` entry `ReportCountForTrace` writes, given what its `Peek` returned: the count
is added (modulo 2^32, as `uint32` addition is) and the timestamp appended. -/
def countEntry (peeked : Option Sample) (timestamp : UInt32) (count : UInt16) : Sample :=
  match peeked with
  | some v => { v with count := v.count + count.toUInt32,
                       timestamps := v.timestamps ++ [timestamp.toUInt64] }
  | none => { count := count.toUInt32, timestamps := [timestamp.toUInt64] }

/-- The count `countEntry` writes, as a number: the sum modulo 2^32. -/
theorem countEntry_count (peeked : Option Sample) (timestamp : UInt32) (count : UInt16) :
    (countEntry peeked timestamp count).count.toNat =
      (((peeked.map fun s => s.count.toNat).getD 0) + count.toNat) % 2 ^ 32 := by
  cases peeked with
  | none =>
    have : count.toNat < 2 ^ 16 := count.toNat_lt_size
    show count.toNat = (0 + count.toNat) % 2 ^ 32
    omega
  | some v => rfl

@[simp]
theorem countEntry_timestamps (peeked : Option Sample) (timestamp : UInt32) (count : UInt16) :
    (countEntry peeked timestamp count).timestamps =
      (peeked.map Sample.timestamps).getD [] ++ [timestamp.toUInt64] := by
  cases peeked <;> rfl

/-- `ReportCountForTrace` -/
def reportCountForTrace (r : OTLPReporter TraceHash FileID) (traceHash : TraceHash)
    (timestamp : UInt32) (count : UInt16) (comm podName podNamespace containerName : String) :
    OTLPReporter TraceHash FileID :=
  let labels := labelsEntry (r.traces.lookup traceHash) comm podName podNamespace containerName
  let r := { r with traces := r.traces.insert traceHash labels }
  let counted := countEntry (r.samples.lookup traceHash) timestamp count
  { r with samples := r.samples.insert traceHash counted }

/-- `ReportFallbackSymbol`: the first symbol reported for a frame wins. -/
def reportFallbackSymbol (r : OTLPReporter TraceHash FileID) (frameID : FrameID FileID)
    (symbol : String) : OTLPReporter TraceHash FileID :=
  match r.fallbackSymbols.lookup frameID with
  | some _ => r
  | none => { r with fallbackSymbols := r.fallbackSymbols.insert frameID symbol }

/-- `path.Base` of the Go standard library: the last element of a slash-separated path, `"."`
for the empty path and `"/"` for a path of slashes only. -/
def pathBase (path : String) : String :=
  if path = "" then "." else
    let trimmed := (path.toList.reverse.dropWhile (· = '/')).reverse
    let base := (trimmed.reverse.takeWhile (· ≠ '/')).reverse
    if base = [] then "/" else String.mk base

/-- A request to the symbol uploader: `Upload(ctx, fileID, fileName, buildID)`. -/
structure UploadRequest (FileID : Type) where
  fileID : FileID
  path : String
  buildID : String

/-- `ExecutableMetadata`: it forwards the full file name to the symbol uploader and caches the
base name, or `<anonymous-blob>` when the process has no backing file. -/
def executableMetadata (r : OTLPReporter TraceHash FileID) (fileID : FileID)
    (fileName buildID : String) : OTLPReporter TraceHash FileID × UploadRequest FileID :=
  let baseName := if pathBase fileName = "/" then "<anonymous-blob>" else pathBase fileName
  ({ r with executables := r.executables.insert fileID { fileName := baseName, buildID } },
    ⟨fileID, fileName, buildID⟩)

/-- The `sourceInfo` `FrameMetadata` stores for an address, given what the file's map already
holds there: an empty incoming file path keeps the known one. -/
def sourceEntry (known : Option SourceInfo) (lineNumber : SourceLineno) (functionOffset : UInt32)
    (functionName filePath : String) : SourceInfo :=
  let filePath :=
    if filePath = "" then
      match known with
      | some s => s.filePath
      | none => filePath
    else filePath
  { lineNumber, functionOffset, functionName, filePath }

omit [DecidableEq TraceHash] [DecidableEq FileID] in
/-- With nothing stored before, the incoming entry is stored as it is. -/
theorem sourceEntry_none (lineNumber : SourceLineno) (functionOffset : UInt32)
    (functionName filePath : String) :
    sourceEntry none lineNumber functionOffset functionName filePath =
      { lineNumber, functionOffset, functionName, filePath } := by
  unfold sourceEntry
  split <;> simp_all

/-- `FrameMetadata`. When the file already has a map, the Go code writes into the map the cache
holds; without eviction that is the same as writing the updated map back. A new file gets a map
with the one entry, written unchanged. -/
def frameMetadata (r : OTLPReporter TraceHash FileID) (fileID : FileID)
    (addressOrLine : AddressOrLineno) (lineNumber : SourceLineno) (functionOffset : UInt32)
    (functionName filePath : String) : OTLPReporter TraceHash FileID :=
  match r.frames.lookup fileID with
  | some v =>
    let entry := sourceEntry (v.lookup addressOrLine) lineNumber functionOffset functionName filePath
    { r with frames := r.frames.insert fileID (v.insert addressOrLine entry) }
  | none =>
    let v : Cache AddressOrLineno SourceInfo :=
      (∅ : Cache AddressOrLineno SourceInfo).insert addressOrLine
        { lineNumber, functionOffset, functionName, filePath }
    { r with frames := r.frames.insert fileID v }

/-- `addHostmetadata`: every pair of the map is added, in the map's iteration order. The host
metadata cache keeps its keys in `Keys` order, least recently added first, as `getResource` reads
them. -/
def addHostmetadata (order : MapOrder) (r : OTLPReporter TraceHash FileID)
    (metadataMap : Cache String String) : OTLPReporter TraceHash FileID :=
  (order.arrange metadataMap.entries).foldl
    (fun r kv => { r with hostmetadata := r.hostmetadata.putBack kv.1 kv.2 }) r

end ProfilingAgent.Reporter
