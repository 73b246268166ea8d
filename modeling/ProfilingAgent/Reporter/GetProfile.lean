import ProfilingAgent.Reporter.Intern
import ProfilingAgent.Reporter.Pprof
import Mathlib.Data.PNat.Basic

/-!
# `getProfile`

One report: drain the sample cache, put back the samples whose trace has no `traces` entry, and
encode the rest into one profile. The encoding is a loop over the drained samples (in the map's
iteration order) and, inside it, a loop over the trace's frames with a four-way `switch` on the
frame type. Strings, functions and mappings are deduplicated through maps that give each new
value the next index; the string and function tables are flattened from those maps at the end.

A Go panic (an index out of range) is `none`.
-/

namespace ProfilingAgent.Reporter

open Pprofextended (Profile Mapping Location Line Label BuildIdKind)

/-- The state `getProfile` threads through its sample loop: the two dedup maps, the map from a
file to its mapping, the map from a frame to its function (read, never written), the tables
appended so far, the running location index and the running time range. -/
structure Encoder (FileID : Type) where
  stringMap : Cache String Nat
  funcMap : Cache FuncInfo Nat := ∅
  fileIDtoMapping : Cache FileID Nat := ∅
  frameIDtoFunction : Cache (FrameID FileID) Nat := ∅
  mapping : List Mapping := []
  location : List Location := []
  sample : List Pprofextended.Sample := []
  locationIndex : Nat := 0
  startTS : UInt64 := 0
  endTS : UInt64 := 0

variable {TraceHash FileID : Type} [DecidableEq TraceHash] [DecidableEq FileID]

namespace Encoder

/-- `getStringMapIndex(stringMap, value)` -/
def intern (enc : Encoder FileID) (value : String) : Nat × Encoder FileID :=
  ((getStringMapIndex enc.stringMap value).1,
    { enc with stringMap := (getStringMapIndex enc.stringMap value).2 })

/-- `createFunctionEntry(funcMap, name, fileName)` -/
def createFunction (enc : Encoder FileID) (name fileName : String) : Nat × Encoder FileID :=
  ((createFunctionEntry enc.funcMap name fileName).1,
    { enc with funcMap := (createFunctionEntry enc.funcMap name fileName).2 })

/-- `profile.Location = append(profile.Location, loc)` -/
def pushLocation (enc : Encoder FileID) (loc : Location) : Encoder FileID :=
  { enc with location := enc.location ++ [loc] }

/-- `profile.Mapping = append(profile.Mapping, m)` -/
def appendMapping (enc : Encoder FileID) (m : Mapping) : Encoder FileID :=
  { enc with mapping := enc.mapping ++ [m] }

/-- The look-up-or-create step the native branch and `getDummyMappingIndex` share: a file with a
mapping keeps its index; a new file is given `len(fileIDtoMapping)`, and the mapping `newMapping`
builds (interning its strings) is appended to `profile.Mapping`. -/
def mappingIndex (enc : Encoder FileID) (fileID : FileID)
    (newMapping : Encoder FileID → Mapping × Encoder FileID) : Nat × Encoder FileID :=
  match enc.fileIDtoMapping.lookup fileID with
  | some idx => (idx, enc)
  | none =>
    let idx := enc.fileIDtoMapping.entries.length
    let built := newMapping { enc with fileIDtoMapping := enc.fileIDtoMapping.insert fileID idx }
    (idx, built.2.appendMapping built.1)

end Encoder

/-- The build ID of a native mapping and its kind: `UNKNOWN` unless the mode is `linker` (the
executable's build ID, empty for an unknown executable) or `hash` (the file ID). -/
def nativeBuildID (lib : Libpf TraceHash FileID) (otlpBuildIDMode : String) (fileID : FileID)
    (execInfo : ExecInfo) : String × BuildIdKind :=
  let linker : String × BuildIdKind :=
    if otlpBuildIDMode = "linker" then (execInfo.buildID, .buildIdLinker)
    else ("UNKNOWN", .buildIdLinker)
  if otlpBuildIDMode = "hash" then (lib.fileIDString fileID, .buildIdBinaryHash) else linker

/-- The mapping the native branch appends for a new file: its offset is the address of the frame
that creates it, its file name the executable's (or `UNKNOWN`). -/
def nativeMapping (lib : Libpf TraceHash FileID) (r : OTLPReporter TraceHash FileID)
    (fileID : FileID) (address : AddressOrLineno) (enc : Encoder FileID) :
    Mapping × Encoder FileID :=
  let fileName := match r.executables.lookup fileID with
    | some execInfo => execInfo.fileName
    | none => "UNKNOWN"
  let buildID := nativeBuildID lib r.otlpBuildIDMode fileID ((r.executables.lookup fileID).getD {})
  let filename := enc.intern fileName
  let buildId := filename.2.intern buildID.1
  (⟨address, filename.1, buildId.1, buildID.2⟩, buildId.2)

/-- The mapping `getDummyMappingIndex` appends for a new file. -/
def dummyMapping (lib : Libpf TraceHash FileID) (fileID : FileID) (enc : Encoder FileID) :
    Mapping × Encoder FileID :=
  let filename := enc.intern "DUMMY"
  let buildId := filename.2.intern (lib.fileIDString fileID)
  (⟨0, filename.1, buildId.1, .buildIdBinaryHash⟩, buildId.2)

/-- `getDummyMappingIndex` -/
def getDummyMappingIndex (lib : Libpf TraceHash FileID) (enc : Encoder FileID)
    (fileID : FileID) : Nat × Encoder FileID :=
  enc.mappingIndex fileID (dummyMapping lib fileID)

/-- The `Line` of a kernel frame: the frame's fallback symbol (or `UNKNOWN`) in `vmlinux`. -/
def kernelLine (r : OTLPReporter TraceHash FileID) (enc : Encoder FileID) (fileID : FileID)
    (address : AddressOrLineno) : Line × Encoder FileID :=
  let frameID := newFrameID fileID address
  match enc.frameIDtoFunction.lookup frameID with
  | some idx => (⟨idx + 1, 0⟩, enc)
  | none =>
    let symbol := (r.fallbackSymbols.lookup frameID).getD "UNKNOWN"
    let created := enc.createFunction symbol "vmlinux"
    (⟨created.1 + 1, 0⟩, created.2)

/-- The `Line` of an interpreted frame: `UNREPORTED` when the file has no source information,
`UNRESOLVED` when the address has none, and otherwise the function and line stored for it. -/
def interpretedLine (lib : Libpf TraceHash FileID) (r : OTLPReporter TraceHash FileID)
    (enc : Encoder FileID) (frameKind : FrameType) (fileID : FileID)
    (address : AddressOrLineno) : Line × Encoder FileID :=
  match r.frames.lookup fileID with
  | none =>
    let created := enc.createFunction "UNREPORTED" (lib.frameTypeString frameKind)
    (⟨created.1 + 1, 0⟩, created.2)
  | some fileIDInfo =>
    match fileIDInfo.lookup address with
    | none =>
      let created := enc.createFunction "UNRESOLVED" (lib.frameTypeString frameKind)
      (⟨created.1 + 1, 0⟩, created.2)
    | some si =>
      let created := enc.createFunction si.functionName si.filePath
      (⟨created.1 + 1, Int.bmod si.lineNumber.toNat (2 ^ 64)⟩, created.2)

/-- One turn of the frame loop: the location of frame `i`, and the mapping, function and strings
it needs. `trace.linenos[i]` and `trace.files[i]` panic when out of range; an abort frame never
reads `trace.files[i]`. -/
def encodeFrame (lib : Libpf TraceHash FileID) (r : OTLPReporter TraceHash FileID)
    (trace : TraceInfo FileID) (enc : Encoder FileID) (i : Nat) (frameKind : FrameType) :
    Option (Encoder FileID) :=
  let typed := enc.intern (lib.frameTypeString frameKind)
  match trace.linenos[i]? with
  | none => none
  | some address =>
    match frameKind with
    | .abortFrame => some (typed.2.pushLocation ⟨0, address, [], typed.1⟩)
    | .nativeFrame =>
      match trace.files[i]? with
      | none => none
      | some fileID =>
        let mapped := typed.2.mappingIndex fileID (nativeMapping lib r fileID address)
        some (mapped.2.pushLocation ⟨mapped.1 + 1, address, [], typed.1⟩)
    | .kernelFrame =>
      match trace.files[i]? with
      | none => none
      | some fileID =>
        let line := kernelLine r typed.2 fileID address
        let mapped := getDummyMappingIndex lib line.2 fileID
        some (mapped.2.pushLocation ⟨mapped.1 + 1, address, [line.1], typed.1⟩)
    | .other _ =>
      match trace.files[i]? with
      | none => none
      | some fileID =>
        let line := interpretedLine lib r typed.2 frameKind fileID address
        let mapped := getDummyMappingIndex lib line.2 fileID
        some (mapped.2.pushLocation ⟨mapped.1 + 1, address, [line.1], typed.1⟩)

/-- The frame loop `for i := range trace.frameTypes`. -/
def encodeFrames (lib : Libpf TraceHash FileID) (r : OTLPReporter TraceHash FileID)
    (trace : TraceInfo FileID) : List (Nat × FrameType) → Encoder FileID → Option (Encoder FileID)
  | [], enc => some enc
  | (i, frameKind) :: rest, enc =>
    match encodeFrame lib r trace enc i frameKind with
    | some enc => encodeFrames lib r trace rest enc
    | none => none

/-- The five labels `getTraceLabels` may emit, as (key, value). -/
def traceLabelFields (i : TraceInfo FileID) : List (String × String) :=
  [("comm", i.comm), ("podName", i.podName), ("podNamespace", i.podNamespace),
    ("containerName", i.containerName), ("apmServiceName", i.apmServiceName)]

/-- One block of `getTraceLabels`: a non-empty value is emitted with its key. -/
def appendLabel (acc : List Label × Cache String Nat) (field : String × String) :
    List Label × Cache String Nat :=
  if field.2 = "" then acc else
    let key := getStringMapIndex acc.2 field.1
    let value := getStringMapIndex key.2 field.2
    (acc.1 ++ [⟨key.1, value.1⟩], value.2)

/-- `getTraceLabels` -/
def getTraceLabels (stringMap : Cache String Nat) (i : TraceInfo FileID) :
    List Label × Cache String Nat :=
  (traceLabelFields i).foldl appendLabel ([], stringMap)

/-- `uint64(time.Unix(int64(ts), 0).UnixMilli())`: the seconds times 1000 in the wrapping
arithmetic of `int64`, read back as `uint64`. -/
def unixMilli (ts : UInt64) : UInt64 := ts * 1000

/-- `time.Unix(int64(ts), 0).UnixNano()`: the seconds times 10^9 as a wrapping `int64`. -/
def unixNano (ts : UInt64) : Int := Int.bmod (ts.toNat * 1000000000) (2 ^ 64)

/-- One turn of the timestamp loop: a new minimum (or any timestamp while `startTS` is 0) moves
`startTS` and skips the rest of the turn; otherwise a new maximum moves `endTS`. -/
def trackTimestamp (range : UInt64 × UInt64) (ts : UInt64) : UInt64 × UInt64 :=
  if ts < range.1 || range.1 == 0 then (ts, range.2)
  else if ts > range.2 then (range.1, ts) else range

/-- One turn of the sample loop. -/
def encodeSample (lib : Libpf TraceHash FileID) (r : OTLPReporter TraceHash FileID)
    (enc : Encoder FileID) (entry : Σ _ : TraceHash, Sample) : Option (Encoder FileID) :=
  let trace := (r.traces.lookup entry.1).getD {}
  let stacktraceId := enc.intern (lib.traceHashString entry.1)
  let range := entry.2.timestamps.foldl trackTimestamp (enc.startTS, enc.endTS)
  match encodeFrames lib r trace trace.frameTypes.enum
      { stacktraceId.2 with startTS := range.1, endTS := range.2 } with
  | none => none
  | some framed =>
    let labels := getTraceLabels framed.stringMap trace
    let sample : Pprofextended.Sample :=
      { locationsStartIndex := enc.locationIndex
        locationsLength := trace.frameTypes.length
        stacktraceIdIndex := stacktraceId.1
        value := [entry.2.count.toNat]
        label := labels.1
        timestamps := entry.2.timestamps.map unixMilli }
    some { framed with stringMap := labels.2,
                       locationIndex := framed.locationIndex + trace.frameTypes.length,
                       sample := framed.sample ++ [sample] }

/-- The sample loop. -/
def encodeSamples (lib : Libpf TraceHash FileID) (r : OTLPReporter TraceHash FileID) :
    List (Σ _ : TraceHash, Sample) → Encoder FileID → Option (Encoder FileID)
  | [], enc => some enc
  | entry :: rest, enc =>
    match encodeSample lib r enc entry with
    | some enc => encodeSamples lib r rest enc
    | none => none

/-- One turn of the drain, on (the sample cache, its copy): `Get` the sample, copy it and
`Remove` it; a key that is gone is skipped. -/
def drainKey (acc : Cache TraceHash Sample × Cache TraceHash Sample) (k : TraceHash) :
    Cache TraceHash Sample × Cache TraceHash Sample :=
  match acc.1.lookup k with
  | some v => (acc.1.erase k, acc.2.insert k v)
  | none => acc

/-- The drain: one turn for each key `Keys` returned. -/
def drainSamples (samples : Cache TraceHash Sample) :
    Cache TraceHash Sample × Cache TraceHash Sample :=
  samples.keys.foldl drainKey (samples, ∅)

/-- The samples whose trace has no `traces` entry, in the copy's iteration order. -/
def samplesWoTraceinfo (order : MapOrder) (traces : Cache TraceHash (TraceInfo FileID))
    (samplesCpy : Cache TraceHash Sample) : List TraceHash :=
  (order.arrange samplesCpy.keys).filter fun trace => (traces.lookup trace).isNone

/-- One turn of the requeue: `r.samples.Add(trace, samplesCpy[trace])` (the zero sample when
the copy lacks it), then `delete(samplesCpy, trace)`. -/
def requeueKey (acc : Cache TraceHash Sample × Cache TraceHash Sample) (trace : TraceHash) :
    Cache TraceHash Sample × Cache TraceHash Sample :=
  (acc.1.insert trace ((acc.2.lookup trace).getD {}), acc.2.erase trace)

/-- The requeue: each sample without trace information goes back into the cache and out of the
copy. -/
def requeueSamples (missing : List TraceHash)
    (acc : Cache TraceHash Sample × Cache TraceHash Sample) :
    Cache TraceHash Sample × Cache TraceHash Sample :=
  missing.foldl requeueKey acc

/-- The `Function` a `funcMap` entry is flattened to, interning its two strings. -/
def functionSlot (stringMap : Cache String Nat) (v : FuncInfo) :
    Option Pprofextended.Function × Cache String Nat :=
  let name := getStringMapIndex stringMap v.name
  let filename := getStringMapIndex name.2 v.fileName
  (some ⟨name.1, filename.1⟩, filename.2)

/-- The function-table loop of `getProfile`. -/
def flattenFunctions (order : MapOrder) (funcMap : Cache FuncInfo Nat)
    (stringMap : Cache String Nat) :
    Option (List (Option Pprofextended.Function) × Cache String Nat) :=
  fillTable functionSlot (order.arrange funcMap.entries)
    (List.replicate funcMap.entries.length none, stringMap)

/-- The string map with the empty string at 0 and the strings of the sample type and of the
period type interned, with those two value types. -/
def headerStrings : Cache String Nat × Pprofextended.ValueType × Pprofextended.ValueType :=
  let s0 : Cache String Nat := (∅ : Cache String Nat).insert "" 0
  let samples := getStringMapIndex s0 "samples"
  let count := getStringMapIndex samples.2 "count"
  let cpu := getStringMapIndex count.2 "cpu"
  let nanoseconds := getStringMapIndex cpu.2 "nanoseconds"
  (nanoseconds.2, ⟨samples.1, count.1⟩, ⟨cpu.1, nanoseconds.1⟩)

/-- The samples `getProfile` encodes, in its iteration order, and the sample cache it leaves. -/
def drainedSamples (order : MapOrder) (r : OTLPReporter TraceHash FileID) :
    Cache TraceHash Sample × List (Σ _ : TraceHash, Sample) :=
  let drained := drainSamples r.samples
  let requeued := requeueSamples (samplesWoTraceinfo order r.traces drained.2) drained
  (requeued.1, order.arrange requeued.2.entries)

/-- `getProfile`: the reporter with its sample cache drained, the profile, and the start and
end timestamps. -/
def getProfile (lib : Libpf TraceHash FileID) (order : MapOrder) (samplesPerSecond : ℕ+)
    (r : OTLPReporter TraceHash FileID) :
    Option (OTLPReporter TraceHash FileID × Profile × UInt64 × UInt64) :=
  let drained := drainedSamples order r
  let r := { r with samples := drained.1 }
  let header := headerStrings
  match encodeSamples lib r drained.2 { stringMap := header.1 } with
  | none => none
  | some enc =>
    match flattenFunctions order enc.funcMap enc.stringMap with
    | none => none
    | some (function, stringMap) =>
      match flattenStrings order stringMap with
      | none => none
      | some stringTable =>
        let startNanos := unixNano enc.startTS
        let endNanos := unixNano enc.endTS
        some (r,
          { sampleType := [header.2.1]
            sample := enc.sample
            mapping := enc.mapping
            location := enc.location
            locationIndices := List.range enc.location.length
            function
            stringTable
            periodType := header.2.2
            period := 1000000000 / (samplesPerSecond : Nat)
            timeNanos := startNanos
            durationNanos := Int.bmod (endNanos - startNanos) (2 ^ 64) },
          enc.startTS, enc.endTS)

end ProfilingAgent.Reporter
