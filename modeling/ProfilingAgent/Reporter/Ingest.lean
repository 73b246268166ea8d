import ProfilingAgent.Reporter.Drain
import ProfilingAgent.Reporter.Report
import Mathlib.Algebra.BigOperators.Group.List

/-!
# Sequential runs of the reporter

A run is a sequence of completed calls to the reporter, each applied to the caches the previous
one left; a report stands for one `getProfile` run, which drains the samples its profile
encodes. Over every such run no reported count or timestamp is lost or counted twice, the shape
and the labels of a trace survive each other, and a non-empty source path once stored stays.
What changes when the calls' cache operations overlap is the subject of `Interleave`.
-/

namespace ProfilingAgent.Reporter

variable {TraceHash FileID : Type} [DecidableEq TraceHash] [DecidableEq FileID]

/-- A completed call to the reporter's API, or a report in one iteration order. -/
inductive Call (TraceHash FileID : Type) : Type 1 where
  | reportFramesForTrace (trace : Trace TraceHash FileID)
  | reportCountForTrace (traceHash : TraceHash) (timestamp : UInt32) (count : UInt16)
      (comm podName podNamespace containerName : String)
  | reportFallbackSymbol (frameID : FrameID FileID) (symbol : String)
  | executableMetadata (fileID : FileID) (fileName buildID : String)
  | frameMetadata (fileID : FileID) (addressOrLine : AddressOrLineno) (lineNumber : SourceLineno)
      (functionOffset : UInt32) (functionName filePath : String)
  | reportHostMetadata (order : MapOrder) (metadataMap : Cache String String)
  | report (order : MapOrder)

/-- The caches after a call, and the samples it drains: a report's are the samples its profile
encodes, the other calls drain none. The upload request of `ExecutableMetadata` goes to the
symbol uploader, which is modelled on its own. -/
def Call.apply (r : OTLPReporter TraceHash FileID) :
    Call TraceHash FileID → OTLPReporter TraceHash FileID × List (Σ _ : TraceHash, Sample)
  | .reportFramesForTrace trace => (Reporter.reportFramesForTrace r trace, [])
  | .reportCountForTrace traceHash timestamp count comm podName podNamespace containerName =>
    (Reporter.reportCountForTrace r traceHash timestamp count comm podName podNamespace
      containerName, [])
  | .reportFallbackSymbol frameID symbol => (Reporter.reportFallbackSymbol r frameID symbol, [])
  | .executableMetadata fileID fileName buildID =>
    ((Reporter.executableMetadata r fileID fileName buildID).1, [])
  | .frameMetadata fileID addressOrLine lineNumber functionOffset functionName filePath =>
    (Reporter.frameMetadata r fileID addressOrLine lineNumber functionOffset functionName filePath,
      [])
  | .reportHostMetadata order metadataMap => (addHostmetadata order r metadataMap, [])
  | .report order => ({ r with samples := (drainedSamples order r).1 }, (drainedSamples order r).2)

/-- A run of completed calls: the caches at its end, and every sample its reports drained. -/
def run : OTLPReporter TraceHash FileID → List (Call TraceHash FileID) →
    OTLPReporter TraceHash FileID × List (Σ _ : TraceHash, Sample)
  | r, [] => (r, [])
  | r, call :: calls => ((run (call.apply r).1 calls).1, (call.apply r).2 ++ (run (call.apply r).1 calls).2)

omit [DecidableEq TraceHash] [DecidableEq FileID] in
theorem addHostmetadata_samples (order : MapOrder) (r : OTLPReporter TraceHash FileID)
    (metadataMap : Cache String String) :
    (addHostmetadata order r metadataMap).samples = r.samples ∧
      (addHostmetadata order r metadataMap).traces = r.traces ∧
      (addHostmetadata order r metadataMap).frames = r.frames := by
  unfold addHostmetadata
  induction order.arrange metadataMap.entries generalizing r with
  | nil => exact ⟨rfl, rfl, rfl⟩
  | cons kv rest ih => exact ih _

/-! ### Counts and timestamps are conserved -/

/-- The count the sample cache holds for `h`, as a number. -/
def cachedCount (r : OTLPReporter TraceHash FileID) (h : TraceHash) : Nat :=
  ((r.samples.lookup h).map fun s => s.count.toNat).getD 0

/-- The timestamps the sample cache holds for `h`. -/
def cachedTimestamps (r : OTLPReporter TraceHash FileID) (h : TraceHash) : List UInt64 :=
  ((r.samples.lookup h).map Sample.timestamps).getD []

/-- The count a call reports for `h`. -/
def Call.reportedCount (h : TraceHash) : Call TraceHash FileID → Nat
  | .reportCountForTrace traceHash _ count _ _ _ _ => if traceHash = h then count.toNat else 0
  | _ => 0

/-- The timestamp a call reports for `h`, in seconds. -/
def Call.reportedTimestamps (h : TraceHash) : Call TraceHash FileID → List UInt64
  | .reportCountForTrace traceHash timestamp _ _ _ _ _ =>
    if traceHash = h then [timestamp.toUInt64] else []
  | _ => []

/-- The total count of the drained samples of `h`. -/
def drainedCount (h : TraceHash) (drained : List (Σ _ : TraceHash, Sample)) : Nat :=
  ((drained.filter fun e => e.1 = h).map fun e => e.2.count.toNat).sum

/-- The timestamps of the drained samples of `h`. -/
def drainedTimestamps (h : TraceHash) (drained : List (Σ _ : TraceHash, Sample)) :
    List UInt64 :=
  (drained.filter fun e => e.1 = h).flatMap fun e => e.2.timestamps

/-- Every count reported for `h` is added to a cached count without passing `2^32`. -/
def NoWrap (h : TraceHash) : OTLPReporter TraceHash FileID → List (Call TraceHash FileID) → Prop
  | _, [] => True
  | r, call :: calls => cachedCount r h + call.reportedCount h < 2 ^ 32 ∧
      NoWrap h (call.apply r).1 calls

instance NoWrap.decidable (h : TraceHash) :
    ∀ (r : OTLPReporter TraceHash FileID) (calls : List (Call TraceHash FileID)),
      Decidable (NoWrap h r calls)
  | _, [] => isTrue trivial
  | r, call :: calls =>
    have := NoWrap.decidable h (call.apply r).1 calls
    inferInstanceAs (Decidable (_ ∧ _))

omit [DecidableEq FileID] in
/-- A report moves the cached sample of a hash with a `traces` entry into what it drains, and
leaves any other where it is. -/
theorem report_conserves (order : MapOrder) (r : OTLPReporter TraceHash FileID) (h : TraceHash) :
    cachedCount r h = drainedCount h (drainedSamples order r).2 +
        cachedCount { r with samples := (drainedSamples order r).1 } h ∧
      (cachedTimestamps r h).Perm (drainedTimestamps h (drainedSamples order r).2 ++
        cachedTimestamps { r with samples := (drainedSamples order r).1 } h) := by
  have hperm := filter_drainedSamples order r h
  rw [drainedCount, drainedTimestamps, (hperm.map _).sum_eq, cachedCount, cachedCount,
    cachedTimestamps, cachedTimestamps, lookup_drainedSamples]
  refine ⟨?_, List.Perm.trans ?_ ((hperm.flatMap_right _).append_right _).symm⟩ <;>
    cases r.traces.lookup h <;> cases r.samples.lookup h <;> simp

omit [DecidableEq FileID] in
/-- A count call adds its count and timestamp to what the cache holds for its hash. -/
theorem reportCountForTrace_conserves (r : OTLPReporter TraceHash FileID) (h traceHash : TraceHash)
    (timestamp : UInt32) (count : UInt16) (comm podName podNamespace containerName : String)
    (hwrap : cachedCount r h + (if traceHash = h then count.toNat else 0) < 2 ^ 32) :
    cachedCount r h + (if traceHash = h then count.toNat else 0) =
        cachedCount (reportCountForTrace r traceHash timestamp count comm podName podNamespace
          containerName) h ∧
      (cachedTimestamps r h ++ if traceHash = h then [timestamp.toUInt64] else []).Perm
        (cachedTimestamps (reportCountForTrace r traceHash timestamp count comm podName
          podNamespace containerName) h) := by
  by_cases heq : traceHash = h
  · subst heq
    simp only [if_true, cachedCount, cachedTimestamps, reportCountForTrace, AList.lookup_insert,
      Option.map_some', Option.getD_some, countEntry_count, countEntry_timestamps] at hwrap ⊢
    exact ⟨(Nat.mod_eq_of_lt hwrap).symm, List.Perm.refl _⟩
  · simp [cachedCount, cachedTimestamps, reportCountForTrace, heq,
      AList.lookup_insert_ne (Ne.symm heq)]

/-- Each completed call conserves the counts and timestamps of every hash. -/
theorem Call.conserves (h : TraceHash) (r : OTLPReporter TraceHash FileID)
    (call : Call TraceHash FileID) (hwrap : cachedCount r h + call.reportedCount h < 2 ^ 32) :
    cachedCount r h + call.reportedCount h =
        drainedCount h (call.apply r).2 + cachedCount (call.apply r).1 h ∧
      (cachedTimestamps r h ++ call.reportedTimestamps h).Perm
        (drainedTimestamps h (call.apply r).2 ++ cachedTimestamps (call.apply r).1 h) := by
  have hsame : ∀ r' : OTLPReporter TraceHash FileID, r'.samples = r.samples →
      cachedCount r h + 0 = drainedCount h [] + cachedCount r' h ∧
        (cachedTimestamps r h ++ []).Perm (drainedTimestamps h [] ++ cachedTimestamps r' h) := by
    intro r' hr'
    simp [cachedCount, cachedTimestamps, drainedCount, drainedTimestamps, hr']
  cases call with
  | reportFramesForTrace trace => exact hsame _ rfl
  | reportCountForTrace traceHash timestamp count comm podName podNamespace containerName =>
    simpa [Call.apply, drainedCount, drainedTimestamps] using
      reportCountForTrace_conserves r h traceHash timestamp count comm podName podNamespace
        containerName hwrap
  | reportFallbackSymbol frameID symbol =>
    exact hsame _ (by
      simp only [Call.apply, Reporter.reportFallbackSymbol]; split <;> rfl)
  | executableMetadata fileID fileName buildID => exact hsame _ rfl
  | frameMetadata fileID addressOrLine lineNumber functionOffset functionName filePath =>
    exact hsame _ (by
      simp only [Call.apply, Reporter.frameMetadata]; split <;> rfl)
  | reportHostMetadata order metadataMap => exact hsame _ (addHostmetadata_samples _ _ _).1
  | report order =>
    simpa [Call.apply, Call.reportedCount, Call.reportedTimestamps] using
      report_conserves order r h

theorem drainedCount_append (h : TraceHash) (drained drained' : List (Σ _ : TraceHash, Sample)) :
    drainedCount h (drained ++ drained') = drainedCount h drained + drainedCount h drained' := by
  simp [drainedCount]

theorem drainedTimestamps_append (h : TraceHash)
    (drained drained' : List (Σ _ : TraceHash, Sample)) :
    drainedTimestamps h (drained ++ drained') =
      drainedTimestamps h drained ++ drainedTimestamps h drained' := by
  simp [drainedTimestamps]

/-- Over every sequential run in which no cached count passes `2^32`, no reported count or
timestamp of a hash is lost or counted twice: what was cached at the start and what the calls
reported is what the reports drained and what is left cached. -/
theorem run_conserves (h : TraceHash) :
    ∀ (calls : List (Call TraceHash FileID)) (r : OTLPReporter TraceHash FileID),
      NoWrap h r calls →
      cachedCount r h + (calls.map (Call.reportedCount h)).sum =
          drainedCount h (run r calls).2 + cachedCount (run r calls).1 h ∧
        (cachedTimestamps r h ++ calls.flatMap (Call.reportedTimestamps h)).Perm
          (drainedTimestamps h (run r calls).2 ++ cachedTimestamps (run r calls).1 h)
  | [], r, _ => by simp [run, drainedCount, drainedTimestamps]
  | call :: calls, r, ⟨hwrap, hrest⟩ => by
    obtain ⟨hcount, hstamps⟩ := Call.conserves h r call hwrap
    obtain ⟨ihcount, ihstamps⟩ := run_conserves h calls (call.apply r).1 hrest
    refine ⟨?_, ?_⟩
    · simp only [run, List.map_cons, List.sum_cons, drainedCount_append]
      omega
    · simp only [run, List.flatMap_cons, drainedTimestamps_append]
      calc (cachedTimestamps r h ++ (call.reportedTimestamps h ++
              calls.flatMap (Call.reportedTimestamps h))).Perm
            ((drainedTimestamps h (call.apply r).2 ++ cachedTimestamps (call.apply r).1 h) ++
              calls.flatMap (Call.reportedTimestamps h)) := by
            rw [← List.append_assoc]
            exact hstamps.append_right _
        _ = drainedTimestamps h (call.apply r).2 ++ (cachedTimestamps (call.apply r).1 h ++
              calls.flatMap (Call.reportedTimestamps h)) := List.append_assoc _ _ _
        List.Perm _ (drainedTimestamps h (call.apply r).2 ++ (drainedTimestamps h
              (run (call.apply r).1 calls).2 ++
                cachedTimestamps (run (call.apply r).1 calls).1 h)) := ihstamps.append_left _
        _ = _ := (List.append_assoc _ _ _).symm

theorem run_conserves_countReportCount :
    let r : OTLPReporter Nat Nat := startOTLP "hash"
    let calls : List (Call Nat Nat) := [.reportCountForTrace 7 100 3 "bash" "" "" "",
      .report MapOrder.stored, .reportCountForTrace 7 101 2 "bash" "" "" ""]
    NoWrap 7 r calls ∧
      (cachedCount r 7 + (calls.map (Call.reportedCount 7)).sum =
          drainedCount 7 (run r calls).2 + cachedCount (run r calls).1 7 ∧
        (cachedTimestamps r 7 ++ calls.flatMap (Call.reportedTimestamps 7)).Perm
          (drainedTimestamps 7 (run r calls).2 ++ cachedTimestamps (run r calls).1 7)) :=
  ⟨by decide, run_conserves 7 _ _ (by decide)⟩

/-! ### Shape and labels -/

/-- A `traces` entry with the shape of `trace` and the labels of a count call. -/
def HoldsShapeAndLabels (v : TraceInfo FileID) (trace : Trace TraceHash FileID)
    (comm podName podNamespace containerName : String) : Prop :=
  v.files = trace.files ∧ v.linenos = trace.linenos ∧ v.frameTypes = trace.frameTypes ∧
    v.comm = comm ∧ v.podName = podName ∧ v.podNamespace = podNamespace ∧
    v.containerName = containerName

omit [DecidableEq FileID] in
/-- A trace's shape and a count's labels both survive when the two calls run one after the
other, in either order. -/
theorem reportFramesForTrace_reportCountForTrace (r : OTLPReporter TraceHash FileID)
    (trace : Trace TraceHash FileID) (timestamp : UInt32) (count : UInt16)
    (comm podName podNamespace containerName : String) :
    (∃ v, (reportCountForTrace (reportFramesForTrace r trace) trace.hash timestamp count comm
        podName podNamespace containerName).traces.lookup trace.hash = some v ∧
      HoldsShapeAndLabels v trace comm podName podNamespace containerName) ∧
    (∃ v, (reportFramesForTrace (reportCountForTrace r trace.hash timestamp count comm podName
        podNamespace containerName) trace).traces.lookup trace.hash = some v ∧
      HoldsShapeAndLabels v trace comm podName podNamespace containerName) := by
  simp only [reportCountForTrace, reportFramesForTrace, AList.lookup_insert, Option.some.injEq,
    exists_eq_left']
  constructor <;> cases r.traces.lookup trace.hash <;>
    exact ⟨rfl, rfl, rfl, rfl, rfl, rfl, rfl⟩

/-! ### Source paths -/

/-- What the frames cache holds for an address of a file. -/
def storedSource (r : OTLPReporter TraceHash FileID) (fileID : FileID)
    (addressOrLine : AddressOrLineno) : Option SourceInfo :=
  (r.frames.lookup fileID).bind fun m => m.lookup addressOrLine

/-- The frames cache holds a non-empty source path for an address of a file. -/
def KeepsPath (r : OTLPReporter TraceHash FileID) (fileID : FileID)
    (addressOrLine : AddressOrLineno) : Prop :=
  ∃ si, storedSource r fileID addressOrLine = some si ∧ si.filePath ≠ ""

omit [DecidableEq TraceHash] in
/-- `FrameMetadata` stores one entry, at its file and address, built from what was stored
there. -/
theorem frameMetadata_stored (r : OTLPReporter TraceHash FileID) (fileID : FileID)
    (addressOrLine : AddressOrLineno) (lineNumber : SourceLineno) (functionOffset : UInt32)
    (functionName filePath : String) (f : FileID) (a : AddressOrLineno) :
    storedSource (frameMetadata r fileID addressOrLine lineNumber functionOffset functionName
      filePath) f a =
      if f = fileID ∧ a = addressOrLine then
        some (sourceEntry (storedSource r fileID addressOrLine) lineNumber functionOffset
          functionName filePath)
      else storedSource r f a := by
  unfold frameMetadata storedSource
  by_cases hf : f = fileID
  · subst hf
    cases hv : r.frames.lookup f with
    | none =>
      by_cases ha : a = addressOrLine
      · subst ha
        simp [sourceEntry_none, AList.lookup, AList.singleton_entries]
      · simp [ha, AList.lookup, AList.singleton_entries]
    | some v =>
      by_cases ha : a = addressOrLine
      · subst ha
        simp
      · simp [ha, AList.lookup_insert_ne ha]
  · simp only [hf, false_and, if_false]
    split <;> simp [AList.lookup_insert_ne hf]

omit [DecidableEq TraceHash] in
theorem frameMetadata_keepsPath (r : OTLPReporter TraceHash FileID) {f : FileID}
    {a : AddressOrLineno} (hkeep : KeepsPath r f a) (fileID : FileID)
    (addressOrLine : AddressOrLineno) (lineNumber : SourceLineno) (functionOffset : UInt32)
    (functionName filePath : String) :
    KeepsPath (frameMetadata r fileID addressOrLine lineNumber functionOffset functionName
      filePath) f a := by
  obtain ⟨si, hsi, hpath⟩ := hkeep
  rw [KeepsPath, frameMetadata_stored]
  split
  · next hfa =>
    obtain ⟨rfl, rfl⟩ := hfa
    refine ⟨_, rfl, ?_⟩
    rw [hsi]
    unfold sourceEntry
    split <;> simp_all
  · exact ⟨si, hsi, hpath⟩

/-- Once the frames cache holds a non-empty source path for an address, every sequential run
keeps an entry with a non-empty path there. -/
theorem run_keepsPath {f : FileID} {a : AddressOrLineno} :
    ∀ (calls : List (Call TraceHash FileID)) (r : OTLPReporter TraceHash FileID),
      KeepsPath r f a → KeepsPath (run r calls).1 f a
  | [], _, hkeep => hkeep
  | call :: calls, r, hkeep => by
    refine run_keepsPath calls _ ?_
    cases call with
    | frameMetadata fileID addressOrLine lineNumber functionOffset functionName filePath =>
      exact frameMetadata_keepsPath r hkeep _ _ _ _ _ _
    | reportFallbackSymbol frameID symbol =>
      simp only [Call.apply, reportFallbackSymbol]
      split <;> exact hkeep
    | reportHostMetadata order metadataMap =>
      simpa only [KeepsPath, storedSource, Call.apply, (addHostmetadata_samples _ _ _).2.2]
        using hkeep
    | _ => exact hkeep

theorem run_keepsPath_emptyPathLater :
    let r : OTLPReporter Nat Nat := frameMetadata (startOTLP "hash") 1 4096 12 0 "main" "main.py"
    let calls : List (Call Nat Nat) := [.frameMetadata 1 4096 13 0 "main" ""]
    KeepsPath r 1 4096 ∧ KeepsPath (run r calls).1 1 4096 :=
  ⟨⟨_, rfl, by decide⟩, run_keepsPath _ _ ⟨_, rfl, by decide⟩⟩

/-! ### The last report of an address -/

/-- What a call reports for an address of a file: a `FrameMetadata` call for it brings its line
number, function offset, function name and file path. -/
def Call.sourceReport (f : FileID) (a : AddressOrLineno) : Call TraceHash FileID → Option SourceInfo
  | .frameMetadata fileID addressOrLine lineNumber functionOffset functionName filePath =>
    if fileID = f ∧ addressOrLine = a then
      some { lineNumber, functionOffset, functionName, filePath }
    else none
  | _ => none

/-- The last non-empty path of a list, or `default` when there is none. -/
def lastNonEmpty (default : String) (paths : List String) : String :=
  ((paths.filter (· ≠ "")).getLast?).getD default

/-- The entry an address should hold after the reports for it: the last report's line number,
function offset and function name, with the path of the last report whose path is non-empty, or
else the path held before (empty if nothing was). With no report, what was held before. -/
def lastSource (before : Option SourceInfo) (reports : List SourceInfo) : Option SourceInfo :=
  match reports.getLast? with
  | none => before
  | some last =>
    some { last with
      filePath := lastNonEmpty ((before.map (·.filePath)).getD "") (reports.map (·.filePath)) }

omit [DecidableEq TraceHash] [DecidableEq FileID] in
theorem lastNonEmpty_cons (default path : String) (paths : List String) :
    lastNonEmpty default (path :: paths) =
      lastNonEmpty (if path = "" then default else path) paths := by
  unfold lastNonEmpty
  by_cases hpath : path = "" <;> simp [List.filter_cons, hpath, List.getLast?_cons]

omit [DecidableEq TraceHash] [DecidableEq FileID] in
/-- One more report at the front is one more turn of `sourceEntry` on what was held before. -/
theorem lastSource_cons (before : Option SourceInfo) (s : SourceInfo) (rest : List SourceInfo) :
    lastSource before (s :: rest) =
      lastSource (some (sourceEntry before s.lineNumber s.functionOffset s.functionName s.filePath))
        rest := by
  have hpath : (sourceEntry before s.lineNumber s.functionOffset s.functionName s.filePath).filePath =
      if s.filePath = "" then (before.map (·.filePath)).getD "" else s.filePath := by
    unfold sourceEntry
    split <;> cases before <;> simp_all
  unfold lastSource
  rw [List.getLast?_cons, List.map_cons, lastNonEmpty_cons]
  cases hlast : rest.getLast? with
  | none =>
    obtain rfl := List.getLast?_eq_none_iff.mp hlast
    simp only [Option.getD_none, Option.some.injEq, List.map_nil]
    rw [← hpath]
    rfl
  | some last => simp [hpath]

/-- A call changes an address's entry exactly as its report for it says. -/
theorem storedSource_apply (r : OTLPReporter TraceHash FileID) (call : Call TraceHash FileID)
    (f : FileID) (a : AddressOrLineno) :
    storedSource (call.apply r).1 f a =
      match call.sourceReport f a with
      | some s => some (sourceEntry (storedSource r f a) s.lineNumber s.functionOffset
          s.functionName s.filePath)
      | none => storedSource r f a := by
  cases call with
  | frameMetadata fileID addressOrLine lineNumber functionOffset functionName filePath =>
    simp only [Call.apply, Call.sourceReport, frameMetadata_stored]
    by_cases h : fileID = f ∧ addressOrLine = a
    · obtain ⟨rfl, rfl⟩ := h
      simp
    · simp only [h, if_false]
      rw [if_neg fun h' => h ⟨h'.1.symm, h'.2.symm⟩]
  | reportFallbackSymbol frameID symbol =>
    simp only [Call.apply, Call.sourceReport, reportFallbackSymbol]
    split <;> rfl
  | reportHostMetadata order metadataMap =>
    simp only [Call.apply, Call.sourceReport, storedSource, (addHostmetadata_samples _ _ _).2.2]
  | _ => rfl

/-- Over every sequential run, an address of a file holds the last line number, function offset
and function name reported for it, with the last non-empty path reported for it (or the path
held before the run, empty if nothing was); and a call that reports nothing for the address
leaves its entry as it was. -/
theorem run_lastSource (f : FileID) (a : AddressOrLineno) :
    (∀ (calls : List (Call TraceHash FileID)) (r : OTLPReporter TraceHash FileID),
      storedSource (run r calls).1 f a =
        lastSource (storedSource r f a) (calls.filterMap (Call.sourceReport f a))) ∧
    ∀ (call : Call TraceHash FileID) (r : OTLPReporter TraceHash FileID),
      call.sourceReport f a = none → storedSource (call.apply r).1 f a = storedSource r f a := by
  refine ⟨fun calls => ?_, fun call r hnone => by rw [storedSource_apply, hnone]⟩
  induction calls with
  | nil => intro r; rfl
  | cons call calls ih =>
    intro r
    rw [run, ih, storedSource_apply, List.filterMap_cons]
    cases call.sourceReport f a with
    | none => rfl
    | some s => rw [lastSource_cons]

example : storedSource (run (startOTLP "hash" : OTLPReporter Nat Nat)
    [.frameMetadata 1 4096 12 0 "main" "main.py", .frameMetadata 1 8192 40 0 "helper" "",
      .frameMetadata 1 4096 13 0 "run" ""]).1 1 4096 = some ⟨13, 0, "run", "main.py"⟩ := by
  decide

/-! ### A count without a shape -/

omit [DecidableEq FileID] in
/-- A count for a hash with no `traces` entry creates one without frames, so the next report
drains the count instead of putting it back. -/
theorem reportCountForTrace_drained (order : MapOrder) (r : OTLPReporter TraceHash FileID)
    (h : TraceHash) (timestamp : UInt32) (count : UInt16)
    (comm podName podNamespace containerName : String) (htraces : r.traces.lookup h = none) :
    let r₁ := reportCountForTrace r h timestamp count comm podName podNamespace containerName
    (r₁.traces.lookup h).map TraceInfo.frameTypes = some [] ∧
      (drainedSamples order r₁).1.lookup h = none ∧
      ⟨h, countEntry (r.samples.lookup h) timestamp count⟩ ∈ (drainedSamples order r₁).2 := by
  simp [reportCountForTrace, htraces, labelsEntry, lookup_drainedSamples, mem_drainedSamples]

/-- A count reported before any shape for its hash is emitted by the next report with no
locations, and is gone from the sample cache. -/
theorem getProfile_countWithoutShape :
    ((getProfile Libpf.decimal MapOrder.stored 20
      (reportCountForTrace (startOTLP "hash") 7 100 1 "bash" "" "" "")).map fun res =>
        (res.2.1.sample.map fun s => s.locationsLength, res.1.samples.lookup 7)) =
      some ([0], none) := by
  decide

end ProfilingAgent.Reporter
