import ProfilingAgent.Reporter.Export
import ProfilingAgent.Reporter.Ingest

/-!
# What reaches the collector

The reporter carries the counts `ReportCountForTrace` receives to the collector. Here a run of
completed calls sends, at each report, the request `reportOTLPProfile` builds, and a request
carries for a trace hash the values and timestamps of the samples whose stack trace ID is the
hash's text. Over every sequential run whose traces have one file and one address per frame type,
every report returns, and nothing is lost or counted twice between the calls and the wire: the
count cached at the start and the counts reported are the counts the requests carry and the count
left cached, and the same holds of the timestamps, in milliseconds.

Counting by stack trace ID takes `TraceHash.StringNoQuotes` to tell hashes apart, as the
hexadecimal text of a 128-bit hash does. What is sent is what the collector receives only if
`Export` succeeds: the report loop of `StartOTLP` logs a failed `Export`, and the samples that
report drained are not put back.
-/

namespace ProfilingAgent.Reporter

open Pprofextended (DecodedSample)

variable {TraceHash FileID : Type} [DecidableEq TraceHash] [DecidableEq FileID]

/-! ### Traces the frame loop can read -/

/-- Every `traces` entry has one file and one address per frame type. -/
def TracesShaped (r : OTLPReporter TraceHash FileID) : Prop :=
  ∀ h t, r.traces.lookup h = some t →
    t.files.length = t.frameTypes.length ∧ t.linenos.length = t.frameTypes.length

/-- The trace a call reports has one file and one address per frame type, as the tracer's do. -/
def Call.Shaped : Call TraceHash FileID → Prop
  | .reportFramesForTrace trace =>
    trace.files.length = trace.frameTypes.length ∧ trace.linenos.length = trace.frameTypes.length
  | _ => True

instance Call.Shaped.decidable : (call : Call TraceHash FileID) → Decidable call.Shaped
  | .reportFramesForTrace _ => inferInstanceAs (Decidable (_ ∧ _))
  | .reportCountForTrace .. | .reportFallbackSymbol .. | .executableMetadata .. | .frameMetadata ..
  | .reportHostMetadata .. | .report _ => isTrue trivial

omit [DecidableEq FileID] in
theorem tracesShaped_startOTLP (otlpBuildIDMode : String) :
    TracesShaped (startOTLP otlpBuildIDMode : OTLPReporter TraceHash FileID) :=
  fun _ _ ht => by simp [startOTLP] at ht

/-- `ReportFramesForTrace` writes the trace's shape, and `ReportCountForTrace` keeps the shape it
finds or writes none; every other call leaves `traces` as it is. -/
theorem TracesShaped.apply {r : OTLPReporter TraceHash FileID} (hr : TracesShaped r)
    {call : Call TraceHash FileID} (hcall : call.Shaped) : TracesShaped (call.apply r).1 := by
  cases call with
  | reportFramesForTrace trace =>
    intro h t ht
    by_cases hh : h = trace.hash
    · subst hh
      simp only [Call.apply, Reporter.reportFramesForTrace, AList.lookup_insert,
        Option.some.injEq] at ht
      subst ht
      cases r.traces.lookup trace.hash <;> exact hcall
    · rw [Call.apply, Reporter.reportFramesForTrace, AList.lookup_insert_ne hh] at ht
      exact hr h t ht
  | reportCountForTrace traceHash timestamp count comm podName podNamespace containerName =>
    intro h t ht
    by_cases hh : h = traceHash
    · subst hh
      simp only [Call.apply, Reporter.reportCountForTrace, AList.lookup_insert,
        Option.some.injEq] at ht
      subst ht
      cases hpeek : r.traces.lookup h with
      | none => exact ⟨rfl, rfl⟩
      | some v => exact hr h v hpeek
    · rw [Call.apply, Reporter.reportCountForTrace, AList.lookup_insert_ne hh] at ht
      exact hr h t ht
  | reportFallbackSymbol frameID symbol =>
    simp only [Call.apply, Reporter.reportFallbackSymbol]
    split <;> exact hr
  | frameMetadata fileID addressOrLine lineNumber functionOffset functionName filePath =>
    simp only [Call.apply, Reporter.frameMetadata]
    split <;> exact hr
  | reportHostMetadata order metadataMap =>
    intro h t ht
    rw [Call.apply, (addHostmetadata_samples order r metadataMap).2.1] at ht
    exact hr h t ht
  | executableMetadata | report => exact hr

/-! ### What a request carries for a trace hash -/

/-- The samples of a request whose stack trace ID is `h`'s text. -/
def ExportRequest.samplesOf (lib : Libpf TraceHash FileID) (h : TraceHash)
    (request : ExportRequest) : List Pprofextended.Sample :=
  request.container.profile.sample.filter fun s =>
    (request.container.profile.decodeSample s).map DecodedSample.stacktraceId =
      some (lib.traceHashString h)

/-- The count requests carry for `h`. -/
def exportedCount (lib : Libpf TraceHash FileID) (h : TraceHash) (requests : List ExportRequest) :
    Nat :=
  (requests.flatMap fun request => (request.samplesOf lib h).map fun s => s.value.sum).sum

/-- The timestamps requests carry for `h`, in milliseconds. -/
def exportedTimestamps (lib : Libpf TraceHash FileID) (h : TraceHash)
    (requests : List ExportRequest) : List UInt64 :=
  requests.flatMap fun request => (request.samplesOf lib h).flatMap Pprofextended.Sample.timestamps

/-! ### Runs as the collector sees them -/

/-- A call as the collector sees it: the caches after it, and the requests it sends. A report is
`reportOTLPProfile`, which sends a request when its profile has a sample; `none` when it
panics. -/
def Call.export (lib : Libpf TraceHash FileID) (samplesPerSecond : ℕ+) (reportInterval : Int)
    (version revision : String) (r : OTLPReporter TraceHash FileID) :
    Call TraceHash FileID → Option (OTLPReporter TraceHash FileID × List ExportRequest)
  | .report order =>
    (reportOTLPProfile lib order samplesPerSecond reportInterval version revision r).map
      fun res => (res.1, res.2.toList)
  | call => some ((call.apply r).1, [])

/-- A run of completed calls as the collector sees it: the caches at its end, and the requests
its reports send, in order; `none` once a report panics. -/
def runExport (lib : Libpf TraceHash FileID) (samplesPerSecond : ℕ+) (reportInterval : Int)
    (version revision : String) :
    OTLPReporter TraceHash FileID → List (Call TraceHash FileID) →
      Option (OTLPReporter TraceHash FileID × List ExportRequest)
  | r, [] => some (r, [])
  | r, call :: calls =>
    (call.export lib samplesPerSecond reportInterval version revision r).bind fun next =>
      (runExport lib samplesPerSecond reportInterval version revision next.1 calls).map
        fun rest => (rest.1, next.2 ++ rest.2)

omit [DecidableEq TraceHash] [DecidableEq FileID] in
theorem exportedCount_append (lib : Libpf TraceHash FileID) (h : TraceHash)
    (requests requests' : List ExportRequest) :
    exportedCount lib h (requests ++ requests') =
      exportedCount lib h requests + exportedCount lib h requests' := by
  simp [exportedCount]

omit [DecidableEq TraceHash] [DecidableEq FileID] in
theorem exportedTimestamps_append (lib : Libpf TraceHash FileID) (h : TraceHash)
    (requests requests' : List ExportRequest) :
    exportedTimestamps lib h (requests ++ requests') =
      exportedTimestamps lib h requests ++ exportedTimestamps lib h requests' := by
  simp [exportedTimestamps]

section Pairing

variable {lib : Libpf TraceHash FileID} (hinj : Function.Injective lib.traceHashString)
  (h : TraceHash) {p : Pprofextended.Profile}
include hinj

omit [DecidableEq FileID] in
/-- Samples that stand, in order, for drained entries carry for `h` the count and timestamps the
entries hold for `h`. -/
theorem samples_count_of_forall₂ {samples : List Pprofextended.Sample}
    {drained : List (Σ _ : TraceHash, Sample)}
    (hpair : List.Forall₂ (fun (s : Pprofextended.Sample) (e : Σ _ : TraceHash, Sample) =>
        (p.decodeSample s).map DecodedSample.stacktraceId = some (lib.traceHashString e.1) ∧
        s.value = [e.2.count.toNat] ∧ s.timestamps = e.2.timestamps.map unixMilli)
      samples drained) :
    ((samples.filter fun s => (p.decodeSample s).map DecodedSample.stacktraceId =
        some (lib.traceHashString h)).map fun s => s.value.sum).sum = drainedCount h drained ∧
      (samples.filter fun s => (p.decodeSample s).map DecodedSample.stacktraceId =
        some (lib.traceHashString h)).flatMap Pprofextended.Sample.timestamps =
          (drainedTimestamps h drained).map unixMilli := by
  induction hpair with
  | nil => exact ⟨rfl, rfl⟩
  | @cons s e samples drained hse _ ih =>
    obtain ⟨hid, hvalue, htimestamps⟩ := hse
    rw [List.filter_cons, hid]
    simp only [Option.some.injEq, hinj.eq_iff]
    by_cases he : e.1 = h
    · rw [if_pos (decide_eq_true he)]
      simp only [List.map_cons, List.sum_cons, List.flatMap_cons, ih.1, ih.2, hvalue, htimestamps]
      simp [drainedCount, drainedTimestamps, he]
    · rw [if_neg (by simpa using he)]
      simp only [ih.1, ih.2]
      simp [drainedCount, drainedTimestamps, he]

/-- When every `traces` entry has its shape, `reportOTLPProfile` returns, leaves the caches a
report leaves, and what it sends carries for `h` the count and timestamps of `h` it drained. -/
theorem reportOTLPProfile_carries (order : MapOrder) (samplesPerSecond : ℕ+)
    (reportInterval : Int) (version revision : String) {r : OTLPReporter TraceHash FileID}
    (hr : TracesShaped r) :
    ∃ sent, reportOTLPProfile lib order samplesPerSecond reportInterval version revision r =
        some ({ r with samples := (drainedSamples order r).1 }, sent) ∧
      exportedCount lib h sent.toList = drainedCount h (drainedSamples order r).2 ∧
      exportedTimestamps lib h sent.toList =
        (drainedTimestamps h (drainedSamples order r).2).map unixMilli := by
  obtain ⟨⟨r', p, startTS, endTS⟩, hp, hpair⟩ :=
    getProfile_forall₂_drained lib order samplesPerSecond r hr
  obtain ⟨-, -, hres, -⟩ := getProfile_eq_some hp
  obtain ⟨hcount, htimestamps⟩ := samples_count_of_forall₂ hinj h hpair
  dsimp only at hres hcount htimestamps
  subst hres
  dsimp only [reportOTLPProfile]
  rw [hp, Option.map_some']
  dsimp only
  split
  · next hempty =>
    have hnil := List.forall₂_nil_left_iff.mp (List.isEmpty_iff.mp hempty ▸ hpair)
    refine ⟨none, rfl, ?_, ?_⟩ <;> simp [hnil, exportedCount, exportedTimestamps, drainedCount,
      drainedTimestamps]
  · refine ⟨_, rfl, ?_, ?_⟩
    all_goals
      simp only [Option.toList_some, exportedCount, exportedTimestamps, List.flatMap_singleton,
        ExportRequest.samplesOf]
      split
    exacts [hcount, hcount, htimestamps, htimestamps]

/-- When the traces have their shape, a call returns as the collector sees it, leaves the caches
the call leaves, and sends for `h` what it drained of `h`. -/
theorem Call.export_carries (samplesPerSecond : ℕ+) (reportInterval : Int)
    (version revision : String) {r : OTLPReporter TraceHash FileID} (hr : TracesShaped r)
    (call : Call TraceHash FileID) :
    ∃ sent, call.export lib samplesPerSecond reportInterval version revision r =
        some ((call.apply r).1, sent) ∧
      exportedCount lib h sent = drainedCount h (call.apply r).2 ∧
      exportedTimestamps lib h sent = (drainedTimestamps h (call.apply r).2).map unixMilli := by
  cases call with
  | report order =>
    obtain ⟨sent, hsent, hcount, htimestamps⟩ :=
      reportOTLPProfile_carries hinj h order samplesPerSecond reportInterval version revision hr
    exact ⟨sent.toList, by rw [Call.export, hsent]; rfl, hcount, htimestamps⟩
  | _ => exact ⟨[], rfl, rfl, rfl⟩

/-- Over every sequential run from caches whose traces have one file and one address per frame
type, in which every trace reported has one file and one address per frame type, no cached
count of `h` passes `2^32` and no cache evicts, every report returns, and nothing is lost or counted twice between the
calls and the collector: the count cached for `h` at the start and the counts reported for it are
the counts the requests sent carry for it and the count left cached; the same holds of its
timestamps, in milliseconds. -/
theorem runExport_conserves (samplesPerSecond : ℕ+) (reportInterval : Int)
    (version revision : String) :
    ∀ (calls : List (Call TraceHash FileID)) (r : OTLPReporter TraceHash FileID),
      TracesShaped r → (∀ call ∈ calls, call.Shaped) → NoWrap h r calls →
      ∃ r' requests,
        runExport lib samplesPerSecond reportInterval version revision r calls =
          some (r', requests) ∧
        cachedCount r h + (calls.map (Call.reportedCount h)).sum =
          exportedCount lib h requests + cachedCount r' h ∧
        ((cachedTimestamps r h ++ calls.flatMap (Call.reportedTimestamps h)).map unixMilli).Perm
          (exportedTimestamps lib h requests ++ (cachedTimestamps r' h).map unixMilli)
  | [], r, _, _, _ => ⟨r, [], rfl, by simp [exportedCount], by simp [exportedTimestamps]⟩
  | call :: calls, r, hr, hcalls, ⟨hwrap, hrest⟩ => by
    obtain ⟨sent, hexport, hcount, htimestamps⟩ :=
      Call.export_carries hinj h samplesPerSecond reportInterval version revision hr call
    obtain ⟨hcount₁, hstamps₁⟩ := Call.conserves h r call hwrap
    obtain ⟨r', requests, hrun, ihcount, ihstamps⟩ :=
      runExport_conserves samplesPerSecond reportInterval version revision calls (call.apply r).1
        (hr.apply (hcalls call (List.mem_cons_self _ _)))
        (fun c hc => hcalls c (List.mem_cons_of_mem _ hc)) hrest
    refine ⟨r', sent ++ requests, by simp [runExport, hexport, hrun], ?_, ?_⟩
    · simp only [List.map_cons, List.sum_cons, exportedCount_append]
      omega
    · rw [exportedTimestamps_append, htimestamps, List.append_assoc]
      calc ((cachedTimestamps r h ++ (call.reportedTimestamps h ++
              calls.flatMap (Call.reportedTimestamps h))).map unixMilli).Perm
            (((drainedTimestamps h (call.apply r).2 ++ cachedTimestamps (call.apply r).1 h) ++
              calls.flatMap (Call.reportedTimestamps h)).map unixMilli) := by
            rw [← List.append_assoc]
            exact (hstamps₁.append_right _).map _
        _ = (drainedTimestamps h (call.apply r).2).map unixMilli ++
              (cachedTimestamps (call.apply r).1 h ++
                calls.flatMap (Call.reportedTimestamps h)).map unixMilli := by
            rw [List.append_assoc, List.map_append]
        List.Perm _ _ := ihstamps.append_left _

end Pairing

/-- Conversions for trace hashes that are their own text, and file IDs that are numbers. -/
def Libpf.textual : Libpf String Nat where
  traceHashString := id
  fileIDString := toString
  frameTypeString := Libpf.decimal.frameTypeString

theorem runExport_conserves_twoCounts :
    let calls : List (Call String Nat) :=
      [.reportFramesForTrace ⟨"t7", [1], [4096], [.nativeFrame]⟩,
       .reportCountForTrace "t7" 100 2 "app" "" "" "", .report MapOrder.stored,
       .reportCountForTrace "t7" 101 3 "app" "" "" ""]
    (∀ call ∈ calls, call.Shaped) ∧ NoWrap "t7" (startOTLP "hash") calls ∧
      ∃ r' requests,
        runExport Libpf.textual 20 10000000000 "v1" "abc" (startOTLP "hash") calls =
          some (r', requests) ∧
        cachedCount (startOTLP "hash" : OTLPReporter String Nat) "t7" +
            (calls.map (Call.reportedCount "t7")).sum =
          exportedCount Libpf.textual "t7" requests + cachedCount r' "t7" ∧
        ((cachedTimestamps (startOTLP "hash" : OTLPReporter String Nat) "t7" ++
            calls.flatMap (Call.reportedTimestamps "t7")).map unixMilli).Perm
          (exportedTimestamps Libpf.textual "t7" requests ++
            (cachedTimestamps r' "t7").map unixMilli) := by
  intro calls
  have hshaped : ∀ call ∈ calls, call.Shaped := by decide
  have hwrap : NoWrap "t7" (startOTLP "hash") calls := by decide
  exact ⟨hshaped, hwrap, runExport_conserves Function.injective_id "t7" 20 10000000000 "v1" "abc"
    calls _ (tracesShaped_startOTLP "hash") hshaped hwrap⟩

end ProfilingAgent.Reporter
