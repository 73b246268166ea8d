import ProfilingAgent.Reporter.Mappings
import ProfilingAgent.Reporter.Ingest

/-!
# The names a report gives its mappings

`ExecutableMetadata` forwards the executable's full path to the symbol uploader but caches only
its base name, and `<anonymous-blob>` for a process with no backing file. A report names a native
mapping after that cached name (`UNKNOWN` when there is none), and every other mapping `DUMMY`.
So after any sequence of calls, every mapping name a report carries is one path element: it is
not empty and holds no slash.
-/

namespace ProfilingAgent.Reporter

open Pprofextended (Profile DecodedSample DecodedLocation)

variable {TraceHash FileID : Type} [DecidableEq TraceHash] [DecidableEq FileID]

/-- A name that is one element of a path: not empty, and without a slash. -/
def PathElement (name : String) : Prop :=
  name ≠ "" ∧ '/' ∉ name.toList

/-- `path.Base` returns one path element, unless it returns `/` for a path of slashes only. -/
theorem pathElement_pathBase {path : String} (h : pathBase path ≠ "/") :
    PathElement (pathBase path) := by
  unfold pathBase at h ⊢
  dsimp only at h ⊢
  split_ifs at h ⊢ with hpath hbase
  · exact ⟨by decide, by decide⟩
  · exact absurd rfl h
  · refine ⟨fun he => hbase (congrArg String.data he), fun hm => ?_⟩
    simpa using List.mem_takeWhile_imp (List.mem_reverse.mp hm)

/-- Every executable the reporter caches is named by one path element. -/
def ExecutablesNamed (r : OTLPReporter TraceHash FileID) : Prop :=
  ∀ ⦃fileID : FileID⦄ ⦃e : ExecInfo⦄, r.executables.lookup fileID = some e → PathElement e.fileName

omit [DecidableEq TraceHash] in
theorem ExecutablesNamed.executableMetadata {r : OTLPReporter TraceHash FileID}
    (hr : ExecutablesNamed r) (fileID : FileID) (fileName buildID : String) :
    ExecutablesNamed (Reporter.executableMetadata r fileID fileName buildID).1 := by
  intro f e he
  by_cases hf : f = fileID
  · subst hf
    simp only [Reporter.executableMetadata, AList.lookup_insert, Option.some.injEq] at he
    rw [← he]
    dsimp only
    split
    · exact ⟨by decide, by decide⟩
    · exact pathElement_pathBase ‹_›
  · rw [Reporter.executableMetadata, AList.lookup_insert_ne hf] at he
    exact hr he

omit [DecidableEq TraceHash] [DecidableEq FileID] in
theorem addHostmetadata_executables (order : MapOrder) (r : OTLPReporter TraceHash FileID)
    (metadataMap : Cache String String) :
    (addHostmetadata order r metadataMap).executables = r.executables := by
  unfold addHostmetadata
  induction order.arrange metadataMap.entries generalizing r with
  | nil => rfl
  | cons kv rest ih => exact ih _

/-- Only `ExecutableMetadata` writes the executables cache, and every call keeps its names. -/
theorem ExecutablesNamed.apply {r : OTLPReporter TraceHash FileID} (hr : ExecutablesNamed r)
    (call : Call TraceHash FileID) : ExecutablesNamed (call.apply r).1 := by
  cases call with
  | executableMetadata fileID fileName buildID => exact hr.executableMetadata fileID fileName buildID
  | reportFallbackSymbol frameID symbol =>
    simp only [Call.apply, reportFallbackSymbol]
    split <;> exact hr
  | frameMetadata fileID addressOrLine lineNumber functionOffset functionName filePath =>
    simp only [Call.apply, frameMetadata]
    split <;> exact hr
  | reportHostMetadata order metadataMap =>
    intro f e he
    rw [Call.apply, addHostmetadata_executables] at he
    exact hr he
  | reportFramesForTrace | reportCountForTrace | report => exact hr

theorem ExecutablesNamed.run :
    ∀ (calls : List (Call TraceHash FileID)) {r : OTLPReporter TraceHash FileID},
      ExecutablesNamed r → ExecutablesNamed (Reporter.run r calls).1
  | [], _, hr => hr
  | call :: calls, _, hr => ExecutablesNamed.run calls (hr.apply call)

omit [DecidableEq TraceHash] in
/-- The mapping a file is given is named by a path element when its executable is. -/
theorem pathElement_expectedMapping (lib : Libpf TraceHash FileID)
    {r : OTLPReporter TraceHash FileID} (hr : ExecutablesNamed r)
    (x : FileID × AddressOrLineno × FrameType) : PathElement (expectedMapping lib r x).filename := by
  obtain ⟨fileID, address, frameKind⟩ := x
  cases frameKind with
  | nativeFrame =>
    show PathElement (match r.executables.lookup fileID with
      | some execInfo => execInfo.fileName
      | none => "UNKNOWN")
    split
    · exact hr ‹_›
    · exact ⟨by decide, by decide⟩
  | _ => exact (⟨by decide, by decide⟩ : PathElement "DUMMY")

/-- After any sequence of calls from `StartOTLP`, the mapping table of a report decodes, and every
mapping it carries is named by one path element: never a full path, never empty. -/
theorem run_getProfile_mappingNames (lib : Libpf TraceHash FileID) (order : MapOrder)
    (samplesPerSecond : ℕ+) (otlpBuildIDMode : String) (calls : List (Call TraceHash FileID))
    {res : OTLPReporter TraceHash FileID × Profile × UInt64 × UInt64}
    (h : getProfile lib order samplesPerSecond (run (startOTLP otlpBuildIDMode) calls).1 = some res) :
    ∃ mappings, res.2.1.mapping.mapM res.2.1.decodeMapping = some mappings ∧
      ∀ m ∈ mappings, PathElement m.filename := by
  have hnamed : ExecutablesNamed (run (startOTLP otlpBuildIDMode) calls).1 :=
    ExecutablesNamed.run calls fun _ _ he => by simp [startOTLP] at he
  refine ⟨_, mapM_eq_some_iff_forall₂.mpr (getProfile_decodeMapping h), fun m hm => ?_⟩
  obtain ⟨x, -, rfl⟩ := List.mem_map.mp hm
  exact pathElement_expectedMapping lib hnamed x

theorem run_getProfile_mappingNames_usrBinApp :
    let calls : List (Call Nat Nat) :=
      [.executableMetadata 1 "/usr/bin/app" "b1",
       .reportFramesForTrace ⟨7, [1], [4096], [.nativeFrame]⟩,
       .reportCountForTrace 7 100 1 "app" "" "" ""]
    ∃ res, getProfile Libpf.decimal MapOrder.stored 20 (run (startOTLP "hash") calls).1 = some res ∧
      res.2.1.mapping.mapM res.2.1.decodeMapping = some [⟨4096, "app", "1", .buildIdBinaryHash⟩] ∧
      ∃ mappings, res.2.1.mapping.mapM res.2.1.decodeMapping = some mappings ∧
        ∀ m ∈ mappings, PathElement m.filename := by
  intro calls
  obtain ⟨res, hres, hmapping⟩ := Option.map_eq_some'.mp
    (show (getProfile Libpf.decimal MapOrder.stored 20 (run (startOTLP "hash") calls).1).map
      (fun res => res.2.1.mapping.mapM res.2.1.decodeMapping) =
        some (some [⟨4096, "app", "1", .buildIdBinaryHash⟩]) by decide)
  exact ⟨res, hres, hmapping,
    run_getProfile_mappingNames Libpf.decimal MapOrder.stored 20 "hash" calls hres⟩

/-! ### Kernel frames -/

/-- The symbol a call reports for frame `frameID`: that of a `ReportFallbackSymbol` for it. -/
def Call.fallbackSymbolFor (frameID : FrameID FileID) : Call TraceHash FileID → Option String
  | .reportFallbackSymbol frameID' symbol => if frameID' = frameID then some symbol else none
  | _ => none

omit [DecidableEq TraceHash] [DecidableEq FileID] in
theorem addHostmetadata_fallbackSymbols (order : MapOrder) (r : OTLPReporter TraceHash FileID)
    (metadataMap : Cache String String) :
    (addHostmetadata order r metadataMap).fallbackSymbols = r.fallbackSymbols := by
  unfold addHostmetadata
  induction order.arrange metadataMap.entries generalizing r with
  | nil => rfl
  | cons kv rest ih => exact ih _

/-- Only `ReportFallbackSymbol` writes the fallback symbols, and only for a frame that has none. -/
theorem Call.apply_fallbackSymbols (r : OTLPReporter TraceHash FileID)
    (call : Call TraceHash FileID) (frameID : FrameID FileID) :
    (call.apply r).1.fallbackSymbols.lookup frameID =
      (r.fallbackSymbols.lookup frameID).or (call.fallbackSymbolFor frameID) := by
  cases call with
  | reportFallbackSymbol frameID' symbol =>
    simp only [Call.apply, Reporter.reportFallbackSymbol, Call.fallbackSymbolFor]
    by_cases hf : frameID' = frameID
    · subst hf
      cases h : r.fallbackSymbols.lookup frameID' <;> simp [h]
    · rw [if_neg hf, Option.or_none]
      split <;> simp [AList.lookup_insert_ne (Ne.symm hf)]
  | frameMetadata =>
    simp only [Call.apply, Reporter.frameMetadata]
    split <;> exact Option.or_none.symm
  | reportHostMetadata order metadataMap =>
    rw [Call.apply, addHostmetadata_fallbackSymbols]
    exact Option.or_none.symm
  | reportFramesForTrace | reportCountForTrace | executableMetadata | report =>
    exact Option.or_none.symm

/-- After any sequence of calls, the symbol cached for a frame is the one it had, or else the
first one `ReportFallbackSymbol` reported for it: a later report never replaces it. -/
theorem run_fallbackSymbols (frameID : FrameID FileID) :
    ∀ (calls : List (Call TraceHash FileID)) (r : OTLPReporter TraceHash FileID),
      (run r calls).1.fallbackSymbols.lookup frameID =
        (r.fallbackSymbols.lookup frameID).or (calls.findSome? (Call.fallbackSymbolFor frameID))
  | [], _ => Option.or_none.symm
  | call :: calls, r => by
    show (run (call.apply r).1 calls).1.fallbackSymbols.lookup frameID = _
    rw [run_fallbackSymbols frameID calls, Call.apply_fallbackSymbols, Option.or_assoc,
      List.findSome?_cons]
    congr 1
    cases call.fallbackSymbolFor frameID <;> rfl

/-- A decoded sample reads every kernel frame of trace `t` as one line in `vmlinux`, named by the
frame's `symbol`, at line 0. -/
def KernelLinesRead (t : TraceInfo FileID) (symbol : FrameID FileID → String)
    (d : DecodedSample) : Prop :=
  ∀ (j : Nat) (fileID : FileID) (address : AddressOrLineno),
    t.frameTypes[j]? = some .kernelFrame → t.files[j]? = some fileID →
    t.linenos[j]? = some address →
    (d.locations[j]?).map DecodedLocation.lines =
      some [⟨symbol (newFrameID fileID address), "vmlinux", 0⟩]

/-- The reading of a drained entry reads the kernel frames of its trace by the cached fallback
symbols. -/
theorem expectedSample_kernelLines {lib : Libpf TraceHash FileID}
    {r : OTLPReporter TraceHash FileID} {e : Σ _ : TraceHash, Sample} {d : DecodedSample}
    (hd : expectedSample lib r e = some d) {t : TraceInfo FileID}
    (ht : r.traces.lookup e.1 = some t) :
    KernelLinesRead t (fun frameID => (r.fallbackSymbols.lookup frameID).getD "UNKNOWN") d := by
  intro j fileID address hkind hfile haddr
  rw [expectedSample, ht, Option.getD_some] at hd
  obtain ⟨locations, hlocations, rfl⟩ := Option.map_eq_some'.mp hd
  have henum : t.frameTypes.enum[j]? = some (j, .kernelFrame) := by
    rw [List.getElem?_enum, hkind]
    rfl
  obtain ⟨loc, hj, hloc⟩ := forall₂_getElem? (mapM_eq_some_iff_forall₂.mp hlocations) henum
  simp only [expectedLocationAt, haddr, hfile, Option.map_some', Option.some.injEq] at hloc
  rw [hj, ← hloc]
  rfl

/-- After any sequence of calls from `StartOTLP`, a report's profile decodes, sample by sample
along the drained entries, and reads every kernel frame of an entry's trace as one line in
`vmlinux`, named by the first symbol `ReportFallbackSymbol` reported for the frame, or `UNKNOWN`
when none was; the fallback symbols do not evict here. -/
theorem run_kernelLines (lib : Libpf TraceHash FileID) (order : MapOrder) (samplesPerSecond : ℕ+)
    (otlpBuildIDMode : String) (calls : List (Call TraceHash FileID))
    {res : OTLPReporter TraceHash FileID × Profile × UInt64 × UInt64}
    (h : getProfile lib order samplesPerSecond (run (startOTLP otlpBuildIDMode) calls).1 =
      some res) :
    ∃ ds, res.2.1.decode = some ds ∧
      List.Forall₂ (fun (d : DecodedSample) (e : Σ _ : TraceHash, Sample) =>
          ∀ t, (run (startOTLP otlpBuildIDMode) calls).1.traces.lookup e.1 = some t →
            KernelLinesRead t
              (fun frameID => (calls.findSome? (Call.fallbackSymbolFor frameID)).getD "UNKNOWN") d)
        ds (drainedSamples order (run (startOTLP otlpBuildIDMode) calls).1).2 := by
  obtain ⟨hdecode, hsome⟩ :=
    getProfile_bind_decode lib order samplesPerSecond (run (startOTLP otlpBuildIDMode) calls).1
  rw [h] at hdecode hsome
  obtain ⟨ds, hds⟩ := Option.isSome_iff_exists.mp (hsome.symm.trans rfl)
  refine ⟨ds, hdecode.trans hds, List.Forall₂.flip ((mapM_eq_some_iff_forall₂.mp hds).imp
    fun e d hd t ht => ?_)⟩
  simpa only [run_fallbackSymbols] using expectedSample_kernelLines hd ht

theorem run_kernelLines_firstSymbol :
    let calls : List (Call Nat Nat) :=
      [.reportFallbackSymbol (newFrameID 1 8192) "do_syscall_64",
       .reportFallbackSymbol (newFrameID 1 8192) "entry_SYSCALL_64",
       .reportFramesForTrace ⟨7, [1], [8192], [.kernelFrame]⟩,
       .reportCountForTrace 7 100 1 "app" "" "" ""]
    ∃ res, getProfile Libpf.decimal MapOrder.stored 20 (run (startOTLP "hash") calls).1 = some res ∧
      res.2.1.decode.map (List.map fun d => d.locations.map DecodedLocation.lines) =
        some [[[⟨"do_syscall_64", "vmlinux", 0⟩]]] ∧
      ∃ ds, res.2.1.decode = some ds ∧
        List.Forall₂ (fun (d : DecodedSample) (e : Σ _ : Nat, Sample) =>
            ∀ t, (run (startOTLP "hash") calls).1.traces.lookup e.1 = some t →
              KernelLinesRead t
                (fun frameID => (calls.findSome? (Call.fallbackSymbolFor frameID)).getD "UNKNOWN")
                d)
          ds (drainedSamples MapOrder.stored (run (startOTLP "hash") calls).1).2 := by
  intro calls
  obtain ⟨res, hres, hlines⟩ := Option.map_eq_some'.mp
    (show (getProfile Libpf.decimal MapOrder.stored 20 (run (startOTLP "hash") calls).1).map
      (fun res => res.2.1.decode.map (List.map fun d => d.locations.map DecodedLocation.lines)) =
        some (some [[[⟨"do_syscall_64", "vmlinux", 0⟩]]]) by decide)
  exact ⟨res, hres, hlines,
    run_kernelLines Libpf.decimal MapOrder.stored 20 "hash" calls hres⟩

end ProfilingAgent.Reporter
