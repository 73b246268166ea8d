import ProfilingAgent.Reporter.Ingest

/-!
# Interleaved calls

Every cache of the reporter is an `lru.SyncedLRU`: each `Keys`, `Peek`, `Get`, `Add` and
`Remove` is atomic, and nothing makes a call's sequence of them atomic. Here each call is a
thread with a program counter over those operations and the locals it keeps between them; a run
picks, operation by operation, the thread that goes next. A call whose operations run back to
back acts as the sequential call of `State`. When the operations of two calls overlap, a `Peek`
followed by an `Add` of the same key writes back what it read before the other call's write.

The frames cache holds Go maps, which are references: `FrameMetadata` writes into the map the
cache returned, so the store here keeps the maps apart from the references the cache holds.
-/

namespace ProfilingAgent.Reporter

variable {TraceHash FileID : Type} [DecidableEq TraceHash] [DecidableEq FileID]

/-! ### The calls as threads -/

/-- The next cache operation of a `ReportCountForTrace` call. -/
inductive CountPc where
  | peekTraces
  | addTraces
  | peekSamples
  | addSamples
  | done
  deriving DecidableEq, Repr

/-- A `ReportCountForTrace` call: its arguments, its next operation and what its `Peek`s
returned. -/
structure CountCall (TraceHash FileID : Type) where
  traceHash : TraceHash
  timestamp : UInt32
  count : UInt16
  comm : String
  podName : String
  podNamespace : String
  containerName : String
  pc : CountPc := .peekTraces
  peekedTrace : Option (TraceInfo FileID) := none
  peekedSample : Option Sample := none

/-- One operation of a `ReportCountForTrace` call. -/
def CountCall.step (c : CountCall TraceHash FileID) (r : OTLPReporter TraceHash FileID) :
    CountCall TraceHash FileID × OTLPReporter TraceHash FileID :=
  match c.pc with
  | .peekTraces => ({ c with pc := .addTraces, peekedTrace := r.traces.lookup c.traceHash }, r)
  | .addTraces =>
    let labels := labelsEntry c.peekedTrace c.comm c.podName c.podNamespace c.containerName
    ({ c with pc := .peekSamples }, { r with traces := r.traces.insert c.traceHash labels })
  | .peekSamples => ({ c with pc := .addSamples, peekedSample := r.samples.lookup c.traceHash }, r)
  | .addSamples =>
    let counted := countEntry c.peekedSample c.timestamp c.count
    ({ c with pc := .done }, { r with samples := r.samples.insert c.traceHash counted })
  | .done => (c, r)

/-- The next cache operation of a `ReportFramesForTrace` call. -/
inductive FramesPc where
  | peek
  | add
  | done
  deriving DecidableEq, Repr

/-- A `ReportFramesForTrace` call. -/
structure FramesCall (TraceHash FileID : Type) where
  trace : Trace TraceHash FileID
  pc : FramesPc := .peek
  peeked : Option (TraceInfo FileID) := none

/-- One operation of a `ReportFramesForTrace` call. -/
def FramesCall.step (c : FramesCall TraceHash FileID) (r : OTLPReporter TraceHash FileID) :
    FramesCall TraceHash FileID × OTLPReporter TraceHash FileID :=
  match c.pc with
  | .peek => ({ c with pc := .add, peeked := r.traces.lookup c.trace.hash }, r)
  | .add =>
    let shaped := framesEntry c.peeked c.trace
    ({ c with pc := .done }, { r with traces := r.traces.insert c.trace.hash shaped })
  | .done => (c, r)

/-- The frames cache with its per-file maps as shared objects: the cache holds an index into
`maps`. -/
structure FrameStore (FileID : Type) where
  refs : Cache FileID Nat
  maps : List (Cache AddressOrLineno SourceInfo)

/-- What the store holds for an address of a file, through the file's reference. -/
def FrameStore.stored (s : FrameStore FileID) (fileID : FileID)
    (addressOrLine : AddressOrLineno) : Option SourceInfo :=
  (s.refs.lookup fileID).bind fun ref => s.maps[ref]?.bind fun m => m.lookup addressOrLine

/-- The next operation of a `FrameMetadata` call: the `Get`, then a write into the map it
returned (reading the old entry and storing the new one, one step), or the `Add` of a new map. -/
inductive FrameMetadataPc where
  | get
  | write (ref : Nat)
  | add
  | done
  deriving DecidableEq, Repr

/-- A `FrameMetadata` call. -/
structure FrameMetadataCall (FileID : Type) where
  fileID : FileID
  addressOrLine : AddressOrLineno
  lineNumber : SourceLineno
  functionOffset : UInt32
  functionName : String
  filePath : String
  pc : FrameMetadataPc := .get

/-- One operation of a `FrameMetadata` call. -/
def FrameMetadataCall.step (c : FrameMetadataCall FileID) (s : FrameStore FileID) :
    FrameMetadataCall FileID × FrameStore FileID :=
  match c.pc with
  | .get =>
    match s.refs.lookup c.fileID with
    | some ref => ({ c with pc := .write ref }, s)
    | none => ({ c with pc := .add }, s)
  | .write ref =>
    let v := s.maps[ref]?.getD ∅
    let entry := sourceEntry (v.lookup c.addressOrLine) c.lineNumber c.functionOffset
      c.functionName c.filePath
    ({ c with pc := .done }, { s with maps := s.maps.set ref (v.insert c.addressOrLine entry) })
  | .add =>
    let v : Cache AddressOrLineno SourceInfo := (∅ : Cache AddressOrLineno SourceInfo).insert
      c.addressOrLine { lineNumber := c.lineNumber, functionOffset := c.functionOffset,
                        functionName := c.functionName, filePath := c.filePath }
    ({ c with pc := .done }, ⟨s.refs.insert c.fileID s.maps.length, s.maps ++ [v]⟩)
  | .done => (c, s)

/-- The next operation of a `getProfile` run, up to the encoding: `Keys`, then a `Get` and a
`Remove` for each key, a `Peek` of `traces` for each copied hash, and an `Add` for each hash
put back. -/
inductive ReportPc (TraceHash : Type) where
  | keys
  | get (pending : List TraceHash)
  | remove (k : TraceHash) (pending : List TraceHash)
  | peekTraces (pending : List TraceHash)
  | add (pending : List TraceHash)
  | done

/-- A `getProfile` run: the order of its loops over the copy, its next operation, the copy and
the hashes it found without a `traces` entry. -/
structure ReportRun (TraceHash : Type) : Type 1 where
  order : MapOrder
  pc : ReportPc TraceHash := .keys
  samplesCpy : Cache TraceHash Sample := ∅
  samplesWoTraceinfo : List TraceHash := []

/-- One operation of a `getProfile` run, and the samples it hands to the encoding: when the
requeue is over, the copy, which the sample loop then encodes. -/
def ReportRun.step (run : ReportRun TraceHash) (r : OTLPReporter TraceHash FileID) :
    ReportRun TraceHash × OTLPReporter TraceHash FileID × List (Σ _ : TraceHash, Sample) :=
  match run.pc with
  | .keys => ({ run with pc := .get r.samples.keys }, r, [])
  | .get [] => ({ run with pc := .peekTraces (run.order.arrange run.samplesCpy.keys) }, r, [])
  | .get (k :: pending) =>
    match r.samples.lookup k with
    | some v => ({ run with pc := .remove k pending, samplesCpy := run.samplesCpy.insert k v }, r, [])
    | none => ({ run with pc := .get pending }, r, [])
  | .remove k pending => ({ run with pc := .get pending }, { r with samples := r.samples.erase k }, [])
  | .peekTraces [] => ({ run with pc := .add run.samplesWoTraceinfo }, r, [])
  | .peekTraces (trace :: pending) =>
    let missing := if (r.traces.lookup trace).isNone then run.samplesWoTraceinfo ++ [trace]
      else run.samplesWoTraceinfo
    ({ run with pc := .peekTraces pending, samplesWoTraceinfo := missing }, r, [])
  | .add [] => ({ run with pc := .done }, r, run.order.arrange run.samplesCpy.entries)
  | .add (trace :: pending) =>
    let requeued := (run.samplesCpy.lookup trace).getD {}
    ({ run with pc := .add pending, samplesCpy := run.samplesCpy.erase trace },
      { r with samples := r.samples.insert trace requeued }, [])
  | .done => (run, r, [])

/-- A goroutine: a caller that makes its calls one after the other, or the report loop. -/
inductive Thread (TraceHash FileID : Type) : Type 1 where
  | counts (calls : List (CountCall TraceHash FileID))
  | frames (calls : List (FramesCall TraceHash FileID))
  | frameMetadata (calls : List (FrameMetadataCall FileID))
  | reports (runs : List (ReportRun TraceHash))

/-- What the threads share: the reporter's caches (its frames cache is `store`), and the
samples the reports handed to their encodings so far. -/
structure Shared (TraceHash FileID : Type) where
  reporter : OTLPReporter TraceHash FileID
  store : FrameStore FileID
  emitted : List (Σ _ : TraceHash, Sample) := []

/-- The next operation of a thread; a call that is done leaves its thread. `none` when the
thread has nothing left to run. -/
def Thread.step (sh : Shared TraceHash FileID) :
    Thread TraceHash FileID → Option (Thread TraceHash FileID × Shared TraceHash FileID)
  | .counts [] => none
  | .counts (c :: cs) =>
    let next := c.step sh.reporter
    some (.counts (if next.1.pc = .done then cs else next.1 :: cs), { sh with reporter := next.2 })
  | .frames [] => none
  | .frames (c :: cs) =>
    let next := c.step sh.reporter
    some (.frames (if next.1.pc = .done then cs else next.1 :: cs), { sh with reporter := next.2 })
  | .frameMetadata [] => none
  | .frameMetadata (c :: cs) =>
    let next := c.step sh.store
    some (.frameMetadata (if next.1.pc = .done then cs else next.1 :: cs),
      { sh with store := next.2 })
  | .reports [] => none
  | .reports (run :: runs) =>
    let next := run.step sh.reporter
    some (.reports (match next.1.pc with | .done => runs | _ => next.1 :: runs),
      { sh with reporter := next.2.1, emitted := sh.emitted ++ next.2.2 })

/-- A thread with no call left. -/
def Thread.idle : Thread TraceHash FileID → Bool
  | .counts calls => calls.isEmpty
  | .frames calls => calls.isEmpty
  | .frameMetadata calls => calls.isEmpty
  | .reports runs => runs.isEmpty

/-- The shared state and the threads. -/
structure World (TraceHash FileID : Type) : Type 1 where
  shared : Shared TraceHash FileID
  threads : List (Thread TraceHash FileID)

/-- Thread `i` performs its next operation. -/
def World.step (w : World TraceHash FileID) (i : Nat) : Option (World TraceHash FileID) :=
  match w.threads[i]? with
  | none => none
  | some t => (t.step w.shared).map fun next => ⟨next.2, w.threads.set i next.1⟩

/-- A schedule: the threads that go next, in turn. -/
def World.run (w : World TraceHash FileID) : List Nat → Option (World TraceHash FileID)
  | [] => some w
  | i :: schedule => (w.step i).bind fun w' => w'.run schedule

/-- Every call of every thread has completed. -/
def World.finished (w : World TraceHash FileID) : Bool :=
  w.threads.all Thread.idle

/-! ### Calls that run back to back -/

/-- A `ReportCountForTrace` call whose four operations run back to back acts as the sequential
call, and leaves its thread. -/
theorem World.run_countCall (w : World TraceHash FileID) {i : Nat}
    {c : CountCall TraceHash FileID} {cs : List (CountCall TraceHash FileID)}
    (hi : w.threads[i]? = some (.counts (c :: cs))) (hpc : c.pc = .peekTraces) :
    w.run [i, i, i, i] = some
      ⟨{ w.shared with
          reporter := reportCountForTrace w.shared.reporter c.traceHash c.timestamp c.count c.comm
            c.podName c.podNamespace c.containerName },
        w.threads.set i (.counts cs)⟩ := by
  have hlt : i < w.threads.length := (List.getElem?_eq_some_iff.mp hi).1
  simp [World.run, World.step, hi, Thread.step, CountCall.step, hpc, hlt, reportCountForTrace]

/-- A `ReportFramesForTrace` call whose two operations run back to back acts as the sequential
call, and leaves its thread. -/
theorem World.run_framesCall (w : World TraceHash FileID) {i : Nat}
    {c : FramesCall TraceHash FileID} {cs : List (FramesCall TraceHash FileID)}
    (hi : w.threads[i]? = some (.frames (c :: cs))) (hpc : c.pc = .peek) :
    w.run [i, i] = some ⟨{ w.shared with reporter := reportFramesForTrace w.shared.reporter c.trace },
      w.threads.set i (.frames cs)⟩ := by
  have hlt : i < w.threads.length := (List.getElem?_eq_some_iff.mp hi).1
  simp [World.run, World.step, hi, Thread.step, FramesCall.step, hpc, hlt, reportFramesForTrace]

/-- The store's invariant: every reference points at a map, and no two files share one. -/
structure FrameStore.WellFormed (s : FrameStore FileID) : Prop where
  ref_lt : ∀ ⦃f : FileID⦄ ⦃ref : Nat⦄, s.refs.lookup f = some ref → ref < s.maps.length
  ref_inj : ∀ ⦃f f' : FileID⦄ ⦃ref : Nat⦄, s.refs.lookup f = some ref →
    s.refs.lookup f' = some ref → f = f'

/-- After the `Add` of a new map, a file's reference is the new map's or one it had before. -/
theorem FrameStore.WellFormed.lookup_add {s : FrameStore FileID} (hwf : s.WellFormed)
    {fileID f : FileID} {ref : Nat} (h : (s.refs.insert fileID s.maps.length).lookup f = some ref) :
    f = fileID ∧ ref = s.maps.length ∨ s.refs.lookup f = some ref ∧ ref < s.maps.length := by
  by_cases hf : f = fileID
  · subst hf
    rw [AList.lookup_insert, Option.some.injEq] at h
    exact .inl ⟨rfl, h.symm⟩
  · rw [AList.lookup_insert_ne hf] at h
    exact .inr ⟨h, hwf.ref_lt h⟩

/-- The `Add` of a new map for a file keeps the store's invariant. -/
theorem FrameStore.WellFormed.add {s : FrameStore FileID} (hwf : s.WellFormed) (fileID : FileID)
    (v : Cache AddressOrLineno SourceInfo) :
    (⟨s.refs.insert fileID s.maps.length, s.maps ++ [v]⟩ : FrameStore FileID).WellFormed where
  ref_lt _ _ h := by
    rcases hwf.lookup_add h with ⟨-, rfl⟩ | ⟨-, hlt⟩ <;> simp only [List.length_append,
      List.length_singleton] <;> omega
  ref_inj _ _ _ h h' := by
    rcases hwf.lookup_add h with ⟨rfl, rfl⟩ | ⟨h, hlt⟩ <;>
      rcases hwf.lookup_add h' with ⟨rfl, hr⟩ | ⟨h', hlt'⟩
    · rfl
    · exact absurd hlt' (lt_irrefl _)
    · exact absurd hlt (hr ▸ lt_irrefl _)
    · exact hwf.ref_inj h h'

/-- Writing an entry into a file's map changes what the store holds at that address of that file
only. -/
theorem FrameStore.WellFormed.stored_write {s : FrameStore FileID} (hwf : s.WellFormed)
    {fileID : FileID} {ref : Nat} (href : s.refs.lookup fileID = some ref) (a : AddressOrLineno)
    (e : SourceInfo) (f : FileID) (a' : AddressOrLineno) :
    ({ s with maps := s.maps.set ref ((s.maps[ref]?.getD ∅).insert a e) } : FrameStore FileID).stored
        f a' = if f = fileID ∧ a' = a then some e else s.stored f a' := by
  unfold FrameStore.stored
  by_cases hf : f = fileID
  · subst hf
    have hlt := hwf.ref_lt href
    by_cases ha : a' = a
    · subst ha
      simp [href, hlt]
    · simp [href, hlt, ha, AList.lookup_insert_ne (Ne.symm ha)]
  · rw [if_neg (fun h => hf h.1)]
    cases hf' : s.refs.lookup f with
    | none => rfl
    | some ref' =>
      have hne : ref ≠ ref' := fun h => hf (hwf.ref_inj hf' (h ▸ href))
      simp [List.getElem?_set_ne hne]

/-- The `Add` of a new map for a file changes what the store holds at that file only, and there
only at the map's one address. -/
theorem FrameStore.WellFormed.stored_add {s : FrameStore FileID} (hwf : s.WellFormed)
    {fileID : FileID} (hnone : s.refs.lookup fileID = none) (a : AddressOrLineno) (e : SourceInfo)
    (f : FileID) (a' : AddressOrLineno) :
    (⟨s.refs.insert fileID s.maps.length, s.maps ++ [(∅ : Cache AddressOrLineno SourceInfo).insert a e]⟩ :
      FrameStore FileID).stored f a' = if f = fileID ∧ a' = a then some e else s.stored f a' := by
  unfold FrameStore.stored
  by_cases hf : f = fileID
  · subst hf
    by_cases ha : a' = a
    · subst ha
      simp [hnone, -AList.insert_empty]
    · simp [hnone, ha, AList.lookup_insert_ne (Ne.symm ha), -AList.insert_empty]
  · rw [if_neg (fun h => hf h.1), AList.lookup_insert_ne hf]
    cases hf' : s.refs.lookup f with
    | none => rfl
    | some ref' => simp [List.getElem?_append_left (hwf.ref_lt hf')]

omit [DecidableEq TraceHash] in
/-- A `FrameMetadata` call whose operations run back to back keeps the store's invariant, and
leaves behind the references what the sequential call leaves in a cache of values. -/
theorem FrameMetadataCall.steps_represent (c : FrameMetadataCall FileID) {s : FrameStore FileID}
    (hwf : s.WellFormed) {r : OTLPReporter TraceHash FileID}
    (hrep : ∀ f a, s.stored f a = storedSource r f a) (hpc : c.pc = .get) :
    ((c.step s).1.step (c.step s).2).1.pc = .done ∧
      ((c.step s).1.step (c.step s).2).2.WellFormed ∧
      ∀ f a, ((c.step s).1.step (c.step s).2).2.stored f a = storedSource (frameMetadata r
        c.fileID c.addressOrLine c.lineNumber c.functionOffset c.functionName c.filePath) f a := by
  obtain ⟨fileID, addressOrLine, lineNumber, functionOffset, functionName, filePath, pc⟩ := c
  subst hpc
  simp only [FrameMetadataCall.step]
  cases hlookup : s.refs.lookup fileID with
  | some ref =>
    have hknown : storedSource r fileID addressOrLine =
        (s.maps[ref]?.getD ∅).lookup addressOrLine := by
      rw [← hrep]
      simp [FrameStore.stored, hlookup, List.getElem?_eq_getElem (hwf.ref_lt hlookup)]
    refine ⟨rfl, ⟨fun f ref' h => by simpa using hwf.ref_lt h, hwf.ref_inj⟩, fun f a => ?_⟩
    dsimp only
    rw [hwf.stored_write hlookup, frameMetadata_stored, hknown, hrep]
  | none =>
    have hknown : storedSource r fileID addressOrLine = none := by
      rw [← hrep]
      simp [FrameStore.stored, hlookup]
    refine ⟨rfl, hwf.add _ _, fun f a => ?_⟩
    dsimp only
    rw [hwf.stored_add hlookup, frameMetadata_stored, hknown, sourceEntry_none, hrep]

/-! ### Calls that overlap -/

/-- A count whose `Peek` of `samples` comes before a report's drain and whose `Add` comes after
it is counted twice: the report emits the count it drained, and the `Add` puts it back. -/
theorem reportCountForTrace_getProfile_interleaved :
    let w₀ : World Nat Nat := ⟨{ reporter := startOTLP "hash", store := ⟨∅, []⟩ },
      [.counts [{ traceHash := 7, timestamp := 100, count := 1, comm := "bash", podName := "",
                  podNamespace := "", containerName := "" },
                { traceHash := 7, timestamp := 101, count := 1, comm := "bash", podName := "",
                  podNamespace := "", containerName := "" }],
       .reports [{ order := MapOrder.stored }]]⟩
    ∃ w, w₀.run [0, 0, 0, 0, 0, 0, 0, 1, 1, 1, 1, 1, 1, 1, 0] = some w ∧ w.finished ∧
      drainedCount 7 w.shared.emitted + cachedCount w.shared.reporter 7 ≠ 1 + 1 := by
  intro w₀
  obtain ⟨w, hw, hsum⟩ := Option.map_eq_some'.mp
    (show (w₀.run [0, 0, 0, 0, 0, 0, 0, 1, 1, 1, 1, 1, 1, 1, 0]).map (fun w =>
      (w.finished, drainedCount 7 w.shared.emitted + cachedCount w.shared.reporter 7)) =
        some (true, 3) by decide)
  simp only [Prod.mk.injEq] at hsum
  exact ⟨w, hw, hsum.1, by omega⟩

/-- When the two `Peek`s of `traces` come before both `Add`s, the later `Add` writes back the
entry its own `Peek` read: here the count's, and the trace's shape is lost. -/
theorem reportFramesForTrace_reportCountForTrace_interleaved :
    let w₀ : World Nat Nat := ⟨{ reporter := startOTLP "hash", store := ⟨∅, []⟩ },
      [.frames [{ trace := ⟨7, [1], [4096], [.nativeFrame]⟩ }],
       .counts [{ traceHash := 7, timestamp := 100, count := 1, comm := "bash", podName := "",
                  podNamespace := "", containerName := "" }]]⟩
    ∃ w, w₀.run [0, 1, 0, 1, 1, 1] = some w ∧ w.finished ∧
      (w.shared.reporter.traces.lookup 7).map TraceInfo.files ≠ some [1] := by
  intro w₀
  obtain ⟨w, hw, hsum⟩ := Option.map_eq_some'.mp
    (show (w₀.run [0, 1, 0, 1, 1, 1]).map (fun w =>
      (w.finished, (w.shared.reporter.traces.lookup 7).map TraceInfo.files)) =
        some (true, some []) by decide)
  simp only [Prod.mk.injEq] at hsum
  exact ⟨w, hw, hsum.1, by rw [hsum.2]; decide⟩

/-- Two `FrameMetadata` calls for one file that both miss in `Get`: the second `Add` replaces
the map the first stored, and the first address's non-empty path is gone. -/
theorem frameMetadata_interleaved :
    let w₀ : World Nat Nat := ⟨{ reporter := startOTLP "hash", store := ⟨∅, []⟩ },
      [.frameMetadata [{ fileID := 1, addressOrLine := 4096, lineNumber := 12, functionOffset := 0,
                         functionName := "main", filePath := "main.py" }],
       .frameMetadata [{ fileID := 1, addressOrLine := 8192, lineNumber := 30, functionOffset := 0,
                         functionName := "helper", filePath := "lib.py" }]]⟩
    ∃ w₁ w₂, w₀.run [0, 1, 0] = some w₁ ∧
      (w₁.shared.store.stored 1 4096).map SourceInfo.filePath = some "main.py" ∧
      w₁.run [1] = some w₂ ∧ w₂.finished ∧ w₂.shared.store.stored 1 4096 = none := by
  intro w₀
  obtain ⟨w₁, hw₁, hpath⟩ := Option.map_eq_some'.mp
    (show (w₀.run [0, 1, 0]).map (fun w =>
      ((w.shared.store.stored 1 4096).map SourceInfo.filePath, (w.run [1]).map fun w' =>
        (w'.finished, (w'.shared.store.stored 1 4096).isNone))) =
        some (some "main.py", some (true, true)) by decide)
  simp only [Prod.mk.injEq] at hpath
  obtain ⟨w₂, hw₂, hend⟩ := Option.map_eq_some'.mp hpath.2
  simp only [Prod.mk.injEq, Option.isNone_iff_eq_none] at hend
  exact ⟨w₁, w₂, hw₁, hpath.1, hw₂, hend.1, hend.2⟩

end ProfilingAgent.Reporter
