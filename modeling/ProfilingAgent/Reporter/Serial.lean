import ProfilingAgent.Reporter.Interleave

/-!
# Serial schedules

The interleaved model of `Interleave` splits each call into its cache operations. When a
schedule runs the operations of one call after another, with nothing between them, the model does
what the sequential calls of `State` and `GetProfile` do. For a count or a frames call this is
`World.run_countCall` and `World.run_framesCall`. For a report it is proved here loop by loop:
the drain, the scan for missing trace information, and the requeue leave the sample cache
`drainedSamples` leaves and hand its samples to the encoding. So every sequential run of these
calls is one of the interleaved runs, and what the interleavings add to it comes from overlap
alone.
-/

namespace ProfilingAgent.Reporter

variable {TraceHash FileID : Type} [DecidableEq TraceHash] [DecidableEq FileID]

theorem set_eq_self_of_getElem? {α : Type*} {l : List α} {i : Nat} {a : α} (h : l[i]? = some a) :
    l.set i a = l := by
  refine List.ext_getElem? fun j => ?_
  rw [List.getElem?_set]
  split
  · subst_vars
    rw [if_pos (List.getElem?_eq_some_iff.mp h).1, h]
  · rfl

namespace World

theorem run_append (w : World TraceHash FileID) (schedule schedule' : List Nat) :
    w.run (schedule ++ schedule') = (w.run schedule).bind fun w' => w'.run schedule' := by
  induction schedule generalizing w with
  | nil => rfl
  | cons i schedule ih =>
    simp only [List.cons_append, World.run, Option.bind_assoc]
    congr 1
    funext w'
    exact ih w'

theorem run_replicate_succ (w : World TraceHash FileID) (n i : Nat) :
    w.run (List.replicate (n + 1) i) = (w.step i).bind fun w' => w'.run (List.replicate n i) :=
  rfl

theorem run_replicate_add (w : World TraceHash FileID) (m n i : Nat) :
    w.run (List.replicate (m + n) i) =
      (w.run (List.replicate m i)).bind fun w' => w'.run (List.replicate n i) := by
  rw [List.replicate_add, run_append]

variable (w : World TraceHash FileID) (i : Nat) (runs : List (ReportRun TraceHash))

/-- `w` with thread `i` a report thread at `run`, the caches `reporter` and the samples
`emitted`. -/
def atReport (run : ReportRun TraceHash) (reporter : OTLPReporter TraceHash FileID)
    (emitted : List (Σ _ : TraceHash, Sample)) : World TraceHash FileID :=
  ⟨{ w.shared with reporter, emitted }, w.threads.set i (.reports (run :: runs))⟩

variable {w i}

theorem run_replicate_one {w w' : World TraceHash FileID} (h : w.step i = some w') :
    w.run (List.replicate 1 i) = some w' := by
  rw [List.replicate_one, World.run, h, Option.some_bind]
  rfl

theorem run_replicate_trans {w w' w'' : World TraceHash FileID} {m n : Nat}
    (h : w.run (List.replicate m i) = some w') (h' : w'.run (List.replicate n i) = some w'') :
    w.run (List.replicate (m + n) i) = some w'' := by
  rw [run_replicate_add, h, Option.some_bind, h']

/-- A report operation that emits nothing and does not end the run. -/
theorem atReport_step (hi : i < w.threads.length) {run run' : ReportRun TraceHash}
    {reporter reporter' : OTLPReporter TraceHash FileID} {emitted : List (Σ _ : TraceHash, Sample)}
    (hstep : run.step reporter = (run', reporter', [])) (hpc : run'.pc ≠ .done) :
    (w.atReport i runs run reporter emitted).step i =
      some (w.atReport i runs run' reporter' emitted) := by
  have hthread : (match run'.pc with
      | .done => runs
      | _ => run' :: runs) = run' :: runs := by
    split
    · exact absurd ‹_› hpc
    · rfl
  simp only [World.step, atReport, List.getElem?_set_self hi, Thread.step, hstep, hthread,
    List.append_nil, List.set_set, Option.map_some']

/-- The drain loop: one `Get`, and a `Remove` when it finds the sample, for each key `Keys`
returned, as `drainSamples` does them. -/
theorem atReport_get (hi : i < w.threads.length) :
    ∀ (pending : List TraceHash) (run : ReportRun TraceHash)
      (reporter : OTLPReporter TraceHash FileID) (emitted : List (Σ _ : TraceHash, Sample)),
      run.pc = .get pending →
      ∃ n, (w.atReport i runs run reporter emitted).run (List.replicate n i) =
        some (w.atReport i runs
          { run with pc := .get [],
                     samplesCpy := (pending.foldl drainKey (reporter.samples, run.samplesCpy)).2 }
          { reporter with
            samples := (pending.foldl drainKey (reporter.samples, run.samplesCpy)).1 } emitted)
  | [], run, reporter, emitted, hpc => ⟨0, by rw [← hpc]; rfl⟩
  | k :: pending, run, reporter, emitted, hpc => by
    cases hk : reporter.samples.lookup k with
    | none =>
      have hstep : run.step reporter = ({ run with pc := .get pending }, reporter, []) := by
        simp only [ReportRun.step, hpc, hk]
      obtain ⟨n, hn⟩ := atReport_get hi pending { run with pc := .get pending } reporter emitted rfl
      refine ⟨n + 1, ?_⟩
      rw [run_replicate_succ, atReport_step runs hi hstep nofun, Option.some_bind]
      simpa [drainKey, hk] using hn
    | some v =>
      have hstep₁ : run.step reporter =
          ({ run with pc := .remove k pending, samplesCpy := run.samplesCpy.insert k v },
            reporter, []) := by
        simp only [ReportRun.step, hpc, hk]
      have hstep₂ : ReportRun.step
            { run with pc := .remove k pending, samplesCpy := run.samplesCpy.insert k v } reporter =
          ({ run with pc := .get pending, samplesCpy := run.samplesCpy.insert k v },
            { reporter with samples := reporter.samples.erase k }, []) := rfl
      obtain ⟨n, hn⟩ := atReport_get hi pending
        { run with pc := .get pending, samplesCpy := run.samplesCpy.insert k v }
        { reporter with samples := reporter.samples.erase k } emitted rfl
      refine ⟨n + 2, ?_⟩
      rw [run_replicate_succ, atReport_step runs hi hstep₁ nofun, Option.some_bind,
        run_replicate_succ, atReport_step runs hi hstep₂ nofun, Option.some_bind]
      simpa [drainKey, hk] using hn

/-- The scan for missing trace information: one `Peek` of `traces` for each hash of the copy,
collecting those without an entry, as `samplesWoTraceinfo` does. -/
theorem atReport_peekTraces (hi : i < w.threads.length) :
    ∀ (pending : List TraceHash) (run : ReportRun TraceHash)
      (reporter : OTLPReporter TraceHash FileID) (emitted : List (Σ _ : TraceHash, Sample)),
      run.pc = .peekTraces pending →
      ∃ n, (w.atReport i runs run reporter emitted).run (List.replicate n i) =
        some (w.atReport i runs
          { run with pc := .peekTraces [],
                     samplesWoTraceinfo := run.samplesWoTraceinfo ++
                       pending.filter fun trace => (reporter.traces.lookup trace).isNone }
          reporter emitted)
  | [], run, reporter, emitted, hpc => ⟨0, by rw [List.filter_nil, List.append_nil, ← hpc]; rfl⟩
  | trace :: pending, run, reporter, emitted, hpc => by
    let missing := if (reporter.traces.lookup trace).isNone then run.samplesWoTraceinfo ++ [trace]
      else run.samplesWoTraceinfo
    have hstep : run.step reporter =
        ({ run with pc := .peekTraces pending, samplesWoTraceinfo := missing }, reporter, []) := by
      simp only [ReportRun.step, hpc]
    obtain ⟨n, hn⟩ := atReport_peekTraces hi pending
      { run with pc := .peekTraces pending, samplesWoTraceinfo := missing } reporter emitted rfl
    refine ⟨n + 1, ?_⟩
    rw [run_replicate_succ, atReport_step runs hi hstep nofun, Option.some_bind, hn]
    congr 3
    simp only [missing, List.filter_cons]
    split <;> simp

/-- The requeue: for each hash without trace information, an `Add` of the copy's sample back into
the cache, as `requeueSamples` does them. -/
theorem atReport_add (hi : i < w.threads.length) :
    ∀ (pending : List TraceHash) (run : ReportRun TraceHash)
      (reporter : OTLPReporter TraceHash FileID) (emitted : List (Σ _ : TraceHash, Sample)),
      run.pc = .add pending →
      ∃ n, (w.atReport i runs run reporter emitted).run (List.replicate n i) =
        some (w.atReport i runs
          { run with pc := .add [],
                     samplesCpy := (pending.foldl requeueKey (reporter.samples, run.samplesCpy)).2 }
          { reporter with
            samples := (pending.foldl requeueKey (reporter.samples, run.samplesCpy)).1 } emitted)
  | [], run, reporter, emitted, hpc => ⟨0, by rw [← hpc]; rfl⟩
  | trace :: pending, run, reporter, emitted, hpc => by
    have hstep : run.step reporter =
        ({ run with pc := .add pending, samplesCpy := run.samplesCpy.erase trace },
          { reporter with
            samples := reporter.samples.insert trace ((run.samplesCpy.lookup trace).getD {}) },
          []) := by
      simp only [ReportRun.step, hpc]
    obtain ⟨n, hn⟩ := atReport_add hi pending
      { run with pc := .add pending, samplesCpy := run.samplesCpy.erase trace }
      { reporter with
        samples := reporter.samples.insert trace ((run.samplesCpy.lookup trace).getD {}) }
      emitted rfl
    refine ⟨n + 1, ?_⟩
    rw [run_replicate_succ, atReport_step runs hi hstep nofun, Option.some_bind, hn]
    rfl

/-- The last operation of a report: it hands the copy to the encoding and leaves its thread. -/
theorem atReport_done (hi : i < w.threads.length) {run : ReportRun TraceHash}
    {reporter : OTLPReporter TraceHash FileID} {emitted : List (Σ _ : TraceHash, Sample)}
    (hpc : run.pc = .add []) :
    (w.atReport i runs run reporter emitted).step i = some
      ⟨{ w.shared with reporter, emitted := emitted ++ run.order.arrange run.samplesCpy.entries },
        w.threads.set i (.reports runs)⟩ := by
  simp only [World.step, atReport, List.getElem?_set_self hi, Thread.step, ReportRun.step, hpc,
    List.set_set, Option.map_some']

/-- A report whose operations run back to back, with nothing between them, leaves the sample
cache that `drainedSamples` leaves and hands the encoding the samples `drainedSamples` returns,
in the same order; then it leaves its thread. -/
theorem run_reportRun {w : World TraceHash FileID} {i : Nat} {run : ReportRun TraceHash}
    {runs : List (ReportRun TraceHash)} (hthread : w.threads[i]? = some (.reports (run :: runs)))
    (hpc : run.pc = .keys) (hcopy : run.samplesCpy = ∅) (hmissing : run.samplesWoTraceinfo = []) :
    ∃ n, w.run (List.replicate n i) = some
      ⟨{ w.shared with
          reporter := { w.shared.reporter with
            samples := (drainedSamples run.order w.shared.reporter).1 }
          emitted := w.shared.emitted ++ (drainedSamples run.order w.shared.reporter).2 },
        w.threads.set i (.reports runs)⟩ := by
  obtain ⟨order, pc, cpy, wo⟩ := run
  dsimp only at hpc hcopy hmissing
  subst hpc hcopy hmissing
  have hi : i < w.threads.length := (List.getElem?_eq_some_iff.mp hthread).1
  set r := w.shared.reporter
  set emitted := w.shared.emitted
  suffices hrun : ∃ n, (w.atReport i runs ⟨order, .keys, ∅, []⟩ r emitted).run
      (List.replicate n i) = some
        ⟨{ w.shared with
            reporter := { r with samples := (drainedSamples order r).1 }
            emitted := emitted ++ (drainedSamples order r).2 },
          w.threads.set i (.reports runs)⟩ by
    rwa [atReport, set_eq_self_of_getElem? hthread] at hrun
  -- the drain
  obtain ⟨n₁, h₁⟩ := atReport_get runs hi r.samples.keys ⟨order, .get r.samples.keys, ∅, []⟩ r
    emitted rfl
  set drained := r.samples.keys.foldl drainKey (r.samples, ∅)
  -- the scan for missing trace information
  set scanned := order.arrange drained.2.keys
  obtain ⟨n₂, h₂⟩ := atReport_peekTraces runs hi scanned ⟨order, .peekTraces scanned, drained.2, []⟩
    { r with samples := drained.1 } emitted rfl
  -- the requeue
  set missing := samplesWoTraceinfo order r.traces drained.2
  obtain ⟨n₃, h₃⟩ := atReport_add runs hi missing ⟨order, .add missing, drained.2, missing⟩
    { r with samples := drained.1 } emitted rfl
  -- and the steps between them
  exact ⟨_, run_replicate_trans (run_replicate_trans (run_replicate_trans (run_replicate_trans
    (run_replicate_trans (run_replicate_trans (run_replicate_one (atReport_step runs hi rfl nofun))
      h₁) (run_replicate_one (atReport_step runs hi rfl nofun))) h₂)
        (run_replicate_one (atReport_step runs hi rfl nofun))) h₃)
          (run_replicate_one (atReport_done runs hi rfl))⟩

/-- A `FrameMetadata` call whose two operations run back to back: the `Get`, then the write into
the map it found or the `Add` of a new one. -/
theorem run_frameMetadataCall {w : World TraceHash FileID} {i : Nat} {c : FrameMetadataCall FileID}
    {cs : List (FrameMetadataCall FileID)} (hthread : w.threads[i]? = some (.frameMetadata (c :: cs)))
    (hpc : c.pc = .get) :
    w.run [i, i] = some
      ⟨{ w.shared with store := ((c.step w.shared.store).1.step (c.step w.shared.store).2).2 },
        w.threads.set i (.frameMetadata cs)⟩ := by
  have hi : i < w.threads.length := (List.getElem?_eq_some_iff.mp hthread).1
  obtain ⟨fileID, addressOrLine, lineNumber, functionOffset, functionName, filePath, pc⟩ := c
  subst hpc
  cases hlookup : w.shared.store.refs.lookup fileID with
  | none => simp [World.run, World.step, hthread, Thread.step, FrameMetadataCall.step, hlookup, hi]
  | some ref =>
    simp [World.run, World.step, hthread, Thread.step, FrameMetadataCall.step, hlookup, hi]
    rw [hlookup]

end World

/-- The shared state of the interleaved model stands for a reporter of the sequential model: the
same caches but the frames cache, which the store holds instead, as references into maps. -/
structure Shared.Represents (sh : Shared TraceHash FileID) (r : OTLPReporter TraceHash FileID) :
    Prop where
  caches : { sh.reporter with frames := ∅ } = { r with frames := ∅ }
  wellFormed : sh.store.WellFormed
  stored : ∀ f a, sh.store.stored f a = storedSource r f a

omit [DecidableEq TraceHash] in
/-- A call that writes the caches but the frames cache, done on the reporter of the shared
state, is the same call done on the reporter it stands for. -/
theorem Shared.Represents.reporter {sh : Shared TraceHash FileID} {r : OTLPReporter TraceHash FileID}
    (hrep : sh.Represents r) (f : OTLPReporter TraceHash FileID → OTLPReporter TraceHash FileID)
    (hcaches : ∀ r, { f r with frames := ∅ } = f { r with frames := ∅ })
    (hframes : ∀ r, (f r).frames = r.frames) (emitted : List (Σ _ : TraceHash, Sample)) :
    Shared.Represents { sh with reporter := f sh.reporter, emitted } (f r) where
  caches := by rw [hcaches, hcaches, hrep.caches]
  wellFormed := hrep.wellFormed
  stored f' a := by rw [hrep.stored, storedSource, storedSource, hframes]

omit [DecidableEq TraceHash] in
theorem frameMetadata_caches (r : OTLPReporter TraceHash FileID) (fileID : FileID)
    (addressOrLine : AddressOrLineno) (lineNumber : SourceLineno) (functionOffset : UInt32)
    (functionName filePath : String) :
    { frameMetadata r fileID addressOrLine lineNumber functionOffset functionName filePath with
      frames := ∅ } = { r with frames := ∅ } := by
  unfold frameMetadata
  split <;> rfl

/-- The thread that makes one call, for the calls the interleaved model splits into cache
operations. -/
def Call.thread : Call TraceHash FileID → Option (Thread TraceHash FileID)
  | .reportFramesForTrace trace => some (.frames [{ trace }])
  | .reportCountForTrace traceHash timestamp count comm podName podNamespace containerName =>
    some (.counts [{ traceHash, timestamp, count, comm, podName, podNamespace, containerName }])
  | .frameMetadata fileID addressOrLine lineNumber functionOffset functionName filePath =>
    some (.frameMetadata
      [{ fileID, addressOrLine, lineNumber, functionOffset, functionName, filePath }])
  | .report order => some (.reports [{ order }])
  | .reportFallbackSymbol .. | .executableMetadata .. | .reportHostMetadata .. => none

/-- A call whose operations run back to back, with nothing between them, acts as the sequential
call on the reporter the shared state stands for, and leaves its thread idle. -/
theorem World.run_call {w : World TraceHash FileID} {i : Nat} {r : OTLPReporter TraceHash FileID}
    {call : Call TraceHash FileID} {t : Thread TraceHash FileID} (hcall : call.thread = some t)
    (hthread : w.threads[i]? = some t) (hrep : w.shared.Represents r) :
    ∃ schedule sh' t', w.run schedule = some ⟨sh', w.threads.set i t'⟩ ∧ t'.idle ∧
      sh'.Represents (call.apply r).1 ∧ sh'.emitted = w.shared.emitted ++ (call.apply r).2 := by
  cases call with
  | reportFramesForTrace trace =>
    cases hcall
    exact ⟨_, _, _, w.run_framesCall hthread rfl, rfl,
      hrep.reporter (reportFramesForTrace · trace) (fun _ => rfl) (fun _ => rfl) _,
      (List.append_nil _).symm⟩
  | reportCountForTrace traceHash timestamp count comm podName podNamespace containerName =>
    cases hcall
    exact ⟨_, _, _, w.run_countCall hthread rfl, rfl,
      hrep.reporter (reportCountForTrace · traceHash timestamp count comm podName podNamespace
        containerName) (fun _ => rfl) (fun _ => rfl) _, (List.append_nil _).symm⟩
  | frameMetadata fileID addressOrLine lineNumber functionOffset functionName filePath =>
    cases hcall
    obtain ⟨-, hwf, hstored⟩ := FrameMetadataCall.steps_represent
      { fileID, addressOrLine, lineNumber, functionOffset, functionName, filePath }
      hrep.wellFormed hrep.stored rfl
    refine ⟨_, _, _, World.run_frameMetadataCall hthread rfl, rfl,
      ⟨?_, hwf, hstored⟩, (List.append_nil _).symm⟩
    rw [Call.apply, frameMetadata_caches]
    exact hrep.caches
  | report order =>
    cases hcall
    obtain ⟨n, hn⟩ := World.run_reportRun hthread rfl rfl rfl
    have hdrained : drainedSamples order w.shared.reporter = drainedSamples order r := by
      have h := congrArg (drainedSamples order) hrep.caches
      exact h
    refine ⟨_, _, _, hn, rfl, ?_, by rw [hdrained]; rfl⟩
    exact hrep.reporter (fun r => { r with samples := (drainedSamples order r).1 })
      (fun _ => rfl) (fun _ => rfl) _
  | reportFallbackSymbol | executableMetadata | reportHostMetadata => cases hcall

/-- Calls made one after another by threads of their own, each run to its end before the next
starts, act as the sequential run of the calls. -/
theorem World.run_calls {calls : List (Call TraceHash FileID)} {threads : List (Thread TraceHash FileID)}
    (hcalls : List.Forall₂ (fun call t => call.thread = some t) calls threads) :
    ∀ (pre : List (Thread TraceHash FileID)) (sh : Shared TraceHash FileID)
      (r : OTLPReporter TraceHash FileID), (∀ t ∈ pre, t.idle) → sh.Represents r →
      ∃ schedule w', World.run ⟨sh, pre ++ threads⟩ schedule = some w' ∧ w'.finished ∧
        w'.shared.Represents (Reporter.run r calls).1 ∧
          w'.shared.emitted = sh.emitted ++ (Reporter.run r calls).2 := by
  induction hcalls with
  | nil =>
    intro pre sh r hpre hrep
    exact ⟨[], _, rfl, by simpa [World.finished] using hpre, hrep, (List.append_nil _).symm⟩
  | @cons call t calls threads hcall _ ih =>
    intro pre sh r hpre hrep
    obtain ⟨schedule, sh', t', hrun, hidle, hrep', hemitted⟩ :=
      World.run_call (w := ⟨sh, pre ++ t :: threads⟩) (i := pre.length) hcall
        (by rw [List.getElem?_append_right le_rfl, Nat.sub_self, List.getElem?_cons_zero]) hrep
    obtain ⟨schedule', w', hrun', hfinished, hrep'', hemitted'⟩ := ih (pre ++ [t']) sh' _
      (fun t ht => by rcases List.mem_append.mp ht with ht | ht <;> simp_all) hrep'
    refine ⟨schedule ++ schedule', w', ?_, hfinished, hrep'', ?_⟩
    · rw [World.run_append, hrun, Option.some_bind, ← hrun']
      simp
    · rw [hemitted', hemitted, Reporter.run, List.append_assoc]

omit [DecidableEq TraceHash] in
/-- The caches `StartOTLP` builds, with an empty store. -/
theorem Shared.represents_startOTLP (otlpBuildIDMode : String) :
    Shared.Represents ⟨startOTLP otlpBuildIDMode, ⟨∅, []⟩, []⟩
      (startOTLP otlpBuildIDMode : OTLPReporter TraceHash FileID) where
  caches := rfl
  wellFormed := ⟨fun _ _ h => by simp at h, fun _ _ _ h => by simp at h⟩
  stored _ _ := by simp [FrameStore.stored, storedSource, startOTLP]

/-- Every sequential run of the calls the interleaved model splits into operations is one of its
interleaved runs: with one thread per call, and each call run to its end before the next starts,
every thread finishes, the caches are those of the sequential run (the frames cache through the
store), and the encodings receive exactly the samples its reports drained, in the same order. -/
theorem run_serialSchedule {sh : Shared TraceHash FileID} {r : OTLPReporter TraceHash FileID}
    (hrep : sh.Represents r) {calls : List (Call TraceHash FileID)}
    {threads : List (Thread TraceHash FileID)} (hcalls : calls.mapM Call.thread = some threads) :
    ∃ schedule w', World.run ⟨sh, threads⟩ schedule = some w' ∧ w'.finished ∧
      w'.shared.Represents (run r calls).1 ∧ w'.shared.emitted = sh.emitted ++ (run r calls).2 :=
  World.run_calls (mapM_eq_some_iff_forall₂.mp hcalls) [] sh r (fun _ => nofun) hrep

theorem run_serialSchedule_fourCalls :
    let calls : List (Call Nat Nat) :=
      [.reportFramesForTrace ⟨7, [1], [4096], [.nativeFrame]⟩,
       .reportCountForTrace 7 100 1 "bash" "" "" "",
       .frameMetadata 1 4096 12 0 "main" "main.py",
       .report .stored]
    ∃ threads, calls.mapM Call.thread = some threads ∧
      ∃ schedule w', World.run ⟨⟨startOTLP "hash", ⟨∅, []⟩, []⟩, threads⟩ schedule = some w' ∧
        w'.finished ∧ w'.shared.Represents (run (startOTLP "hash") calls).1 ∧
        w'.shared.emitted = [] ++ (run (startOTLP "hash") calls).2 := by
  intro calls
  exact ⟨_, rfl, run_serialSchedule (Shared.represents_startOTLP "hash") rfl⟩

end ProfilingAgent.Reporter
