import ProfilingAgent.Reporter.Interleave

/-!
# Where a report's timestamps come from

When the calls' cache operations interleave, a report can lose a timestamp: a count call's `Add`
overwrites the sample a report put back, or the other way round. It can also hand one timestamp
to two encodings, when a count call that peeked a sample before a report removed it writes the
sample back. It never invents one. Every timestamp a report hands to its encoding for a trace
hash was reported for that hash by a count call of the run, or was cached for it when the run
began.

The proof carries one invariant over every schedule. Each place that holds timestamps holds only
timestamps allowed for its hash: the sample cache, a count call's peeked sample, a report's copy,
and the samples handed to the encodings.
-/

namespace ProfilingAgent.Reporter

variable {TraceHash FileID : Type} [DecidableEq TraceHash] [DecidableEq FileID]
  (allowed : TraceHash → UInt64 → Prop)

/-- A sample of hash `h` whose timestamps are all allowed for `h`. -/
def SampleAllowed (h : TraceHash) (s : Sample) : Prop :=
  ∀ ts ∈ s.timestamps, allowed h ts

/-- A sample cache whose samples are allowed for their hashes. -/
def CacheAllowed (c : Cache TraceHash Sample) : Prop :=
  ∀ ⦃h : TraceHash⦄ ⦃s : Sample⦄, c.lookup h = some s → SampleAllowed allowed h s

/-- A count call whose timestamp and peeked sample are allowed for its hash. -/
structure CountCall.Allowed (c : CountCall TraceHash FileID) : Prop where
  timestamp : allowed c.traceHash c.timestamp.toUInt64
  peeked : ∀ ⦃s : Sample⦄, c.peekedSample = some s → SampleAllowed allowed c.traceHash s

/-- A thread whose count calls and report runs hold only allowed timestamps. -/
def Thread.Allowed : Thread TraceHash FileID → Prop
  | .counts calls => ∀ c ∈ calls, c.Allowed allowed
  | .reports runs => ∀ run ∈ runs, CacheAllowed allowed run.samplesCpy
  | _ => True

/-- Every place of the world that holds timestamps holds only allowed ones. -/
structure World.Allowed (w : World TraceHash FileID) : Prop where
  samples : CacheAllowed allowed w.shared.reporter.samples
  emitted : ∀ e ∈ w.shared.emitted, SampleAllowed allowed e.1 e.2
  threads : ∀ t ∈ w.threads, t.Allowed allowed

variable {allowed}

theorem cacheAllowed_empty : CacheAllowed allowed (∅ : Cache TraceHash Sample) :=
  fun _ _ h => by simp at h

theorem CacheAllowed.insert {c : Cache TraceHash Sample} (hc : CacheAllowed allowed c)
    {h : TraceHash} {s : Sample} (hs : SampleAllowed allowed h s) :
    CacheAllowed allowed (c.insert h s) := by
  intro h' s' hl
  by_cases hh : h' = h
  · subst hh
    rw [AList.lookup_insert, Option.some.injEq] at hl
    exact hl ▸ hs
  · rw [AList.lookup_insert_ne hh] at hl
    exact hc hl

theorem CacheAllowed.erase {c : Cache TraceHash Sample} (hc : CacheAllowed allowed c)
    (h : TraceHash) : CacheAllowed allowed (c.erase h) := by
  intro h' s hl
  by_cases hh : h' = h
  · subst hh
    simp at hl
  · rw [AList.lookup_erase_ne hh] at hl
    exact hc hl

omit [DecidableEq TraceHash] [DecidableEq FileID] in
/-- The sample a count call writes holds what it peeked and its own timestamp. -/
theorem sampleAllowed_countEntry {c : CountCall TraceHash FileID} (hc : c.Allowed allowed) :
    SampleAllowed allowed c.traceHash (countEntry c.peekedSample c.timestamp c.count) := by
  intro ts hts
  rw [countEntry_timestamps, List.mem_append, List.mem_singleton] at hts
  rcases hts with hts | rfl
  · cases hpeek : c.peekedSample with
    | none => simp [hpeek] at hts
    | some s => exact hc.peeked hpeek ts (by simpa [hpeek] using hts)
  · exact hc.timestamp

omit [DecidableEq FileID] in
/-- One operation of a count call: its `Peek` of `samples` reads an allowed sample, and its `Add`
writes one. -/
theorem CountCall.Allowed.step {c : CountCall TraceHash FileID} (hc : c.Allowed allowed)
    {r : OTLPReporter TraceHash FileID} (hr : CacheAllowed allowed r.samples) :
    (c.step r).1.Allowed allowed ∧ CacheAllowed allowed (c.step r).2.samples := by
  unfold CountCall.step
  split
  · exact ⟨⟨hc.timestamp, hc.peeked⟩, hr⟩
  · exact ⟨⟨hc.timestamp, hc.peeked⟩, hr⟩
  · exact ⟨⟨hc.timestamp, fun _ hs => hr hs⟩, hr⟩
  · exact ⟨⟨hc.timestamp, hc.peeked⟩, hr.insert (sampleAllowed_countEntry hc)⟩
  · exact ⟨hc, hr⟩

omit [DecidableEq FileID] in
/-- One operation of a report run: the copy takes allowed samples from the cache, the requeue
puts allowed samples back, and the samples handed to the encoding come from the copy. -/
theorem ReportRun.allowed_step {run : ReportRun TraceHash}
    (hcopy : CacheAllowed allowed run.samplesCpy) {r : OTLPReporter TraceHash FileID}
    (hr : CacheAllowed allowed r.samples) :
    CacheAllowed allowed (run.step r).1.samplesCpy ∧
      CacheAllowed allowed (run.step r).2.1.samples ∧
      ∀ e ∈ (run.step r).2.2, SampleAllowed allowed e.1 e.2 := by
  have hnone : ∀ e ∈ ([] : List (Σ _ : TraceHash, Sample)), SampleAllowed allowed e.1 e.2 := nofun
  unfold ReportRun.step
  split
  · exact ⟨hcopy, hr, hnone⟩
  · exact ⟨hcopy, hr, hnone⟩
  · split
    · exact ⟨hcopy.insert (hr ‹_›), hr, hnone⟩
    · exact ⟨hcopy, hr, hnone⟩
  · exact ⟨hcopy, hr.erase _, hnone⟩
  · exact ⟨hcopy, hr, hnone⟩
  · exact ⟨hcopy, hr, hnone⟩
  · exact ⟨hcopy, hr, fun e he =>
      hcopy (AList.mem_lookup_iff.mpr ((run.order.perm _).subset he))⟩
  · next trace pending _ =>
    have hrequeued : SampleAllowed allowed trace ((run.samplesCpy.lookup trace).getD {}) := by
      cases hl : run.samplesCpy.lookup trace with
      | none => exact nofun
      | some s => exact hcopy hl
    exact ⟨hcopy.erase trace, hr.insert hrequeued, hnone⟩
  · exact ⟨hcopy, hr, hnone⟩

omit [DecidableEq FileID] in
theorem FramesCall.step_samples (c : FramesCall TraceHash FileID)
    (r : OTLPReporter TraceHash FileID) : (c.step r).2.samples = r.samples := by
  unfold FramesCall.step
  split <;> rfl

/-- One operation of a thread keeps every timestamp it touches allowed. -/
theorem Thread.Allowed.step {t : Thread TraceHash FileID} (ht : t.Allowed allowed)
    {sh : Shared TraceHash FileID} (hsamples : CacheAllowed allowed sh.reporter.samples)
    (hemitted : ∀ e ∈ sh.emitted, SampleAllowed allowed e.1 e.2)
    {next : Thread TraceHash FileID × Shared TraceHash FileID} (hstep : t.step sh = some next) :
    next.1.Allowed allowed ∧ CacheAllowed allowed next.2.reporter.samples ∧
      ∀ e ∈ next.2.emitted, SampleAllowed allowed e.1 e.2 := by
  cases t with
  | counts calls =>
    obtain _ | ⟨c, cs⟩ := calls
    · cases hstep
    cases hstep
    have hcs : ∀ c' ∈ cs, c'.Allowed allowed := fun c' h => ht c' (List.mem_cons_of_mem _ h)
    obtain ⟨hc', hr'⟩ := (ht c (List.mem_cons_self _ _)).step hsamples
    refine ⟨?_, hr', hemitted⟩
    dsimp only [Thread.Allowed]
    split
    · exact hcs
    · exact List.forall_mem_cons.mpr ⟨hc', hcs⟩
  | frames calls =>
    obtain _ | ⟨c, cs⟩ := calls
    · cases hstep
    cases hstep
    exact ⟨trivial, (FramesCall.step_samples c sh.reporter).symm ▸ hsamples, hemitted⟩
  | frameMetadata calls =>
    obtain _ | ⟨c, cs⟩ := calls
    · cases hstep
    cases hstep
    exact ⟨trivial, hsamples, hemitted⟩
  | reports runs =>
    obtain _ | ⟨run, rest⟩ := runs
    · cases hstep
    cases hstep
    have hrest : ∀ run' ∈ rest, CacheAllowed allowed run'.samplesCpy :=
      fun run' h => ht run' (List.mem_cons_of_mem _ h)
    obtain ⟨hcopy', hr', he'⟩ := ReportRun.allowed_step (ht run (List.mem_cons_self _ _)) hsamples
    refine ⟨?_, hr', fun e he => (List.mem_append.mp he).elim (hemitted e) (he' e)⟩
    dsimp only [Thread.Allowed]
    split
    · exact hrest
    · exact List.forall_mem_cons.mpr ⟨hcopy', hrest⟩

theorem World.Allowed.step {w w' : World TraceHash FileID} (hw : w.Allowed allowed) {i : Nat}
    (hstep : w.step i = some w') : w'.Allowed allowed := by
  unfold World.step at hstep
  split at hstep
  · cases hstep
  · next t ht =>
    obtain ⟨next, hnext, rfl⟩ := Option.map_eq_some'.mp hstep
    obtain ⟨ht', hs', he'⟩ := (hw.threads t (List.getElem?_mem ht)).step hw.samples hw.emitted hnext
    exact ⟨hs', he', fun t' h => (List.mem_or_eq_of_mem_set h).elim (hw.threads t') (· ▸ ht')⟩

theorem World.Allowed.run :
    ∀ (schedule : List Nat) {w w' : World TraceHash FileID}, w.Allowed allowed →
      w.run schedule = some w' → w'.Allowed allowed
  | [], _, _, hw, hrun => by
    cases hrun
    exact hw
  | i :: schedule, _, _, hw, hrun => by
    obtain ⟨w₁, h₁, hrest⟩ := Option.bind_eq_some.mp hrun
    exact World.Allowed.run schedule (hw.step h₁) hrest

/-! ### Runs from a world at rest -/

/-- The count calls a thread has still to make. -/
def Thread.countCalls : Thread TraceHash FileID → List (CountCall TraceHash FileID)
  | .counts calls => calls
  | _ => []

/-- The report runs a thread has still to make. -/
def Thread.reportRuns : Thread TraceHash FileID → List (ReportRun TraceHash)
  | .reports runs => runs
  | _ => []

/-- In any interleaving of the cache operations of the calls, starting with no count call past
its `Peek` of `samples`, no report under way and nothing emitted yet, every timestamp a report
hands to its encoding for a trace hash was cached for that hash at the start, or is the timestamp
of a count call for that hash. -/
theorem run_emitted_reported {w w' : World TraceHash FileID} {schedule : List Nat}
    (hcounts : ∀ t ∈ w.threads, ∀ c ∈ t.countCalls, c.peekedSample = none)
    (hreports : ∀ t ∈ w.threads, ∀ run ∈ t.reportRuns, run.samplesCpy = ∅)
    (hemitted : w.shared.emitted = []) (hrun : w.run schedule = some w') :
    ∀ e ∈ w'.shared.emitted, ∀ ts ∈ e.2.timestamps,
      ts ∈ cachedTimestamps w.shared.reporter e.1 ∨
        ∃ t ∈ w.threads, ∃ c ∈ t.countCalls, c.traceHash = e.1 ∧ c.timestamp.toUInt64 = ts := by
  have hstart : w.Allowed fun h ts => ts ∈ cachedTimestamps w.shared.reporter h ∨
      ∃ t ∈ w.threads, ∃ c ∈ t.countCalls, c.traceHash = h ∧ c.timestamp.toUInt64 = ts := by
    refine ⟨fun h s hl ts hts => .inl ?_, by simp [hemitted], fun t ht => ?_⟩
    · simpa [cachedTimestamps, hl] using hts
    cases t with
    | counts calls =>
      exact fun c hc => ⟨.inr ⟨_, ht, c, hc, rfl, rfl⟩,
        fun s hs => nomatch (hcounts _ ht c hc).symm.trans hs⟩
    | reports runs =>
      intro run hrun
      rw [hreports _ ht run hrun]
      exact cacheAllowed_empty
    | frames => trivial
    | frameMetadata => trivial
  exact (World.Allowed.run schedule hstart hrun).emitted

theorem run_emitted_reported_interleaved :
    let w₀ : World Nat Nat := ⟨{ reporter := startOTLP "hash", store := ⟨∅, []⟩ },
      [.counts [{ traceHash := 7, timestamp := 100, count := 1, comm := "bash", podName := "",
                  podNamespace := "", containerName := "" },
                { traceHash := 7, timestamp := 101, count := 1, comm := "bash", podName := "",
                  podNamespace := "", containerName := "" }],
       .reports [{ order := MapOrder.stored }]]⟩
    ∃ w, w₀.run [0, 0, 0, 0, 0, 0, 0, 1, 1, 1, 1, 1, 1, 1, 0] = some w ∧ w.shared.emitted ≠ [] ∧
      ∀ e ∈ w.shared.emitted, ∀ ts ∈ e.2.timestamps,
        ts ∈ cachedTimestamps w₀.shared.reporter e.1 ∨
          ∃ t ∈ w₀.threads, ∃ c ∈ t.countCalls, c.traceHash = e.1 ∧ c.timestamp.toUInt64 = ts := by
  intro w₀
  obtain ⟨w, hw, hne⟩ := Option.map_eq_some'.mp
    (show (w₀.run [0, 0, 0, 0, 0, 0, 0, 1, 1, 1, 1, 1, 1, 1, 0]).map
      (fun w => w.shared.emitted.isEmpty) = some false by decide)
  exact ⟨w, hw, fun h => by simp [h] at hne, run_emitted_reported (by decide)
    (by simp [w₀, Thread.reportRuns]) rfl hw⟩

end ProfilingAgent.Reporter
