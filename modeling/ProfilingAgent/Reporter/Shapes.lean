import ProfilingAgent.Reporter.Delivery
import ProfilingAgent.Reporter.Disjoint

/-!
# Shapes over interleavings

A report's frame loop reads a trace's files and addresses at the indices of its frame types, and
panics when one is missing. When the calls' cache operations interleave, a `traces` entry can
lose the shape `ReportFramesForTrace` wrote: a `ReportCountForTrace` call that peeked the entry
before that write puts back the shape it peeked, or none. That shape is stale, but it comes from
somewhere: the entry as it was, a trace some frames call reports, or the empty shape. So every
property of shapes that those sources have and the empty shape has holds of every `traces` entry
at every point of every interleaving; readability, one file and one address per frame type, is
one, and with it a report that starts at any point returns.

The invariant is carried by the places that hold a shape: the `traces` cache, the traces of the
frames calls, and the `Peek` of each count call. The model runs a report's encoding with no
other operation in between: in Go, a `FrameMetadata` write into a file's map while the encoding
reads it is a fatal concurrent map access, which no interleaving here can show.
-/

namespace ProfilingAgent.Reporter

variable {TraceHash FileID : Type} [DecidableEq TraceHash] [DecidableEq FileID]

/-- The files, addresses and frame types of a trace. -/
abbrev Shape (FileID : Type) := List FileID × List AddressOrLineno × List FrameType

/-- The shape of a `traces` entry. -/
def TraceInfo.shape (t : TraceInfo FileID) : Shape FileID := (t.files, t.linenos, t.frameTypes)

/-- The shape of a trace the tracer reports. -/
def Trace.shape (trace : Trace TraceHash FileID) : Shape FileID :=
  (trace.files, trace.linenos, trace.frameTypes)

omit [DecidableEq TraceHash] [DecidableEq FileID] in
@[simp]
theorem shape_framesEntry (peeked : Option (TraceInfo FileID)) (trace : Trace TraceHash FileID) :
    (framesEntry peeked trace).shape = trace.shape := by
  cases peeked <;> rfl

omit [DecidableEq FileID] in
@[simp]
theorem shape_labelsEntry (peeked : Option (TraceInfo FileID))
    (comm podName podNamespace containerName : String) :
    (labelsEntry peeked comm podName podNamespace containerName).shape =
      (peeked.map TraceInfo.shape).getD ([], [], []) := by
  cases peeked <;> rfl

omit [DecidableEq FileID] in
/-- A report run writes only the sample cache. -/
theorem ReportRun.step_traces (run : ReportRun TraceHash) (r : OTLPReporter TraceHash FileID) :
    (run.step r).2.1.traces = r.traces := by
  unfold ReportRun.step
  repeat' split
  all_goals rfl

/-! ### Shapes allowed per hash -/

section ShapedBy

/- The shapes a `traces` entry of each hash may have. -/
variable (allowed : TraceHash → Shape FileID → Prop)

/-- Every `traces` entry has an allowed shape. -/
def TracesShapedBy (r : OTLPReporter TraceHash FileID) : Prop :=
  ∀ h t, r.traces.lookup h = some t → allowed h t.shape

/-- The shapes a thread holds are allowed: those its count calls peeked, and the traces its frames
calls report. -/
def Thread.ShapedBy : Thread TraceHash FileID → Prop
  | .counts calls => ∀ c ∈ calls, ∀ v, c.peekedTrace = some v → allowed c.traceHash v.shape
  | .frames calls => ∀ c ∈ calls, allowed c.trace.hash c.trace.shape
  | _ => True

/-- Every place of the world that holds a shape holds an allowed one. -/
structure World.ShapedBy (w : World TraceHash FileID) : Prop where
  traces : TracesShapedBy allowed w.shared.reporter
  threads : ∀ t ∈ w.threads, t.ShapedBy allowed

variable {allowed}

omit [DecidableEq FileID] in
theorem TracesShapedBy.insert {r : OTLPReporter TraceHash FileID} (hr : TracesShapedBy allowed r)
    {h : TraceHash} {t : TraceInfo FileID} (ht : allowed h t.shape) :
    TracesShapedBy allowed { r with traces := r.traces.insert h t } := by
  intro h' t' hl
  by_cases hh : h' = h
  · subst hh
    rw [AList.lookup_insert, Option.some.injEq] at hl
    exact hl ▸ ht
  · rw [AList.lookup_insert_ne hh] at hl
    exact hr h' t' hl

omit [DecidableEq FileID] in
theorem FramesCall.shapedBy_step {c : FramesCall TraceHash FileID}
    (hc : allowed c.trace.hash c.trace.shape) {r : OTLPReporter TraceHash FileID}
    (hr : TracesShapedBy allowed r) : TracesShapedBy allowed (c.step r).2 := by
  unfold FramesCall.step
  split
  · exact hr
  · exact hr.insert (by rw [shape_framesEntry]; exact hc)
  · exact hr

variable (hempty : ∀ h, allowed h ([], [], []))
include hempty

omit [DecidableEq FileID] in
/-- One operation of a count call: its `Peek` of `traces` reads an allowed shape, and its `Add`
writes back the shape it read, or the empty one. -/
theorem CountCall.shapedBy_step {c : CountCall TraceHash FileID}
    (hc : ∀ v, c.peekedTrace = some v → allowed c.traceHash v.shape)
    {r : OTLPReporter TraceHash FileID} (hr : TracesShapedBy allowed r) :
    (∀ v, (c.step r).1.peekedTrace = some v → allowed (c.step r).1.traceHash v.shape) ∧
      TracesShapedBy allowed (c.step r).2 := by
  unfold CountCall.step
  split
  · exact ⟨fun v hv => hr _ v hv, hr⟩
  · refine ⟨hc, hr.insert ?_⟩
    rw [shape_labelsEntry]
    cases hpeek : c.peekedTrace with
    | none => exact hempty _
    | some v => exact hc v hpeek
  all_goals exact ⟨hc, hr⟩

/-- One operation of a thread keeps every shape it touches allowed. -/
theorem Thread.ShapedBy.step {t : Thread TraceHash FileID} (ht : t.ShapedBy allowed)
    {sh : Shared TraceHash FileID} (hr : TracesShapedBy allowed sh.reporter)
    {next : Thread TraceHash FileID × Shared TraceHash FileID} (hstep : t.step sh = some next) :
    next.1.ShapedBy allowed ∧ TracesShapedBy allowed next.2.reporter := by
  cases t with
  | counts calls =>
    obtain _ | ⟨c, cs⟩ := calls
    · cases hstep
    cases hstep
    have hcs : ∀ c' ∈ cs, ∀ v, c'.peekedTrace = some v → allowed c'.traceHash v.shape :=
      fun c' h => ht c' (List.mem_cons_of_mem _ h)
    obtain ⟨hc', hr'⟩ := CountCall.shapedBy_step hempty (ht c (List.mem_cons_self _ _)) hr
    refine ⟨?_, hr'⟩
    dsimp only [Thread.ShapedBy]
    split
    · exact hcs
    · exact List.forall_mem_cons.mpr ⟨hc', hcs⟩
  | frames calls =>
    obtain _ | ⟨c, cs⟩ := calls
    · cases hstep
    cases hstep
    have hcs : ∀ c' ∈ cs, allowed c'.trace.hash c'.trace.shape :=
      fun c' h => ht c' (List.mem_cons_of_mem _ h)
    refine ⟨?_, FramesCall.shapedBy_step (ht c (List.mem_cons_self _ _)) hr⟩
    dsimp only [Thread.ShapedBy]
    split
    · exact hcs
    · refine List.forall_mem_cons.mpr ⟨?_, hcs⟩
      rw [FramesCall.step_trace]
      exact ht c (List.mem_cons_self _ _)
  | frameMetadata calls =>
    obtain _ | ⟨c, cs⟩ := calls
    · cases hstep
    cases hstep
    exact ⟨trivial, hr⟩
  | reports runs =>
    obtain _ | ⟨run, rest⟩ := runs
    · cases hstep
    cases hstep
    exact ⟨trivial, fun h t hl => hr h t (ReportRun.step_traces run sh.reporter ▸ hl)⟩

theorem World.ShapedBy.step {w w' : World TraceHash FileID} (hw : w.ShapedBy allowed) {i : Nat}
    (hstep : w.step i = some w') : w'.ShapedBy allowed := by
  unfold World.step at hstep
  split at hstep
  · cases hstep
  · next t ht =>
    obtain ⟨next, hnext, rfl⟩ := Option.map_eq_some'.mp hstep
    obtain ⟨ht', hr'⟩ := (hw.threads t (List.getElem?_mem ht)).step hempty hw.traces hnext
    exact ⟨hr', fun t' h => (List.mem_or_eq_of_mem_set h).elim (hw.threads t') (· ▸ ht')⟩

/-- Every interleaving keeps every shape allowed. -/
theorem World.ShapedBy.run :
    ∀ (schedule : List Nat) {w w' : World TraceHash FileID}, w.ShapedBy allowed →
      w.run schedule = some w' → w'.ShapedBy allowed
  | [], _, _, hw, hrun => by
    cases hrun
    exact hw
  | i :: schedule, _, _, hw, hrun => by
    obtain ⟨w₁, h₁, hrest⟩ := Option.bind_eq_some.mp hrun
    exact World.ShapedBy.run schedule (hw.step hempty h₁) hrest

end ShapedBy

/-! ### Where a shape comes from, and readable shapes -/

/-- Thread `th` holds shape `s` for hash `h`: a count call of it peeked `s` in the entry of `h`,
or a frames call of it reports a trace of hash `h` with shape `s`. -/
def Thread.HoldsShape (h : TraceHash) (s : Shape FileID) : Thread TraceHash FileID → Prop
  | .counts calls => ∃ c ∈ calls, c.traceHash = h ∧ ∃ v, c.peekedTrace = some v ∧ v.shape = s
  | .frames calls => ∃ c ∈ calls, c.trace.hash = h ∧ c.trace.shape = s
  | _ => False

/-- A shape the world holds for hash `h`: in the `traces` entry of `h`, or in one of its threads. -/
def World.ShapeSource (w : World TraceHash FileID) (h : TraceHash) (s : Shape FileID) : Prop :=
  (∃ t, w.shared.reporter.traces.lookup h = some t ∧ t.shape = s) ∨
    ∃ th ∈ w.threads, th.HoldsShape h s

omit [DecidableEq FileID] in
/-- Every shape a world holds comes from itself. -/
theorem World.shapedBy_shapeSource (w : World TraceHash FileID) :
    w.ShapedBy fun h s => s = ([], [], []) ∨ w.ShapeSource h s := by
  refine ⟨fun h t ht => .inr (.inl ⟨t, ht, rfl⟩), fun th hth => ?_⟩
  cases th with
  | counts calls => exact fun c hc v hv => .inr (.inr ⟨_, hth, c, hc, rfl, v, hv, rfl⟩)
  | frames calls => exact fun c hc => .inr (.inr ⟨_, hth, c, hc, rfl, rfl⟩)
  | frameMetadata | reports => trivial

/-- A shape the frame loop can read: one file and one address per frame type. -/
def ReadableShape (s : Shape FileID) : Prop :=
  s.1.length = s.2.2.length ∧ s.2.1.length = s.2.2.length

/-- The shapes a thread holds are readable: those its count calls peeked, and the traces its
frames calls report. -/
def Thread.Shaped (t : Thread TraceHash FileID) : Prop :=
  t.ShapedBy fun _ s => ReadableShape s

/-- Over every interleaving of the calls' cache operations, starting from caches whose traces the
frame loop can read and with every trace the tracer reports readable (as are the shapes the count
calls under way have peeked), every `traces` entry has, at every point, the empty shape or one
the world held for its hash when the run began: a stale shape, never an invented one. Every
entry stays readable, and a report whose encoding starts at that point, with no other operation
during it, returns. -/
theorem run_getProfile_returns {w w' : World TraceHash FileID} {schedule : List Nat}
    (htraces : TracesShaped w.shared.reporter) (hthreads : ∀ t ∈ w.threads, t.Shaped)
    (hrun : w.run schedule = some w') (lib : Libpf TraceHash FileID) (order : MapOrder)
    (samplesPerSecond : ℕ+) :
    (∀ h t, w'.shared.reporter.traces.lookup h = some t →
      t.shape = ([], [], []) ∨ w.ShapeSource h t.shape) ∧
    TracesShaped w'.shared.reporter ∧
      (getProfile lib order samplesPerSecond w'.shared.reporter).isSome := by
  have hsource := World.ShapedBy.run (fun _ => .inl rfl) schedule w.shapedBy_shapeSource hrun
  have hreadable : w'.ShapedBy fun _ s => ReadableShape s :=
    World.ShapedBy.run (fun _ => ⟨rfl, rfl⟩) schedule ⟨htraces, hthreads⟩ hrun
  obtain ⟨res, hres, -⟩ :=
    getProfile_forall₂_drained lib order samplesPerSecond w'.shared.reporter hreadable.traces
  exact ⟨hsource.traces, hreadable.traces, hres ▸ rfl⟩

/-- A count call peeks hash 7 before a frames call writes its trace, and puts back the shape it
peeked, none: the entry loses its frame, and a report still returns. -/
theorem run_getProfile_returns_staleShape :
    let w : World Nat Nat := ⟨{ reporter := startOTLP "hash", store := ⟨∅, []⟩ },
      [.counts [{ traceHash := 7, timestamp := 100, count := 1, comm := "app", podName := "",
                  podNamespace := "", containerName := "" }],
       .frames [{ trace := ⟨7, [1], [4096], [.nativeFrame]⟩ }]]⟩
    ∃ w', w.run [0, 1, 1, 0, 0, 0] = some w' ∧
      (w'.shared.reporter.traces.lookup 7).map TraceInfo.frameTypes = some [] ∧
      (∀ h t, w'.shared.reporter.traces.lookup h = some t →
        t.shape = ([], [], []) ∨ w.ShapeSource h t.shape) ∧
      TracesShaped w'.shared.reporter ∧
      (getProfile Libpf.decimal MapOrder.stored 20 w'.shared.reporter).isSome := by
  intro w
  have hthreads : ∀ t ∈ w.threads, t.Shaped := by
    intro t ht
    simp only [w, List.mem_cons, List.mem_singleton, List.not_mem_nil, or_false] at ht
    rcases ht with rfl | rfl <;> simp [Thread.Shaped, Thread.ShapedBy, ReadableShape, Trace.shape]
  obtain ⟨w', hw', hframes⟩ := Option.map_eq_some'.mp
    (show (w.run [0, 1, 1, 0, 0, 0]).map
      (fun w' => (w'.shared.reporter.traces.lookup 7).map TraceInfo.frameTypes) = some (some [])
      by decide)
  exact ⟨w', hw', hframes,
    run_getProfile_returns (tracesShaped_startOTLP "hash") hthreads hw' Libpf.decimal
      MapOrder.stored 20⟩

end ProfilingAgent.Reporter
