import ProfilingAgent.Reporter.Interleave

/-!
# Calls on disjoint trace hashes

The races between `ReportFramesForTrace` and `ReportCountForTrace` calls are all on one trace
hash: two calls whose `Peek` and `Add` of the same entry overlap. Each operation of these calls
reads and writes the entries of its own hash only. So when no two threads make calls for the same hash, and
no report runs, every interleaving that completes the calls leaves every `traces` and `samples`
entry as the sequential calls leave it, thread after thread.

The proof reads the world one hash at a time. For each hash it carries what the calls still to
run will do to its entries when nothing else writes them (`World.entryAfter`), and shows that a
step of any thread leaves this unchanged: the entries a call has peeked are still those of the
cache, since no other thread writes its hash.
-/

namespace ProfilingAgent.Reporter

variable {TraceHash FileID : Type} [DecidableEq TraceHash]

/-- The `traces` and `samples` entries of a trace hash. -/
def OTLPReporter.entry (r : OTLPReporter TraceHash FileID) (h : TraceHash) :
    Option (TraceInfo FileID) × Option Sample :=
  (r.traces.lookup h, r.samples.lookup h)

theorem reportFramesForTrace_entry (r : OTLPReporter TraceHash FileID)
    (trace : Trace TraceHash FileID) (h : TraceHash) :
    (reportFramesForTrace r trace).entry h = if trace.hash = h then
      (some (framesEntry (r.traces.lookup h) trace), r.samples.lookup h) else r.entry h := by
  unfold OTLPReporter.entry reportFramesForTrace
  split_ifs with hh
  · subst hh
    rw [AList.lookup_insert]
  · rw [AList.lookup_insert_ne (Ne.symm hh)]

theorem reportCountForTrace_entry (r : OTLPReporter TraceHash FileID) (traceHash : TraceHash)
    (timestamp : UInt32) (count : UInt16) (comm podName podNamespace containerName : String)
    (h : TraceHash) :
    (reportCountForTrace r traceHash timestamp count comm podName podNamespace containerName).entry
      h = if traceHash = h then
        (some (labelsEntry (r.traces.lookup h) comm podName podNamespace containerName),
          some (countEntry (r.samples.lookup h) timestamp count)) else r.entry h := by
  unfold OTLPReporter.entry reportCountForTrace
  split_ifs with hh
  · subst hh
    simp only [AList.lookup_insert]
  · simp only [AList.lookup_insert_ne (Ne.symm hh)]

/-! ### What the calls still to run do to one hash -/

/-- What the rest of a count call does to the entries of `h` when nothing else writes them. -/
def CountCall.entryAfter (c : CountCall TraceHash FileID) (h : TraceHash)
    (e : Option (TraceInfo FileID) × Option Sample) : Option (TraceInfo FileID) × Option Sample :=
  if c.traceHash = h then
    match c.pc with
    | .peekTraces | .addTraces =>
      (some (labelsEntry e.1 c.comm c.podName c.podNamespace c.containerName),
        some (countEntry e.2 c.timestamp c.count))
    | .peekSamples | .addSamples => (e.1, some (countEntry e.2 c.timestamp c.count))
    | .done => e
  else e

/-- What the rest of a frames call does to the entries of `h` when nothing else writes them. -/
def FramesCall.entryAfter (c : FramesCall TraceHash FileID) (h : TraceHash)
    (e : Option (TraceInfo FileID) × Option Sample) : Option (TraceInfo FileID) × Option Sample :=
  if c.trace.hash = h then
    match c.pc with
    | .peek | .add => (some (framesEntry e.1 c.trace), e.2)
    | .done => e
  else e

/-- What the calls a thread has still to make do to the entries of `h` when nothing else writes
them. `FrameMetadata` writes no such entry; a report thread is taken to have nothing left. -/
def Thread.entryAfter (h : TraceHash) :
    Thread TraceHash FileID → Option (TraceInfo FileID) × Option Sample →
      Option (TraceInfo FileID) × Option Sample
  | .counts calls, e => calls.foldl (fun e c => c.entryAfter h e) e
  | .frames calls, e => calls.foldl (fun e c => c.entryAfter h e) e
  | _, e => e

/-- The hashes a thread makes calls for. -/
def Thread.hashes : Thread TraceHash FileID → List TraceHash
  | .counts calls => calls.map CountCall.traceHash
  | .frames calls => calls.map (·.trace.hash)
  | _ => []

/-- What the calls of every thread will do to the entries of `h`, from those of the cache. -/
def World.entryAfter (w : World TraceHash FileID) (h : TraceHash) :
    Option (TraceInfo FileID) × Option Sample :=
  w.threads.foldl (fun e t => t.entryAfter h e) (w.shared.reporter.entry h)

theorem CountCall.entryAfter_of_ne {c : CountCall TraceHash FileID} {h : TraceHash}
    (hne : c.traceHash ≠ h) (e : Option (TraceInfo FileID) × Option Sample) :
    c.entryAfter h e = e :=
  if_neg hne

theorem FramesCall.entryAfter_of_ne {c : FramesCall TraceHash FileID} {h : TraceHash}
    (hne : c.trace.hash ≠ h) (e : Option (TraceInfo FileID) × Option Sample) :
    c.entryAfter h e = e :=
  if_neg hne

/-- A thread with no call for `h` leaves its entries alone. -/
theorem Thread.entryAfter_of_not_mem {t : Thread TraceHash FileID} {h : TraceHash}
    (hh : h ∉ t.hashes) (e : Option (TraceInfo FileID) × Option Sample) : t.entryAfter h e = e := by
  cases t with
  | counts calls =>
    induction calls generalizing e with
    | nil => rfl
    | cons c cs ih =>
      simp only [Thread.hashes, List.map_cons, List.mem_cons, not_or] at hh
      exact (congrArg _ (CountCall.entryAfter_of_ne (Ne.symm hh.1) e)).trans (ih e hh.2)
  | frames calls =>
    induction calls generalizing e with
    | nil => rfl
    | cons c cs ih =>
      simp only [Thread.hashes, List.map_cons, List.mem_cons, not_or] at hh
      exact (congrArg _ (FramesCall.entryAfter_of_ne (Ne.symm hh.1) e)).trans (ih e hh.2)
  | frameMetadata | reports => rfl

theorem CountCall.entryAfter_done {c : CountCall TraceHash FileID} (hpc : c.pc = .done)
    (h : TraceHash) (e : Option (TraceInfo FileID) × Option Sample) : c.entryAfter h e = e := by
  unfold CountCall.entryAfter
  rw [hpc]
  exact ite_self e

theorem FramesCall.entryAfter_done {c : FramesCall TraceHash FileID} (hpc : c.pc = .done)
    (h : TraceHash) (e : Option (TraceInfo FileID) × Option Sample) : c.entryAfter h e = e := by
  unfold FramesCall.entryAfter
  rw [hpc]
  exact ite_self e

/-! ### Peeked entries that are still the cache's -/

/-- A count call whose peeked entries are still the cache's, for the `Add` that follows each
`Peek`. -/
structure CountCall.Fresh (r : OTLPReporter TraceHash FileID) (c : CountCall TraceHash FileID) :
    Prop where
  traces : c.pc = .addTraces → c.peekedTrace = r.traces.lookup c.traceHash
  samples : c.pc = .addSamples → c.peekedSample = r.samples.lookup c.traceHash

/-- A frames call whose peeked entry is still the cache's. -/
def FramesCall.Fresh (r : OTLPReporter TraceHash FileID) (c : FramesCall TraceHash FileID) :
    Prop :=
  c.pc = .add → c.peeked = r.traces.lookup c.trace.hash

/-- A thread whose first call has peeked entries that are still the cache's and whose other calls
have not started, or a report thread with nothing left to run. -/
def Thread.Fresh (r : OTLPReporter TraceHash FileID) : Thread TraceHash FileID → Prop
  | .counts [] | .frames [] | .frameMetadata _ => True
  | .counts (c :: cs) => c.Fresh r ∧ ∀ c' ∈ cs, c'.pc = .peekTraces
  | .frames (c :: cs) => c.Fresh r ∧ ∀ c' ∈ cs, c'.pc = .peek
  | .reports runs => runs = []

theorem CountCall.Fresh.of_entry {c : CountCall TraceHash FileID}
    {r r' : OTLPReporter TraceHash FileID} (hc : c.Fresh r)
    (he : r'.entry c.traceHash = r.entry c.traceHash) : c.Fresh r' :=
  ⟨fun hpc => (hc.traces hpc).trans (congrArg Prod.fst he).symm,
    fun hpc => (hc.samples hpc).trans (congrArg Prod.snd he).symm⟩

/-- Whether a thread's peeked entries are the cache's depends on the entries of its hashes only. -/
theorem Thread.Fresh.of_entry {t : Thread TraceHash FileID} {r r' : OTLPReporter TraceHash FileID}
    (ht : t.Fresh r) (he : ∀ h ∈ t.hashes, r'.entry h = r.entry h) : t.Fresh r' := by
  match t, ht with
  | .counts [], _ | .frames [], _ | .frameMetadata _, _ => trivial
  | .counts (c :: cs), ⟨hc, hcs⟩ =>
    exact ⟨hc.of_entry (he _ (List.mem_cons_self _ _)), hcs⟩
  | .frames (c :: cs), ⟨hc, hcs⟩ =>
    exact ⟨fun hpc => (hc hpc).trans (congrArg Prod.fst (he _ (List.mem_cons_self _ _))).symm, hcs⟩
  | .reports _, hruns => exact hruns

/-! ### One operation -/

@[simp]
theorem CountCall.step_traceHash (c : CountCall TraceHash FileID) (r : OTLPReporter TraceHash FileID) :
    (c.step r).1.traceHash = c.traceHash := by
  unfold CountCall.step
  split <;> rfl

@[simp]
theorem FramesCall.step_trace (c : FramesCall TraceHash FileID) (r : OTLPReporter TraceHash FileID) :
    (c.step r).1.trace = c.trace := by
  unfold FramesCall.step
  split <;> rfl

/-- An operation of a count call writes the entries of its own hash only. -/
theorem CountCall.step_entry_of_ne (c : CountCall TraceHash FileID)
    (r : OTLPReporter TraceHash FileID) {h : TraceHash} (hne : h ≠ c.traceHash) :
    (c.step r).2.entry h = r.entry h := by
  unfold CountCall.step OTLPReporter.entry
  split <;> simp only [AList.lookup_insert_ne hne]

theorem FramesCall.step_entry_of_ne (c : FramesCall TraceHash FileID)
    (r : OTLPReporter TraceHash FileID) {h : TraceHash} (hne : h ≠ c.trace.hash) :
    (c.step r).2.entry h = r.entry h := by
  unfold FramesCall.step OTLPReporter.entry
  split <;> simp only [AList.lookup_insert_ne hne]

/-- An operation of a count call whose peeked entries are the cache's keeps them the cache's,
and does part of what the call had still to do to the entries of each hash. -/
theorem CountCall.Fresh.step {c : CountCall TraceHash FileID} {r : OTLPReporter TraceHash FileID}
    (hc : c.Fresh r) : (c.step r).1.Fresh (c.step r).2 ∧
      ∀ h, (c.step r).1.entryAfter h ((c.step r).2.entry h) = c.entryAfter h (r.entry h) := by
  refine ⟨?_, fun h => ?_⟩
  · constructor <;> rw [CountCall.step_traceHash] <;> cases hpc : c.pc <;>
      simp [CountCall.step, hpc]
  · by_cases hh : c.traceHash = h
    · subst hh
      cases hpc : c.pc with
      | addTraces =>
        simp [CountCall.step, CountCall.entryAfter, OTLPReporter.entry, hpc, hc.traces hpc]
      | addSamples =>
        simp [CountCall.step, CountCall.entryAfter, OTLPReporter.entry, hpc, hc.samples hpc]
      | _ => simp [CountCall.step, CountCall.entryAfter, OTLPReporter.entry, hpc]
    · rw [CountCall.entryAfter_of_ne (by simpa using hh), CountCall.entryAfter_of_ne hh,
        CountCall.step_entry_of_ne _ _ (Ne.symm hh)]

/-- An operation of a frames call whose peeked entry is the cache's keeps it the cache's, and
does part of what the call had still to do to the entries of each hash. -/
theorem FramesCall.Fresh.step {c : FramesCall TraceHash FileID} {r : OTLPReporter TraceHash FileID}
    (hc : c.Fresh r) : (c.step r).1.Fresh (c.step r).2 ∧
      ∀ h, (c.step r).1.entryAfter h ((c.step r).2.entry h) = c.entryAfter h (r.entry h) := by
  refine ⟨?_, fun h => ?_⟩
  · rw [FramesCall.Fresh, FramesCall.step_trace]
    cases hpc : c.pc <;> simp [FramesCall.step, hpc]
  · by_cases hh : c.trace.hash = h
    · subst hh
      cases hpc : c.pc with
      | add => simp [FramesCall.step, FramesCall.entryAfter, OTLPReporter.entry, hpc, hc hpc]
      | _ => simp [FramesCall.step, FramesCall.entryAfter, OTLPReporter.entry, hpc]
    · rw [FramesCall.entryAfter_of_ne (by simpa using hh), FramesCall.entryAfter_of_ne hh,
        FramesCall.step_entry_of_ne _ _ (Ne.symm hh)]

theorem Thread.fresh_counts {cs : List (CountCall TraceHash FileID)}
    (hcs : ∀ c ∈ cs, c.pc = .peekTraces) (r : OTLPReporter TraceHash FileID) :
    (Thread.counts cs).Fresh r := by
  match cs with
  | [] => trivial
  | c :: cs =>
    have hpc := hcs c (List.mem_cons_self _ _)
    exact ⟨⟨fun h => (nomatch hpc.symm.trans h), fun h => (nomatch hpc.symm.trans h)⟩,
      fun c' hc' => hcs c' (List.mem_cons_of_mem _ hc')⟩

theorem Thread.fresh_frames {cs : List (FramesCall TraceHash FileID)}
    (hcs : ∀ c ∈ cs, c.pc = .peek) (r : OTLPReporter TraceHash FileID) :
    (Thread.frames cs).Fresh r := by
  match cs with
  | [] => trivial
  | c :: cs =>
    have hpc := hcs c (List.mem_cons_self _ _)
    exact ⟨fun h => (nomatch hpc.symm.trans h), fun c' hc' => hcs c' (List.mem_cons_of_mem _ hc')⟩

/-- What a thread has still to do, after its first call takes a step that does part of it. -/
theorem foldl_ite_cons {α β : Type*} (f : β → α → β) {p : Prop} [Decidable p] (c c' : α)
    (cs : List α) {b b' : β} (hdone : p → f b' c' = b') (hstep : f b' c' = f b c) :
    (if p then cs else c' :: cs).foldl f b' = (c :: cs).foldl f b := by
  split
  · rw [List.foldl_cons, ← hstep, hdone ‹_›]
  · rw [List.foldl_cons, List.foldl_cons, hstep]

/-- The keys of a thread after its first call takes a step that keeps the call's key. -/
theorem mem_map_ite_cons {α κ : Type*} (key : α → κ) {p : Prop} [Decidable p] {c c' : α}
    {cs : List α} (hkey : key c' = key c) {k : κ} (hk : k ∈ (if p then cs else c' :: cs).map key) :
    k ∈ (c :: cs).map key := by
  split at hk
  · exact List.mem_cons_of_mem _ hk
  · rwa [List.map_cons, hkey] at hk

/-! ### Every thread, over a run -/

theorem getElem?_set_eq_some {α : Type*} {l : List α} {i j : Nat} {a b : α}
    (h : (l.set i a)[j]? = some b) : i = j ∧ a = b ∨ i ≠ j ∧ l[j]? = some b := by
  rw [List.getElem?_set] at h
  split_ifs at h with hij
  · exact .inl ⟨hij, Option.some.inj h⟩
  · exact .inr ⟨hij, h⟩

/-- Threads that each leave a value alone leave it alone together. -/
theorem foldl_eq_of_forall {α β : Type*} {g : α → β → β} :
    ∀ {l : List α}, (∀ t ∈ l, ∀ e, g t e = e) → ∀ e, l.foldl (fun e t => g t e) e = e
  | [], _, _ => rfl
  | t :: ts, hts, e => by
    rw [List.foldl_cons, hts t (List.mem_cons_self _ _),
      foldl_eq_of_forall (fun t' ht' => hts t' (List.mem_cons_of_mem _ ht'))]

/-- When every element but the one at `i` leaves a value alone, the fold is that element's. -/
theorem foldl_eq_owner {α β : Type*} {g : α → β → β} {l : List α} {i : Nat} {t : α}
    (hi : l[i]? = some t) (hothers : ∀ j t', j ≠ i → l[j]? = some t' → ∀ e, g t' e = e) (e : β) :
    l.foldl (fun e t => g t e) e = g t e := by
  induction l generalizing i e with
  | nil => cases hi
  | cons t₀ ts ih =>
    have htail : ∀ j t', ts[j]? = some t' → j + 1 ≠ i → ∀ e, g t' e = e := fun j t' ht' hj =>
      hothers (j + 1) t' hj (by rwa [List.getElem?_cons_succ])
    rw [List.foldl_cons]
    cases i with
    | zero =>
      rw [List.getElem?_cons_zero, Option.some.injEq] at hi
      subst hi
      exact foldl_eq_of_forall (fun t' ht' => by
        obtain ⟨j, hj⟩ := List.mem_iff_getElem?.mp ht'
        exact htail j t' hj (Nat.succ_ne_zero j)) _
    | succ i =>
      rw [List.getElem?_cons_succ] at hi
      rw [hothers 0 t₀ (Nat.succ_ne_zero i).symm (List.getElem?_cons_zero ..)]
      exact ih hi (fun j t' hj ht' => htail j t' ht' fun he => hj (Nat.succ_injective he)) e

/-- Replacing an element by one that acts the same leaves the fold unchanged. -/
theorem foldl_set_eq {α β : Type*} {g : α → β → β} {l : List α} {i : Nat} {t t' : α}
    (hi : l[i]? = some t) (heq : ∀ e, g t' e = g t e) (e : β) :
    (l.set i t').foldl (fun e t => g t e) e = l.foldl (fun e t => g t e) e := by
  induction l generalizing i e with
  | nil => cases hi
  | cons t₀ ts ih =>
    cases i with
    | zero =>
      rw [List.getElem?_cons_zero, Option.some.injEq] at hi
      subst hi
      rw [List.set_cons_zero, List.foldl_cons, List.foldl_cons, heq]
    | succ i =>
      rw [List.getElem?_cons_succ] at hi
      rw [List.set_cons_succ, List.foldl_cons, List.foldl_cons]
      exact ih hi _

/-- Elements whose keys are pairwise disjoint, read at two different indices. -/
theorem disjoint_of_pairwise {α κ : Type*} (keys : α → List κ) {l : List α}
    (hp : (l.map keys).Pairwise fun ks ks' => ∀ k ∈ ks, k ∉ ks') ⦃i j : Nat⦄ ⦃t t' : α⦄
    (hij : i ≠ j) (hi : l[i]? = some t) (hj : l[j]? = some t') : ∀ k ∈ keys t, k ∉ keys t' := by
  obtain ⟨hi', rfl⟩ := List.getElem?_eq_some_iff.mp hi
  obtain ⟨hj', rfl⟩ := List.getElem?_eq_some_iff.mp hj
  rw [List.pairwise_map, List.pairwise_iff_getElem] at hp
  intro k hk hk'
  rcases Nat.lt_or_gt_of_ne hij with hlt | hlt
  · exact hp i j hi' hj' hlt k hk hk'
  · exact hp j i hj' hi' hlt k hk' hk

theorem World.entryAfter_of_finished {w : World TraceHash FileID} (hw : w.finished) (h : TraceHash) :
    w.entryAfter h = w.shared.reporter.entry h := by
  refine foldl_eq_of_forall (fun t ht => Thread.entryAfter_of_not_mem fun hh => ?_) _
  have hidle := List.all_eq_true.mp hw t ht
  cases t <;> simp_all [Thread.idle, Thread.hashes]

/-- A thread none of whose calls has started, or a report thread with nothing left to run. -/
def Thread.Unstarted : Thread TraceHash FileID → Prop
  | .counts calls => ∀ c ∈ calls, c.pc = .peekTraces
  | .frames calls => ∀ c ∈ calls, c.pc = .peek
  | .frameMetadata _ => True
  | .reports runs => runs = []

/-- The calls a thread makes, as calls of the sequential model. -/
def Thread.calls : Thread TraceHash FileID → List (Call TraceHash FileID)
  | .counts calls => calls.map fun c => .reportCountForTrace c.traceHash c.timestamp c.count
      c.comm c.podName c.podNamespace c.containerName
  | .frames calls => calls.map fun c => .reportFramesForTrace c.trace
  | .frameMetadata calls => calls.map fun c => .frameMetadata c.fileID c.addressOrLine
      c.lineNumber c.functionOffset c.functionName c.filePath
  | .reports runs => runs.map fun run => .report run.order

theorem Thread.Unstarted.fresh {t : Thread TraceHash FileID} (ht : t.Unstarted)
    (r : OTLPReporter TraceHash FileID) : t.Fresh r := by
  match t, ht with
  | .counts _, ht => exact Thread.fresh_counts ht r
  | .frames _, ht => exact Thread.fresh_frames ht r
  | .frameMetadata _, _ => trivial
  | .reports _, ht => exact ht

/-! ### One operation of a thread -/

variable [DecidableEq FileID]

/-- One operation of a thread whose peeked entries are the cache's: it writes the entries of the
thread's hashes only, keeps the thread's peeked entries the cache's, and does part of what the
thread had still to do to the entries of each hash. -/
theorem Thread.Fresh.step {t : Thread TraceHash FileID} {sh : Shared TraceHash FileID}
    (ht : t.Fresh sh.reporter) {next : Thread TraceHash FileID × Shared TraceHash FileID}
    (hstep : t.step sh = some next) :
    (∀ h, h ∉ t.hashes → next.2.reporter.entry h = sh.reporter.entry h) ∧
      (∀ h ∈ next.1.hashes, h ∈ t.hashes) ∧ next.1.Fresh next.2.reporter ∧
      ∀ h, next.1.entryAfter h (next.2.reporter.entry h) = t.entryAfter h (sh.reporter.entry h) := by
  match t, ht, hstep with
  | .counts (c :: cs), ⟨hc, hcs⟩, hstep =>
    cases hstep
    obtain ⟨hfresh, hafter⟩ := hc.step
    refine ⟨fun h hh => c.step_entry_of_ne _ fun he => hh (by simp [Thread.hashes, he]),
      fun h hh => mem_map_ite_cons _ (c.step_traceHash _) hh, ?_,
      fun h => foldl_ite_cons _ _ _ _ (fun hpc => CountCall.entryAfter_done hpc h _) (hafter h)⟩
    · dsimp only
      split
      · exact Thread.fresh_counts hcs _
      · exact ⟨hfresh, hcs⟩
  | .frames (c :: cs), ⟨hc, hcs⟩, hstep =>
    cases hstep
    obtain ⟨hfresh, hafter⟩ := hc.step
    refine ⟨fun h hh => c.step_entry_of_ne _ fun he => hh (by simp [Thread.hashes, he]),
      fun h hh => mem_map_ite_cons (fun c : FramesCall TraceHash FileID => c.trace.hash)
        (congrArg Trace.hash (c.step_trace _)) hh, ?_,
      fun h => foldl_ite_cons _ _ _ _ (fun hpc => FramesCall.entryAfter_done hpc h _) (hafter h)⟩
    · dsimp only
      split
      · exact Thread.fresh_frames hcs _
      · exact ⟨hfresh, hcs⟩
  | .frameMetadata (c :: cs), _, hstep =>
    cases hstep
    exact ⟨fun _ _ => rfl, fun _ h => (List.not_mem_nil _ h).elim, trivial, fun _ => rfl⟩

/-- What the model keeps while no two threads make calls for one hash: the peeked entries of every
thread are still the cache's. -/
structure World.Independent (w : World TraceHash FileID) : Prop where
  disjoint : ∀ ⦃i j : Nat⦄ ⦃t t' : Thread TraceHash FileID⦄, i ≠ j → w.threads[i]? = some t →
    w.threads[j]? = some t' → ∀ h ∈ t.hashes, h ∉ t'.hashes
  fresh : ∀ t ∈ w.threads, t.Fresh w.shared.reporter

/-- A step keeps the invariant and leaves unchanged, for every hash, what the threads will do to
its entries. -/
theorem World.Independent.step {w w' : World TraceHash FileID} (hw : w.Independent) {i : Nat}
    (hstep : w.step i = some w') : w'.Independent ∧ ∀ h, w'.entryAfter h = w.entryAfter h := by
  unfold World.step at hstep
  split at hstep
  · cases hstep
  · next t hi =>
    obtain ⟨next, hnext, rfl⟩ := Option.map_eq_some'.mp hstep
    obtain ⟨hframe, hsub, hfresh, hafter⟩ := (hw.fresh t (List.getElem?_mem hi)).step hnext
    have hothers : ∀ ⦃j t'⦄, j ≠ i → w.threads[j]? = some t' → ∀ h ∈ t.hashes, h ∉ t'.hashes :=
      fun j t' hj ht' => hw.disjoint (Ne.symm hj) hi ht'
    refine ⟨⟨?_, ?_⟩, fun h => ?_⟩
    · intro j k t₁ t₂ hjk h₁ h₂ h hh₁ hh₂
      rcases getElem?_set_eq_some h₁ with ⟨rfl, rfl⟩ | ⟨hj, h₁⟩ <;>
        rcases getElem?_set_eq_some h₂ with ⟨rfl, rfl⟩ | ⟨hk, h₂⟩
      · exact hjk rfl
      · exact hothers (Ne.symm hk) h₂ h (hsub h hh₁) hh₂
      · exact hothers (Ne.symm hj) h₁ h (hsub h hh₂) hh₁
      · exact hw.disjoint hjk h₁ h₂ h hh₁ hh₂
    · intro t' ht'
      obtain ⟨j, hj⟩ := List.mem_iff_getElem?.mp ht'
      rcases getElem?_set_eq_some hj with ⟨rfl, rfl⟩ | ⟨hj, hj'⟩
      · exact hfresh
      · exact (hw.fresh t' (List.getElem?_mem hj')).of_entry fun h hh =>
          hframe h fun hh' => hothers (Ne.symm hj) hj' h hh' hh
    · unfold World.entryAfter
      by_cases hh : h ∈ t.hashes
      · have hlt : i < w.threads.length := (List.getElem?_eq_some_iff.mp hi).1
        rw [foldl_eq_owner (List.getElem?_set_self hlt) fun j t' hj ht' =>
            Thread.entryAfter_of_not_mem
              (hothers hj (by rwa [List.getElem?_set_ne (Ne.symm hj)] at ht') h hh),
          foldl_eq_owner hi (fun j t' hj ht' => Thread.entryAfter_of_not_mem (hothers hj ht' h hh)),
          hafter h]
      · rw [hframe h hh, foldl_set_eq hi fun e => by
          rw [Thread.entryAfter_of_not_mem hh, Thread.entryAfter_of_not_mem fun h' => hh (hsub h h')]]

theorem World.Independent.run :
    ∀ (schedule : List Nat) {w w' : World TraceHash FileID}, w.Independent →
      w.run schedule = some w' → w'.Independent ∧ ∀ h, w'.entryAfter h = w.entryAfter h
  | [], _, _, hw, hrun => by
    cases hrun
    exact ⟨hw, fun _ => rfl⟩
  | i :: schedule, _, _, hw, hrun => by
    obtain ⟨w₁, h₁, hrest⟩ := Option.bind_eq_some.mp hrun
    obtain ⟨hw₁, he₁⟩ := hw.step h₁
    obtain ⟨hw', he'⟩ := World.Independent.run schedule hw₁ hrest
    exact ⟨hw', fun h => (he' h).trans (he₁ h)⟩

/-! ### From the sequential calls to the end of the run -/

theorem frameMetadata_entry (r : OTLPReporter TraceHash FileID) (fileID : FileID)
    (addressOrLine : AddressOrLineno) (lineNumber : SourceLineno) (functionOffset : UInt32)
    (functionName filePath : String) (h : TraceHash) :
    (frameMetadata r fileID addressOrLine lineNumber functionOffset functionName filePath).entry h =
      r.entry h := by
  unfold frameMetadata
  split <;> rfl


/-- The sequential calls of a thread that has not started do to the entries of each hash what the
thread will do. -/
theorem Thread.Unstarted.run_entry {t : Thread TraceHash FileID} (ht : t.Unstarted)
    (r : OTLPReporter TraceHash FileID) (h : TraceHash) :
    (run r t.calls).1.entry h = t.entryAfter h (r.entry h) := by
  match t, ht with
  | .counts calls, ht =>
    induction calls generalizing r with
    | nil => rfl
    | cons c cs ih =>
      have hpc := ht c (List.mem_cons_self _ _)
      refine (ih _ fun c' hc' => ht c' (List.mem_cons_of_mem _ hc')).trans (congrArg _ ?_)
      dsimp only [Call.apply, CountCall.entryAfter]
      rw [reportCountForTrace_entry, hpc]
      split_ifs with hh
      · subst hh
        rfl
      · rfl
  | .frames calls, ht =>
    induction calls generalizing r with
    | nil => rfl
    | cons c cs ih =>
      have hpc := ht c (List.mem_cons_self _ _)
      refine (ih _ fun c' hc' => ht c' (List.mem_cons_of_mem _ hc')).trans (congrArg _ ?_)
      dsimp only [Call.apply, FramesCall.entryAfter]
      rw [reportFramesForTrace_entry, hpc]
      split_ifs with hh
      · subst hh
        rfl
      · rfl
  | .frameMetadata calls, _ =>
    induction calls generalizing r with
    | nil => rfl
    | cons c cs ih => exact (ih _ trivial).trans (frameMetadata_entry ..)
  | .reports _, ht =>
    subst ht
    rfl

theorem run_append_fst (r : OTLPReporter TraceHash FileID) :
    ∀ (calls calls' : List (Call TraceHash FileID)),
      (run r (calls ++ calls')).1 = (run (run r calls).1 calls').1
  | [], _ => rfl
  | call :: calls, calls' => run_append_fst (call.apply r).1 calls calls'

theorem run_flatMap_entry (h : TraceHash) :
    ∀ (threads : List (Thread TraceHash FileID)) (r : OTLPReporter TraceHash FileID),
      (∀ t ∈ threads, t.Unstarted) → (run r (threads.flatMap Thread.calls)).1.entry h =
        threads.foldl (fun e t => t.entryAfter h e) (r.entry h)
  | [], _, _ => rfl
  | t :: ts, r, hts => by
    rw [List.flatMap_cons, run_append_fst,
      run_flatMap_entry h ts _ fun t' ht' => hts t' (List.mem_cons_of_mem _ ht'),
      (hts t (List.mem_cons_self _ _)).run_entry, List.foldl_cons]

/-- When no two threads make calls for the same trace hash and no report runs, every interleaving
of the calls' cache operations that completes them leaves the `traces` and `samples` entries of
every hash as the sequential calls leave them, thread after thread. The caches do not evict here;
with eviction, which hashes survive would depend on the interleaving. -/
theorem run_entry_disjointHashes {w w' : World TraceHash FileID} {schedule : List Nat}
    (hunstarted : ∀ t ∈ w.threads, t.Unstarted)
    (hdisjoint : (w.threads.map Thread.hashes).Pairwise fun hs hs' => ∀ h ∈ hs, h ∉ hs')
    (hrun : w.run schedule = some w') (hfinished : w'.finished) (h : TraceHash) :
    w'.shared.reporter.entry h =
      (run w.shared.reporter (w.threads.flatMap Thread.calls)).1.entry h := by
  obtain ⟨-, hafter⟩ := World.Independent.run schedule
    ⟨disjoint_of_pairwise Thread.hashes hdisjoint, fun t ht => (hunstarted t ht).fresh _⟩ hrun
  rw [run_flatMap_entry h _ _ hunstarted, ← World.entryAfter, ← hafter h,
    World.entryAfter_of_finished hfinished]

theorem run_entry_disjointHashes_twoThreads :
    let w₀ : World Nat Nat := ⟨{ reporter := startOTLP "hash", store := ⟨∅, []⟩ },
      [.counts [{ traceHash := 7, timestamp := 100, count := 1, comm := "bash", podName := "",
                  podNamespace := "", containerName := "" }],
       .frames [{ trace := ⟨8, [1], [4096], [.nativeFrame]⟩ }]]⟩
    ∃ w, w₀.run [0, 1, 0, 1, 0, 0] = some w ∧ w.finished ∧ ∀ h,
      w.shared.reporter.entry h = (run w₀.shared.reporter (w₀.threads.flatMap Thread.calls)).1.entry h := by
  intro w₀
  have hunstarted : ∀ t ∈ w₀.threads, t.Unstarted := by
    intro t ht
    simp only [w₀, List.mem_cons, List.mem_singleton, List.not_mem_nil, or_false] at ht
    rcases ht with rfl | rfl <;> simp [Thread.Unstarted]
  obtain ⟨w, hw, hfinished⟩ := Option.map_eq_some'.mp
    (show (w₀.run [0, 1, 0, 1, 0, 0]).map World.finished = some true by decide)
  exact ⟨w, hw, hfinished, run_entry_disjointHashes hunstarted (by decide) hw hfinished⟩

end ProfilingAgent.Reporter
