import ProfilingAgent.Reporter.Report

/-!
# The running time range of a report

The sample loop of `getProfile` keeps a running range of the timestamps it visits, whose turn
(`trackTimestamp`) moves the start down to a smaller timestamp and otherwise the end up to a
larger one; the first turn finds the start at zero and moves it. So the start ends as the least
timestamp, but the end misses every timestamp that was a new least when it was visited, the first
one among them: it is zero or a timestamp visited after the first, and it is the greatest
timestamp exactly when the greatest occurs again after the first.
-/

namespace ProfilingAgent.Reporter

open Pprofextended

variable {TraceHash FileID : Type} [DecidableEq TraceHash] [DecidableEq FileID]

/-! ### The running time range -/

/-- From a nonzero start a turn moves the start down to a smaller timestamp, and otherwise moves
the end up to a larger one. -/
theorem trackTimestamp_of_ne_zero {range : UInt64 × UInt64} (hs : range.1 ≠ 0) (ts : UInt64) :
    trackTimestamp range ts =
      if ts < range.1 then (ts, range.2) else (range.1, if ts > range.2 then ts else range.2) := by
  simp only [trackTimestamp, hs, beq_iff_eq, Bool.or_false, decide_eq_true_eq, Bool.or_eq_true,
    or_false]
  split_ifs <;> rfl

/-- A turn's start is the timestamp or the old start. -/
theorem trackTimestamp_fst (range : UInt64 × UInt64) (ts : UInt64) :
    (trackTimestamp range ts).1 = ts ∨ (trackTimestamp range ts).1 = range.1 := by
  unfold trackTimestamp
  split
  · exact .inl rfl
  · split <;> exact .inr rfl

/-- A turn's end is the timestamp or the old end, and no smaller than the old end. -/
theorem trackTimestamp_snd (range : UInt64 × UInt64) (ts : UInt64) :
    ((trackTimestamp range ts).2 = ts ∨ (trackTimestamp range ts).2 = range.2) ∧
      range.2 ≤ (trackTimestamp range ts).2 := by
  unfold trackTimestamp
  split
  · exact ⟨.inr rfl, UInt64.le_refl _⟩
  · split
    · exact ⟨.inl rfl, UInt64.not_lt.mp (UInt64.lt_asymm ‹_›)⟩
    · exact ⟨.inr rfl, UInt64.le_refl _⟩

/-- The start is always the initial one or a timestamp visited. -/
theorem foldl_trackTimestamp_fst_mem :
    ∀ (l : List UInt64) (range : UInt64 × UInt64),
      (l.foldl trackTimestamp range).1 ∈ range.1 :: l
  | [], _ => List.mem_singleton_self _
  | t :: l, range => by
    rw [List.foldl_cons]
    rcases List.mem_cons.mp (foldl_trackTimestamp_fst_mem l (trackTimestamp range t)) with h | h
    · rcases trackTimestamp_fst range t with h' | h' <;> rw [h, h'] <;> simp
    · exact List.mem_cons_of_mem _ (List.mem_cons_of_mem _ h)

/-- The end is always the initial one or a timestamp visited, and no smaller than the initial
one. -/
theorem foldl_trackTimestamp_snd :
    ∀ (l : List UInt64) (range : UInt64 × UInt64),
      (l.foldl trackTimestamp range).2 ∈ range.2 :: l ∧ range.2 ≤ (l.foldl trackTimestamp range).2
  | [], _ => ⟨List.mem_singleton_self _, UInt64.le_refl _⟩
  | t :: l, range => by
    rw [List.foldl_cons]
    obtain ⟨hmem, hle⟩ := foldl_trackTimestamp_snd l (trackTimestamp range t)
    obtain ⟨hstep, hstep_le⟩ := trackTimestamp_snd range t
    refine ⟨?_, UInt64.le_trans hstep_le hle⟩
    rcases List.mem_cons.mp hmem with h | h
    · rcases hstep with h' | h' <;> rw [h, h'] <;> simp
    · exact List.mem_cons_of_mem _ (List.mem_cons_of_mem _ h)

section Nonzero

variable {l : List UInt64}

/-- From a nonzero start, a turn on a nonzero timestamp leaves a nonzero start no larger than the
old start or the timestamp. -/
theorem trackTimestamp_fst_le (range : UInt64 × UInt64) (hs : range.1 ≠ 0) {ts : UInt64}
    (hts : ts ≠ 0) :
    (trackTimestamp range ts).1 ≠ 0 ∧ (trackTimestamp range ts).1 ≤ range.1 ∧
      (trackTimestamp range ts).1 ≤ ts := by
  rw [trackTimestamp_of_ne_zero hs]
  split
  · exact ⟨hts, UInt64.not_lt.mp (UInt64.lt_asymm ‹_›), UInt64.le_refl _⟩
  · exact ⟨hs, UInt64.le_refl _, UInt64.not_lt.mp ‹_›⟩

/-- Over nonzero timestamps from a nonzero start, the start ends below every timestamp visited
and the initial start. -/
theorem foldl_trackTimestamp_fst_le (hl : ∀ t ∈ l, t ≠ 0) {s e : UInt64} (hs : s ≠ 0) :
    ∀ t ∈ s :: l, (l.foldl trackTimestamp (s, e)).1 ≤ t := by
  induction l generalizing s e with
  | nil => intro t ht; rw [List.mem_singleton.mp ht]; exact UInt64.le_refl _
  | cons x l ih =>
    obtain ⟨hne, hle_s, hle_x⟩ := trackTimestamp_fst_le (s, e) hs (hl x (List.mem_cons_self x l))
    have hmin := ih (fun t ht => hl t (List.mem_cons_of_mem x ht)) hne
      (e := (trackTimestamp (s, e) x).2)
    rw [List.foldl_cons]
    intro t ht
    rcases List.mem_cons.mp ht with rfl | ht
    · exact UInt64.le_trans (hmin _ (List.mem_cons_self _ l)) hle_s
    rcases List.mem_cons.mp ht with rfl | ht
    · exact UInt64.le_trans (hmin _ (List.mem_cons_self _ l)) hle_x
    · exact hmin t (List.mem_cons_of_mem _ ht)

/-- Over nonzero timestamps from a nonzero start, a timestamp not below the start is below the
end: when it is visited the start is no larger, so the turn raises the end to it. -/
theorem le_foldl_trackTimestamp_snd_of_mem (hl : ∀ t ∈ l, t ≠ 0) {s e M : UInt64} (hs : s ≠ 0)
    (hM : M ∈ l) (hsM : s ≤ M) : M ≤ (l.foldl trackTimestamp (s, e)).2 := by
  induction l generalizing s e with
  | nil => cases hM
  | cons x l ih =>
    have hl' := fun t ht => hl t (List.mem_cons_of_mem x ht)
    rw [List.foldl_cons, trackTimestamp_of_ne_zero hs]
    rcases List.mem_cons.mp hM with rfl | hM
    · rw [if_neg (UInt64.not_lt.mpr hsM)]
      refine UInt64.le_trans ?_ (foldl_trackTimestamp_snd l _).2
      dsimp only
      split
      · exact UInt64.le_refl _
      · exact UInt64.not_lt.mp ‹_›
    · split
      · exact ih hl' (hl x (List.mem_cons_self x l)) hM
          (UInt64.le_trans (UInt64.not_lt.mp (UInt64.lt_asymm ‹_›)) hsM)
      · exact ih hl' hs hM hsM

/-- Over a nonempty list of nonzero timestamps, the loop's start is the least of them; its end is
zero or a timestamp after the first, and it is their greatest exactly when the greatest occurs
again after the first. -/
theorem foldl_trackTimestamp_range (hne : l ≠ []) (hl : ∀ t ∈ l, t ≠ 0) :
    ((l.foldl trackTimestamp (0, 0)).1 ∈ l ∧ ∀ t ∈ l, (l.foldl trackTimestamp (0, 0)).1 ≤ t) ∧
      ((l.foldl trackTimestamp (0, 0)).2 = 0 ∨ (l.foldl trackTimestamp (0, 0)).2 ∈ l.tail) ∧
      ∀ M ∈ l, (∀ t ∈ l, t ≤ M) → ((l.foldl trackTimestamp (0, 0)).2 = M ↔ M ∈ l.tail) := by
  obtain ⟨x, rest, rfl⟩ := List.exists_cons_of_ne_nil hne
  have hx := hl x (List.mem_cons_self x rest)
  have hrest := fun t ht => hl t (List.mem_cons_of_mem x ht)
  have hfirst : trackTimestamp (0, 0) x = (x, 0) := by simp [trackTimestamp]
  rw [List.foldl_cons, hfirst]
  have hend := List.mem_cons.mp (foldl_trackTimestamp_snd rest (x, 0)).1
  refine ⟨⟨foldl_trackTimestamp_fst_mem rest (x, 0), foldl_trackTimestamp_fst_le hrest hx⟩, hend,
    fun M hM hmax => ⟨fun hendM => ?_, fun hmem => ?_⟩⟩
  · rcases hend with h | h
    · exact absurd (hendM.symm.trans h) (hl M hM)
    · exact hendM ▸ h
  · have hle := le_foldl_trackTimestamp_snd_of_mem hrest (e := 0) hx hmem
      (hmax x (List.mem_cons_self x rest))
    have hge : (rest.foldl trackTimestamp (x, 0)).2 ≤ M := by
      rcases hend with h | h
      · rw [h]; exact Nat.zero_le _
      · exact hmax _ (List.mem_cons_of_mem x h)
    exact UInt64.toNat.inj (Nat.le_antisymm hge hle)

end Nonzero

/-- The timestamps of the samples a report drains, in the order its loop visits them. -/
def emittedTimestamps (order : MapOrder) (r : OTLPReporter TraceHash FileID) : List UInt64 :=
  (drainedSamples order r).2.flatMap (·.2.timestamps)

/-- A report's time range is the running range over the drained samples' timestamps, and its
profile's time and duration are computed from it. -/
theorem getProfile_range {lib : Libpf TraceHash FileID} {order : MapOrder}
    {samplesPerSecond : ℕ+} {r : OTLPReporter TraceHash FileID}
    {res : OTLPReporter TraceHash FileID × Profile × UInt64 × UInt64}
    (h : getProfile lib order samplesPerSecond r = some res) :
    res.2.2 = (emittedTimestamps order r).foldl trackTimestamp (0, 0) ∧
      res.2.1.timeNanos = unixNano res.2.2.1 ∧
      res.2.1.durationNanos = Int.bmod (unixNano res.2.2.2 - unixNano res.2.2.1) (2 ^ 64) := by
  obtain ⟨enc, henc, -, -, -, -, htime, hduration, hrange⟩ := getProfile_eq_some h
  obtain ⟨-, -, -, -, -, -, -, -, hfold⟩ :=
    Encoder.encodeSamples_spec lib _ _ wellFormed_initial rfl henc
  rw [hrange]
  exact ⟨hfold, htime, hduration⟩

/-- When the drained samples carry nonzero timestamps, a report's start is the least of them. Its
end is zero or a timestamp visited after the first, and it is the greatest exactly when the
greatest is visited again after the first timestamp. -/
theorem getProfile_timeRange {lib : Libpf TraceHash FileID} {order : MapOrder}
    {samplesPerSecond : ℕ+} {r : OTLPReporter TraceHash FileID}
    {res : OTLPReporter TraceHash FileID × Profile × UInt64 × UInt64}
    (h : getProfile lib order samplesPerSecond r = some res)
    (hne : emittedTimestamps order r ≠ []) (hnz : ∀ t ∈ emittedTimestamps order r, t ≠ 0) :
    (res.2.2.1 ∈ emittedTimestamps order r ∧ ∀ t ∈ emittedTimestamps order r, res.2.2.1 ≤ t) ∧
      (res.2.2.2 = 0 ∨ res.2.2.2 ∈ (emittedTimestamps order r).tail) ∧
      ∀ M ∈ emittedTimestamps order r, (∀ t ∈ emittedTimestamps order r, t ≤ M) →
        (res.2.2.2 = M ↔ M ∈ (emittedTimestamps order r).tail) := by
  rw [(getProfile_range h).1]
  exact foldl_trackTimestamp_range hne hnz

/-- Two traces over one file: a native frame at 4096 counted at time 1, and a kernel frame at
8192 counted at time 2, in `linker` build-ID mode. -/
def twoTraceReporter : OTLPReporter Nat Nat where
  hostmetadata := ∅
  traces := ((∅ : Cache Nat (TraceInfo Nat)).insert 1
    { files := [1], linenos := [4096], frameTypes := [.nativeFrame] }).insert 2
    { files := [1], linenos := [8192], frameTypes := [.kernelFrame] }
  samples := ((∅ : Cache Nat Sample).insert 1 { timestamps := [1], count := 1 }).insert 2
    { timestamps := [2], count := 1 }
  fallbackSymbols := ∅
  executables := ∅
  frames := ∅
  otlpBuildIDMode := "linker"

theorem getProfile_timeRange_twoTraces :
    ∃ res, getProfile Libpf.decimal MapOrder.reversed 20 twoTraceReporter = some res ∧
      emittedTimestamps MapOrder.reversed twoTraceReporter = [2, 1] ∧
      (res.2.2.1 ∈ emittedTimestamps MapOrder.reversed twoTraceReporter ∧
        ∀ t ∈ emittedTimestamps MapOrder.reversed twoTraceReporter, res.2.2.1 ≤ t) ∧
      (res.2.2.2 = 0 ∨ res.2.2.2 ∈ (emittedTimestamps MapOrder.reversed twoTraceReporter).tail) ∧
      ∀ M ∈ emittedTimestamps MapOrder.reversed twoTraceReporter,
        (∀ t ∈ emittedTimestamps MapOrder.reversed twoTraceReporter, t ≤ M) →
          (res.2.2.2 = M ↔ M ∈ (emittedTimestamps MapOrder.reversed twoTraceReporter).tail) := by
  obtain ⟨res, hres⟩ : ∃ res, getProfile Libpf.decimal MapOrder.reversed 20 twoTraceReporter =
      some res := ⟨_, rfl⟩
  have hts : emittedTimestamps MapOrder.reversed twoTraceReporter = [2, 1] := by decide
  exact ⟨res, hres, hts, getProfile_timeRange hres (by rw [hts]; decide) (by rw [hts]; decide)⟩

end ProfilingAgent.Reporter
