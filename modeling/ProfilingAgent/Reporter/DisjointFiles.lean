import ProfilingAgent.Reporter.Disjoint

/-!
# `FrameMetadata` calls for distinct files

`FrameMetadata` keeps one map of source lines per file in the frames cache. A call `Get`s the map
of its file and writes into it in place, or `Add`s a new map when the file has none. Calls for
one file race: a second `Add` replaces the map the first stored. Calls for different files never
do. Each operation reads and writes the reference and the map of its own file only, and the
store keeps different files on different maps. So when no two threads make `FrameMetadata` calls
for the same file, every interleaving that completes them leaves the store holding, at every
address of every file, what the sequential calls leave in the frames cache. The other threads
never touch the store.

The proof has the shape of the one for trace hashes: for each file and address it carries what
the calls still to run will do there (`World.storedAfter`), and the invariant that the reference
each call has looked up is still the file's.
-/

namespace ProfilingAgent.Reporter

variable {TraceHash FileID : Type} [DecidableEq FileID]

/-- What the rest of a `FrameMetadata` call does to what the store holds at address `a` of file
`f`, when nothing else writes there. -/
def FrameMetadataCall.storedAfter (c : FrameMetadataCall FileID) (f : FileID)
    (a : AddressOrLineno) (v : Option SourceInfo) : Option SourceInfo :=
  if f = c.fileID ∧ a = c.addressOrLine then
    match c.pc with
    | .done => v
    | _ => some (sourceEntry v c.lineNumber c.functionOffset c.functionName c.filePath)
  else v

/-- What the `FrameMetadata` calls a thread has still to make do at address `a` of file `f`; the
other threads leave the store alone. -/
def Thread.storedAfter (f : FileID) (a : AddressOrLineno) :
    Thread TraceHash FileID → Option SourceInfo → Option SourceInfo
  | .frameMetadata calls, v => calls.foldl (fun v c => c.storedAfter f a v) v
  | _, v => v

/-- The files a thread makes `FrameMetadata` calls for. -/
def Thread.fileIDs : Thread TraceHash FileID → List FileID
  | .frameMetadata calls => calls.map FrameMetadataCall.fileID
  | _ => []

/-- What the calls of every thread will do at address `a` of file `f`, from what the store holds. -/
def World.storedAfter (w : World TraceHash FileID) (f : FileID) (a : AddressOrLineno) :
    Option SourceInfo :=
  w.threads.foldl (fun v t => t.storedAfter f a v) (w.shared.store.stored f a)

theorem FrameMetadataCall.storedAfter_of_ne {c : FrameMetadataCall FileID} {f : FileID}
    (hne : f ≠ c.fileID) (a : AddressOrLineno) (v : Option SourceInfo) :
    c.storedAfter f a v = v :=
  if_neg fun h => hne h.1

theorem FrameMetadataCall.storedAfter_done {c : FrameMetadataCall FileID} (hpc : c.pc = .done)
    (f : FileID) (a : AddressOrLineno) (v : Option SourceInfo) : c.storedAfter f a v = v := by
  unfold FrameMetadataCall.storedAfter
  rw [hpc]
  exact ite_self v

/-- A thread with no call for file `f` leaves what the store holds for it alone. -/
theorem Thread.storedAfter_of_not_mem {t : Thread TraceHash FileID} {f : FileID}
    (hf : f ∉ t.fileIDs) (a : AddressOrLineno) (v : Option SourceInfo) : t.storedAfter f a v = v := by
  cases t with
  | frameMetadata calls =>
    induction calls generalizing v with
    | nil => rfl
    | cons c cs ih =>
      simp only [Thread.fileIDs, List.map_cons, List.mem_cons, not_or] at hf
      exact (congrArg _ (FrameMetadataCall.storedAfter_of_ne hf.1 a v)).trans (ih v hf.2)
  | counts | frames | reports => rfl

/-! ### References that are still the file's -/

/-- A `FrameMetadata` call whose looked-up reference, or missing one, is still the file's. -/
def FrameMetadataCall.Fresh (s : FrameStore FileID) (c : FrameMetadataCall FileID) : Prop :=
  match c.pc with
  | .write ref => s.refs.lookup c.fileID = some ref
  | .add => s.refs.lookup c.fileID = none
  | _ => True

/-- A thread whose first `FrameMetadata` call has looked up a reference that is still the file's,
and whose other calls have not started; the other threads hold no reference. -/
def Thread.StoreFresh (s : FrameStore FileID) : Thread TraceHash FileID → Prop
  | .frameMetadata [] => True
  | .frameMetadata (c :: cs) => c.Fresh s ∧ ∀ c' ∈ cs, c'.pc = .get
  | _ => True

theorem FrameMetadataCall.Fresh.of_refs {c : FrameMetadataCall FileID} {s s' : FrameStore FileID}
    (hc : c.Fresh s) (hrefs : s'.refs.lookup c.fileID = s.refs.lookup c.fileID) : c.Fresh s' := by
  unfold FrameMetadataCall.Fresh at hc ⊢
  split <;> simp_all

theorem Thread.StoreFresh.of_refs {t : Thread TraceHash FileID} {s s' : FrameStore FileID}
    (ht : t.StoreFresh s) (hrefs : ∀ f ∈ t.fileIDs, s'.refs.lookup f = s.refs.lookup f) :
    t.StoreFresh s' := by
  match t, ht with
  | .frameMetadata [], _ | .counts _, _ | .frames _, _ | .reports _, _ => trivial
  | .frameMetadata (c :: cs), ⟨hc, hcs⟩ =>
    exact ⟨hc.of_refs (hrefs _ (List.mem_cons_self _ _)), hcs⟩

theorem Thread.storeFresh_frameMetadata {cs : List (FrameMetadataCall FileID)}
    (hcs : ∀ c ∈ cs, c.pc = .get) (s : FrameStore FileID) :
    (Thread.frameMetadata cs : Thread TraceHash FileID).StoreFresh s := by
  match cs with
  | [] => trivial
  | c :: cs =>
    refine ⟨?_, fun c' hc' => hcs c' (List.mem_cons_of_mem _ hc')⟩
    rw [FrameMetadataCall.Fresh, hcs c (List.mem_cons_self _ _)]
    trivial

/-! ### One operation of a call -/

theorem FrameStore.WellFormed.stored_eq {s : FrameStore FileID} (hwf : s.WellFormed)
    {f : FileID} {ref : Nat} (href : s.refs.lookup f = some ref) (a : AddressOrLineno) :
    s.stored f a = (s.maps[ref]?.getD ∅).lookup a := by
  simp [FrameStore.stored, href, List.getElem?_eq_getElem (hwf.ref_lt href)]

theorem FrameStore.stored_of_lookup_eq_none {s : FrameStore FileID} {f : FileID}
    (hnone : s.refs.lookup f = none) (a : AddressOrLineno) : s.stored f a = none := by
  simp [FrameStore.stored, hnone]

@[simp]
theorem FrameMetadataCall.step_fileID (c : FrameMetadataCall FileID) (s : FrameStore FileID) :
    (c.step s).1.fileID = c.fileID := by
  unfold FrameMetadataCall.step
  repeat' split
  all_goals rfl

@[simp]
theorem FrameMetadataCall.step_addressOrLine (c : FrameMetadataCall FileID) (s : FrameStore FileID) :
    (c.step s).1.addressOrLine = c.addressOrLine := by
  unfold FrameMetadataCall.step
  repeat' split
  all_goals rfl

/-- One operation of a `FrameMetadata` call whose reference is still the file's, on a well-formed
store: the store stays well-formed, the references of other files and what the store holds at
other addresses do not change, the call's reference stays the file's, and the operation does part
of what the call had still to do. -/
theorem FrameMetadataCall.Fresh.step {c : FrameMetadataCall FileID} {s : FrameStore FileID}
    (hwf : s.WellFormed) (hc : c.Fresh s) :
    (c.step s).2.WellFormed ∧ (c.step s).1.Fresh (c.step s).2 ∧
      (∀ f, f ≠ c.fileID → (c.step s).2.refs.lookup f = s.refs.lookup f) ∧
      (∀ f a, ¬(f = c.fileID ∧ a = c.addressOrLine) → (c.step s).2.stored f a = s.stored f a) ∧
      ∀ f a, (c.step s).1.storedAfter f a ((c.step s).2.stored f a) = c.storedAfter f a (s.stored f a) := by
  obtain ⟨fileID, addressOrLine, lineNumber, functionOffset, functionName, filePath, pc⟩ := c
  cases pc with
  | get =>
    cases hlookup : s.refs.lookup fileID with
    | none =>
      rw [show FrameMetadataCall.step _ s = (⟨fileID, addressOrLine, lineNumber, functionOffset,
          functionName, filePath, .add⟩, s) by simp only [FrameMetadataCall.step, hlookup]]
      exact ⟨hwf, hlookup, fun _ _ => rfl, fun _ _ _ => rfl, fun _ _ => rfl⟩
    | some ref =>
      rw [show FrameMetadataCall.step _ s = (⟨fileID, addressOrLine, lineNumber, functionOffset,
          functionName, filePath, .write ref⟩, s) by simp only [FrameMetadataCall.step, hlookup]]
      exact ⟨hwf, hlookup, fun _ _ => rfl, fun _ _ _ => rfl, fun _ _ => rfl⟩
  | write ref =>
    let entry := sourceEntry ((s.maps[ref]?.getD ∅).lookup addressOrLine) lineNumber
      functionOffset functionName filePath
    have hstored f a := hwf.stored_write hc addressOrLine entry f a
    refine ⟨⟨fun f ref' h => by simpa [FrameMetadataCall.step] using hwf.ref_lt h, hwf.ref_inj⟩,
      trivial, fun _ _ => rfl,
      fun f a hne => (hstored f a).trans (if_neg hne), fun f a => ?_⟩
    dsimp only [FrameMetadataCall.step]
    rw [FrameMetadataCall.storedAfter_done rfl, hstored, FrameMetadataCall.storedAfter]
    split_ifs with hkey
    · obtain ⟨rfl, rfl⟩ := hkey
      rw [hwf.stored_eq hc]
    · rfl
  | add =>
    have hstored f a := hwf.stored_add hc addressOrLine
      { lineNumber, functionOffset, functionName, filePath } f a
    refine ⟨hwf.add _ _, trivial, fun f hf => AList.lookup_insert_ne hf,
      fun f a hne => (hstored f a).trans (if_neg hne), fun f a => ?_⟩
    dsimp only [FrameMetadataCall.step]
    rw [FrameMetadataCall.storedAfter_done rfl, hstored, FrameMetadataCall.storedAfter]
    split_ifs with hkey
    · obtain ⟨rfl, rfl⟩ := hkey
      rw [FrameStore.stored_of_lookup_eq_none hc, sourceEntry_none]
    · rfl
  | done => exact ⟨hwf, trivial, fun _ _ => rfl, fun _ _ _ => rfl, fun _ _ => rfl⟩

/-! ### From the sequential calls to the end of the run -/

/-- A thread none of whose `FrameMetadata` calls has started; other threads hold none. -/
def Thread.FrameMetadataUnstarted : Thread TraceHash FileID → Prop
  | .frameMetadata calls => ∀ c ∈ calls, c.pc = .get
  | _ => True

/-- The `FrameMetadata` calls a thread makes, as calls of the sequential model. -/
def Thread.frameMetadataCalls : Thread TraceHash FileID → List (Call TraceHash FileID)
  | .frameMetadata calls => calls.map fun c => .frameMetadata c.fileID c.addressOrLine
      c.lineNumber c.functionOffset c.functionName c.filePath
  | _ => []

theorem Thread.FrameMetadataUnstarted.storeFresh {t : Thread TraceHash FileID}
    (ht : t.FrameMetadataUnstarted) (s : FrameStore FileID) : t.StoreFresh s := by
  match t, ht with
  | .frameMetadata _, ht => exact Thread.storeFresh_frameMetadata ht s
  | .counts _, _ | .frames _, _ | .reports _, _ => trivial

theorem World.storedAfter_of_finished {w : World TraceHash FileID} (hw : w.finished) (f : FileID)
    (a : AddressOrLineno) : w.storedAfter f a = w.shared.store.stored f a := by
  refine foldl_eq_of_forall (fun t ht => Thread.storedAfter_of_not_mem (fun hf => ?_) a) _
  have hidle := List.all_eq_true.mp hw t ht
  cases t <;> simp_all [Thread.idle, Thread.fileIDs]

/-! ### One operation of a thread -/

variable [DecidableEq TraceHash]

/-- One operation of a thread whose reference is still its file's, on a well-formed store: the
store stays well-formed, nothing of the other files changes, the thread's reference stays its
file's, and the operation does part of what the thread had still to do. -/
theorem Thread.StoreFresh.step {t : Thread TraceHash FileID} {sh : Shared TraceHash FileID}
    (hwf : sh.store.WellFormed) (ht : t.StoreFresh sh.store)
    {next : Thread TraceHash FileID × Shared TraceHash FileID} (hstep : t.step sh = some next) :
    next.2.store.WellFormed ∧
      (∀ f, f ∉ t.fileIDs → next.2.store.refs.lookup f = sh.store.refs.lookup f) ∧
      (∀ f, f ∉ t.fileIDs → ∀ a, next.2.store.stored f a = sh.store.stored f a) ∧
      (∀ f ∈ next.1.fileIDs, f ∈ t.fileIDs) ∧ next.1.StoreFresh next.2.store ∧
      ∀ f a, next.1.storedAfter f a (next.2.store.stored f a) =
        t.storedAfter f a (sh.store.stored f a) := by
  cases t with
  | frameMetadata calls =>
    obtain _ | ⟨c, cs⟩ := calls
    · cases hstep
    obtain ⟨hc, hcs⟩ := ht
    cases hstep
    obtain ⟨hwf', hfresh, hrefs, hstored, hafter⟩ := hc.step hwf
    refine ⟨hwf', fun f hf => hrefs f fun he => hf (by simp [Thread.fileIDs, he]),
      fun f hf a => hstored f a fun he => hf (by simp [Thread.fileIDs, he.1]),
      fun f hf => mem_map_ite_cons _ (c.step_fileID _) hf, ?_,
      fun f a => foldl_ite_cons _ _ _ _
        (fun hpc => FrameMetadataCall.storedAfter_done hpc f a _) (hafter f a)⟩
    dsimp only
    split
    · exact Thread.storeFresh_frameMetadata hcs _
    · exact ⟨hfresh, hcs⟩
  | counts calls | frames calls | reports calls =>
    obtain _ | ⟨c, cs⟩ := calls
    · cases hstep
    cases hstep
    exact ⟨hwf, fun _ _ => rfl, fun _ _ _ => rfl, fun _ h => (List.not_mem_nil _ h).elim, trivial,
      fun _ _ => rfl⟩

/-! ### Every thread, over a run -/

/-- What the model keeps while no two threads make `FrameMetadata` calls for one file: the store
is well-formed and every thread's reference is still its file's. -/
structure World.FilesIndependent (w : World TraceHash FileID) : Prop where
  wellFormed : w.shared.store.WellFormed
  disjoint : ∀ ⦃i j : Nat⦄ ⦃t t' : Thread TraceHash FileID⦄, i ≠ j → w.threads[i]? = some t →
    w.threads[j]? = some t' → ∀ f ∈ t.fileIDs, f ∉ t'.fileIDs
  fresh : ∀ t ∈ w.threads, t.StoreFresh w.shared.store

/-- A step keeps the invariant and leaves unchanged, at every address of every file, what the
threads will do there. -/
theorem World.FilesIndependent.step {w w' : World TraceHash FileID} (hw : w.FilesIndependent)
    {i : Nat} (hstep : w.step i = some w') :
    w'.FilesIndependent ∧ ∀ f a, w'.storedAfter f a = w.storedAfter f a := by
  unfold World.step at hstep
  split at hstep
  · cases hstep
  · next t hi =>
    obtain ⟨next, hnext, rfl⟩ := Option.map_eq_some'.mp hstep
    obtain ⟨hwf, hrefs, hframe, hsub, hfresh, hafter⟩ :=
      (hw.fresh t (List.getElem?_mem hi)).step hw.wellFormed hnext
    have hothers : ∀ ⦃j t'⦄, j ≠ i → w.threads[j]? = some t' → ∀ f ∈ t.fileIDs, f ∉ t'.fileIDs :=
      fun j t' hj ht' => hw.disjoint (Ne.symm hj) hi ht'
    refine ⟨⟨hwf, ?_, ?_⟩, fun f a => ?_⟩
    · intro j k t₁ t₂ hjk h₁ h₂ f hf₁ hf₂
      rcases getElem?_set_eq_some h₁ with ⟨rfl, rfl⟩ | ⟨hj, h₁⟩ <;>
        rcases getElem?_set_eq_some h₂ with ⟨rfl, rfl⟩ | ⟨hk, h₂⟩
      · exact hjk rfl
      · exact hothers (Ne.symm hk) h₂ f (hsub f hf₁) hf₂
      · exact hothers (Ne.symm hj) h₁ f (hsub f hf₂) hf₁
      · exact hw.disjoint hjk h₁ h₂ f hf₁ hf₂
    · intro t' ht'
      obtain ⟨j, hj⟩ := List.mem_iff_getElem?.mp ht'
      rcases getElem?_set_eq_some hj with ⟨rfl, rfl⟩ | ⟨hj, hj'⟩
      · exact hfresh
      · exact (hw.fresh t' (List.getElem?_mem hj')).of_refs fun f hf =>
          hrefs f fun hf' => hothers (Ne.symm hj) hj' f hf' hf
    · unfold World.storedAfter
      by_cases hf : f ∈ t.fileIDs
      · have hlt : i < w.threads.length := (List.getElem?_eq_some_iff.mp hi).1
        rw [foldl_eq_owner (List.getElem?_set_self hlt) fun j t' hj ht' =>
            Thread.storedAfter_of_not_mem
              (hothers hj (by rwa [List.getElem?_set_ne (Ne.symm hj)] at ht') f hf) a,
          foldl_eq_owner hi (fun j t' hj ht' => Thread.storedAfter_of_not_mem
            (hothers hj ht' f hf) a), hafter f a]
      · rw [hframe f hf a, foldl_set_eq hi fun v => by
          rw [Thread.storedAfter_of_not_mem hf, Thread.storedAfter_of_not_mem fun h' => hf (hsub f h')]]

theorem World.FilesIndependent.run :
    ∀ (schedule : List Nat) {w w' : World TraceHash FileID}, w.FilesIndependent →
      w.run schedule = some w' → w'.FilesIndependent ∧ ∀ f a, w'.storedAfter f a = w.storedAfter f a
  | [], _, _, hw, hrun => by
    cases hrun
    exact ⟨hw, fun _ _ => rfl⟩
  | i :: schedule, _, _, hw, hrun => by
    obtain ⟨w₁, h₁, hrest⟩ := Option.bind_eq_some.mp hrun
    obtain ⟨hw₁, he₁⟩ := hw.step h₁
    obtain ⟨hw', he'⟩ := World.FilesIndependent.run schedule hw₁ hrest
    exact ⟨hw', fun f a => (he' f a).trans (he₁ f a)⟩

/-! ### The sequential calls -/

/-- The sequential `FrameMetadata` calls of a thread that has not started do, at every address of
every file, what the thread will do. -/
theorem Thread.FrameMetadataUnstarted.run_storedSource {t : Thread TraceHash FileID}
    (ht : t.FrameMetadataUnstarted) (r : OTLPReporter TraceHash FileID) (f : FileID)
    (a : AddressOrLineno) :
    storedSource (run r t.frameMetadataCalls).1 f a = t.storedAfter f a (storedSource r f a) := by
  match t, ht with
  | .frameMetadata calls, ht =>
    induction calls generalizing r with
    | nil => rfl
    | cons c cs ih =>
      have hpc := ht c (List.mem_cons_self _ _)
      refine (ih _ fun c' hc' => ht c' (List.mem_cons_of_mem _ hc')).trans (congrArg _ ?_)
      dsimp only [Call.apply, FrameMetadataCall.storedAfter]
      rw [frameMetadata_stored, hpc]
      split_ifs with hkey
      · obtain ⟨rfl, rfl⟩ := hkey
        rfl
      · rfl
  | .counts _, _ | .frames _, _ | .reports _, _ => rfl

theorem run_flatMap_storedSource (f : FileID) (a : AddressOrLineno) :
    ∀ (threads : List (Thread TraceHash FileID)) (r : OTLPReporter TraceHash FileID),
      (∀ t ∈ threads, t.FrameMetadataUnstarted) →
      storedSource (run r (threads.flatMap Thread.frameMetadataCalls)).1 f a =
        threads.foldl (fun v t => t.storedAfter f a v) (storedSource r f a)
  | [], _, _ => rfl
  | t :: ts, r, hts => by
    rw [List.flatMap_cons, run_append_fst,
      run_flatMap_storedSource f a ts _ fun t' ht' => hts t' (List.mem_cons_of_mem _ ht'),
      (hts t (List.mem_cons_self _ _)).run_storedSource, List.foldl_cons]

/-- When no two threads make `FrameMetadata` calls for the same file, every interleaving of the
calls' operations that completes them leaves the store holding, at every address of every file,
what the sequential `FrameMetadata` calls leave in the frames cache, thread after thread. The
other threads may run alongside. The frames cache does not evict here. -/
theorem run_stored_disjointFiles {w w' : World TraceHash FileID} {schedule : List Nat}
    {r : OTLPReporter TraceHash FileID} (hwf : w.shared.store.WellFormed)
    (hrep : ∀ f a, w.shared.store.stored f a = storedSource r f a)
    (hunstarted : ∀ t ∈ w.threads, t.FrameMetadataUnstarted)
    (hdisjoint : (w.threads.map Thread.fileIDs).Pairwise fun fs fs' => ∀ f ∈ fs, f ∉ fs')
    (hrun : w.run schedule = some w') (hfinished : w'.finished) (f : FileID) (a : AddressOrLineno) :
    w'.shared.store.stored f a =
      storedSource (run r (w.threads.flatMap Thread.frameMetadataCalls)).1 f a := by
  obtain ⟨-, hafter⟩ := World.FilesIndependent.run schedule
    ⟨hwf, disjoint_of_pairwise Thread.fileIDs hdisjoint,
      fun t ht => (hunstarted t ht).storeFresh _⟩ hrun
  rw [run_flatMap_storedSource f a _ _ hunstarted, ← World.storedAfter_of_finished hfinished,
    hafter f a, World.storedAfter, hrep]

theorem run_stored_disjointFiles_twoFiles :
    let w₀ : World Nat Nat := ⟨{ reporter := startOTLP "hash", store := ⟨∅, []⟩ },
      [.frameMetadata [{ fileID := 1, addressOrLine := 4096, lineNumber := 12, functionOffset := 0,
                         functionName := "main", filePath := "main.py" },
                       { fileID := 1, addressOrLine := 8192, lineNumber := 30, functionOffset := 0,
                         functionName := "helper", filePath := "" }],
       .frameMetadata [{ fileID := 2, addressOrLine := 4096, lineNumber := 7, functionOffset := 0,
                         functionName := "run", filePath := "lib.py" }]]⟩
    ∃ w, w₀.run [0, 1, 0, 1, 0, 0] = some w ∧ w.finished ∧ ∀ f a, w.shared.store.stored f a =
      storedSource (run (startOTLP "hash") (w₀.threads.flatMap Thread.frameMetadataCalls)).1 f a := by
  intro w₀
  have hunstarted : ∀ t ∈ w₀.threads, t.FrameMetadataUnstarted := by
    intro t ht
    simp only [w₀, List.mem_cons, List.mem_singleton, List.not_mem_nil, or_false] at ht
    rcases ht with rfl | rfl <;> simp [Thread.FrameMetadataUnstarted]
  obtain ⟨w, hw, hfinished⟩ := Option.map_eq_some'.mp
    (show (w₀.run [0, 1, 0, 1, 0, 0]).map World.finished = some true by decide)
  exact ⟨w, hw, hfinished, run_stored_disjointFiles
    ⟨fun _ _ h => by simp at h, fun _ _ _ h => by simp at h⟩
    (fun f a => by simp [w₀, FrameStore.stored, storedSource, startOTLP]) hunstarted (by decide)
    hw hfinished⟩

end ProfilingAgent.Reporter
