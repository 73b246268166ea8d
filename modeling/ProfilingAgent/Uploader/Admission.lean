import ProfilingAgent.Uploader.Protocol

/-!
# Which `Upload` starts an attempt

`Upload` returns early when the retry cache says the file is done, or when the singleflight cache
holds any entry for the FileID. Over a run, the second check decides alone. An attempt writes the
retry entry of its own FileID and no other, and an attempt runs only for a marked FileID, so a
FileID that was never marked has no retry entry. Marks are never removed: the goroutine's deferred
`Add` writes `false` over the mark, and `Upload` stops on any entry. So an `Upload` starts an
attempt exactly when it names a build ID and no earlier `Upload` named the FileID with one. Each
FileID is attempted once, at its first `Upload`, whatever that attempt's outcome, and the retry
cache with its five-minute cooldown never changes which `Upload` starts one.
-/

namespace ProfilingAgent.Uploader

variable {FileID : Type} [DecidableEq FileID] (env : Env FileID)

/-! ### What an attempt writes -/

/-- Every retry entry but that of `fileID` is as it was. -/
def RetryAt (fileID : FileID) (u u' : ParcaSymbolUploader FileID) : Prop :=
  ∀ f, f ≠ fileID → u'.retry.lookup f = u.retry.lookup f

theorem retryAt_noRetry (u : ParcaSymbolUploader FileID) (fileID : FileID) :
    RetryAt fileID u (u.noRetry fileID) := fun _ hf =>
  AList.lookup_insert_ne hf

theorem retryAt_cooldownRetry (u : ParcaSymbolUploader FileID) (now : Nat) (fileID : FileID) :
    RetryAt fileID u (u.cooldownRetry now fileID) := fun _ hf =>
  AList.lookup_insert_ne hf

theorem RetryAt.trans {fileID : FileID} {u u' u'' : ParcaSymbolUploader FileID}
    (h : RetryAt fileID u u') (h' : RetryAt fileID u' u'') : RetryAt fileID u u'' :=
  fun f hf => (h' f hf).trans (h f hf)

theorem openExecutable_retryAt (u : ParcaSymbolUploader FileID) (h : Host FileID)
    (fileID : FileID) (path : String) (r : Replies) :
    RetryAt fileID u (openExecutable env u h fileID path r).1 := by
  dsimp only [openExecutable]
  repeat' split
  all_goals first | exact fun _ _ => rfl | exact retryAt_noRetry u fileID

theorem openExtraction_retryAt {u : ParcaSymbolUploader FileID} {h : Host FileID}
    {fileID : FileID} {r : Replies} {res : ParcaSymbolUploader FileID × Host FileID × Next FileID}
    (hopen : openExtraction env u h fileID r = some res) : RetryAt fileID u res.1 := by
  dsimp only [openExtraction, openCachedFile, extractDebugInfo] at hopen
  repeat' split at hopen
  all_goals cases hopen
  all_goals first | exact fun _ _ => rfl | exact retryAt_cooldownRetry u _ fileID

theorem sendFile_retryAt (u : ParcaSymbolUploader FileID) (h : Host FileID) (fileID : FileID)
    (buildID : String) (f : File FileID) (size : Nat) (r : Replies) :
    RetryAt fileID u (sendFile env u h fileID buildID f size r).1 := by
  dsimp only [sendFile]
  repeat' split
  all_goals first | exact fun _ _ => rfl | exact retryAt_noRetry u fileID

/-- An attempt writes the retry entry of its own FileID and no other. -/
theorem attemptUpload_retryAt {u : ParcaSymbolUploader FileID} {h : Host FileID}
    {fileID : FileID} {path buildID : String} {r : Replies}
    {res : ParcaSymbolUploader FileID × Host FileID × Option String}
    (hattempt : attemptUpload env u h fileID path buildID r = some res) :
    RetryAt fileID u res.1 := by
  obtain ⟨-, hu | hu | hu⟩ | ⟨opened, hopen, hres⟩ := attemptUpload_eq_some env hattempt
  · exact hu ▸ fun _ _ => rfl
  · exact hu ▸ retryAt_noRetry u fileID
  · exact hu ▸ retryAt_cooldownRetry u _ fileID
  have hu₁ : RetryAt fileID u opened.1 := by
    rcases hopen with ⟨-, rfl⟩ | ⟨-, hopen⟩
    exacts [openExecutable_retryAt env u _ fileID path r, openExtraction_retryAt env hopen]
  rcases hres with ⟨err, -, rfl⟩ | ⟨f, size, -, rfl⟩
  exacts [hu₁, hu₁.trans (sendFile_retryAt env _ _ fileID buildID f size r)]


/-! ### Retry entries over a run -/

/-- A `Get` only removes an entry. -/
theorem Lru.lookup_get_snd {c : Lru FileID Bool} {key k : FileID} (hk : c.lookup k = none)
    (now : Nat) : (c.get now key).2.lookup k = none := by
  unfold Lru.get
  split
  · split_ifs
    · by_cases hkey : k = key
      · rw [hkey, AList.lookup_erase]
      · rwa [AList.lookup_erase_ne hkey]
    · exact hk
  · exact hk

/-- `Upload` adds no retry entry. -/
theorem upload_retry {u : ParcaSymbolUploader FileID} {k : FileID} (hk : u.retry.lookup k = none)
    (now : Nat) (fileID : FileID) (buildID : String) :
    (upload u now fileID buildID).1.retry.lookup k = none := by
  unfold upload
  split
  · exact hk
  · dsimp only
    split
    · exact Lru.lookup_get_snd hk now
    · split <;> exact Lru.lookup_get_snd hk now

/-- Only a FileID that was marked has a retry entry: the retry cache is written by attempts
alone, and an attempt runs for a marked FileID. -/
def World.RetriesMarked (w : World FileID) : Prop :=
  ∀ fileID, w.uploader.singleflight.lookup fileID = none → w.uploader.retry.lookup fileID = none

theorem World.RetriesMarked.step {w w' : World FileID} {e : Event FileID}
    (hinv : w.RetriesMarked) (hsf : w.SingleFlight) (hstep : w.step env e = some w') :
    w'.RetriesMarked := by
  cases e with
  | upload fileID path buildID =>
    obtain ⟨-, hu, -⟩ := World.step_upload env hstep
    obtain ⟨hmarks, -⟩ := upload_singleflight hsf.never_expires w.host.now fileID buildID
    intro f hf
    rw [hu] at hf ⊢
    rw [hmarks] at hf
    refine upload_retry (hinv f ?_) _ _ _
    split at hf
    · exact not_ne_iff.mp fun h => lookup_add_ne_none true h hf
    · exact hf
  | tick ms =>
    cases hstep
    exact hinv
  | step i r =>
    obtain ⟨a, ha, ⟨-, res, hattempt, rfl⟩ | ⟨-, rfl⟩ | ⟨-, rfl⟩⟩ := World.step_step env hstep
    · intro f hf
      have hmarks : res.1.singleflight = w.uploader.singleflight := by
        rw [attemptUpload_retryOnly env hattempt]
      rw [hmarks] at hf
      have hne : f ≠ a.fileID := fun h =>
        hsf.marked a.fileID (List.mem_map_of_mem _ (List.getElem?_mem ha)) (h ▸ hf)
      rw [attemptUpload_retryAt env hattempt f hne]
      exact hinv f hf
    all_goals exact fun f hf => hinv f (not_ne_iff.mp fun h => lookup_add_ne_none false h hf)

/-! ### Which `Upload` starts an attempt -/

/-- `Upload` of a FileID with neither a retry entry nor a mark, for a non-empty build ID, marks
it and starts a goroutine. -/
theorem upload_of_unmarked {u : ParcaSymbolUploader FileID} {fileID : FileID}
    (hretry : u.retry.lookup fileID = none) (hmark : u.singleflight.lookup fileID = none)
    (now : Nat) {buildID : String} (hbuildID : buildID ≠ "") :
    upload u now fileID buildID =
      ({ u with singleflight := u.singleflight.add fileID true }, true) := by
  simp [upload, hbuildID, Lru.get_of_lookup_eq_none hretry, Lru.get_of_lookup_eq_none hmark]

/-- With marks that never expire and no retry entry for an unmarked FileID, `Upload` starts an
attempt exactly when it names a build ID and the FileID is unmarked. -/
theorem upload_started_iff {u : ParcaSymbolUploader FileID} (hexpire : NeverExpires u.singleflight)
    {fileID : FileID} (hretry : u.singleflight.lookup fileID = none → u.retry.lookup fileID = none)
    (now : Nat) (buildID : String) :
    (upload u now fileID buildID).2 = true ↔ buildID ≠ "" ∧ u.singleflight.lookup fileID = none := by
  constructor
  · intro hstarted
    exact ⟨upload_buildID u now fileID buildID hstarted,
      (upload_singleflight hexpire now fileID buildID).2 hstarted⟩
  · rintro ⟨hbuildID, hmark⟩
    rw [upload_of_unmarked (hretry hmark) hmark now hbuildID]

/-- The FileID an event asks to upload with a build ID. -/
def Event.requested {FileID : Type} : Event FileID → Option FileID
  | .upload fileID _ buildID => if buildID = "" then none else some fileID
  | _ => none

/-- What a run keeps for `Upload` to start attempts as the abstract uploader does: single flight,
retry entries for marked FileIDs only, and a FileID is marked exactly when an earlier `Upload`
named it with a build ID. -/
structure World.Admitted (events : List (Event FileID)) (w : World FileID) : Prop where
  singleFlight : w.SingleFlight
  retries : w.RetriesMarked
  marked : ∀ fileID,
    w.uploader.singleflight.lookup fileID ≠ none ↔ fileID ∈ events.filterMap Event.requested

theorem World.Admitted.step {events : List (Event FileID)} {w w' : World FileID}
    {e : Event FileID} (hinv : w.Admitted events) (hstep : w.step env e = some w') :
    w'.Admitted (events ++ [e]) := by
  refine ⟨hinv.singleFlight.step env hstep, hinv.retries.step env hinv.singleFlight hstep,
    fun f => ?_⟩
  rw [List.filterMap_append, List.mem_append, ← hinv.marked f]
  cases e with
  | upload fileID path buildID =>
    obtain ⟨-, hu, -⟩ := World.step_upload env hstep
    obtain ⟨hmarks, -⟩ :=
      upload_singleflight hinv.singleFlight.never_expires w.host.now fileID buildID
    have hiff := upload_started_iff hinv.singleFlight.never_expires (hinv.retries fileID)
      w.host.now buildID
    rw [hu, hmarks]
    by_cases hbuildID : buildID = ""
    · have hnot : (upload w.uploader w.host.now fileID buildID).2 = false := by
        simpa [hbuildID] using hiff
      have hnil : [Event.upload fileID path buildID].filterMap Event.requested = [] := by
        simp [Event.requested, hbuildID]
      rw [hnot, hnil]
      simp
    · have hone : [Event.upload fileID path buildID].filterMap Event.requested = [fileID] := by
        simp [Event.requested, hbuildID]
      rw [hone, List.mem_singleton]
      split
      · by_cases hf : f = fileID
        · simp [hf, Lru.add]
        · simp [hf, Lru.add, AList.lookup_insert_ne hf]
      · next hstarted =>
        have hmarked : w.uploader.singleflight.lookup fileID ≠ none := fun hnone =>
          hstarted (hiff.mpr ⟨hbuildID, hnone⟩)
        constructor
        · exact .inl
        · rintro (h | rfl)
          exacts [h, hmarked]
  | tick ms =>
    cases hstep
    exact (or_iff_left (List.not_mem_nil f)).symm
  | step i r =>
    refine Iff.trans ?_ (or_iff_left (List.not_mem_nil f)).symm
    obtain ⟨a, ha, ⟨-, res, hattempt, rfl⟩ | ⟨-, rfl⟩ | ⟨-, rfl⟩⟩ := World.step_step env hstep
    · rw [attemptUpload_retryOnly env hattempt]
    all_goals
      have hmarked := hinv.singleFlight.marked a.fileID
        (List.mem_map_of_mem _ (List.getElem?_mem ha))
      by_cases hf : f = a.fileID
      · subst hf
        simp [ParcaSymbolUploader.clearMark, Lru.add, hmarked]
      · rw [ParcaSymbolUploader.clearMark, Lru.add, AList.lookup_insert_ne hf]

theorem World.Admitted.run :
    ∀ (es : List (Event FileID)) {events : List (Event FileID)} {w w' : World FileID},
      w.Admitted events → w.run env es = some w' → w'.Admitted (events ++ es)
  | [], events, _, _, hinv, hrun => by
    cases hrun
    rw [List.append_nil]
    exact hinv
  | e :: es, events, _, _, hinv, hrun => by
    obtain ⟨w₁, hstep, hrest⟩ := World.run_cons env hrun
    rw [← List.singleton_append, ← List.append_assoc]
    exact World.Admitted.run es (hinv.step env hstep) hrest

/-- Over any run from `NewParcaSymbolUploader`, in any interleaving and whatever the outcomes of
its attempts (with `Upload` calls one at a time and neither cache evicting), an `Upload` starts an attempt exactly when it names a build ID and no earlier
`Upload` named the FileID with one. Each FileID is attempted once, at its first `Upload`, and
the retry cache never decides. -/
theorem run_upload_started_iff (keepTextSection : Bool) (cacheDirectory : String) (now : Nat)
    (files : Cache FileID Data) (removeFails : FileID → Bool) (events : List (Event FileID))
    (w : World FileID)
    (hrun : (newParcaSymbolUploader keepTextSection cacheDirectory now files removeFails).run env
      events = some w)
    (fileID : FileID) (buildID : String) :
    (upload w.uploader w.host.now fileID buildID).2 = true ↔
      buildID ≠ "" ∧ fileID ∉ events.filterMap Event.requested := by
  have hinit : (newParcaSymbolUploader keepTextSection cacheDirectory now files
      removeFails).Admitted [] :=
    ⟨singleFlight_newParcaSymbolUploader keepTextSection cacheDirectory now files removeFails,
      fun _ _ => rfl, fun _ => by simp [newParcaSymbolUploader]⟩
  have hinv : w.Admitted events := by
    simpa using World.Admitted.run env events hinit hrun
  rw [upload_started_iff hinv.singleFlight.never_expires (hinv.retries fileID), ← hinv.marked,
    not_not]

theorem run_upload_started_iff_afterError :
    let failed : Replies := { Replies.succeeding with shouldInitiateUpload := .error "unavailable" }
    let events : List (Event Nat) :=
      [.upload 1 "/bin/app" "b1", .step 0 failed, .step 0 failed, .step 0 failed,
        .tick cooldown]
    ∃ w, freshUploader.run elfEnv events = some w ∧
      ((upload w.uploader w.host.now 1 "b1").2 = true ↔
        "b1" ≠ "" ∧ 1 ∉ events.filterMap Event.requested) ∧
      ((upload w.uploader w.host.now 2 "b2").2 = true ↔
        "b2" ≠ "" ∧ 2 ∉ events.filterMap Event.requested) := by
  intro failed events
  obtain ⟨w, hw⟩ : ∃ w, freshUploader.run elfEnv events = some w := ⟨_, rfl⟩
  exact ⟨w, hw, run_upload_started_iff elfEnv false "/var/cache" 0 ∅ _ events w hw 1 "b1",
    run_upload_started_iff elfEnv false "/var/cache" 0 ∅ _ events w hw 2 "b2"⟩

end ProfilingAgent.Uploader
