import ProfilingAgent.Uploader.Admission

/-!
# A round that completes

The protocol results bound what a run sends; this module shows the bound is reached. From any
state a run reaches from `NewParcaSymbolUploader`, an `Upload` of a FileID never marked before,
whose goroutine then runs its three steps with every call succeeding, sends the whole round for
the FileID and records in the retry cache, for good, that it is done.

A FileID that was never marked has no retry entry (`Admission`), so `Upload` goes past both of
its checks; and with every outcome a success, each `if err != nil` of `attemptUpload` falls
through.
-/

namespace ProfilingAgent.Uploader

variable {FileID : Type} [DecidableEq FileID] (env : Env FileID)

/-! ### An attempt that goes all the way -/

/-- The outcomes of an attempt that goes all the way: the service asks for the file and gives a
signed URL, the `PUT` gets a 2xx status, and every other call and file operation succeeds. -/
structure Replies.Succeed (r : Replies) (url uploadId : String) : Prop where
  shouldInitiateUpload : ∃ reason, r.shouldInitiateUpload = .ok ⟨true, reason⟩
  openOriginal : r.openOriginal = none
  stat : r.stat = none
  statCached : r.statCached = none
  openCached : r.openCached = none
  create : r.create = none
  onlyKeepDebug : r.onlyKeepDebug = none
  seek : r.seek = none
  initiateUpload : r.initiateUpload = .ok (some ⟨uploadId, .signedURL, url⟩)
  newRequest : r.newRequest = none
  put : responseError r.put = none
  markUploadFinished : r.markUploadFinished = none

section Succeed

variable {r : Replies} {url uploadId : String}

theorem openExecutable_of_succeed (hr : r.Succeed url uploadId) (u : ParcaSymbolUploader FileID)
    (h : Host FileID) {fileID : FileID} (path : String)
    (hpos : 0 < (env.original fileID).length) :
    openExecutable env u h fileID path r =
      (u, h, .upload (.original path) (env.original fileID).length) := by
  simp [openExecutable, hr.openOriginal, hr.stat, hpos.ne']

/-- The file is found through the cache directory, which holds it already or gets it now. -/
theorem openExtraction_of_succeed (hr : r.Succeed url uploadId) (u : ParcaSymbolUploader FileID)
    {h : Host FileID} (hext : h.Extracted env) {fileID : FileID}
    (hpos : 0 < (env.debugInfo fileID).length) :
    ∃ h', openExtraction env u h fileID r =
        some (u, h', .upload (.cached fileID) (env.debugInfo fileID).length) ∧
      h'.requests = h.requests := by
  cases hfile : h.files.lookup fileID with
  | some data =>
    obtain ⟨rfl, -⟩ := hext fileID data hfile
    exact ⟨h, by simp [openExtraction, openCachedFile, hr.statCached, hfile, hr.openCached, hr.stat,
      hpos.ne'], rfl⟩
  | none =>
    exact ⟨(h.write fileID []).write fileID (env.debugInfo fileID),
      by simp [openExtraction, extractDebugInfo, hr.statCached, hfile, hr.create, hr.openOriginal,
        hr.onlyKeepDebug, hr.seek, hr.stat, hpos.ne'], rfl⟩

theorem sendFile_of_succeed (hr : r.Succeed url uploadId) (u : ParcaSymbolUploader FileID)
    (h : Host FileID) (fileID : FileID) (buildID : String) (f : File FileID) (size : Nat) :
    sendFile env u h fileID buildID f size r =
      (u.noRetry fileID,
        (((h.send fileID (.initiateUpload buildID (env.fileIDString fileID) size)).send fileID
          (.put url size)).send fileID (.markUploadFinished buildID uploadId)).remove env u.tmp f
            r.remove,
        none) := by
  simp [sendFile, uploadViaSignedURL, hr.initiateUpload, hr.newRequest, hr.put,
    hr.markUploadFinished]

/-- An attempt whose calls all succeed, for a FileID whose upload is not empty and with a cache
directory of complete extractions, sends one whole round and records the FileID as done. -/
theorem attemptUpload_of_succeed (hr : r.Succeed url uploadId) {u : ParcaSymbolUploader FileID}
    {h : Host FileID} (hext : h.Extracted env) {fileID : FileID} (path buildID : String)
    (hpos : 0 < (if u.keepTextSection then env.original fileID else env.debugInfo fileID).length) :
    ∃ h', attemptUpload env u h fileID path buildID r = some (u.noRetry fileID, h', none) ∧
      h'.requests = h.requests ++ (uploadRound buildID (env.fileIDString fileID)
        (if u.keepTextSection then env.original fileID else env.debugInfo fileID).length url
          uploadId).map (Prod.mk fileID) := by
  obtain ⟨reason, hshould⟩ := hr.shouldInitiateUpload
  have hopened : ∃ f h₁, (if u.keepTextSection then
        some (openExecutable env u (h.send fileID (.shouldInitiateUpload buildID)) fileID path r)
      else openExtraction env u (h.send fileID (.shouldInitiateUpload buildID)) fileID r) =
        some (u, h₁, .upload f
          (if u.keepTextSection then env.original fileID else env.debugInfo fileID).length) ∧
      h₁.requests = h.requests ++ [(fileID, .shouldInitiateUpload buildID)] := by
    cases hkeep : u.keepTextSection with
    | true =>
      rw [hkeep, if_pos rfl] at hpos
      simp only [↓reduceIte, openExecutable_of_succeed env hr _ _ _ hpos]
      exact ⟨_, _, rfl, rfl⟩
    | false =>
      rw [hkeep, if_neg Bool.false_ne_true] at hpos
      obtain ⟨h₁, hopen, hreq⟩ :=
        openExtraction_of_succeed env hr u (h := h.send fileID _) hext hpos
      simp only [Bool.false_eq_true, ↓reduceIte]
      exact ⟨_, h₁, hopen, hreq⟩
  obtain ⟨f, h₁, hopen, hreq⟩ := hopened
  simp only [attemptUpload, hshould, Bool.not_true, Bool.false_eq_true, if_false]
  rw [hopen]
  simp only [Option.map_some', sendFile_of_succeed env hr]
  exact ⟨_, rfl, by simp [hreq, uploadRound]⟩

end Succeed

/-! ### The round of a new FileID -/

/-- From any state of a run from `NewParcaSymbolUploader` whose removals succeed, an `Upload` of
a FileID never marked before, for a non-empty build ID, whose goroutine then runs to its end with
every call succeeding, sends the FileID's one round in full: `ShouldInitiateUpload`,
`InitiateUpload` with the length of what the mode uploads, the `PUT` and `MarkUploadFinished`. It
records in the retry cache an entry that never expires saying the FileID is done, and leaves the
goroutines as they were. -/
theorem run_upload_completesRound (keepTextSection : Bool) (cacheDirectory : String) (now : Nat)
    (files : Cache FileID Data) (events : List (Event FileID)) (w : World FileID)
    (hremove : ∀ e ∈ events, e.removeSucceeds = true)
    (hrun : (newParcaSymbolUploader keepTextSection cacheDirectory now files fun _ => false).run
      env events = some w)
    {fileID : FileID} (hunmarked : w.uploader.singleflight.lookup fileID = none)
    (path : String) {buildID : String} (hbuildID : buildID ≠ "")
    {r : Replies} {url uploadId : String} (hr : r.Succeed url uploadId)
    (hpos : 0 < (if keepTextSection then env.original fileID else env.debugInfo fileID).length) :
    ∃ w', w.run env [.upload fileID path buildID, .step w.attempts.length r,
        .step w.attempts.length r, .step w.attempts.length r] = some w' ∧
      w'.host.requestsOf fileID = uploadRound buildID (env.fileIDString fileID)
        (if keepTextSection then env.original fileID else env.debugInfo fileID).length url
          uploadId ∧
      w'.uploader.retry.lookup fileID = some ⟨false, 0⟩ ∧ w'.attempts = w.attempts := by
  obtain ⟨hprotocol, hsizes, hretries⟩ := World.run_induction env
    (fun w => w.Protocol env ∧ w.SizesDeclared env keepTextSection ∧ w.RetriesMarked)
    (fun e => e.removeSucceeds = true)
    (fun _ _ _ hq hw hstep => ⟨hw.1.step env hstep, hw.2.1.step env hq hstep,
      hw.2.2.step env hw.1.singleFlight hstep⟩)
    events _ w hremove ⟨protocol_newParcaSymbolUploader env _ _ _ _ _,
      sizesDeclared_newParcaSymbolUploader env _ _ _ _, fun _ _ => rfl⟩ hrun
  have hupload := upload_of_unmarked (hretries fileID hunmarked) hunmarked w.host.now hbuildID
  rw [← hsizes.mode] at hpos
  obtain ⟨h', hattempt, hreq⟩ := attemptUpload_of_succeed env hr
    (u := { w.uploader with singleflight := w.uploader.singleflight.add fileID true })
    hsizes.extracted path buildID hpos
  refine ⟨⟨(({ w.uploader with singleflight := w.uploader.singleflight.add fileID true }.noRetry
    fileID).clearMark fileID).clearMark fileID, h', w.attempts⟩,
    by simp [World.run, World.step, hupload, hattempt,
      List.eraseIdx_append_of_length_le (Nat.le_refl _)], ?_, ?_, rfl⟩
  · rw [Host.requestsOf_of_append hreq, hprotocol.unmarked fileID hunmarked, if_pos rfl,
      List.nil_append, ← hsizes.mode]
  · simp [ParcaSymbolUploader.clearMark, ParcaSymbolUploader.noRetry, Lru.add]

theorem run_upload_completesRound_secondFile :
    ∃ w w', freshUploader.run elfEnv [.upload 2 "/bin/other" "b2", .step 0 Replies.succeeding] =
        some w ∧
      w.run elfEnv [.upload 1 "/bin/app" "b1", .step 1 Replies.succeeding,
        .step 1 Replies.succeeding, .step 1 Replies.succeeding] = some w' ∧
      w'.host.requestsOf 1 = uploadRound "b1" "1" 4 "signed-url-1" "upload-1" ∧
      w'.uploader.retry.lookup 1 = some ⟨false, 0⟩ ∧ w'.attempts = w.attempts := by
  obtain ⟨w, hw, hstate⟩ := Option.map_eq_some'.mp
    (show (freshUploader.run elfEnv [.upload 2 "/bin/other" "b2", .step 0 Replies.succeeding]).map
      (fun w => (w.uploader.singleflight.lookup 1, w.attempts.length)) = some (none, 1) by decide)
  obtain ⟨hunmarked, hlength⟩ := Prod.mk.inj hstate
  have hsucceed : Replies.succeeding.Succeed "signed-url-1" "upload-1" :=
    ⟨⟨"", rfl⟩, rfl, rfl, rfl, rfl, rfl, rfl, rfl, rfl, rfl, rfl, rfl⟩
  have hround := run_upload_completesRound elfEnv false "/var/cache" 0 ∅ _ w (by decide) hw
    hunmarked "/bin/app" (show "b1" ≠ "" by decide) hsucceed (by decide)
  rw [hlength] at hround
  obtain ⟨w', hrun, hround⟩ := hround
  exact ⟨w, w', hw, hrun, hround⟩

end ProfilingAgent.Uploader
