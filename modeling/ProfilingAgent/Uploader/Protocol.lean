import ProfilingAgent.Uploader.Run

/-!
# The debuginfo protocol over a run

An attempt talks to the debuginfo service in one order: `ShouldInitiateUpload`; then, when the
service asks for the file and a file of at least one byte is found, `InitiateUpload` with the
FileID's hash and the file's size, the `PUT` of that many bytes to the signed URL, and
`MarkUploadFinished` for the upload ID the service gave. Each reply may end the attempt there.

Over a run, the requests sent for a FileID are a prefix of one such round, whatever the
interleaving of `Upload` calls, goroutine steps and clock ticks. The reason is the singleflight
mark: `Upload` sets it before the goroutine starts, and the goroutine overwrites it with `false`
and never removes it, so a FileID is attempted at most once per process. When every removal
succeeds, the size an `InitiateUpload` declares is the length of the bytes the mode uploads: the
executable, or the complete output of `OnlyKeepDebug` on it.
-/

namespace ProfilingAgent.Uploader

/-- One round of the protocol for a file. -/
def uploadRound (buildID hash : String) (size : Nat) (url uploadId : String) : List Request :=
  [.shouldInitiateUpload buildID, .initiateUpload buildID hash size, .put url size,
    .markUploadFinished buildID uploadId]

/-- A prefix of one round for a file of hash `hash`. The round has one build ID, which is not
empty, and one size, of at least one byte. -/
def RoundPrefix (hash : String) (sent : List Request) : Prop :=
  ∃ buildID size url uploadId, buildID ≠ "" ∧ 0 < size ∧
    sent <+: uploadRound buildID hash size url uploadId

variable {FileID : Type} [DecidableEq FileID] (env : Env FileID)

/-- The requests sent for a FileID, in the order they were sent. -/
def Host.requestsOf (h : Host FileID) (fileID : FileID) : List Request :=
  (h.requests.filter fun q => q.1 = fileID).map Prod.snd

/-- Requests sent for `fileID` add to that FileID's requests and to no other's. -/
theorem Host.requestsOf_of_append {h h' : Host FileID} {fileID : FileID} {sent : List Request}
    (hreq : h'.requests = h.requests ++ sent.map (Prod.mk fileID)) (fileID' : FileID) :
    h'.requestsOf fileID' = h.requestsOf fileID' ++ if fileID = fileID' then sent else [] := by
  by_cases hf : fileID = fileID' <;>
    simp [Host.requestsOf, hreq, hf, List.filter_map, Function.comp_def]

/-! ### One attempt -/

/-- A file the text-section path finds holds the executable, and at least one byte of it. -/
theorem openExecutable_size (u : ParcaSymbolUploader FileID) (h : Host FileID) (fileID : FileID)
    (path : String) (r : Replies) {f : File FileID} {size : Nat}
    (hupload : (openExecutable env u h fileID path r).2.2 = .upload f size) :
    0 < size ∧ size = (env.original fileID).length := by
  revert hupload
  dsimp only [openExecutable]
  repeat' split
  all_goals intro hupload; cases hupload
  exact ⟨Nat.pos_of_ne_zero ‹_›, rfl⟩

/-- Finding the file through the cache directory sends nothing. A file it finds holds at least
one byte, and when the cache directory holds only complete extractions it holds exactly the
output of `OnlyKeepDebug`. -/
theorem openExtraction_sends {u : ParcaSymbolUploader FileID} {h : Host FileID} {fileID : FileID}
    {r : Replies} {res : ParcaSymbolUploader FileID × Host FileID × Next FileID}
    (hopen : openExtraction env u h fileID r = some res) :
    res.2.1.requests = h.requests ∧ ∀ f size, res.2.2 = .upload f size →
      0 < size ∧ (h.Extracted env → size = (env.debugInfo fileID).length) := by
  dsimp only [openExtraction, openCachedFile, extractDebugInfo] at hopen
  repeat' split at hopen
  all_goals cases hopen
  all_goals refine ⟨rfl, fun f size hupload => ?_⟩
  all_goals cases hupload
  · exact ⟨Nat.pos_of_ne_zero ‹_›, fun hext => congrArg List.length (hext fileID _ ‹_›).1⟩
  · exact ⟨Nat.pos_of_ne_zero ‹_›, fun _ => rfl⟩

/-- The upload announces the file with its hash and size, then goes on through the `PUT` of that
size and `MarkUploadFinished` as far as the replies let it. -/
theorem sendFile_sends (u : ParcaSymbolUploader FileID) (h : Host FileID) (fileID : FileID)
    (buildID : String) (f : File FileID) (size : Nat) (r : Replies) :
    ∃ url uploadId sent, sent <+: [.put url size, .markUploadFinished buildID uploadId] ∧
      (sendFile env u h fileID buildID f size r).2.1.requests =
        h.requests ++ (.initiateUpload buildID (env.fileIDString fileID) size :: sent).map
          (Prod.mk fileID) := by
  dsimp only [sendFile]
  split
  case h_3 instructions _ =>
    split
    · exact ⟨"", "", [], List.nil_prefix, by simp⟩
    have hput := uploadViaSignedURL_sent instructions.signedUrl size r
    split
    · exact ⟨instructions.signedUrl, "", _, hput.1.trans ⟨[.markUploadFinished buildID ""], rfl⟩,
        by simp⟩
    · rw [hput.2 ‹_›]
      split <;> exact ⟨instructions.signedUrl, instructions.uploadId,
        [.put _ _, .markUploadFinished _ _], List.prefix_refl _, by simp⟩
  all_goals exact ⟨"", "", [], List.nil_prefix, by simp⟩

/-- An attempt sends, under its own FileID, a prefix of one round for its build ID and its
FileID's hash, for a size of at least one byte. If the cache directory holds only complete
extractions, a size the attempt declares is the length of what the mode uploads. -/
theorem attemptUpload_sends {u : ParcaSymbolUploader FileID} {h : Host FileID}
    {fileID : FileID} {path buildID : String} {r : Replies}
    {res : ParcaSymbolUploader FileID × Host FileID × Option String}
    (hattempt : attemptUpload env u h fileID path buildID r = some res) :
    ∃ size url uploadId sent, 0 < size ∧
      sent <+: uploadRound buildID (env.fileIDString fileID) size url uploadId ∧
      res.2.1.requests = h.requests ++ sent.map (Prod.mk fileID) ∧
      (.initiateUpload buildID (env.fileIDString fileID) size ∈ sent → h.Extracted env →
        size = (if u.keepTextSection then env.original fileID else env.debugInfo fileID).length) := by
  obtain ⟨hsame, -⟩ | ⟨opened, hopen, hres⟩ := attemptUpload_eq_some env hattempt
  · exact ⟨1, "", "", [.shouldInitiateUpload buildID], Nat.one_pos, ⟨_, rfl⟩, by rw [hsame]; rfl,
      by simp⟩
  have hopened : opened.2.1.requests = h.requests ++ [(fileID, .shouldInitiateUpload buildID)] ∧
      ∀ f size, opened.2.2 = .upload f size → 0 < size ∧ (h.Extracted env →
        size = (if u.keepTextSection then env.original fileID else env.debugInfo fileID).length) := by
    rcases hopen with ⟨hkeep, rfl⟩ | ⟨hkeep, hopen⟩
    · refine ⟨by rw [(openExecutable_host env u _ fileID path r).1]; rfl, fun f size hupload => ?_⟩
      obtain ⟨hpos, hsize⟩ := openExecutable_size env u _ fileID path r hupload
      exact ⟨hpos, fun _ => by rw [hkeep, if_pos rfl, hsize]⟩
    · obtain ⟨hreq, hupload⟩ := openExtraction_sends env hopen
      refine ⟨hreq, fun f size hf => ?_⟩
      obtain ⟨hpos, hsize⟩ := hupload f size hf
      exact ⟨hpos, fun hext => by rw [hkeep, if_neg Bool.false_ne_true]; exact hsize hext⟩
  rcases hres with ⟨err, -, rfl⟩ | ⟨f, size, hupload, rfl⟩
  · exact ⟨1, "", "", [.shouldInitiateUpload buildID], Nat.one_pos, ⟨_, rfl⟩, hopened.1, by simp⟩
  · obtain ⟨hpos, hsize⟩ := hopened.2 f size hupload
    obtain ⟨url, uploadId, sent, hsent, hreq⟩ :=
      sendFile_sends env opened.1 opened.2.1 fileID buildID f size r
    refine ⟨size, url, uploadId, _, hpos, (List.prefix_cons_inj _).mpr
      ((List.prefix_cons_inj _).mpr hsent), ?_, fun _ => hsize⟩
    rw [hreq, hopened.1, List.append_assoc]
    rfl

/-! ### Runs -/

/-- `Upload` starts a goroutine only for a non-empty build ID. -/
theorem upload_buildID (u : ParcaSymbolUploader FileID) (now : Nat) (fileID : FileID)
    (buildID : String) (hstarted : (upload u now fileID buildID).2 = true) : buildID ≠ "" := by
  rintro rfl
  simp [upload] at hstarted

/-- What an `Upload` step does: the host is untouched, and a goroutine is added exactly when
`Upload` starts one. -/
theorem World.step_upload {w w' : World FileID} {fileID : FileID} {path buildID : String}
    (hstep : w.step env (.upload fileID path buildID) = some w') :
    w'.host = w.host ∧ w'.uploader = (upload w.uploader w.host.now fileID buildID).1 ∧
      w'.attempts = if (upload w.uploader w.host.now fileID buildID).2 then
        w.attempts ++ [⟨fileID, path, buildID, .start⟩] else w.attempts := by
  simp only [World.step] at hstep
  generalize upload w.uploader w.host.now fileID buildID = res at hstep ⊢
  obtain ⟨u, started⟩ := res
  cases hstep
  exact ⟨rfl, rfl, rfl⟩

/-- What the requests of a run keep: single flight, the build IDs of the goroutines, and per
FileID a prefix of one round, empty until the FileID's goroutine runs its attempt. -/
structure World.Protocol (w : World FileID) : Prop where
  singleFlight : w.SingleFlight
  /-- Every goroutine alive was started for a non-empty build ID. -/
  buildID : ∀ a ∈ w.attempts, a.buildID ≠ ""
  /-- A FileID that was never marked has sent nothing. -/
  unmarked : ∀ fileID, w.uploader.singleflight.lookup fileID = none → w.host.requestsOf fileID = []
  /-- A goroutine whose attempt is still to run has sent nothing for its FileID. -/
  pending : ∀ a ∈ w.attempts, a.pc = .start → w.host.requestsOf a.fileID = []
  /-- What each FileID has sent is a prefix of one round. -/
  round : ∀ fileID, RoundPrefix (env.fileIDString fileID) (w.host.requestsOf fileID)

theorem protocol_newParcaSymbolUploader (keepTextSection : Bool) (cacheDirectory : String)
    (now : Nat) (files : Cache FileID Data) (removeFails : FileID → Bool) :
    (newParcaSymbolUploader keepTextSection cacheDirectory now files removeFails).Protocol env where
  singleFlight := singleFlight_newParcaSymbolUploader keepTextSection cacheDirectory now files
    removeFails
  buildID _ h := by cases h
  unmarked _ _ := rfl
  pending _ h := by cases h
  round _ := ⟨"-", 1, "", "", by decide, Nat.one_pos, List.nil_prefix⟩

theorem World.Protocol.upload {w w' : World FileID} (hinv : w.Protocol env) {fileID : FileID}
    {path buildID : String} (hstep : w.step env (.upload fileID path buildID) = some w') :
    w'.Protocol env := by
  obtain ⟨hhost, hu, hattempts⟩ := World.step_upload env hstep
  obtain ⟨hsf, hfresh⟩ :=
    upload_singleflight hinv.singleFlight.never_expires w.host.now fileID buildID
  have hmarked : ∀ f, w.uploader.singleflight.lookup f ≠ none →
      w'.uploader.singleflight.lookup f ≠ none := fun f hf => by
    rw [hu, hsf]
    split
    exacts [lookup_add_ne_none true hf, hf]
  refine ⟨hinv.singleFlight.upload env fileID path buildID hstep, ?_,
    fun f hf => hhost ▸ hinv.unmarked f (not_ne_iff.mp fun h => hmarked f h hf), ?_,
    fun f => hhost ▸ hinv.round f⟩
  all_goals rw [hattempts]; split
  · intro a ha
    rcases List.mem_append.mp ha with ha | ha
    · exact hinv.buildID a ha
    · rw [List.mem_singleton.mp ha]
      exact upload_buildID _ _ _ _ ‹_›
  · exact hinv.buildID
  · intro a ha hpc
    rw [hhost]
    rcases List.mem_append.mp ha with ha | ha
    · exact hinv.pending a ha hpc
    · rw [List.mem_singleton.mp ha]
      exact hinv.unmarked fileID (hfresh ‹_›)
  · exact hhost ▸ hinv.pending

/-- A goroutine's deferred `Add`: the FileID stays marked, and the goroutines left are those
there were, one of them possibly past its attempt. -/
theorem World.Protocol.clearMark {w : World FileID} (hinv : w.Protocol env) {fileID : FileID}
    {attempts : List (Attempt FileID)}
    (hsf : World.SingleFlight { w with uploader := w.uploader.clearMark fileID, attempts })
    (hmem : ∀ b ∈ attempts, b ∈ w.attempts ∨ ∃ a ∈ w.attempts, b = { a with pc := .deferred }) :
    World.Protocol env { w with uploader := w.uploader.clearMark fileID, attempts } where
  singleFlight := hsf
  buildID b hb := by
    obtain hb | ⟨a, ha, rfl⟩ := hmem b hb
    exacts [hinv.buildID b hb, hinv.buildID a ha]
  unmarked f hf := hinv.unmarked f (not_ne_iff.mp fun h => lookup_add_ne_none false h hf)
  pending b hb hpc := by
    obtain hb | ⟨a, -, rfl⟩ := hmem b hb
    exacts [hinv.pending b hb hpc, nomatch hpc]
  round := hinv.round

/-- A goroutine runs its attempt: what it sends is its FileID's first requests, a prefix of one
round, and every other FileID's requests stay as they were. -/
theorem World.Protocol.attempt {w : World FileID} (hinv : w.Protocol env) {i : Nat}
    {a : Attempt FileID} (ha : w.attempts[i]? = some a) (hpc : a.pc = .start) {r : Replies}
    {res : ParcaSymbolUploader FileID × Host FileID × Option String}
    (hattempt : attemptUpload env w.uploader w.host a.fileID a.path a.buildID r = some res)
    (hsf : World.SingleFlight ⟨res.1, res.2.1, w.attempts.set i { a with pc := .returned }⟩) :
    World.Protocol env ⟨res.1, res.2.1, w.attempts.set i { a with pc := .returned }⟩ := by
  obtain ⟨size, url, uploadId, sent, hpos, hprefix, hreq, -⟩ := attemptUpload_sends env hattempt
  have hmarks : res.1.singleflight = w.uploader.singleflight := by
    rw [attemptUpload_retryOnly env hattempt]
  have hmem : a ∈ w.attempts := List.getElem?_mem ha
  have hother : ∀ f, f ≠ a.fileID → res.2.1.requestsOf f = w.host.requestsOf f := fun f hf => by
    rw [Host.requestsOf_of_append hreq, if_neg (Ne.symm hf), List.append_nil]
  have hreturned : { a with pc := .returned } ∈ w.attempts.set i { a with pc := .returned } :=
    List.mem_set _ _ (List.getElem?_eq_some.mp ha).1 _
  refine ⟨hsf, fun b hb => ?_, fun f hf => ?_, fun b hb hpcb => ?_, fun f => ?_⟩
  · rcases List.mem_or_eq_of_mem_set hb with hb | rfl
    exacts [hinv.buildID b hb, hinv.buildID a hmem]
  · rw [hmarks] at hf
    have hne : f ≠ a.fileID := fun h =>
      hinv.singleFlight.marked a.fileID (List.mem_map_of_mem _ hmem) (h ▸ hf)
    rw [hother f hne]
    exact hinv.unmarked f hf
  · have hne : b.fileID ≠ a.fileID := fun h => by
      rw [List.inj_on_of_nodup_map hsf.nodup hb hreturned h] at hpcb
      cases hpcb
    rcases List.mem_or_eq_of_mem_set hb with hb | rfl
    · rw [hother _ hne]
      exact hinv.pending b hb hpcb
    · cases hpcb
  · by_cases hf : f = a.fileID
    · subst hf
      rw [Host.requestsOf_of_append hreq, hinv.pending a hmem hpc, if_pos rfl, List.nil_append]
      exact ⟨a.buildID, size, url, uploadId, hinv.buildID a hmem, hpos, hprefix⟩
    · rw [hother f hf]
      exact hinv.round f

/-- Every event keeps the protocol. -/
theorem World.Protocol.step {w w' : World FileID} {e : Event FileID} (hinv : w.Protocol env)
    (hstep : w.step env e = some w') : w'.Protocol env := by
  have hsf := hinv.singleFlight.step env hstep
  cases e with
  | upload fileID path buildID => exact hinv.upload env hstep
  | tick ms =>
    cases hstep
    exact ⟨hsf, hinv.buildID, hinv.unmarked, hinv.pending, hinv.round⟩
  | step i r =>
    obtain ⟨a, ha, ⟨hpc, res, hattempt, rfl⟩ | ⟨-, rfl⟩ | ⟨-, rfl⟩⟩ := World.step_step env hstep
    · exact hinv.attempt env ha hpc hattempt hsf
    · exact hinv.clearMark env hsf fun b hb =>
        (List.mem_or_eq_of_mem_set hb).imp_right fun h => ⟨a, List.getElem?_mem ha, h⟩
    · exact hinv.clearMark env hsf fun b hb => .inl (List.mem_of_mem_eraseIdx hb)

/-- Over any run from `NewParcaSymbolUploader`, in any interleaving of `Upload` calls, goroutine
steps and clock ticks (with the premises of every run here: `Upload` calls one at a time, and
neither cache evicting), what the uploader has sent for a FileID is a prefix of one round:
`ShouldInitiateUpload` once at most, and after it `InitiateUpload`, the `PUT` and
`MarkUploadFinished` in that order, for one non-empty build ID, the FileID's hash and one size of
at least one byte. -/
theorem run_requestsOf_roundPrefix (keepTextSection : Bool) (cacheDirectory : String) (now : Nat)
    (files : Cache FileID Data) (removeFails : FileID → Bool) (events : List (Event FileID))
    (w : World FileID)
    (hrun : (newParcaSymbolUploader keepTextSection cacheDirectory now files removeFails).run env
      events = some w)
    (fileID : FileID) :
    RoundPrefix (env.fileIDString fileID) (w.host.requestsOf fileID) :=
  (World.run_induction env (World.Protocol env) (fun _ => True)
    (fun _ _ _ _ hw hstep => hw.step env hstep) events _ w (fun _ _ => trivial)
    (protocol_newParcaSymbolUploader env keepTextSection cacheDirectory now files removeFails)
    hrun).round fileID

theorem run_requestsOf_roundPrefix_succeeding :
    ∃ w, freshUploader.run elfEnv [.upload 1 "/bin/app" "b1", .step 0 Replies.succeeding] = some w ∧
      w.host.requestsOf 1 = uploadRound "b1" "1" 4 "signed-url-1" "upload-1" ∧
      RoundPrefix (elfEnv.fileIDString 1) (w.host.requestsOf 1) := by
  obtain ⟨w, hw, hreq⟩ : ∃ w, freshUploader.run elfEnv
      [.upload 1 "/bin/app" "b1", .step 0 Replies.succeeding] = some w ∧
      w.host.requestsOf 1 = uploadRound "b1" "1" 4 "signed-url-1" "upload-1" := ⟨_, rfl, by decide⟩
  exact ⟨w, hw, hreq, run_requestsOf_roundPrefix elfEnv false "/var/cache" 0 ∅ _ _ w hw 1⟩

/-! ### Declared sizes -/

/-- What a run whose removals succeed keeps: the mode, a cache directory of complete extractions,
and in every `InitiateUpload` sent the length of what the mode uploads. -/
structure World.SizesDeclared (keepTextSection : Bool) (w : World FileID) : Prop where
  mode : w.uploader.keepTextSection = keepTextSection
  extracted : w.host.Extracted env
  sizes : ∀ fileID buildID hash size,
    (fileID, Request.initiateUpload buildID hash size) ∈ w.host.requests →
      size = (if keepTextSection then env.original fileID else env.debugInfo fileID).length

theorem World.SizesDeclared.step {w w' : World FileID} {e : Event FileID} {keepTextSection : Bool}
    (hinv : w.SizesDeclared env keepTextSection) (hremove : e.removeSucceeds = true)
    (hstep : w.step env e = some w') : w'.SizesDeclared env keepTextSection := by
  have hext := World.extracted_step env hremove hinv.extracted hstep
  cases e with
  | upload fileID path buildID =>
    obtain ⟨hhost, hu, -⟩ := World.step_upload env hstep
    exact ⟨by rw [hu, (upload_mode _ _ _ _).1, hinv.mode], hext, hhost ▸ hinv.sizes⟩
  | tick ms =>
    cases hstep
    exact ⟨hinv.mode, hext, hinv.sizes⟩
  | step i r =>
    obtain ⟨a, -, ⟨-, res, hattempt, rfl⟩ | ⟨-, rfl⟩ | ⟨-, rfl⟩⟩ := World.step_step env hstep
    · obtain ⟨size, url, uploadId, sent, -, hprefix, hreq, hsize⟩ := attemptUpload_sends env hattempt
      have hmode : res.1.keepTextSection = keepTextSection := by
        rw [attemptUpload_retryOnly env hattempt]
        exact hinv.mode
      refine ⟨hmode, hext, fun fileID buildID hash size' hmem => ?_⟩
      have hmem' : (fileID, Request.initiateUpload buildID hash size') ∈
          w.host.requests ++ sent.map (Prod.mk a.fileID) := by
        rw [← hreq]
        exact hmem
      rcases List.mem_append.mp hmem' with hmem' | hmem'
      · exact hinv.sizes fileID buildID hash size' hmem'
      · obtain ⟨q, hq, hqe⟩ := List.mem_map.mp hmem'
        obtain ⟨rfl, rfl⟩ := Prod.mk.inj hqe
        have hround := hprefix.subset hq
        simp only [uploadRound, List.mem_cons, Request.initiateUpload.injEq, List.not_mem_nil,
          reduceCtorEq, false_or, or_false] at hround
        obtain ⟨rfl, rfl, rfl⟩ := hround
        rw [← hinv.mode]
        exact hsize hq hinv.extracted
    · exact ⟨hinv.mode, hext, hinv.sizes⟩
    · exact ⟨hinv.mode, hext, hinv.sizes⟩

theorem sizesDeclared_newParcaSymbolUploader (keepTextSection : Bool) (cacheDirectory : String)
    (now : Nat) (files : Cache FileID Data) :
    (newParcaSymbolUploader keepTextSection cacheDirectory now files fun _ => false).SizesDeclared
      env keepTextSection :=
  ⟨rfl, fun fileID _ hd => by simp [newParcaSymbolUploader, cleanCacheDirectory_lookup] at hd,
    fun _ _ _ _ h => by cases h⟩

/-- Over any run from `NewParcaSymbolUploader` on a cache directory it empties, with every removal
succeeding, every `InitiateUpload` the uploader sends declares the length of the bytes it uploads
for the FileID: the executable when the text section is kept, otherwise the complete output of
`OnlyKeepDebug` on it. -/
theorem run_initiateUpload_size (keepTextSection : Bool) (cacheDirectory : String) (now : Nat)
    (files : Cache FileID Data) (events : List (Event FileID)) (w : World FileID)
    (hremove : ∀ e ∈ events, e.removeSucceeds = true)
    (hrun : (newParcaSymbolUploader keepTextSection cacheDirectory now files fun _ => false).run
      env events = some w)
    {fileID : FileID} {buildID hash : String} {size : Nat}
    (hsent : (fileID, Request.initiateUpload buildID hash size) ∈ w.host.requests) :
    size = (if keepTextSection then env.original fileID else env.debugInfo fileID).length :=
  (World.run_induction env (World.SizesDeclared env keepTextSection)
    (fun e => e.removeSucceeds = true) (fun _ _ _ hq hw hstep => hw.step env hq hstep) events _ w
    hremove (sizesDeclared_newParcaSymbolUploader env keepTextSection cacheDirectory now files)
    hrun).sizes fileID buildID hash size hsent

theorem run_initiateUpload_size_succeeding :
    ∃ w, freshUploader.run elfEnv [.upload 1 "/bin/app" "b1", .step 0 Replies.succeeding] = some w ∧
      (1, Request.initiateUpload "b1" "1" 4) ∈ w.host.requests ∧
      4 = (elfEnv.debugInfo 1).length := by
  obtain ⟨w, hw, hsent⟩ : ∃ w, freshUploader.run elfEnv
      [.upload 1 "/bin/app" "b1", .step 0 Replies.succeeding] = some w ∧
      (1, Request.initiateUpload "b1" "1" 4) ∈ w.host.requests := ⟨_, rfl, by decide⟩
  exact ⟨w, hw, hsent,
    run_initiateUpload_size elfEnv false "/var/cache" 0 ∅ _ w (by decide) hw hsent⟩

end ProfilingAgent.Uploader
