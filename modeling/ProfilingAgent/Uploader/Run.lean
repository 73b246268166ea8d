import ProfilingAgent.Uploader.Attempt

/-!
# Runs of the uploader

`Upload` checks the retry and singleflight caches and, when neither stops it, marks the FileID
in `singleflight` and starts a goroutine that runs `attemptUpload` and clears the mark. Here an
`Upload` is one atomic step (no other `Upload` runs between its check and its mark), and each
goroutine is a thread of three steps: the body of `attemptUpload`, its deferred
`singleflight.Add(fileID, false)`, and the goroutine's own deferred `Add`. A run interleaves
`Upload` calls, the steps of the goroutines and advances of the clock in any order, from the
state `NewParcaSymbolUploader` leaves.

Two premises about the source are built into every run. `Upload` calls are issued one at a time:
Go's retry `Get`, singleflight `Get` and `Add` are separate operations, and two `Upload`s of one
FileID that interleave them could both start an attempt. And neither cache evicts:
`NewParcaSymbolUploader` gives both a capacity of `cacheSize` and a FileID's mark is never removed,
so the runs modelled are those that name fewer than `cacheSize` FileIDs; past that, an evicted mark
lets a later `Upload` start a second attempt.

Running the body of `attemptUpload` as one step hides no interleaving that these results depend
on: the body reads and writes only the retry entry and the cached file of its own FileID (the
executable it only reads, outside `keepTextSection`), no two goroutines of one FileID are ever
alive together (`attempts_nodup`), and an `Upload` of that FileID meanwhile finds the mark and
returns.

What the mark does is stronger than the spec's "in flight" marker: the goroutine clears it by
writing `false`, and `Upload` stops on any entry (`ok || singleflight`), so after the first
goroutine for a FileID no `Upload` starts another, whichever way the attempt ended.
-/

namespace ProfilingAgent.Uploader

/-- Where a goroutine started by `Upload` stands. -/
inductive AttemptPc where
  /-- `attemptUpload` is still to run. -/
  | start
  /-- `attemptUpload` has returned; its deferred `singleflight.Add(fileID, false)` is to run. -/
  | returned
  /-- The goroutine's own deferred `singleflight.Add(fileID, false)` is to run. -/
  | deferred
  deriving DecidableEq, Repr

/-- A goroutine started by `Upload`, with the arguments of the call. -/
structure Attempt (FileID : Type) where
  fileID : FileID
  path : String
  buildID : String
  pc : AttemptPc
  deriving DecidableEq, Repr

/-- The state of a run: the uploader, the host and the goroutines alive. -/
structure World (FileID : Type) where
  uploader : ParcaSymbolUploader FileID
  host : Host FileID
  attempts : List (Attempt FileID)

/-- What a run does next: an `Upload` call, the next step of the `i`-th goroutine (`replies` are
the outcomes its `attemptUpload` meets), or an advance of the clock. -/
inductive Event (FileID : Type) where
  | upload (fileID : FileID) (path buildID : String)
  | step (i : Nat) (replies : Replies)
  | tick (ms : Nat)

/-- Every `os.Remove` the event makes succeeds. -/
def Event.removeSucceeds {FileID : Type} : Event FileID → Bool
  | .step _ r => r.remove.isNone
  | _ => true

/-- Entries that never expire. -/
def NeverExpires {K V : Type} [DecidableEq K] (c : Lru K V) : Prop :=
  ∀ key e, c.lookup key = some e → e.expire = 0

variable {FileID : Type} [DecidableEq FileID] (env : Env FileID)

theorem NeverExpires.add {c : Lru FileID Bool} (hc : NeverExpires c) (key : FileID) (v : Bool) :
    NeverExpires (c.add key v) := by
  intro key' e he
  by_cases heq : key' = key
  · subst heq
    simp only [Lru.add, AList.lookup_insert, Option.some.injEq] at he
    rw [← he]
  · rw [Lru.add, AList.lookup_insert_ne heq] at he
    exact hc key' e he

/-- `singleflight.Add(fileID, false)` -/
def ParcaSymbolUploader.clearMark (u : ParcaSymbolUploader FileID) (fileID : FileID) :
    ParcaSymbolUploader FileID :=
  { u with singleflight := u.singleflight.add fileID false }

/-- `Upload`, up to the `go` statement: the uploader it leaves, and whether it starts a
goroutine. -/
def upload (u : ParcaSymbolUploader FileID) (now : Nat) (fileID : FileID) (buildID : String) :
    ParcaSymbolUploader FileID × Bool :=
  if buildID = "" then (u, false) else
  let (retry, retryCache) := u.retry.get now fileID
  let u := { u with retry := retryCache }
  if retry.isSome && !retry.getD false then (u, false) else
  let (singleflight, singleflightCache) := u.singleflight.get now fileID
  let u := { u with singleflight := singleflightCache }
  if singleflight.isSome || singleflight.getD false then (u, false)
  else ({ u with singleflight := u.singleflight.add fileID true }, true)

/-- With marks that never expire, `Upload` starts a goroutine only for an unmarked FileID, and
then marks it; otherwise it leaves `singleflight` as it was. -/
theorem upload_singleflight {u : ParcaSymbolUploader FileID}
    (hexpire : NeverExpires u.singleflight) (now : Nat) (fileID : FileID) (buildID : String) :
    (upload u now fileID buildID).1.singleflight =
        (if (upload u now fileID buildID).2 then u.singleflight.add fileID true
        else u.singleflight) ∧
      ((upload u now fileID buildID).2 = true → u.singleflight.lookup fileID = none) := by
  unfold upload
  split
  · simp
  obtain ⟨retry, retryCache⟩ := u.retry.get now fileID
  dsimp only
  split
  · simp
  cases hmark : u.singleflight.lookup fileID with
  | none => simp [Lru.get_of_lookup_eq_none hmark]
  | some e => simp [Lru.get_of_expire_eq_zero hmark (hexpire fileID e hmark)]

/-- `Upload` changes nothing else than the two caches. -/
theorem upload_mode (u : ParcaSymbolUploader FileID) (now : Nat) (fileID : FileID)
    (buildID : String) :
    (upload u now fileID buildID).1.keepTextSection = u.keepTextSection ∧
      (upload u now fileID buildID).1.tmp = u.tmp := by
  unfold upload
  split
  · simp
  obtain ⟨retry, retryCache⟩ := u.retry.get now fileID
  obtain ⟨singleflight, singleflightCache⟩ := u.singleflight.get now fileID
  dsimp only
  split
  · simp
  split <;> simp

/-- One event of a run. -/
def World.step (w : World FileID) : Event FileID → Option (World FileID)
  | .upload fileID path buildID =>
    let (u, started) := upload w.uploader w.host.now fileID buildID
    some { w with
      uploader := u
      attempts := if started then w.attempts ++ [⟨fileID, path, buildID, .start⟩] else w.attempts }
  | .step i r =>
    match w.attempts[i]? with
    | none => none
    | some a =>
      match a.pc with
      | .start =>
        (attemptUpload env w.uploader w.host a.fileID a.path a.buildID r).map fun res =>
          { uploader := res.1, host := res.2.1,
            attempts := w.attempts.set i { a with pc := .returned } }
      | .returned =>
        some { w with
          uploader := w.uploader.clearMark a.fileID
          attempts := w.attempts.set i { a with pc := .deferred } }
      | .deferred =>
        some { w with uploader := w.uploader.clearMark a.fileID, attempts := w.attempts.eraseIdx i }
  | .tick ms => some { w with host := { w.host with now := w.host.now + ms } }

/-- What a goroutine's step can do: run the attempt's body, run its deferred `Add`, or end. -/
theorem World.step_step {w w' : World FileID} {i : Nat} {r : Replies}
    (h : w.step env (.step i r) = some w') :
    ∃ a, w.attempts[i]? = some a ∧
      ((a.pc = .start ∧
          ∃ res, attemptUpload env w.uploader w.host a.fileID a.path a.buildID r = some res ∧
            w' = ⟨res.1, res.2.1, w.attempts.set i { a with pc := .returned }⟩) ∨
        (a.pc = .returned ∧
          w' = { w with uploader := w.uploader.clearMark a.fileID,
                        attempts := w.attempts.set i { a with pc := .deferred } }) ∨
        (a.pc = .deferred ∧
          w' = { w with uploader := w.uploader.clearMark a.fileID,
                        attempts := w.attempts.eraseIdx i })) := by
  simp only [World.step] at h
  split at h
  · cases h
  · rename_i a ha
    refine ⟨a, ha, ?_⟩
    split at h
    · obtain ⟨res, hattempt, rfl⟩ := Option.map_eq_some'.mp h
      exact .inl ⟨‹_›, res, hattempt, rfl⟩
    · exact .inr (.inl ⟨‹_›, (Option.some.inj h).symm⟩)
    · exact .inr (.inr ⟨‹_›, (Option.some.inj h).symm⟩)

/-- A run: its events one after the other, `none` once a goroutine panics or an event names a
goroutine that is not alive. -/
def World.run (w : World FileID) : List (Event FileID) → Option (World FileID)
  | [] => some w
  | e :: es => (w.step env e).bind fun w' => w'.run es

/-- What `World.run` reaches, it reaches by one step after another. -/
theorem World.run_cons {w w' : World FileID} {e : Event FileID} {es : List (Event FileID)}
    (hrun : w.run env (e :: es) = some w') : ∃ w₁, w.step env e = some w₁ ∧ w₁.run env es = some w' :=
  Option.bind_eq_some.mp hrun

/-- A property every step keeps holds after every run. -/
theorem World.run_induction (P : World FileID → Prop) (Q : Event FileID → Prop)
    (hstep : ∀ w w' e, Q e → P w → w.step env e = some w' → P w') :
    ∀ (es : List (Event FileID)) (w w' : World FileID), (∀ e ∈ es, Q e) → P w →
      w.run env es = some w' → P w'
  | [], _, _, _, hw, hrun => by cases hrun; exact hw
  | e :: es, w, w', hq, hw, hrun => by
    obtain ⟨w₁, hstep₁, hrest⟩ := World.run_cons env hrun
    exact World.run_induction P Q hstep es w₁ w' (fun e' he' => hq e' (List.mem_cons_of_mem _ he'))
      (hstep w w₁ e (hq e (List.mem_cons_self _ _)) hw hstep₁) hrest

/-- The walk of `NewParcaSymbolUploader` over the cache directory: it removes every file, and a
file whose removal fails stays. -/
def cleanCacheDirectory (files : Cache FileID Data) (removeFails : FileID → Bool) :
    Cache FileID Data :=
  files.keys.foldl (fun kept fileID => if removeFails fileID then kept else kept.erase fileID) files

theorem lookup_foldl_erase (removeFails : FileID → Bool) (fileID : FileID) :
    ∀ (keys : List FileID) (kept : Cache FileID Data),
      (keys.foldl (fun kept k => if removeFails k then kept else kept.erase k) kept).lookup fileID =
        if fileID ∈ keys ∧ removeFails fileID = false then none else kept.lookup fileID
  | [], kept => by simp
  | k :: keys, kept => by
    rw [List.foldl_cons, lookup_foldl_erase removeFails fileID keys]
    by_cases heq : fileID = k
    · subst heq
      cases removeFails fileID <;> simp
    · have hkept : (if removeFails k then kept else kept.erase k).lookup fileID =
          kept.lookup fileID := by
        split
        · rfl
        · exact AList.lookup_erase_ne heq
      simp [heq, hkept]

/-- When every removal succeeds, the walk empties the cache directory. -/
theorem cleanCacheDirectory_lookup (files : Cache FileID Data) (fileID : FileID) :
    (cleanCacheDirectory files fun _ => false).lookup fileID = none := by
  rw [cleanCacheDirectory, lookup_foldl_erase]
  by_cases hmem : fileID ∈ files.keys
  · simp [hmem]
  · simpa [hmem] using AList.lookup_eq_none.mpr (mt AList.mem_keys.mpr hmem)

/-- The state `NewParcaSymbolUploader` returns, at clock time `now`, for the configuration's cache
directory `cacheDirectory` holding `files`: empty caches, no goroutine, and the cache directory
after its walk. -/
def newParcaSymbolUploader (keepTextSection : Bool) (cacheDirectory : String) (now : Nat)
    (files : Cache FileID Data) (removeFails : FileID → Bool) : World FileID where
  uploader :=
    { retry := ∅, singleflight := ∅, keepTextSection,
      tmp := joinPath cacheDirectory "symuploader" }
  host := { now, files := cleanCacheDirectory files removeFails, removed := [], requests := [] }
  attempts := []

/-! ### Concrete inputs -/

/-- Decimal FileID names, an executable of four bytes, and an `OnlyKeepDebug` that keeps them. -/
def elfEnv : Env Nat where
  fileIDString := toString
  original _ := [127, 69, 76, 70]
  onlyKeepDebug := id

/-- The outcomes of an attempt that goes all the way: the service asks for the file and gives a
signed URL, and every call and file operation succeeds. -/
def Replies.succeeding : Replies where
  shouldInitiateUpload := .ok ⟨true, ""⟩
  openOriginal := none
  stat := none
  statCached := none
  openCached := none
  create := none
  onlyKeepDebug := none
  seek := none
  initiateUpload := .ok (some ⟨"upload-1", .signedURL, "signed-url-1"⟩)
  newRequest := none
  put := .ok (200, "")
  markUploadFinished := none
  remove := none

/-- The uploader `NewParcaSymbolUploader` makes with an empty cache directory. -/
def freshUploader : World Nat := newParcaSymbolUploader false "/var/cache" 0 ∅ fun _ => false

/-! ### Single flight -/

theorem map_set_of_getElem? {α β : Type} {l : List α} {i : Nat} {a b : α} {f : α → β}
    (hi : l[i]? = some a) (hf : f b = f a) : (l.set i b).map f = l.map f := by
  refine List.ext_getElem? fun j => ?_
  rw [List.getElem?_map, List.getElem?_map, List.getElem?_set]
  split
  · subst_vars
    rw [if_pos (List.getElem?_eq_some.mp hi).1, hi]
    simp [hf]
  · rfl

/-- Every goroutine alive has its FileID marked in `singleflight`, whose entries never expire, and
no two goroutines alive share a FileID. -/
structure World.SingleFlight (w : World FileID) : Prop where
  never_expires : NeverExpires w.uploader.singleflight
  marked : ∀ fileID ∈ w.attempts.map Attempt.fileID, w.uploader.singleflight.lookup fileID ≠ none
  nodup : (w.attempts.map Attempt.fileID).Nodup

theorem singleFlight_newParcaSymbolUploader (keepTextSection : Bool) (cacheDirectory : String)
    (now : Nat) (files : Cache FileID Data) (removeFails : FileID → Bool) :
    (newParcaSymbolUploader keepTextSection cacheDirectory now files removeFails).SingleFlight where
  never_expires _ _ h := by cases h
  marked _ h := by cases h
  nodup := List.nodup_nil

/-- Marking a FileID keeps the marks of the others. -/
theorem lookup_add_ne_none {c : Lru FileID Bool} {key key' : FileID} (v : Bool)
    (h : c.lookup key' ≠ none) : (c.add key v).lookup key' ≠ none := by
  by_cases heq : key' = key
  · simp [Lru.add, heq]
  · rwa [Lru.add, AList.lookup_insert_ne heq]

theorem World.SingleFlight.upload {w : World FileID} (hinv : w.SingleFlight) (fileID : FileID)
    (path buildID : String) {w' : World FileID}
    (hstep : w.step env (.upload fileID path buildID) = some w') : w'.SingleFlight := by
  obtain ⟨hsf, hfresh⟩ := upload_singleflight hinv.never_expires w.host.now fileID buildID
  simp only [World.step] at hstep
  generalize Uploader.upload w.uploader w.host.now fileID buildID = res at hsf hfresh hstep
  obtain ⟨u, started⟩ := res
  cases hstep
  cases started with
  | false =>
    simp only [Bool.false_eq_true, if_false] at hsf ⊢
    exact ⟨hsf ▸ hinv.never_expires, hsf ▸ hinv.marked, hinv.nodup⟩
  | true =>
    simp only [if_true] at hsf ⊢
    have hnew : fileID ∉ w.attempts.map Attempt.fileID :=
      fun hmem => hinv.marked fileID hmem (hfresh rfl)
    refine ⟨hsf ▸ hinv.never_expires.add fileID true, fun fileID' hmem => ?_, ?_⟩
    · rw [hsf]
      rw [List.map_append, List.mem_append] at hmem
      rcases hmem with hmem | hmem
      · exact lookup_add_ne_none true (hinv.marked fileID' hmem)
      · rw [List.mem_singleton.mp hmem]
        simp [Lru.add]
    · rw [List.map_append, List.nodup_append]
      exact ⟨hinv.nodup, List.nodup_singleton _, by simpa using hnew⟩

theorem World.SingleFlight.clearMark {w : World FileID} (hinv : w.SingleFlight) {fileID : FileID}
    {attempts : List (Attempt FileID)}
    (hsub : (attempts.map Attempt.fileID).Sublist (w.attempts.map Attempt.fileID)) :
    World.SingleFlight { w with uploader := w.uploader.clearMark fileID, attempts } where
  never_expires := hinv.never_expires.add fileID false
  marked fileID' hmem := lookup_add_ne_none false (hinv.marked fileID' (hsub.subset hmem))
  nodup := hinv.nodup.sublist hsub

/-- Every step keeps goroutines of one FileID from overlapping. -/
theorem World.SingleFlight.step {w w' : World FileID} {e : Event FileID} (hinv : w.SingleFlight)
    (hstep : w.step env e = some w') : w'.SingleFlight := by
  cases e with
  | upload fileID path buildID => exact hinv.upload env fileID path buildID hstep
  | tick ms =>
    cases hstep
    exact ⟨hinv.never_expires, hinv.marked, hinv.nodup⟩
  | step i r =>
    obtain ⟨a, ha, hcases⟩ := World.step_step env hstep
    have hset : ∀ pc, ((w.attempts.set i { a with pc }).map Attempt.fileID) =
        w.attempts.map Attempt.fileID := fun pc => map_set_of_getElem? ha rfl
    rcases hcases with ⟨-, res, hattempt, rfl⟩ | ⟨-, rfl⟩ | ⟨-, rfl⟩
    · have hu : res.1.singleflight = w.uploader.singleflight := by
        rw [attemptUpload_retryOnly env hattempt]
      exact ⟨hu ▸ hinv.never_expires, by rw [hset]; exact hu ▸ hinv.marked,
        by rw [hset]; exact hinv.nodup⟩
    · exact hinv.clearMark (by rw [hset])
    · exact hinv.clearMark ((List.eraseIdx_sublist _ i).map _)

theorem World.SingleFlight.run {w w' : World FileID} {es : List (Event FileID)}
    (hinv : w.SingleFlight) (hrun : w.run env es = some w') : w'.SingleFlight :=
  World.run_induction env World.SingleFlight (fun _ => True)
    (fun _ _ _ _ hw hstep => hw.step env hstep) es w w' (fun _ _ => trivial) hinv hrun

/-- At no point of any run are two goroutines for one FileID alive: no `ShouldInitiateUpload`
for a FileID is sent between the start of another attempt for it and that attempt's end. -/
theorem attempts_nodup (keepTextSection : Bool) (cacheDirectory : String) (now : Nat)
    (files : Cache FileID Data) (removeFails : FileID → Bool) (events : List (Event FileID))
    (w : World FileID)
    (hrun : (newParcaSymbolUploader keepTextSection cacheDirectory now files removeFails).run env
      events = some w) :
    (w.attempts.map Attempt.fileID).Nodup :=
  ((singleFlight_newParcaSymbolUploader keepTextSection cacheDirectory now files removeFails).run
    env hrun).nodup

theorem attempts_nodup_twoUploads :
    ∃ w, freshUploader.run elfEnv
        [.upload 1 "/bin/app" "b1", .upload 1 "/bin/app" "b1", .step 0 Replies.succeeding] =
        some w ∧ (w.attempts.map Attempt.fileID).Nodup := by
  obtain ⟨w, hw⟩ : ∃ w, freshUploader.run elfEnv
      [.upload 1 "/bin/app" "b1", .upload 1 "/bin/app" "b1", .step 0 Replies.succeeding] =
      some w := ⟨_, rfl⟩
  exact ⟨w, hw, attempts_nodup elfEnv false "/var/cache" 0 ∅ (fun _ => false) _ w hw⟩

/-- After an attempt whose `ShouldInitiateUpload` fails, a second `Upload` of the FileID starts
nothing: the retry cache holds no entry, but the cleared mark, `false`, still stops it. -/
theorem upload_afterShouldInitiateUploadError :
    let failed : Replies := { Replies.succeeding with shouldInitiateUpload := .error "unavailable" }
    ((freshUploader.run elfEnv [.upload 1 "/bin/app" "b1", .step 0 failed, .step 0 failed,
        .step 0 failed, .upload 1 "/bin/app" "b1"]).map fun w =>
      (w.attempts.length, w.host.requests, (w.uploader.retry.lookup 1).map LruEntry.value,
        (w.uploader.singleflight.lookup 1).map LruEntry.value)) =
      some (0, [(1, .shouldInitiateUpload "b1")], none, some false) := by
  intro failed
  decide

/-! ### The cache directory over a run -/

/-- Every step whose removal succeeds keeps every file of the cache directory a complete
extraction. -/
theorem World.extracted_step {w w' : World FileID} {e : Event FileID}
    (hremove : e.removeSucceeds = true) (hext : w.host.Extracted env)
    (hstep : w.step env e = some w') : w'.host.Extracted env := by
  cases e with
  | upload fileID path buildID =>
    simp only [World.step] at hstep
    generalize Uploader.upload w.uploader w.host.now fileID buildID = res at hstep
    cases hstep
    exact hext
  | tick ms =>
    cases hstep
    exact hext
  | step i r =>
    obtain ⟨a, -, ⟨-, res, hattempt, rfl⟩ | ⟨-, rfl⟩ | ⟨-, rfl⟩⟩ := World.step_step env hstep
    · exact attemptUpload_extracted env hext (Option.isNone_iff_eq_none.mp hremove) hattempt
    all_goals exact hext

/-- Starting from the directory `NewParcaSymbolUploader` empties, after every event of a run whose
removals all succeed, every file of the cache directory is the complete, non-empty output of
`OnlyKeepDebug` on the executable of its FileID. The body of an attempt is one event, so this is
said of the points at which no attempt is inside its body: inside it, the file `os.Create` has
just made stays empty until `OnlyKeepDebug` has written it. -/
theorem run_extracted (keepTextSection : Bool) (cacheDirectory : String) (now : Nat)
    (files : Cache FileID Data) (events : List (Event FileID)) (w : World FileID)
    (hremove : ∀ e ∈ events, e.removeSucceeds = true)
    (hrun : (newParcaSymbolUploader keepTextSection cacheDirectory now files fun _ => false).run
      env events = some w) :
    w.host.Extracted env :=
  World.run_induction env (fun w => w.host.Extracted env) (fun e => e.removeSucceeds = true)
    (fun _ _ _ hq hw hstep => World.extracted_step env hq hw hstep) events _ w hremove
    (fun fileID _ hd => by
      simp [newParcaSymbolUploader, cleanCacheDirectory_lookup] at hd)
    hrun

theorem run_extracted_putFails :
    let failed : Replies := { Replies.succeeding with put := .ok (503, "unavailable") }
    ∃ w, freshUploader.run elfEnv [.upload 1 "/bin/app" "b1", .step 0 failed] = some w ∧
      w.host.files.lookup 1 = some [127, 69, 76, 70] ∧ w.host.Extracted elfEnv := by
  intro failed
  obtain ⟨w, hw, hfile⟩ := Option.map_eq_some'.mp
    (show (freshUploader.run elfEnv [.upload 1 "/bin/app" "b1", .step 0 failed]).map
      (fun w => w.host.files.lookup 1) = some (some [127, 69, 76, 70]) by decide)
  exact ⟨w, hw, hfile, run_extracted elfEnv false "/var/cache" 0 ∅ _ w (by decide) hw⟩

/-- An extraction that fails after writing a byte, and whose removal fails, leaves the byte in
the cache directory once its goroutine has ended, although the code means no partial or empty
extraction to be left behind: a later attempt that reaches the cached path would upload it as
the debug information. -/
theorem run_extractionRemoveFails :
    let failed : Replies :=
      { Replies.succeeding with
        onlyKeepDebug := some ("short write", [127]), remove := some "permission denied" }
    ((freshUploader.run elfEnv [.upload 1 "/bin/app" "b1", .step 0 failed, .step 0 failed,
        .step 0 failed]).map fun w => (w.attempts.length, w.host.files.lookup 1)) =
      some (0, some [127]) ∧ elfEnv.debugInfo 1 ≠ [127] := by
  intro failed
  exact ⟨by decide, by decide⟩

/-! ### Other exit paths on concrete inputs -/

/-- An extraction whose `os.Create` fails: the attempt starts, and its goroutine then panics at
`os.Remove(f.Name())` on the nil file. -/
theorem run_createFails :
    let failed : Replies := { Replies.succeeding with create := some "permission denied" }
    (freshUploader.run elfEnv [.upload 1 "/bin/app" "b1"]).map (·.attempts.length) = some 1 ∧
      (attemptUpload elfEnv freshUploader.uploader freshUploader.host 1 "/bin/app" "b1"
        failed).isNone ∧
      (freshUploader.run elfEnv [.upload 1 "/bin/app" "b1", .step 0 failed]).isNone := by
  intro failed
  decide

/-- With `keepTextSection`, an attempt that uploads passes the executable itself to
`os.Remove`. -/
theorem run_keepTextSection_removesExecutable :
    ((newParcaSymbolUploader true "/var/cache" 0 ∅ fun _ => false).run elfEnv
        [.upload 1 "/usr/bin/app" "b1", .step 0 Replies.succeeding]).map
      (fun w => w.host.removed) = some ["/usr/bin/app"] := by
  decide

end ProfilingAgent.Uploader
