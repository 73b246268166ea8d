import ProfilingAgent.Libpf

/-!
# Upload attempts

`ParcaSymbolUploader.attemptUpload` (src/unnamed/part_000) asks the debuginfo service whether to
upload an executable's debug information, finds the bytes to send (the executable itself when the
text section is kept, otherwise the debug information extracted into the uploader's cache
directory, reused when it is already there), uploads them through a signed URL and records in the
retry cache that the file is done. Every remote call and every file operation can fail. `Replies`
gives the outcome of each, so an attempt is a function of the state it starts from and of those
outcomes, with one exit path per outcome; an attempt that dereferences a nil `*os.File` panics and
is `none`.

The caches are `lru.SyncedLRU`s of the `go-freelru` package: an entry added with a lifetime expires
at the clock time, in milliseconds, at which it was added plus the lifetime, and a `Get` at or after
that time misses and removes it; `Add` gives the cache's default lifetime, zero, and such an entry
never expires. Nothing evicts: the caches are taken to stay below capacity.
-/

namespace ProfilingAgent.Uploader

/-- An `lru.SyncedLRU` entry: its value and the time it expires at, `0` for never. -/
structure LruEntry (V : Type) where
  value : V
  expire : Nat
  deriving DecidableEq, Repr

/-- An `lru.SyncedLRU`. -/
abbrev Lru (K V : Type) := Cache K (LruEntry V)

namespace Lru

variable {K V : Type} [DecidableEq K]

/-- `AddWithLifetime`: the entry expires `lifetime` milliseconds after `now`, or never when the
lifetime is zero. -/
def addWithLifetime (c : Lru K V) (now : Nat) (key : K) (value : V) (lifetime : Nat) : Lru K V :=
  c.insert key ⟨value, if lifetime = 0 then 0 else now + lifetime⟩

/-- `Add`: `AddWithLifetime` with the cache's default lifetime, which `NewSynced` leaves at zero. -/
def add (c : Lru K V) (key : K) (value : V) : Lru K V :=
  c.insert key ⟨value, 0⟩

/-- `Get`: the value, unless the entry has expired, in which case the lookup removes it. -/
def get (c : Lru K V) (now : Nat) (key : K) : Option V × Lru K V :=
  match c.lookup key with
  | some e => if e.expire ≠ 0 ∧ e.expire ≤ now then (none, c.erase key) else (some e.value, c)
  | none => (none, c)

/-- A key whose entry never expires is found, and the cache is left as it was. -/
theorem get_of_expire_eq_zero {c : Lru K V} {key : K} {e : LruEntry V}
    (hkey : c.lookup key = some e) (hexpire : e.expire = 0) (now : Nat) :
    c.get now key = (some e.value, c) := by
  simp [get, hkey, hexpire]

/-- A key that is not in the cache is missed, and the cache is left as it was. -/
theorem get_of_lookup_eq_none {c : Lru K V} {key : K} (hkey : c.lookup key = none) (now : Nat) :
    c.get now key = (none, c) := by
  simp [get, hkey]

end Lru

/-- The contents of a file. -/
abbrev Data := List UInt8

/-- `ReasonUploadInProgress` -/
def reasonUploadInProgress : String :=
  "A previous upload is still in-progress and not stale yet (only stale uploads can be retried)."

/-- `5*time.Minute`, in the milliseconds of the caches' clock. -/
def cooldown : Nat := 5 * 60 * 1000

/-- The fields of `ShouldInitiateUploadResponse` that the uploader reads. -/
structure ShouldInitiateUploadResponse where
  shouldInitiateUpload : Bool
  reason : String
  deriving DecidableEq, Repr

/-- `UploadInstructions_UploadStrategy` -/
inductive UploadStrategy where
  | unspecified
  | grpc
  | signedURL
  deriving DecidableEq, Repr

/-- The fields of `UploadInstructions` that the uploader reads. -/
structure UploadInstructions where
  uploadId : String
  uploadStrategy : UploadStrategy
  signedUrl : String
  deriving DecidableEq, Repr

/-- A request the uploader sends: the three calls of the debuginfo service, with the fields the
uploader sets (their `Type` is always `DEBUGINFO_TYPE_DEBUGINFO_UNSPECIFIED`), and the PUT of
`uploadViaSignedURL`. -/
inductive Request where
  | shouldInitiateUpload (buildId : String)
  | initiateUpload (buildId hash : String) (size : Nat)
  | put (url : String) (contentLength : Nat)
  | markUploadFinished (buildId uploadId : String)
  deriving DecidableEq, Repr

/-- An error of a file operation: its text, and whether `os.IsNotExist` holds of it. -/
structure FsError where
  msg : String
  notExist : Bool
  deriving DecidableEq, Repr

/-- The outcome of each remote call and file operation an attempt may make, in the order of the
source; an `Option String` is Go's `error`, `none` for `nil`. The executable and the cached file
are opened, and their size is read, at most once on any path, so one field serves each. -/
structure Replies where
  shouldInitiateUpload : Except String ShouldInitiateUploadResponse
  /-- `os.Open(path)` of the executable. -/
  openOriginal : Option FsError
  /-- `f.Stat()` of the file to upload. -/
  stat : Option String
  /-- An error other than not-exist that `os.Stat` of the cached file returns; without one, the
  `Stat` reports whether the cache directory holds the file. -/
  statCached : Option String
  openCached : Option String
  create : Option String
  /-- A failed `elfwriter.OnlyKeepDebug`, with what it wrote to the file before failing. -/
  onlyKeepDebug : Option (String × Data)
  seek : Option String
  initiateUpload : Except String (Option UploadInstructions)
  /-- An error of `http.NewRequestWithContext` building the PUT. -/
  newRequest : Option String
  /-- What `httpClient.Do` returns for the PUT: an error, or the status code and the body. -/
  put : Except String (Nat × String)
  markUploadFinished : Option String
  /-- `os.Remove`, which an attempt calls at most once. -/
  remove : Option String

/-- What lies outside the uploader: the conversion of a FileID to its name, the executable a
FileID names (a FileID is a hash of the executable's contents, so every path an `Upload` names for
it holds these bytes), and what `elfwriter.OnlyKeepDebug` writes for an executable. -/
structure Env (FileID : Type) where
  fileIDString : FileID → String
  original : FileID → Data
  onlyKeepDebug : Data → Data

/-- The complete output of `OnlyKeepDebug` on the executable of a FileID. -/
def Env.debugInfo {FileID : Type} (env : Env FileID) (fileID : FileID) : Data :=
  env.onlyKeepDebug (env.original fileID)

/-- `filepath.Join` of a directory and a file name in it. -/
def joinPath (dir name : String) : String := dir ++ "/" ++ name

/-- The file `f` of `attemptUpload`: the executable opened from `path`, or the file of the cache
directory named after a FileID. -/
inductive File (FileID : Type) where
  | original (path : String)
  | cached (fileID : FileID)
  deriving DecidableEq, Repr

/-- `f.Name()` -/
def File.name {FileID : Type} (env : Env FileID) (tmp : String) : File FileID → String
  | .original path => path
  | .cached fileID => joinPath tmp (env.fileIDString fileID)

/-- The fields of `ParcaSymbolUploader` that its methods change or read; the two clients are the
`Replies`. -/
structure ParcaSymbolUploader (FileID : Type) where
  retry : Lru FileID Bool
  singleflight : Lru FileID Bool
  keepTextSection : Bool
  tmp : String

/-- What an attempt reads and changes besides the uploader: the caches' clock, the files of the
cache directory (each keyed by the FileID it is named after: `fileID.StringNoQuotes()` is the
hexadecimal text of a 128-bit hash, a different name for each FileID), the names passed to
`os.Remove`, and the requests sent, each with the FileID of the attempt that sent it. -/
structure Host (FileID : Type) where
  now : Nat
  files : Cache FileID Data
  removed : List String
  requests : List (FileID × Request)

/-- Where `attemptUpload` stands after finding the file to upload: returned with its error, or
holding the file and its size. -/
inductive Next (FileID : Type) where
  | ret (err : Option String)
  | upload (f : File FileID) (size : Nat)

variable {FileID : Type} [DecidableEq FileID] (env : Env FileID)

/-- Sending a request. -/
def Host.send (h : Host FileID) (fileID : FileID) (q : Request) : Host FileID :=
  { h with requests := h.requests ++ [(fileID, q)] }

/-- Sending requests, in order. -/
def Host.sendAll (h : Host FileID) (fileID : FileID) (qs : List Request) : Host FileID :=
  { h with requests := h.requests ++ qs.map (Prod.mk fileID) }

/-- `os.Remove(f.Name())`: the name is passed, and a cached file leaves the directory unless the
removal fails. -/
def Host.remove (h : Host FileID) (tmp : String) (f : File FileID) (err : Option String) :
    Host FileID :=
  { h with
    removed := h.removed ++ [f.name env tmp]
    files :=
      match f, err with
      | .cached fileID, none => h.files.erase fileID
      | _, _ => h.files }

/-- `Host.write`: the cache directory's file of `fileID` holds `data` (`os.Create` truncates, and
`OnlyKeepDebug` writes). -/
def Host.write (h : Host FileID) (fileID : FileID) (data : Data) : Host FileID :=
  { h with files := h.files.insert fileID data }

/-- Recording in the retry cache that the file is not to be tried again. -/
def ParcaSymbolUploader.noRetry (u : ParcaSymbolUploader FileID) (fileID : FileID) :
    ParcaSymbolUploader FileID :=
  { u with retry := u.retry.add fileID false }

/-- Recording in the retry cache that the file is not to be tried again for five minutes. -/
def ParcaSymbolUploader.cooldownRetry (u : ParcaSymbolUploader FileID) (now : Nat)
    (fileID : FileID) : ParcaSymbolUploader FileID :=
  { u with retry := u.retry.addWithLifetime now fileID false cooldown }

/-- Lines 134–156, `keepTextSection`: the executable itself is uploaded. -/
def openExecutable (u : ParcaSymbolUploader FileID) (h : Host FileID) (fileID : FileID)
    (path : String) (r : Replies) : ParcaSymbolUploader FileID × Host FileID × Next FileID :=
  match r.openOriginal with
  | some e => (u, h, .ret (if e.notExist then none else some ("open file: " ++ e.msg)))
  | none =>
    match r.stat with
    | some e => (u, h, .ret (some ("stat file to upload: " ++ e)))
    | none =>
      let size := (env.original fileID).length
      if size = 0 then (u.noRetry fileID, h, .ret none)
      else (u, h, .upload (.original path) size)

/-- Lines 169–179: the cache directory already holds the file. -/
def openCachedFile (u : ParcaSymbolUploader FileID) (h : Host FileID) (fileID : FileID)
    (data : Data) (r : Replies) : ParcaSymbolUploader FileID × Host FileID × Next FileID :=
  match r.openCached with
  | some e => (u, h, .ret (some ("open cached file: " ++ e)))
  | none =>
    match r.stat with
    | some e => (u, h, .ret (some ("stat file to upload: " ++ e)))
    | none =>
      if data.length = 0 then (u, h.remove env u.tmp (.cached fileID) r.remove, .ret none)
      else (u, h, .upload (.cached fileID) data.length)

/-- Lines 189–222: the debug information is extracted into the file just created; every failure
removes it. -/
def extractDebugInfo (u : ParcaSymbolUploader FileID) (h : Host FileID) (fileID : FileID)
    (r : Replies) : ParcaSymbolUploader FileID × Host FileID × Next FileID :=
  let f : File FileID := .cached fileID
  match r.openOriginal with
  | some e =>
    (u, h.remove env u.tmp f r.remove,
      .ret (if e.notExist then none else some ("open original file: " ++ e.msg)))
  | none =>
    match r.onlyKeepDebug with
    | some (e, written) =>
      (u, (h.write fileID written).remove env u.tmp f r.remove,
        .ret (some ("extract debuginfo: " ++ e)))
    | none =>
      let data := env.debugInfo fileID
      let h := h.write fileID data
      match r.seek with
      | some e =>
        (u, h.remove env u.tmp f r.remove, .ret (some ("seek extracted debuginfo to start: " ++ e)))
      | none =>
        match r.stat with
        | some e => (u, h.remove env u.tmp f r.remove, .ret (some ("stat file to upload: " ++ e)))
        | none =>
          if data.length = 0 then
            (u.cooldownRetry h.now fileID, h.remove env u.tmp f r.remove, .ret none)
          else (u, h, .upload f data.length)

/-- Lines 157–226, without `keepTextSection`: the cached extraction, or a new one. A failed
`os.Create` leaves `f` nil, and `os.Remove(f.Name())` then panics. -/
def openExtraction (u : ParcaSymbolUploader FileID) (h : Host FileID) (fileID : FileID)
    (r : Replies) : Option (ParcaSymbolUploader FileID × Host FileID × Next FileID) :=
  match r.statCached, h.files.lookup fileID with
  | some e, _ => some (u, h, .ret (some ("stat cached file file: " ++ e)))
  | none, some data => some (openCachedFile env u h fileID data r)
  | none, none =>
    match r.create with
    | some _ => none
    | none => some (extractDebugInfo env u (h.write fileID []) fileID r)

/-- The error `uploadViaSignedURL` returns for what the HTTP client returned: the client's error,
or a status code outside 2xx with the body. -/
def responseError (response : Except String (Nat × String)) : Option String :=
  match response with
  | .error e => some ("do upload request: " ++ e)
  | .ok (statusCode, body) =>
    if statusCode / 100 ≠ 2 then
      some ("unexpected status code: " ++ toString statusCode ++ ", msg: " ++ body)
    else none

/-- `uploadViaSignedURL`: the requests it sends and the error it returns. Unless
`http.NewRequestWithContext` fails, it sends the PUT of `size` bytes to the signed URL, and the
error is that of the response. -/
def uploadViaSignedURL (url : String) (size : Nat) (r : Replies) : List Request × Option String :=
  match r.newRequest with
  | some e => ([], some ("create request: " ++ e))
  | none => ([.put url size], responseError r.put)

/-- `uploadViaSignedURL` sends the PUT or nothing, and the PUT when it returns no error. -/
theorem uploadViaSignedURL_sent (url : String) (size : Nat) (r : Replies) :
    (uploadViaSignedURL url size r).1 <+: [.put url size] ∧
      ((uploadViaSignedURL url size r).2 = none →
        (uploadViaSignedURL url size r).1 = [.put url size]) := by
  unfold uploadViaSignedURL
  split
  · exact ⟨List.nil_prefix, fun h => by cases h⟩
  · exact ⟨List.prefix_refl _, fun _ => rfl⟩

/-- Lines 228–269: the upload of the file found. -/
def sendFile (u : ParcaSymbolUploader FileID) (h : Host FileID) (fileID : FileID)
    (buildID : String) (f : File FileID) (size : Nat) (r : Replies) :
    ParcaSymbolUploader FileID × Host FileID × Option String :=
  let h := h.send fileID (.initiateUpload buildID (env.fileIDString fileID) size)
  match r.initiateUpload with
  | .error e => (u, h, some e)
  | .ok none => (u.noRetry fileID, h, none)
  | .ok (some instructions) =>
    if instructions.uploadStrategy ≠ .signedURL then (u.noRetry fileID, h, none)
    else
      let put := uploadViaSignedURL instructions.signedUrl size r
      let h := h.sendAll fileID put.1
      match put.2 with
      | some e => (u, h, some e)
      | none =>
        let h := h.send fileID (.markUploadFinished buildID instructions.uploadId)
        match r.markUploadFinished with
        | some e => (u, h, some e)
        | none => (u.noRetry fileID, h.remove env u.tmp f r.remove, none)

/-- `attemptUpload`, up to its deferred `singleflight.Add`, which the attempt runs as a step of
its own: the uploader and host it leaves and the error it returns, or `none` if it panics. -/
def attemptUpload (u : ParcaSymbolUploader FileID) (h : Host FileID) (fileID : FileID)
    (path buildID : String) (r : Replies) :
    Option (ParcaSymbolUploader FileID × Host FileID × Option String) :=
  let h := h.send fileID (.shouldInitiateUpload buildID)
  match r.shouldInitiateUpload with
  | .error e => some (u, h, some e)
  | .ok resp =>
    if !resp.shouldInitiateUpload then
      if resp.reason = reasonUploadInProgress then some (u.cooldownRetry h.now fileID, h, none)
      else some (u.noRetry fileID, h, none)
    else
      let opened :=
        if u.keepTextSection then some (openExecutable env u h fileID path r)
        else openExtraction env u h fileID r
      opened.map fun (u, h, next) =>
        match next with
        | .ret err => (u, h, err)
        | .upload f size => sendFile env u h fileID buildID f size r

/-! ### What an attempt changes -/

omit [DecidableEq FileID] in
@[simp] theorem Host.send_files (h : Host FileID) (fileID : FileID) (q : Request) :
    (h.send fileID q).files = h.files := rfl

omit [DecidableEq FileID] in
@[simp] theorem Host.send_now (h : Host FileID) (fileID : FileID) (q : Request) :
    (h.send fileID q).now = h.now := rfl

@[simp] theorem Host.write_files (h : Host FileID) (fileID : FileID) (data : Data) :
    (h.write fileID data).files = h.files.insert fileID data := rfl

@[simp] theorem Host.write_now (h : Host FileID) (fileID : FileID) (data : Data) :
    (h.write fileID data).now = h.now := rfl

@[simp] theorem Host.remove_now (h : Host FileID) (tmp : String) (f : File FileID)
    (err : Option String) : (h.remove env tmp f err).now = h.now := rfl

omit [DecidableEq FileID] in
@[simp] theorem Host.send_requests (h : Host FileID) (fileID : FileID) (q : Request) :
    (h.send fileID q).requests = h.requests ++ [(fileID, q)] := rfl

omit [DecidableEq FileID] in
@[simp] theorem Host.sendAll_singleton (h : Host FileID) (fileID : FileID) (q : Request) :
    h.sendAll fileID [q] = h.send fileID q := rfl

omit [DecidableEq FileID] in
@[simp] theorem Host.sendAll_requests (h : Host FileID) (fileID : FileID) (qs : List Request) :
    (h.sendAll fileID qs).requests = h.requests ++ qs.map (Prod.mk fileID) := rfl

@[simp] theorem Host.write_requests (h : Host FileID) (fileID : FileID) (data : Data) :
    (h.write fileID data).requests = h.requests := rfl

@[simp] theorem Host.remove_requests (h : Host FileID) (tmp : String) (f : File FileID)
    (err : Option String) : (h.remove env tmp f err).requests = h.requests := rfl

/-- What an attempt that returns did after sending `ShouldInitiateUpload`: it stopped on the
reply, leaving the host as it was and at most a retry entry; or it opened a file (the executable
when the text section is kept, otherwise through the cache directory) and then returned, or sent
that file. -/
theorem attemptUpload_eq_some {u : ParcaSymbolUploader FileID} {h : Host FileID}
    {fileID : FileID} {path buildID : String} {r : Replies}
    {res : ParcaSymbolUploader FileID × Host FileID × Option String}
    (hattempt : attemptUpload env u h fileID path buildID r = some res) :
    let sent := h.send fileID (.shouldInitiateUpload buildID)
    (res.2.1 = sent ∧
      (res.1 = u ∨ res.1 = u.noRetry fileID ∨ res.1 = u.cooldownRetry sent.now fileID)) ∨
    ∃ opened : ParcaSymbolUploader FileID × Host FileID × Next FileID,
      (u.keepTextSection = true ∧ opened = openExecutable env u sent fileID path r ∨
        u.keepTextSection = false ∧ openExtraction env u sent fileID r = some opened) ∧
      ((∃ err, opened.2.2 = .ret err ∧ res = (opened.1, opened.2.1, err)) ∨
        ∃ f size, opened.2.2 = .upload f size ∧
          res = sendFile env opened.1 opened.2.1 fileID buildID f size r) := by
  unfold attemptUpload at hattempt
  split at hattempt
  · cases hattempt
    exact .inl ⟨rfl, .inl rfl⟩
  · split at hattempt
    · split at hattempt <;> cases hattempt
      · exact .inl ⟨rfl, .inr (.inr rfl)⟩
      · exact .inl ⟨rfl, .inr (.inl rfl)⟩
    · obtain ⟨opened, hopen, hres⟩ := Option.map_eq_some'.mp hattempt
      refine .inr ⟨opened, ?_, ?_⟩
      · split at hopen
        · exact .inl ⟨‹_›, (Option.some.inj hopen).symm⟩
        · exact .inr ⟨Bool.eq_false_iff.mpr ‹_›, hopen⟩
      · obtain ⟨u₁, h₁, next⟩ := opened
        cases next with
        | ret err => exact .inl ⟨err, rfl, hres.symm⟩
        | upload f size => exact .inr ⟨f, size, rfl, hres.symm⟩

/-- An attempt changes the retry cache of the uploader and nothing else of it. -/
def RetryOnly (u u' : ParcaSymbolUploader FileID) : Prop :=
  u' = { u with retry := u'.retry }

omit [DecidableEq FileID] in
theorem retryOnly_refl (u : ParcaSymbolUploader FileID) : RetryOnly u u := rfl

theorem retryOnly_noRetry (u : ParcaSymbolUploader FileID) (fileID : FileID) :
    RetryOnly u (u.noRetry fileID) := rfl

theorem retryOnly_cooldownRetry (u : ParcaSymbolUploader FileID) (now : Nat) (fileID : FileID) :
    RetryOnly u (u.cooldownRetry now fileID) := rfl

omit [DecidableEq FileID] in
theorem RetryOnly.trans {u u' u'' : ParcaSymbolUploader FileID} (h : RetryOnly u u')
    (h' : RetryOnly u' u'') : RetryOnly u u'' := by
  unfold RetryOnly at *
  rw [h', h]

omit [DecidableEq FileID] in
theorem RetryOnly.tmp {u u' : ParcaSymbolUploader FileID} (h : RetryOnly u u') :
    u'.tmp = u.tmp := by
  rw [h]

theorem openExecutable_retryOnly (u : ParcaSymbolUploader FileID) (h : Host FileID)
    (fileID : FileID) (path : String) (r : Replies) :
    RetryOnly u (openExecutable env u h fileID path r).1 := by
  dsimp only [openExecutable]
  repeat' split
  all_goals rfl

theorem openExtraction_retryOnly {u : ParcaSymbolUploader FileID} {h : Host FileID}
    {fileID : FileID} {r : Replies} {res : ParcaSymbolUploader FileID × Host FileID × Next FileID}
    (hopen : openExtraction env u h fileID r = some res) : RetryOnly u res.1 := by
  dsimp only [openExtraction, openCachedFile, extractDebugInfo] at hopen
  repeat' split at hopen
  all_goals cases hopen <;> rfl

theorem sendFile_retryOnly (u : ParcaSymbolUploader FileID) (h : Host FileID) (fileID : FileID)
    (buildID : String) (f : File FileID) (size : Nat) (r : Replies) :
    RetryOnly u (sendFile env u h fileID buildID f size r).1 := by
  dsimp only [sendFile]
  repeat' split
  all_goals rfl

/-- An attempt leaves the singleflight cache, the mode and the cache directory's name as they
were. -/
theorem attemptUpload_retryOnly {u : ParcaSymbolUploader FileID} {h : Host FileID}
    {fileID : FileID} {path buildID : String} {r : Replies}
    {res : ParcaSymbolUploader FileID × Host FileID × Option String}
    (hattempt : attemptUpload env u h fileID path buildID r = some res) : RetryOnly u res.1 := by
  obtain ⟨-, hu | hu | hu⟩ | ⟨opened, hopen, hres⟩ := attemptUpload_eq_some env hattempt
  · exact hu ▸ retryOnly_refl u
  · exact hu ▸ retryOnly_noRetry u fileID
  · exact hu ▸ retryOnly_cooldownRetry u _ fileID
  have hu₁ : RetryOnly u opened.1 := by
    rcases hopen with ⟨-, rfl⟩ | ⟨-, hopen⟩
    exacts [openExecutable_retryOnly env u _ fileID path r, openExtraction_retryOnly env hopen]
  rcases hres with ⟨err, -, rfl⟩ | ⟨f, size, -, rfl⟩
  exacts [hu₁, hu₁.trans (sendFile_retryOnly env _ _ fileID buildID f size r)]

/-! ### The cache directory -/

/-- Every file of the cache directory is the complete, non-empty output of `OnlyKeepDebug` on the
executable of the FileID it is named after. -/
def Host.Extracted (h : Host FileID) : Prop :=
  ∀ fileID data, h.files.lookup fileID = some data → data = env.debugInfo fileID ∧ data ≠ []

theorem Host.Extracted.of_extends {h h' : Host FileID} (hext : h.Extracted env)
    (hfiles : Cache.Extends h'.files h.files) : h'.Extracted env :=
  fun fileID _ hd => hext fileID _ (hfiles hd)

theorem Host.remove_extends (h : Host FileID) (tmp : String) (f : File FileID)
    (err : Option String) : Cache.Extends (h.remove env tmp f err).files h.files := by
  unfold Host.remove
  split
  · exact Cache.extends_erase _ _
  · exact Cache.Extends.refl _

/-- A created or extracted file that is removed leaves the other files as they were. -/
theorem Host.write_remove_extends (h : Host FileID) (tmp : String) (fileID : FileID) (data : Data) :
    Cache.Extends ((h.write fileID data).remove env tmp (.cached fileID) none).files h.files := by
  intro fileID' data' hd
  by_cases hne : fileID' = fileID
  · subst hne
    simp [Host.remove] at hd
  · simpa [Host.remove, AList.lookup_erase_ne hne, AList.lookup_insert_ne hne] using hd

theorem Host.Extracted.write {h : Host FileID} (hext : h.Extracted env) {fileID : FileID}
    (hne : env.debugInfo fileID ≠ []) : (h.write fileID (env.debugInfo fileID)).Extracted env := by
  intro fileID' data hd
  by_cases heq : fileID' = fileID
  · subst heq
    simp only [Host.write_files, AList.lookup_insert, Option.some.injEq] at hd
    exact ⟨hd.symm, hd ▸ hne⟩
  · rw [Host.write_files, AList.lookup_insert_ne heq] at hd
    exact hext fileID' data hd

theorem openCachedFile_extracted (u : ParcaSymbolUploader FileID) {h : Host FileID}
    (hext : h.Extracted env) (fileID : FileID) (data : Data) (r : Replies) :
    (openCachedFile env u h fileID data r).2.1.Extracted env := by
  dsimp only [openCachedFile]
  repeat' split
  all_goals first | exact hext | exact hext.of_extends env (h.remove_extends env _ _ _)

/-- With a removal that succeeds, a new extraction that fails leaves nothing behind, and one that
succeeds leaves the complete output. -/
theorem extractDebugInfo_extracted (u : ParcaSymbolUploader FileID) {h : Host FileID}
    (hext : h.Extracted env) (fileID : FileID) {r : Replies} (hremove : r.remove = none) :
    (extractDebugInfo env u (h.write fileID []) fileID r).2.1.Extracted env := by
  have hwrite : ∀ data : Data, (h.write fileID []).write fileID data = h.write fileID data :=
    fun _ => by simp only [Host.write, AList.insert_insert]
  dsimp only [extractDebugInfo]
  rw [hremove]
  repeat' split
  all_goals simp only [hwrite]
  all_goals first
    | exact hext.of_extends env (h.write_remove_extends env _ fileID _)
    | exact hext.write env (List.ne_nil_of_length_pos (Nat.pos_of_ne_zero ‹_›))

theorem openExtraction_extracted {u : ParcaSymbolUploader FileID} {h : Host FileID}
    (hext : h.Extracted env) {fileID : FileID} {r : Replies} (hremove : r.remove = none)
    {res : ParcaSymbolUploader FileID × Host FileID × Next FileID}
    (hopen : openExtraction env u h fileID r = some res) : res.2.1.Extracted env := by
  unfold openExtraction at hopen
  split at hopen
  · cases hopen; exact hext
  · cases hopen; exact openCachedFile_extracted env u hext fileID _ r
  · split at hopen
    · cases hopen
    · cases hopen; exact extractDebugInfo_extracted env u hext fileID hremove

theorem sendFile_extracted (u : ParcaSymbolUploader FileID) {h : Host FileID}
    (hext : h.Extracted env) (fileID : FileID) (buildID : String) (f : File FileID) (size : Nat)
    (r : Replies) : (sendFile env u h fileID buildID f size r).2.1.Extracted env := by
  dsimp only [sendFile]
  repeat' split
  all_goals first | exact hext | exact hext.of_extends env (Host.remove_extends env _ _ _ _)

/-- An attempt whose removal succeeds keeps every file of the cache directory a complete
extraction, whichever exit path it takes. -/
theorem attemptUpload_extracted {u : ParcaSymbolUploader FileID} {h : Host FileID}
    (hext : h.Extracted env) {fileID : FileID} {path buildID : String} {r : Replies}
    (hremove : r.remove = none) {res : ParcaSymbolUploader FileID × Host FileID × Option String}
    (hattempt : attemptUpload env u h fileID path buildID r = some res) : res.2.1.Extracted env := by
  have hsent : (h.send fileID (.shouldInitiateUpload buildID)).Extracted env := hext
  obtain ⟨hsame, -⟩ | ⟨opened, hopen, hres⟩ := attemptUpload_eq_some env hattempt
  · exact hsame ▸ hsent
  have hext₁ : opened.2.1.Extracted env := by
    rcases hopen with ⟨-, rfl⟩ | ⟨-, hopen⟩
    · dsimp only [openExecutable]
      repeat' split
      all_goals exact hext
    · exact openExtraction_extracted env hsent hremove hopen
  rcases hres with ⟨err, -, rfl⟩ | ⟨f, size, -, rfl⟩
  exacts [hext₁, sendFile_extracted env _ hext₁ fileID buildID f size r]

/-! ### Where an attempt panics -/

/-- An attempt panics exactly when it goes on to extract the debug information and `os.Create`
fails: `f` is then nil, and `os.Remove(f.Name())` dereferences it. On every other path, for every
outcome of every call and file operation, it returns. -/
theorem attemptUpload_eq_none_iff (u : ParcaSymbolUploader FileID) (h : Host FileID)
    (fileID : FileID) (path buildID : String) (r : Replies) :
    attemptUpload env u h fileID path buildID r = none ↔
      (∃ resp, r.shouldInitiateUpload = .ok resp ∧ resp.shouldInitiateUpload = true) ∧
        u.keepTextSection = false ∧ r.statCached = none ∧ h.files.lookup fileID = none ∧
        r.create.isSome := by
  unfold attemptUpload openExtraction
  simp only [Host.send_files]
  cases r.shouldInitiateUpload with
  | error e => simp
  | ok resp =>
    obtain ⟨should, reason⟩ := resp
    cases should
    · simp only [Bool.not_false, ↓reduceIte]
      split <;> simp
    · cases u.keepTextSection <;> cases r.statCached <;> cases h.files.lookup fileID <;>
        cases r.create <;> simp

/-! ### What an attempt removes -/

omit [DecidableEq FileID] in
@[simp] theorem Host.send_removed (h : Host FileID) (fileID : FileID) (q : Request) :
    (h.send fileID q).removed = h.removed := rfl

@[simp] theorem Host.write_removed (h : Host FileID) (fileID : FileID) (data : Data) :
    (h.write fileID data).removed = h.removed := rfl

@[simp] theorem Host.remove_removed (h : Host FileID) (tmp : String) (f : File FileID)
    (err : Option String) : (h.remove env tmp f err).removed = h.removed ++ [f.name env tmp] :=
  rfl

/-- Every name `h'` has passed to `os.Remove` beyond those of `h` is `name`. -/
def Host.RemovesOnly (h h' : Host FileID) (name : String) : Prop :=
  ∀ n ∈ h'.removed, n ∈ h.removed ∨ n = name

omit [DecidableEq FileID] in
theorem Host.RemovesOnly.of_removed {h h' : Host FileID} (heq : h'.removed = h.removed)
    (name : String) : h.RemovesOnly h' name :=
  fun _ hn => .inl (heq ▸ hn)

omit [DecidableEq FileID] in
theorem Host.RemovesOnly.trans {h h' h'' : Host FileID} {name : String}
    (h₁ : h.RemovesOnly h' name) (h₂ : h'.RemovesOnly h'' name) : h.RemovesOnly h'' name :=
  fun n hn => (h₂ n hn).elim (h₁ n) .inr

theorem Host.removesOnly_remove (h : Host FileID) (tmp : String) (f : File FileID)
    (err : Option String) : h.RemovesOnly (h.remove env tmp f err) (f.name env tmp) := by
  intro n hn
  simpa using hn

/-- Without the text section the file an attempt finds is the cache directory's file of the
FileID, and only that file is removed. -/
theorem openExtraction_removesOnly {u : ParcaSymbolUploader FileID} {h : Host FileID}
    {fileID : FileID} {r : Replies} {res : ParcaSymbolUploader FileID × Host FileID × Next FileID}
    (hopen : openExtraction env u h fileID r = some res) :
    h.RemovesOnly res.2.1 ((File.cached fileID).name env u.tmp) ∧
      ∀ f size, res.2.2 = .upload f size → f = .cached fileID := by
  dsimp only [openExtraction, openCachedFile, extractDebugInfo] at hopen
  repeat' split at hopen
  all_goals cases hopen
  all_goals refine ⟨fun n hn => ?_, fun f size hf => by cases hf <;> rfl⟩
  all_goals simp only [Host.send_removed, Host.write_removed, Host.remove_removed,
    List.mem_append, List.mem_singleton] at hn
  all_goals first | exact .inl hn | exact hn

/-- With the text section kept the file an attempt finds is the executable at `path`, and
nothing is removed on the way. -/
theorem openExecutable_host (u : ParcaSymbolUploader FileID) (h : Host FileID) (fileID : FileID)
    (path : String) (r : Replies) :
    (openExecutable env u h fileID path r).2.1 = h ∧
      ∀ f size, (openExecutable env u h fileID path r).2.2 = .upload f size → f = .original path := by
  dsimp only [openExecutable]
  repeat' split
  all_goals exact ⟨rfl, fun f size hf => by cases hf <;> rfl⟩

/-- The upload removes the file it sent, and only on success. -/
theorem sendFile_removesOnly (u : ParcaSymbolUploader FileID) (h : Host FileID)
    (fileID : FileID) (buildID : String) (f : File FileID) (size : Nat) (r : Replies) :
    h.RemovesOnly (sendFile env u h fileID buildID f size r).2.1 (f.name env u.tmp) := by
  dsimp only [sendFile]
  repeat' split
  all_goals intro n hn
  all_goals simp only [Host.send_removed, Host.remove_removed, List.mem_append,
    List.mem_singleton] at hn
  all_goals first | exact .inl hn | exact hn

/-- The one name an attempt may pass to `os.Remove`: the cache directory's file of the FileID,
or, when the text section is kept, the executable's own path. -/
theorem attemptUpload_removesOnly {u : ParcaSymbolUploader FileID} {h : Host FileID}
    {fileID : FileID} {path buildID : String} {r : Replies}
    {res : ParcaSymbolUploader FileID × Host FileID × Option String}
    (hattempt : attemptUpload env u h fileID path buildID r = some res) :
    h.RemovesOnly res.2.1
      (if u.keepTextSection then path else joinPath u.tmp (env.fileIDString fileID)) := by
  have hsent : ∀ name, h.RemovesOnly (h.send fileID (.shouldInitiateUpload buildID)) name :=
    .of_removed rfl
  obtain ⟨hsame, -⟩ | ⟨opened, hopen, hres⟩ := attemptUpload_eq_some env hattempt
  · exact hsame ▸ hsent _
  have hopened : h.RemovesOnly opened.2.1
        (if u.keepTextSection then path else joinPath u.tmp (env.fileIDString fileID)) ∧
      RetryOnly u opened.1 ∧ ∀ f size, opened.2.2 = .upload f size →
        f.name env u.tmp =
          if u.keepTextSection then path else joinPath u.tmp (env.fileIDString fileID) := by
    rcases hopen with ⟨hkeep, rfl⟩ | ⟨hkeep, hopen⟩
    · obtain ⟨hhost, hfile⟩ := openExecutable_host env u _ fileID path r
      refine ⟨hhost ▸ hsent _, openExecutable_retryOnly env u _ fileID path r, fun f size hf => ?_⟩
      rw [hfile f size hf, if_pos hkeep]
      rfl
    · obtain ⟨hremoves, hfile⟩ := openExtraction_removesOnly env hopen
      rw [if_neg (by simp [hkeep])]
      exact ⟨(hsent _).trans hremoves, openExtraction_retryOnly env hopen,
        fun f size hf => by rw [hfile f size hf]; rfl⟩
  obtain ⟨hremoves, hretry, hfile⟩ := hopened
  rcases hres with ⟨err, -, rfl⟩ | ⟨f, size, hnext, rfl⟩
  · exact hremoves
  · refine hremoves.trans ?_
    rw [← hfile f size hnext, ← hretry.tmp]
    exact sendFile_removesOnly env _ _ fileID buildID f size r

end ProfilingAgent.Uploader
