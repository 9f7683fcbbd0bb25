import KineticAtlas.Registry
import KineticAtlas.Library.Runs

/-!
The auto-updater (updater.rs). Each round asks the registry server for a listing,
downloads the listed files with their signatures, writes the files that verify and
reloads the registry; a failed round is retried with growing delays. The server is
arbitrary. The main result says what a round can do to the disk: every file it has
not left alone holds bytes that came with a signature verified under the configured
key, or a beginning of them where their write broke off and ended the round, or is an
announcement written by the reload.
-/
namespace KineticAtlas.Updater

open Library.Texts Library.Runs Library.Utf8 Library.Files KineticAtlas.Types Registry

/-- An item of the server's directory listing. -/
structure GitHubContent where
  name : Str
  downloadUrl : Option Str
  itemType : Str

/-- What comes of a GET: no response at all, or a status and a body that may break off. -/
inductive HttpReply
  | sendError (e : Str)
  | response (status : UInt16) (body : Except Str Bytes)

/-- The replies of one round; downloads by the position of their item in the listing. -/
structure Server where
  listing : Str → HttpReply
  file : ℕ → Str → HttpReply
  signature : ℕ → Str → HttpReply

inductive FromHexError
  | invalidHexCharacter (c : UInt8) (index : ℕ)
  | oddLength
  deriving DecidableEq

/-- Ed25519 keys and signatures, JSON decoding of listings, and the texts of errors. -/
structure Libraries (Key : Type) where
  keyFromBytes : Bytes → Except Str Key
  verify : Key → (msg sig : Bytes) → Bool
  parseListing : Bytes → Except Str (List GitHubContent)
  statusError : UInt16 → (url : Str) → Str
  hexError : FromHexError → Str

def hexVal (c : UInt8) (index : ℕ) : Except FromHexError UInt8 :=
  if 65 ≤ c ∧ c ≤ 70 then .ok (c - 65 + 10)
  else if 97 ≤ c ∧ c ≤ 102 then .ok (c - 97 + 10)
  else if 48 ≤ c ∧ c ≤ 57 then .ok (c - 48)
  else .error (.invalidHexCharacter c index)

def hexPairs : ℕ → Bytes → Except FromHexError Bytes
  | index, high :: low :: rest => do
    let h ← hexVal high index
    let l ← hexVal low (index + 1)
    let bytes ← hexPairs (index + 2) rest
    pure ((h <<< 4 ||| l) :: bytes)
  | _, _ => .ok []

def hexDecode (s : Str) : Except FromHexError Bytes :=
  let bytes := s.flatMap String.utf8EncodeChar
  if bytes.length % 2 ≠ 0 then .error .oddLength else hexPairs 0 bytes

/-- `char::is_whitespace`. -/
def isWhitespace (c : Char) : Bool :=
  let n := c.toNat
  (9 ≤ n ∧ n ≤ 13) ∨ n = 0x20 ∨ n = 0x85 ∨ n = 0xA0 ∨ n = 0x1680 ∨ (0x2000 ≤ n ∧ n ≤ 0x200A) ∨
    n = 0x2028 ∨ n = 0x2029 ∨ n = 0x202F ∨ n = 0x205F ∨ n = 0x3000

/-- The signature in the body of a signature file. -/
def signatureOf (sigHexBytes : Bytes) : Except FromHexError Bytes :=
  hexDecode (trim isWhitespace (decodeLossy sigHexBytes))

/-- `error_for_status` rejects client and server errors. -/
def isErrorStatus (status : UInt16) : Bool := 400 ≤ status ∧ status < 600

/-- A download is skipped, ends the round, or yields its body. -/
inductive Download
  | skipped
  | failed (reason : Str)
  | body (bytes : Bytes)

variable {Key : Type} {F : Type}

def download (lib : Libraries Key) (url : Str) (describe : Str → Str) : HttpReply → Download
  | .sendError _ => .skipped
  | .response status body =>
    if isErrorStatus status then .failed (describe (lib.statusError status url))
    else
      match body with
      | .ok bytes => .body bytes
      | .error e => .failed e

/-- The files written so far and their number. -/
structure Update (F : Type) where
  disk : Disk F
  count : ℕ

def missingSignature (name e : Str) : Str :=
  "Missing signature for ".toList ++ name ++ ": ".toList ++ e

variable [DecidableEq F]

def failedWrite (name e : Str) : AtlasError :=
  .updaterFailed ("Failed to write verified file ".toList ++ name ++ ": ".toList ++ e)

def writeVerified (fs : FileSystem F) (outDir : Str) (item : GitHubContent) (fileBytes : Bytes)
    (s : Update F) : Update F × Option AtlasError :=
  let written := writeFile fs s.disk (joinPath outDir item.name) fileBytes
  match written.error with
  | none => (⟨written.disk, s.count + 1⟩, none)
  | some e => (⟨written.disk, s.count⟩, some (failedWrite item.name e))

/-- One item of the listing; an error ends the round. -/
def updateItem (lib : Libraries Key) (fs : FileSystem F) (server : Server) (publicKey : Key)
    (outDir : Str) (i : ℕ) (item : GitHubContent) (s : Update F) : Update F × Option AtlasError :=
  if item.itemType = "file".toList ∧ ".json".toList <:+ item.name then
    match item.downloadUrl with
    | none => (s, none)
    | some downloadUrl =>
      match download lib downloadUrl id (server.file i downloadUrl) with
      | .skipped => (s, none)
      | .failed e => (s, some (.updaterFailed e))
      | .body fileBytes =>
        let sigUrl := downloadUrl ++ ".sig".toList
        match download lib sigUrl (missingSignature item.name) (server.signature i sigUrl) with
        | .skipped => (s, none)
        | .failed e => (s, some (.updaterFailed e))
        | .body sigHexBytes =>
          match signatureOf sigHexBytes with
          | .error _ => (s, none)
          | .ok sigBytes =>
            if lib.verify publicKey fileBytes sigBytes then
              writeVerified fs outDir item fileBytes s
            else (s, none)
  else (s, none)

def updateItems (lib : Libraries Key) (fs : FileSystem F) (server : Server) (publicKey : Key)
    (outDir : Str) : ℕ → List GitHubContent → Update F → Update F × Option AtlasError
  | _, [], s => (s, none)
  | i, item :: rest, s =>
    match updateItem lib fs server publicKey outDir i item s with
    | (s, some e) => (s, some e)
    | (s, none) => updateItems lib fs server publicKey outDir (i + 1) rest s

def publicKeyOf (lib : Libraries Key) (pubkeyHex : Str) : Except AtlasError Key :=
  match hexDecode pubkeyHex with
  | .error e => .error (.updaterFailed ("Invalid public key hex: ".toList ++ lib.hexError e))
  | .ok bytes =>
    match lib.keyFromBytes bytes with
    | .error e => .error (.updaterFailed ("Invalid public key bytes: ".toList ++ e))
    | .ok key => .ok key

def fetchListing (lib : Libraries Key) (server : Server) (url : Str) :
    Except AtlasError (List GitHubContent) :=
  match server.listing url with
  | .sendError e => .error (.updaterFailed e)
  | .response status body =>
    if isErrorStatus status then .error (.updaterFailed (lib.statusError status url))
    else
      match body.bind lib.parseListing with
      | .error e => .error (.updaterFailed e)
      | .ok contents => .ok contents

def ensureOutDir (fs : FileSystem F) (outDir : Str) : Except AtlasError Unit :=
  if fs.pathExists outDir then .ok ()
  else
    match fs.createDirError outDir with
    | none => .ok ()
    | some e =>
      .error (.updaterFailed
        ("Failed to create output directory ".toList ++ outDir ++ ": ".toList ++ e))

/-- The disk afterwards, and the number of files synced or the error. -/
def fetchAndUpdate (lib : Libraries Key) (fs : FileSystem F) (server : Server) (url pubkeyHex : Str)
    (networksDir : Str) (disk : Disk F) : Disk F × Except AtlasError ℕ :=
  let prepared := do
    let publicKey ← publicKeyOf lib pubkeyHex
    let contents ← fetchListing lib server url
    ensureOutDir fs networksDir
    pure (publicKey, contents)
  match prepared with
  | .error e => (disk, .error e)
  | .ok (publicKey, contents) =>
    match updateItems lib fs server publicKey networksDir 0 contents ⟨disk, 0⟩ with
    | (s, some e) => (s.disk, .error e)
    | (s, none) => (s.disk, .ok s.count)

structure UpdaterState (F : Type) where
  disk : Disk F
  registry : TldRegistry
  failDelay : ℕ

/-- What one round meets: the server, and the file system before and during the reload. -/
structure Round (F : Type) where
  server : Server
  fs : FileSystem F
  reloadFs : FileSystem F

def hour : ℕ := 60 * 60

def day : ℕ := 24 * 60 * 60

/-- The updater runs only with a registry url and a non-empty public key. -/
def updaterSource (config : AtlasConfig) : Option (Str × Str) :=
  match config.registryUrl, config.updaterPublicKey with
  | some url, some pubkeyHex => if pubkeyHex = [] then none else some (url, pubkeyHex)
  | _, _ => none

/-- One pass of the loop with the seconds it then sleeps. -/
def loopRound (lib : Libraries Key) (json : Json) (config : AtlasConfig) (url pubkeyHex : Str)
    (round : Round F) (s : UpdaterState F) : UpdaterState F × ℕ :=
  match fetchAndUpdate lib round.fs round.server url pubkeyHex config.networksDir s.disk with
  | (disk, .ok _) =>
    let loaded := loadFromDir round.reloadFs json config.networksDir config ⟨s.registry, disk⟩
    (⟨loaded.disk, loaded.registry, hour⟩, day)
  | (disk, .error _) => (⟨disk, s.registry, min (s.failDelay * 2) day⟩, s.failDelay)

/-- The updater from the state in which it is started. -/
def updater (lib : Libraries Key) (json : Json) (config : AtlasConfig) (disk : Disk F)
    (registry : TldRegistry) : Machine (UpdaterState F) (Round F) where
  init := ⟨disk, registry, hour⟩
  step s round :=
    (updaterSource config).map fun source =>
      (loopRound lib json config source.1 source.2 round s).1

/-- The server sent the bytes and, beside them, a signature of them under the key. -/
def Authentic (lib : Libraries Key) (server : Server) (publicKey : Key) (fileBytes : Bytes) :
    Prop :=
  ∃ i url status sigStatus sigHexBytes sigBytes,
    server.file i url = .response status (.ok fileBytes) ∧
    server.signature i (url ++ ".sig".toList) = .response sigStatus (.ok sigHexBytes) ∧
    signatureOf sigHexBytes = .ok sigBytes ∧ lib.verify publicKey fileBytes sigBytes = true

/-- A beginning of admitted bytes, in the file of a name whose write broke off. -/
def BrokenOff (P : Bytes → Prop) (fs : FileSystem F) (outDir : Str) (f : F) (left : Bytes) :
    Prop :=
  ∃ name bytes n e, P bytes ∧ fs.breaksOff (joinPath outDir name) bytes = some (n, e) ∧
    f = fs.file (joinPath outDir name) ∧ left = bytes.take n

/-- Every file has its old content or admitted bytes. Where the write of a file breaks off,
this file has a beginning of admitted bytes, and the failure is reported. -/
inductive LeavesBehind (P : Bytes → Prop) (fs : FileSystem F) (outDir : Str) (d d' : Disk F)
    (fails : AtlasError → Prop) : Prop
  | whole : Confined (fun _ bytes => P bytes) d d' → LeavesBehind P fs outDir d d' fails
  | brokenOff (name : Str) (bytes : Bytes) (n : ℕ) (e : Str) :
      P bytes → fs.breaksOff (joinPath outDir name) bytes = some (n, e) →
      fails (failedWrite name e) →
      Confined (fun f left => P left ∨ f = fs.file (joinPath outDir name) ∧ left = bytes.take n)
        d d' → LeavesBehind P fs outDir d d' fails

variable {lib : Libraries Key} {fs : FileSystem F} {server : Server} {publicKey : Key}
  {json : Json} {config : AtlasConfig} {P Q : Bytes → Prop} {outDir : Str} {d d' d'' : Disk F}
  {fails : AtlasError → Prop}

omit [DecidableEq F] in
theorem BrokenOff.mono (hPQ : ∀ bytes, P bytes → Q bytes) {f : F} {left : Bytes}
    (h : BrokenOff P fs outDir f left) : BrokenOff Q fs outDir f left := by
  obtain ⟨name, bytes, n, e, hbytes, hrest⟩ := h
  exact ⟨name, bytes, n, e, hPQ bytes hbytes, hrest⟩

omit [DecidableEq F] in
theorem LeavesBehind.mono (hPQ : ∀ bytes, P bytes → Q bytes)
    (h : LeavesBehind P fs outDir d d' fails) : LeavesBehind Q fs outDir d d' fails := by
  cases h with
  | whole hconfined => exact .whole (hconfined.mono fun _ => hPQ)
  | brokenOff name bytes n e hbytes hbreak hfails hconfined =>
    exact .brokenOff name bytes n e (hPQ bytes hbytes) hbreak hfails
      (hconfined.mono fun _ left => Or.imp_left (hPQ left))

omit [DecidableEq F] in
theorem LeavesBehind.after (h : LeavesBehind P fs outDir d' d'' fails)
    (hbefore : Confined (fun _ bytes => P bytes) d d') : LeavesBehind P fs outDir d d'' fails := by
  cases h with
  | whole hconfined => exact .whole (hbefore.trans hconfined)
  | brokenOff name bytes n e hbytes hbreak hfails hconfined =>
    exact .brokenOff name bytes n e hbytes hbreak hfails
      ((hbefore.mono fun _ _ => Or.inl).trans hconfined)

omit [DecidableEq F] in
/-- No write has broken off where no failure is reported. -/
theorem LeavesBehind.whole_of (h : LeavesBehind P fs outDir d d' fails)
    (hno : ∀ e, ¬ fails e) : Confined (fun _ bytes => P bytes) d d' := by
  cases h with
  | whole hconfined => exact hconfined
  | brokenOff name _ _ e _ _ hfails _ => exact absurd hfails (hno _)

omit [DecidableEq F] in
theorem LeavesBehind.confined (h : LeavesBehind P fs outDir d d' fails) :
    Confined (fun f bytes => P bytes ∨ BrokenOff P fs outDir f bytes) d d' := by
  cases h with
  | whole hconfined => exact hconfined.mono fun _ _ => Or.inl
  | brokenOff name bytes n e hbytes hbreak _ hconfined =>
    exact hconfined.mono fun f left => Or.imp_right fun hleft =>
      ⟨name, bytes, n, e, hbytes, hbreak, hleft⟩

theorem download_body {url : Str} {describe : Str → Str} {reply : HttpReply} {bytes : Bytes}
    (h : download lib url describe reply = .body bytes) :
    ∃ status, reply = .response status (.ok bytes) := by
  cases reply with
  | sendError e => simp [download] at h
  | response status body =>
    by_cases hstatus : isErrorStatus status = true
    · simp [download, hstatus] at h
    · cases body with
      | error e => simp [download, hstatus] at h
      | ok bytes' =>
        obtain rfl : bytes' = bytes := by simpa [download, hstatus] using h
        exact ⟨status, rfl⟩

theorem writeVerified_leaves (outDir : Str) (item : GitHubContent)
    (fileBytes : Bytes) (s : Update F) (h : P fileBytes) :
    LeavesBehind P fs outDir s.disk (writeVerified fs outDir item fileBytes s).1.disk
      fun e => (writeVerified fs outDir item fileBytes s).2 = some e := by
  cases hopen : fs.writeError (joinPath outDir item.name) with
  | some e =>
    simp only [writeVerified, writeFile, hopen]
    exact .whole (Confined.refl _ _)
  | none =>
    cases hbreak : fs.breaksOff (joinPath outDir item.name) fileBytes with
    | none =>
      simp only [writeVerified, writeFile, hopen, hbreak, Option.map_none, bytesLeft]
      exact .whole (Confined.write _ _ h)
    | some cut =>
      simp only [writeVerified, writeFile, hopen, hbreak, Option.map_some, bytesLeft]
      exact .brokenOff item.name fileBytes cut.1 cut.2 h hbreak rfl
        (Confined.write _ _ (Or.inr ⟨rfl, rfl⟩))

/-- Of the ways through an item only the last one writes. -/
theorem updateItem_leaves (outDir : Str) (i : ℕ) (item : GitHubContent) (s : Update F) :
    LeavesBehind (Authentic lib server publicKey) fs outDir s.disk
      (updateItem lib fs server publicKey outDir i item s).1.disk
      fun e => (updateItem lib fs server publicKey outDir i item s).2 = some e := by
  unfold updateItem
  split
  · cases item.downloadUrl with
    | none => exact .whole (Confined.refl _ _)
    | some downloadUrl =>
      dsimp only
      cases hfile : download lib downloadUrl id (server.file i downloadUrl) with
      | skipped => exact .whole (Confined.refl _ _)
      | failed e => exact .whole (Confined.refl _ _)
      | body fileBytes =>
        dsimp only
        cases hsig : download lib (downloadUrl ++ ".sig".toList) (missingSignature item.name)
            (server.signature i (downloadUrl ++ ".sig".toList)) with
        | skipped => exact .whole (Confined.refl _ _)
        | failed e => exact .whole (Confined.refl _ _)
        | body sigHexBytes =>
          dsimp only
          cases hhex : signatureOf sigHexBytes with
          | error e => exact .whole (Confined.refl _ _)
          | ok sigBytes =>
            dsimp only
            split
            · rename_i hverify
              obtain ⟨status, hfile⟩ := download_body hfile
              obtain ⟨sigStatus, hsig⟩ := download_body hsig
              exact writeVerified_leaves outDir item fileBytes s
                ⟨i, downloadUrl, status, sigStatus, sigHexBytes, sigBytes, hfile, hsig, hhex,
                  hverify⟩
            · exact .whole (Confined.refl _ _)
  · exact .whole (Confined.refl _ _)

/-- The loop ends at the first write that breaks off, so there is one at most. -/
theorem updateItems_leaves (outDir : Str) (i : ℕ) (contents : List GitHubContent)
    (s : Update F) :
    LeavesBehind (Authentic lib server publicKey) fs outDir s.disk
      (updateItems lib fs server publicKey outDir i contents s).1.disk
      fun e => (updateItems lib fs server publicKey outDir i contents s).2 = some e := by
  induction contents generalizing i s with
  | nil => exact .whole (Confined.refl _ _)
  | cons item rest ih =>
    have hitem : LeavesBehind (Authentic lib server publicKey) fs outDir s.disk
        (updateItem lib fs server publicKey outDir i item s).1.disk
        fun e => (updateItem lib fs server publicKey outDir i item s).2 = some e :=
      updateItem_leaves outDir i item s
    unfold updateItems
    cases hstep : updateItem lib fs server publicKey outDir i item s with
    | mk s' error =>
      rw [hstep] at hitem
      cases error with
      | some e => exact hitem
      | none => exact (ih (i + 1) s').after (hitem.whole_of fun e he => by cases he)

/-- The bytes came with a signature verified under the configured key. -/
def Verified (lib : Libraries Key) (server : Server) (pubkeyHex : Str) (bytes : Bytes) : Prop :=
  ∃ publicKey, publicKeyOf lib pubkeyHex = .ok publicKey ∧ Authentic lib server publicKey bytes

theorem fetchAndUpdate_leaves (url pubkeyHex networksDir : Str) (disk : Disk F) :
    LeavesBehind (Verified lib server pubkeyHex) fs networksDir disk
      (fetchAndUpdate lib fs server url pubkeyHex networksDir disk).1
      fun e => (fetchAndUpdate lib fs server url pubkeyHex networksDir disk).2 = .error e := by
  unfold fetchAndUpdate
  dsimp only
  cases hkey : publicKeyOf lib pubkeyHex with
  | error e => exact .whole (Confined.refl _ _)
  | ok publicKey =>
    cases hlisting : fetchListing lib server url with
    | error e => exact .whole (Confined.refl _ _)
    | ok contents =>
      cases hdir : ensureOutDir fs networksDir with
      | error e => exact .whole (Confined.refl _ _)
      | ok _ =>
        have hitems : LeavesBehind (Verified lib server pubkeyHex) fs networksDir disk
            (updateItems lib fs server publicKey networksDir 0 contents ⟨disk, 0⟩).1.disk
            fun e => (updateItems lib fs server publicKey networksDir 0 contents
              ⟨disk, 0⟩).2 = some e :=
          (updateItems_leaves networksDir 0 contents ⟨disk, 0⟩).mono
            fun _ h => ⟨publicKey, hkey, h⟩
        cases hresult : updateItems lib fs server publicKey networksDir 0 contents ⟨disk, 0⟩ with
        | mk s error =>
          rw [hresult] at hitems
          cases error with
          | some e => simpa [hresult, bind, Except.bind, pure, Except.pure] using hitems
          | none => simpa [hresult, bind, Except.bind, pure, Except.pure] using hitems

theorem fetchAndUpdate_confined (url pubkeyHex networksDir : Str) (disk : Disk F) :
    Confined (fun f bytes => Verified lib server pubkeyHex bytes ∨
        BrokenOff (Verified lib server pubkeyHex) fs networksDir f bytes) disk
      (fetchAndUpdate lib fs server url pubkeyHex networksDir disk).1 :=
  (fetchAndUpdate_leaves url pubkeyHex networksDir disk).confined

/-- What a round may leave in a file: verified bytes, a beginning of them after a write that
broke off, or an announcement. -/
def RoundWrites (lib : Libraries Key) (json : Json) (config : AtlasConfig) (pubkeyHex : Str)
    (round : Round F) (f : F) (bytes : Bytes) : Prop :=
  (Verified lib round.server pubkeyHex bytes ∨
    BrokenOff (Verified lib round.server pubkeyHex) round.fs config.networksDir f bytes) ∨
  IsProxyFile round.reloadFs json config f bytes

theorem loopRound_confined (url pubkeyHex : Str) (round : Round F) (s : UpdaterState F) :
    Confined (RoundWrites lib json config pubkeyHex round) s.disk
      (loopRound lib json config url pubkeyHex round s).1.disk := by
  have hfetch : Confined (RoundWrites lib json config pubkeyHex round) s.disk
      (fetchAndUpdate lib round.fs round.server url pubkeyHex config.networksDir s.disk).1 :=
    (fetchAndUpdate_confined url pubkeyHex config.networksDir s.disk).mono fun _ _ => Or.inl
  unfold loopRound
  cases hresult : fetchAndUpdate lib round.fs round.server url pubkeyHex config.networksDir
      s.disk with
  | mk disk result =>
    rw [hresult] at hfetch
    cases result with
    | ok count =>
      exact hfetch.trans ((loadFromDir_confined _ _).mono fun _ _ => Or.inr)
    | error e => exact hfetch

theorem run_confined {disk : Disk F} {registry : TldRegistry} {rounds : List (Round F)}
    {s : UpdaterState F} {url pubkeyHex : Str}
    (hsource : updaterSource config = some (url, pubkeyHex))
    (hrun : (updater lib json config disk registry).Run rounds s) :
    Confined (fun f bytes => ∃ round ∈ rounds, RoundWrites lib json config pubkeyHex round f bytes)
      disk s.disk := by
  refine Machine.Run.invariant (P := fun rounds s =>
    Confined (fun f bytes => ∃ round ∈ rounds, RoundWrites lib json config pubkeyHex round f bytes)
      disk s.disk) (Confined.refl _ _) ?_ hrun
  intro rounds s round s' _ ih hstep
  have hs' : (loopRound lib json config url pubkeyHex round s).1 = s' := by
    simpa [updater, hsource] using hstep
  subst s'
  have hround : Confined (RoundWrites lib json config pubkeyHex round) s.disk
      (loopRound lib json config url pubkeyHex round s).1.disk :=
    loopRound_confined url pubkeyHex round s
  refine Confined.trans (ih.mono fun _ _ ⟨r, hr, hw⟩ => ⟨r, List.mem_append_left _ hr, hw⟩) ?_
  exact hround.mono fun _ _ hw => ⟨round, by simp, hw⟩

/-- In every run of the updater, whatever the server does, a file either holds what
it held at the start, or verified bytes of some round or a beginning of them, or an
announcement written by some reload. From every state reached, a further fetch leaves every
file as it is or with verified bytes, but for one file at most: the fetch fails at its
write, which breaks off, and the file is left with a beginning of verified bytes. -/
theorem updates_authentic {disk : Disk F} {registry : TldRegistry} {rounds : List (Round F)}
    {s : UpdaterState F} {url pubkeyHex : Str}
    (hsource : updaterSource config = some (url, pubkeyHex))
    (hrun : (updater lib json config disk registry).Run rounds s) :
    Confined (fun f bytes => ∃ round ∈ rounds, RoundWrites lib json config pubkeyHex round f bytes)
        disk s.disk ∧
      ∀ round : Round F,
        LeavesBehind (Verified lib round.server pubkeyHex) round.fs config.networksDir s.disk
          (fetchAndUpdate lib round.fs round.server url pubkeyHex config.networksDir s.disk).1
          fun e => (fetchAndUpdate lib round.fs round.server url pubkeyHex config.networksDir
            s.disk).2 = .error e :=
  ⟨run_confined hsource hrun,
    fun _ => fetchAndUpdate_leaves url pubkeyHex config.networksDir s.disk⟩

def keyHex : Str := "3d4017c3e843895a92b70aa74d1b7ebc9c982ccf2ec4968cc0cd55f12af4660c"

def signatureHex : Str :=
  "92a009a9f0d4cab8720e820b5f642540a2b27b5416503f8fb3762223ebdb69da".toList ++
    "085ac1e43e15996e458f3613d0f11d8c387b2eaeb4302aeeb00d291612bb0c00".toList

def listingJson : Bytes :=
  ("[\x7b\"name\":\"r.json\",\"download_url\":\"https://host/r.json\",".toList ++
    "\"type\":\"file\"\x7d]".toList).flatMap String.utf8EncodeChar

/-- Ed25519 at one key, the one-byte message 0x72 and its signature. -/
def oneSignature : Libraries Bytes where
  keyFromBytes bytes := if bytes.length = 32 then .ok bytes else .error "invalid length"
  verify key msg sig := hexDecode keyHex = .ok key ∧ msg = [0x72] ∧ hexDecode signatureHex = .ok sig
  parseListing bytes :=
    if bytes = listingJson then .ok [⟨"r.json", some "https://host/r.json", "file"⟩]
    else .error "expected value"
  statusError _ _ := "status error"
  hexError _ := "hex error"

/-- The one file is not a network, so the reload only skips it. -/
def noNetworks : Json where
  parseConfig _ := none
  prettyProxy _ _ _ := []

def signedRound : Round Str where
  server :=
    { listing := fun _ => .response 200 (.ok listingJson)
      file := fun _ _ => .response 200 (.ok [0x72])
      signature := fun _ _ =>
        .response 200 (.ok (signatureHex.flatMap String.utf8EncodeChar)) }
  fs := ⟨id, fun _ => true, fun _ => true, fun _ _ => some ["r.json"], fun _ => false,
    fun _ => none, fun _ _ => none, fun _ => none, none⟩
  reloadFs := ⟨id, fun _ => true, fun _ => true, fun _ _ => some ["r.json"], fun _ => false,
    fun _ => none, fun _ _ => none, fun _ => none, none⟩

def syncedConfig : AtlasConfig :=
  ⟨"1.0", [], [], 17002, "http://127.0.0.1:16202", "", "networks", some "https://host/networks",
    none, some keyHex⟩

theorem updaterSource_synced :
    updaterSource syncedConfig = some ("https://host/networks".toList, keyHex) := by
  decide +kernel

theorem updates_authentic_signed :
    ∃ s, (updater oneSignature noNetworks syncedConfig (fun _ => none) .new).Run [signedRound] s ∧
      s.disk "networks/r.json".toList = some [0x72] ∧
      Confined (fun f bytes => ∃ round ∈ [signedRound],
        RoundWrites oneSignature noNetworks syncedConfig keyHex round f bytes)
        (fun _ => none) s.disk := by
  have hrun := (updater oneSignature noNetworks syncedConfig (fun _ => none) .new).run_get
    [signedRound] rfl
  exact ⟨_, hrun, by decide +kernel, (updates_authentic updaterSource_synced hrun).1⟩

/-- The same round on a disk with no room left. -/
def brokenRound : Round Str :=
  { signedRound with
    fs := { signedRound.fs with breaksOff := fun _ _ => some (0, "No space left on device") } }

/-- The write of the verified file breaks off, and leaves bytes that nobody has signed. -/
theorem cut_short_on_disk :
    ∃ s, (updater oneSignature noNetworks syncedConfig (fun _ => none) .new).Run [brokenRound] s ∧
      s.disk "networks/r.json".toList = some [] ∧
      ¬ Verified oneSignature brokenRound.server keyHex [] := by
  refine ⟨_, Machine.run_get _ _ rfl, by decide +kernel, ?_⟩
  rintro ⟨publicKey, -, i, url, status, sigStatus, sigHexBytes, sigBytes, hfile, -⟩
  have hsent : ([0x72] : Bytes) = [] := Except.ok.inj (HttpReply.response.inj hfile).2
  exact absurd hsent (by decide)

end KineticAtlas.Updater
