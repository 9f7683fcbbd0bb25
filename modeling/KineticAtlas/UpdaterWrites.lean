import KineticAtlas.Updater
import KineticAtlas.RegistryLoad
import KineticAtlas.Library.Paths

/-!
What the auto-updater writes, write by write. An item of the listing is skipped,
ends the round or is written, and a write that breaks off ends the round too. Which of
these happens does not depend on the disk; a round's effect on the disk is that of its
writes in order.
-/
namespace KineticAtlas.UpdaterWrites

open Library.Texts Library.Runs Library.Utf8 Library.Files Library.Paths KineticAtlas.Types
  Registry RegistryLoad Updater

variable {Key F : Type} [DecidableEq F]

/-- The bytes pass every check made of an item. -/
def Accepts (lib : Libraries Key) (server : Server) (publicKey : Key) (i : ℕ)
    (item : GitHubContent) (fileBytes : Bytes) : Prop :=
  item.itemType = "file".toList ∧ ".json".toList <:+ item.name ∧
    ∃ downloadUrl sigHexBytes sigBytes, item.downloadUrl = some downloadUrl ∧
      download lib downloadUrl id (server.file i downloadUrl) = .body fileBytes ∧
      download lib (downloadUrl ++ ".sig".toList) (missingSignature item.name)
        (server.signature i (downloadUrl ++ ".sig".toList)) = .body sigHexBytes ∧
      signatureOf sigHexBytes = .ok sigBytes ∧ lib.verify publicKey fileBytes sigBytes = true

inductive ItemOutcome
  | skipped
  | failed (e : AtlasError)
  | written (bytes : Bytes)
  | brokenOff (left : Bytes) (e : AtlasError)

/-- What the item leaves in its file, if that is opened at all. -/
def ItemOutcome.left : ItemOutcome → Option Bytes
  | .written bytes => some bytes
  | .brokenOff left _ => some left
  | _ => none

def ItemOutcome.error : ItemOutcome → Option AtlasError
  | .failed e => some e
  | .brokenOff _ e => some e
  | _ => none

/-- The outcome of an item, read off a round that starts from an empty disk. -/
def itemOutcome (lib : Libraries Key) (fs : FileSystem F) (server : Server) (publicKey : Key)
    (outDir : Str) (i : ℕ) (item : GitHubContent) : ItemOutcome :=
  let result := updateItem lib fs server publicKey outDir i item ⟨fun _ => none, 0⟩
  match result.1.disk (fs.file (joinPath outDir item.name)), result.2 with
  | none, none => .skipped
  | none, some e => .failed e
  | some bytes, none => .written bytes
  | some left, some e => .brokenOff left e

/-- The item ends the round with an error. -/
def endsRound (lib : Libraries Key) (fs : FileSystem F) (server : Server) (publicKey : Key)
    (outDir : Str) (i : ℕ) (item : GitHubContent) : Bool :=
  (itemOutcome lib fs server publicKey outDir i item).error.isSome

/-- The items from number `i` on that are looked at, with their positions: all up to the
first one that ends the round. -/
def reached (lib : Libraries Key) (fs : FileSystem F) (server : Server) (publicKey : Key)
    (outDir : Str) (i : ℕ) (contents : List GitHubContent) : List (GitHubContent × ℕ) :=
  (contents.zipIdx i).take (((contents.zipIdx i).takeWhile
    fun p => !endsRound lib fs server publicKey outDir p.2 p.1).length + 1)

/-- A file that was opened for writing, and the bytes it was left with. -/
structure Write where
  name : Str
  path : Str
  bytes : Bytes
  deriving DecidableEq

def writeOf (lib : Libraries Key) (fs : FileSystem F) (server : Server) (publicKey : Key)
    (outDir : Str) (p : GitHubContent × ℕ) : Option Write :=
  (itemOutcome lib fs server publicKey outDir p.2 p.1).left.map fun left =>
    ⟨p.1.name, joinPath outDir p.1.name, left⟩

/-- The writes of a round from its item numbered `i` on. -/
def updateWrites (lib : Libraries Key) (fs : FileSystem F) (server : Server) (publicKey : Key)
    (outDir : Str) (i : ℕ) (contents : List GitHubContent) : List Write :=
  (reached lib fs server publicKey outDir i contents).filterMap
    (writeOf lib fs server publicKey outDir)

/-- What precedes the loop over the listing. -/
def prepare (lib : Libraries Key) (fs : FileSystem F) (server : Server) (url pubkeyHex : Str)
    (networksDir : Str) : Except AtlasError (Key × List GitHubContent) := do
  let publicKey ← publicKeyOf lib pubkeyHex
  let contents ← fetchListing lib server url
  ensureOutDir fs networksDir
  pure (publicKey, contents)

def fetchWrites (lib : Libraries Key) (fs : FileSystem F) (server : Server) (url pubkeyHex : Str)
    (networksDir : Str) : List Write :=
  match prepare lib fs server url pubkeyHex networksDir with
  | .error _ => []
  | .ok (publicKey, contents) => updateWrites lib fs server publicKey networksDir 0 contents

def applyWrites (fs : FileSystem F) (disk : Disk F) (ws : List Write) : Disk F :=
  ws.foldl (fun d w => Function.update d (fs.file w.path) (some w.bytes)) disk

variable (lib : Libraries Key) (fs : FileSystem F) (server : Server) (publicKey : Key)
  (outDir : Str)

theorem updateItem_of_accepts {lib : Libraries Key} {server : Server} {publicKey : Key} {i : ℕ}
    {item : GitHubContent} {fileBytes : Bytes} (h : Accepts lib server publicKey i item fileBytes)
    (s : Update F) : updateItem lib fs server publicKey outDir i item s =
      writeVerified fs outDir item fileBytes s := by
  obtain ⟨htype, hjson, downloadUrl, sigHexBytes, sigBytes, hurl, hfile, hsig, hhex, hverify⟩ := h
  simp only [updateItem, if_pos (And.intro htype hjson), hurl, hfile, hsig, hhex, if_pos hverify]

/-- An item leaves everything as it is, whatever that is, or is accepted and written. -/
theorem updateItem_cases (i : ℕ) (item : GitHubContent) :
    (∃ error, ∀ s, updateItem lib fs server publicKey outDir i item s = (s, error)) ∨
      ∃ fileBytes, Accepts lib server publicKey i item fileBytes ∧
        ∀ s, updateItem lib fs server publicKey outDir i item s =
          writeVerified fs outDir item fileBytes s := by
  by_cases hfilter : item.itemType = "file".toList ∧ ".json".toList <:+ item.name
  · cases hurl : item.downloadUrl with
    | none => exact Or.inl ⟨none, fun s => by simp only [updateItem, if_pos hfilter, hurl]⟩
    | some downloadUrl =>
      cases hfile : download lib downloadUrl id (server.file i downloadUrl) with
      | skipped =>
        exact Or.inl ⟨none, fun s => by simp only [updateItem, if_pos hfilter, hurl, hfile]⟩
      | failed e =>
        exact Or.inl ⟨some (.updaterFailed e), fun s => by
          simp only [updateItem, if_pos hfilter, hurl, hfile]⟩
      | body fileBytes =>
        cases hsig : download lib (downloadUrl ++ ".sig".toList) (missingSignature item.name)
            (server.signature i (downloadUrl ++ ".sig".toList)) with
        | skipped =>
          exact Or.inl ⟨none, fun s => by
            simp only [updateItem, if_pos hfilter, hurl, hfile, hsig]⟩
        | failed e =>
          exact Or.inl ⟨some (.updaterFailed e), fun s => by
            simp only [updateItem, if_pos hfilter, hurl, hfile, hsig]⟩
        | body sigHexBytes =>
          cases hhex : signatureOf sigHexBytes with
          | error e =>
            exact Or.inl ⟨none, fun s => by
              simp only [updateItem, if_pos hfilter, hurl, hfile, hsig, hhex]⟩
          | ok sigBytes =>
            by_cases hverify : lib.verify publicKey fileBytes sigBytes = true
            · have haccepts : Accepts lib server publicKey i item fileBytes :=
                ⟨hfilter.1, hfilter.2, downloadUrl, sigHexBytes, sigBytes, hurl, hfile, hsig,
                  hhex, hverify⟩
              exact Or.inr ⟨fileBytes, haccepts, updateItem_of_accepts fs outDir haccepts⟩
            · exact Or.inl ⟨none, fun s => by
                simp only [updateItem, if_pos hfilter, hurl, hfile, hsig, hhex, if_neg hverify]⟩
  · exact Or.inl ⟨none, fun s => by simp only [updateItem, if_neg hfilter]⟩

theorem updateItem_outcome (i : ℕ) (item : GitHubContent) (s : Update F) :
    updateItem lib fs server publicKey outDir i item s =
      match itemOutcome lib fs server publicKey outDir i item with
      | .skipped => (s, none)
      | .failed e => (s, some e)
      | .written bytes =>
        (⟨Function.update s.disk (fs.file (joinPath outDir item.name)) (some bytes), s.count + 1⟩,
          none)
      | .brokenOff left e =>
        (⟨Function.update s.disk (fs.file (joinPath outDir item.name)) (some left), s.count⟩,
          some e) := by
  rcases updateItem_cases lib fs server publicKey outDir i item with
    ⟨error, hsame⟩ | ⟨fileBytes, -, hwrite⟩
  · cases error <;> simp [itemOutcome, hsame]
  · cases hopen : fs.writeError (joinPath outDir item.name) with
    | some e => simp [itemOutcome, hwrite, writeVerified, writeFile, hopen]
    | none =>
      cases hbreak : fs.breaksOff (joinPath outDir item.name) fileBytes <;>
        simp [itemOutcome, hwrite, writeVerified, writeFile, hopen, hbreak]

variable {lib fs server publicKey outDir}

/-- What an item leaves in its file: the bytes that were accepted, as far as they could be
written. -/
theorem left_iff {i : ℕ} {item : GitHubContent} {left : Bytes} :
    (itemOutcome lib fs server publicKey outDir i item).left = some left ↔
      ∃ bytes, Accepts lib server publicKey i item bytes ∧
        fs.writeError (joinPath outDir item.name) = none ∧
        left = bytesLeft fs (joinPath outDir item.name) bytes := by
  have hopened : ∀ bytes, Accepts lib server publicKey i item bytes →
      (itemOutcome lib fs server publicKey outDir i item).left =
        if fs.writeError (joinPath outDir item.name) = none then
          some (bytesLeft fs (joinPath outDir item.name) bytes) else none := by
    intro bytes haccepts
    have hwrite := updateItem_of_accepts fs outDir haccepts
    cases hopen : fs.writeError (joinPath outDir item.name) with
    | some e => simp [itemOutcome, hwrite, writeVerified, writeFile, hopen, ItemOutcome.left]
    | none =>
      cases hbreak : fs.breaksOff (joinPath outDir item.name) bytes <;>
        simp [itemOutcome, hwrite, writeVerified, writeFile, hopen, hbreak, ItemOutcome.left]
  constructor
  · intro hleft
    rcases updateItem_cases lib fs server publicKey outDir i item with
      ⟨error, hsame⟩ | ⟨bytes, haccepts, -⟩
    · cases error <;> simp [itemOutcome, hsame, ItemOutcome.left] at hleft
    · rw [hopened bytes haccepts] at hleft
      split at hleft
      · rename_i hopen
        exact ⟨bytes, haccepts, hopen, (Option.some.inj hleft).symm⟩
      · cases hleft
  · rintro ⟨bytes, haccepts, hopen, rfl⟩
    rw [hopened bytes haccepts, if_pos hopen]

theorem reached_cons (i : ℕ) (item : GitHubContent) (rest : List GitHubContent) :
    reached lib fs server publicKey outDir i (item :: rest) =
      (item, i) :: if endsRound lib fs server publicKey outDir i item then []
        else reached lib fs server publicKey outDir (i + 1) rest := by
  rw [reached, List.zipIdx_cons, List.takeWhile_cons]
  cases endsRound lib fs server publicKey outDir i item <;> simp [reached]

/-- The loop goes on behind an item that is left out or written. -/
theorem updateItems_cons (i : ℕ) (item : GitHubContent) (rest : List GitHubContent)
    (s : Update F) :
    updateItems lib fs server publicKey outDir i (item :: rest) s =
      match itemOutcome lib fs server publicKey outDir i item with
      | .skipped => updateItems lib fs server publicKey outDir (i + 1) rest s
      | .failed e => (s, some e)
      | .written bytes =>
        updateItems lib fs server publicKey outDir (i + 1) rest
          ⟨Function.update s.disk (fs.file (joinPath outDir item.name)) (some bytes),
            s.count + 1⟩
      | .brokenOff left e =>
        (⟨Function.update s.disk (fs.file (joinPath outDir item.name)) (some left), s.count⟩,
          some e) := by
  rw [updateItems, updateItem_outcome]
  cases itemOutcome lib fs server publicKey outDir i item <;> rfl

theorem updateItems_writes (i : ℕ) (contents : List GitHubContent) (s : Update F) :
    (updateItems lib fs server publicKey outDir i contents s).1.disk =
      applyWrites fs s.disk (updateWrites lib fs server publicKey outDir i contents) := by
  induction contents generalizing i s with
  | nil => rfl
  | cons item rest ih =>
    rw [updateItems_cons, updateWrites, reached_cons, List.filterMap_cons]
    cases houtcome : itemOutcome lib fs server publicKey outDir i item with
    | skipped =>
      simp only [writeOf, endsRound, houtcome, ItemOutcome.left, ItemOutcome.error]
      exact ih (i + 1) s
    | failed e => simp [writeOf, endsRound, houtcome, ItemOutcome.left, ItemOutcome.error,
        applyWrites]
    | written bytes =>
      simp only [writeOf, endsRound, houtcome, ItemOutcome.left, ItemOutcome.error]
      exact ih (i + 1) _
    | brokenOff left e => simp [writeOf, endsRound, houtcome, ItemOutcome.left, ItemOutcome.error,
        applyWrites]

theorem updateItems_error (i : ℕ) (contents : List GitHubContent) (s : Update F) :
    (updateItems lib fs server publicKey outDir i contents s).2.isSome =
      (contents.zipIdx i).any fun p => endsRound lib fs server publicKey outDir p.2 p.1 := by
  induction contents generalizing i s with
  | nil => rfl
  | cons item rest ih =>
    rw [updateItems_cons, List.zipIdx_cons, List.any_cons, endsRound]
    cases itemOutcome lib fs server publicKey outDir i item with
    | skipped => exact ih (i + 1) s
    | failed e => rfl
    | written bytes => exact ih (i + 1) _
    | brokenOff left e => rfl

/-- The writes of a round are those of the accepted items it looks at, where the file can
be opened. -/
theorem mem_updateWrites {i : ℕ} {contents : List GitHubContent} {w : Write} :
    w ∈ updateWrites lib fs server publicKey outDir i contents ↔
      ∃ p ∈ reached lib fs server publicKey outDir i contents,
        ∃ bytes, Accepts lib server publicKey p.2 p.1 bytes ∧
          fs.writeError (joinPath outDir p.1.name) = none ∧
          w = ⟨p.1.name, joinPath outDir p.1.name,
            bytesLeft fs (joinPath outDir p.1.name) bytes⟩ := by
  rw [updateWrites, List.mem_filterMap]
  refine exists_congr fun p => and_congr_right fun _ => ?_
  rw [writeOf, Option.map_eq_some_iff]
  constructor
  · rintro ⟨left, hleft, rfl⟩
    obtain ⟨bytes, haccepts, hopen, rfl⟩ := left_iff.mp hleft
    exact ⟨bytes, haccepts, hopen, rfl⟩
  · rintro ⟨bytes, haccepts, hopen, rfl⟩
    exact ⟨_, left_iff.mpr ⟨bytes, haccepts, hopen, rfl⟩, rfl⟩

/-- What a fetch is, once its preparations are taken apart from the loop. -/
theorem fetchAndUpdate_prepare (lib : Libraries Key) (fs : FileSystem F) (server : Server)
    (url pubkeyHex networksDir : Str) (disk : Disk F) :
    fetchAndUpdate lib fs server url pubkeyHex networksDir disk =
      match prepare lib fs server url pubkeyHex networksDir with
      | .error e => (disk, .error e)
      | .ok (publicKey, contents) =>
        match updateItems lib fs server publicKey networksDir 0 contents ⟨disk, 0⟩ with
        | (s, some e) => (s.disk, .error e)
        | (s, none) => (s.disk, .ok s.count) := rfl

/-- The disk after a fetch is the disk before it with the writes made in order. -/
theorem fetchAndUpdate_writes (lib : Libraries Key) (fs : FileSystem F) (server : Server)
    (url pubkeyHex networksDir : Str) (disk : Disk F) :
    (fetchAndUpdate lib fs server url pubkeyHex networksDir disk).1 =
      applyWrites fs disk (fetchWrites lib fs server url pubkeyHex networksDir) := by
  rw [fetchAndUpdate_prepare]
  cases hprepare : prepare lib fs server url pubkeyHex networksDir with
  | error e =>
    simp only [fetchWrites, hprepare]
    rfl
  | ok found =>
    obtain ⟨publicKey, contents⟩ := found
    simp only [fetchWrites, hprepare]
    rw [← updateItems_writes 0 contents ⟨disk, 0⟩]
    split <;> rename_i hresult <;> rw [hresult]

theorem mem_fetchWrites {url pubkeyHex networksDir : Str} {w : Write} :
    w ∈ fetchWrites lib fs server url pubkeyHex networksDir ↔
      ∃ publicKey contents,
        prepare lib fs server url pubkeyHex networksDir = .ok (publicKey, contents) ∧
        ∃ p ∈ reached lib fs server publicKey networksDir 0 contents,
          ∃ bytes, Accepts lib server publicKey p.2 p.1 bytes ∧
            fs.writeError (joinPath networksDir p.1.name) = none ∧
            w = ⟨p.1.name, joinPath networksDir p.1.name,
              bytesLeft fs (joinPath networksDir p.1.name) bytes⟩ := by
  cases hprepare : prepare lib fs server url pubkeyHex networksDir with
  | error e => simp [fetchWrites, hprepare]
  | ok found =>
    obtain ⟨publicKey, contents⟩ := found
    simp only [fetchWrites, hprepare]
    constructor
    · intro hw
      exact ⟨publicKey, contents, rfl, mem_updateWrites.mp hw⟩
    · rintro ⟨_, _, ⟨⟩, hw⟩
      exact mem_updateWrites.mpr hw

/-- A fetch that fails has failed before its first item or at one that ends the round. -/
theorem fetchAndUpdate_error {url pubkeyHex networksDir : Str} {disk : Disk F} {e : AtlasError}
    (h : (fetchAndUpdate lib fs server url pubkeyHex networksDir disk).2 = .error e) :
    fetchWrites lib fs server url pubkeyHex networksDir = [] ∨
      ∃ publicKey contents,
        prepare lib fs server url pubkeyHex networksDir = .ok (publicKey, contents) ∧
        ∃ p ∈ contents.zipIdx,
          endsRound lib fs server publicKey networksDir p.2 p.1 = true := by
  rw [fetchAndUpdate_prepare] at h
  cases hprepare : prepare lib fs server url pubkeyHex networksDir with
  | error e' => exact Or.inl (by simp only [fetchWrites, hprepare])
  | ok found =>
    obtain ⟨publicKey, contents⟩ := found
    refine Or.inr ⟨publicKey, contents, rfl, ?_⟩
    simp only [hprepare] at h
    have hany : (updateItems lib fs server publicKey networksDir 0 contents
        ⟨disk, 0⟩).2.isSome = true := by
      split at h <;> rename_i hresult <;> simp [hresult] at h ⊢
    rw [updateItems_error] at hany
    exact List.any_eq_true.mp hany

/-- Writes of what the files hold change nothing. -/
theorem applyWrites_eq_self {disk : Disk F} {ws : List Write}
    (h : ∀ w ∈ ws, disk (fs.file w.path) = some w.bytes) : applyWrites fs disk ws = disk := by
  induction ws with
  | nil => rfl
  | cons w rest ih =>
    have hfirst : Function.update disk (fs.file w.path) (some w.bytes) = disk :=
      Function.update_eq_self_iff.mpr (h w (by simp)).symm
    rw [applyWrites, List.foldl_cons, hfirst]
    exact ih fun w' hw' => h w' (List.mem_cons_of_mem w hw')

/-- A signature under the configured key verifies only for bytes that were published. -/
def Unforgeable (lib : Libraries Key) (pubkeyHex : Str) (published : Set (Str × Bytes)) : Prop :=
  ∀ publicKey, publicKeyOf lib pubkeyHex = .ok publicKey →
    ∀ bytes sig, lib.verify publicKey bytes sig = true → ∃ name, (name, bytes) ∈ published

theorem published_of_verified {pubkeyHex : Str} {published : Set (Str × Bytes)} {bytes : Bytes}
    (hkey : Unforgeable lib pubkeyHex published) (h : Verified lib server pubkeyHex bytes) :
    ∃ name, (name, bytes) ∈ published := by
  obtain ⟨publicKey, hpublic, i, url, status, sigStatus, sigHexBytes, sigBytes, -, -, -, hverify⟩ :=
    h
  exact hkey publicKey hpublic bytes sigBytes hverify

omit [DecidableEq F] in
theorem publicKeyOf_prepare {url pubkeyHex networksDir : Str} {contents : List GitHubContent}
    (h : prepare lib fs server url pubkeyHex networksDir = .ok (publicKey, contents)) :
    publicKeyOf lib pubkeyHex = .ok publicKey := by
  unfold prepare at h
  cases hkey : publicKeyOf lib pubkeyHex with
  | error e => simp [hkey, bind, Except.bind] at h
  | ok key =>
    cases hlisting : fetchListing lib server url with
    | error e => simp [hkey, hlisting, bind, Except.bind] at h
    | ok items =>
      cases hdir : ensureOutDir fs networksDir with
      | error e => simp [hkey, hlisting, hdir, bind, Except.bind] at h
      | ok _ =>
        have hpair : key = publicKey ∧ items = contents := by
          simpa [hkey, hlisting, hdir, bind, Except.bind, pure, Except.pure] using h
        rw [hpair.1]

variable {json : Json} {config : AtlasConfig}

/-- Whatever the server does, the updater writes only bytes of published files, to names
ending in .json, or a beginning of them where the write breaks off; which of the files goes
under which name is up to the server. -/
theorem writes_published {disk : Disk F} {registry : TldRegistry} {rounds : List (Round F)}
    {s : UpdaterState F} {url pubkeyHex : Str} {published : Set (Str × Bytes)}
    (hsource : updaterSource config = some (url, pubkeyHex))
    (hkey : Unforgeable lib pubkeyHex published)
    (hrun : (updater lib json config disk registry).Run rounds s) :
    Confined (fun f bytes => (∃ name, (name, bytes) ∈ published) ∨
        (∃ round ∈ rounds, BrokenOff (fun whole => ∃ name, (name, whole) ∈ published) round.fs
          config.networksDir f bytes) ∨
        ∃ round ∈ rounds, IsProxyFile round.reloadFs json config f bytes) disk s.disk ∧
      ∀ round : Round F,
        (fetchAndUpdate lib round.fs round.server url pubkeyHex config.networksDir s.disk).1 =
            applyWrites round.fs s.disk
              (fetchWrites lib round.fs round.server url pubkeyHex config.networksDir) ∧
          ∀ w ∈ fetchWrites lib round.fs round.server url pubkeyHex config.networksDir,
            ".json".toList <:+ w.name ∧ w.path = joinPath config.networksDir w.name ∧
              ∃ name whole, (name, whole) ∈ published ∧
                w.bytes = bytesLeft round.fs w.path whole := by
  refine ⟨(run_confined hsource hrun).mono ?_, fun round => ⟨fetchAndUpdate_writes .., ?_⟩⟩
  · rintro f bytes ⟨round, hround, (hverified | hbroken) | hproxy⟩
    · exact Or.inl (published_of_verified hkey hverified)
    · exact Or.inr (Or.inl ⟨round, hround, hbroken.mono fun _ => published_of_verified hkey⟩)
    · exact Or.inr (Or.inr ⟨round, hround, hproxy⟩)
  · intro w hw
    obtain ⟨publicKey, contents, hprepare, p, -, bytes, haccepts, -, rfl⟩ := mem_fetchWrites.mp hw
    have hpublic : publicKeyOf lib pubkeyHex = .ok publicKey := publicKeyOf_prepare hprepare
    obtain ⟨-, hjson, downloadUrl, sigHexBytes, sigBytes, -, -, -, -, hverify⟩ := haccepts
    obtain ⟨name, hname⟩ := hkey publicKey hpublic bytes sigBytes hverify
    exact ⟨hjson, rfl, name, bytes, hname, rfl⟩

theorem properName_of_json {path : Str} (h : ".json".toList <:+ path) :
    fileName path ∉ [[], ".".toList, "..".toList] := by
  have hname : ".json".toList <:+ fileName path := suffix_fileName (by decide) h
  have hlength := hname.length_le
  intro hmem
  simp only [List.mem_cons, List.not_mem_nil, or_false] at hmem
  rcases hmem with heq | heq | heq <;> rw [heq] at hlength <;> exact absurd hlength (by decide)

section Paths

variable {D : Type} (tree : DirTree D)

/-- The writes of a round go to entries of the networks directory exactly when every
item that is accepted before the round ends, and whose file can be opened, has a name that
leads back to it. -/
theorem writes_in_dir_iff {url pubkeyHex networksDir : Str} :
    (∀ w ∈ fetchWrites lib fs server url pubkeyHex networksDir,
        IsDirectChild tree networksDir w.path) ↔
      ∀ publicKey contents,
        prepare lib fs server url pubkeyHex networksDir = .ok (publicKey, contents) →
        ∀ p ∈ reached lib fs server publicKey networksDir 0 contents,
          ∀ bytes, Accepts lib server publicKey p.2 p.1 bytes →
            fs.writeError (joinPath networksDir p.1.name) = none →
              StaysIn tree networksDir p.1.name := by
  have hchild : ∀ name, ".json".toList <:+ name →
      (IsDirectChild tree networksDir (joinPath networksDir name) ↔
        StaysIn tree networksDir name) := by
    intro name hjson
    exact isDirectChild_joinPath_iff tree (properName_of_json (hjson.trans (suffix_joinPath _ _)))
  constructor
  · intro h publicKey contents hprepare p hp bytes haccepts hopen
    have hw := mem_fetchWrites.mpr
      ⟨publicKey, contents, hprepare, p, hp, bytes, haccepts, hopen, rfl⟩
    exact (hchild p.1.name haccepts.2.1).mp (h _ hw)
  · intro h w hw
    obtain ⟨publicKey, contents, hprepare, p, hp, bytes, haccepts, hopen, rfl⟩ :=
      mem_fetchWrites.mp hw
    exact (hchild p.1.name haccepts.2.1).mpr
      (h publicKey contents hprepare p hp bytes haccepts hopen)

end Paths

def listingOf (name : Str) : Bytes :=
  encode ("[\x7b\"name\":\"".toList ++ name ++
    "\",\"download_url\":\"https://host/r.json\",\"type\":\"file\"\x7d]".toList)

def signedUnder (name : Str) : Libraries Bytes where
  keyFromBytes := oneSignature.keyFromBytes
  verify := oneSignature.verify
  parseListing bytes :=
    if bytes = listingOf name then .ok [⟨name, some "https://host/r.json", "file"⟩]
    else .error "expected value"
  statusError := oneSignature.statusError
  hexError := oneSignature.hexError

def renamingRound (name : Str) : Round Str where
  server := { signedRound.server with listing := fun _ => .response 200 (.ok (listingOf name)) }
  fs := directory "networks" [name]
  reloadFs := directory "networks" [name]

def publishedFiles : Set (Str × Bytes) :=
  {("kin.json".toList, encode (networkJson "main" "kin")), ("r.json".toList, [0x72])}

theorem unforgeable_publishedFiles (name : Str) :
    Unforgeable (signedUnder name) keyHex publishedFiles := by
  intro publicKey _ bytes sig hverify
  have hmsg : hexDecode keyHex = .ok publicKey ∧ bytes = [0x72] ∧
      hexDecode signatureHex = .ok sig := of_decide_eq_true hverify
  exact ⟨"r.json", Or.inr (by rw [hmsg.2.1]; rfl)⟩

/-- The bytes signed for r.json replace the file kin.json and so the network `.kin`. -/
theorem signed_bytes_renamed :
    Unforgeable (signedUnder "kin.json") keyHex publishedFiles ∧
      ∃ s, (updater (signedUnder "kin.json") (jsonOf [("main", "kin")]) syncedConfig kinDisk
          (loadNetworks "networks" ["kin.json"] [("main", "kin")] kinDisk)).Run
          [renamingRound "kin.json"] s ∧
        ⟨"kin.json", "networks/kin.json", [0x72]⟩ ∈ fetchWrites (signedUnder "kin.json")
          (renamingRound "kin.json").fs (renamingRound "kin.json").server
          "https://host/networks" keyHex "networks" ∧
        ("kin.json".toList, [0x72]) ∉ publishedFiles ∧
        (loadNetworks "networks" ["kin.json"] [("main", "kin")] kinDisk).networks ".kin".toList =
          some (network "main" "kin") ∧
        s.registry.networks ".kin".toList = none := by
  have hnot : ("kin.json".toList, [0x72]) ∉ publishedFiles := by
    rintro (hkin | hr)
    · exact absurd (Prod.mk.inj hkin).2 (by decide +kernel)
    · exact absurd (Prod.mk.inj hr).1 (by decide)
  exact ⟨unforgeable_publishedFiles _, _, Machine.run_get _ _ rfl, by decide +kernel, hnot,
    by decide +kernel, by decide +kernel⟩

theorem writes_published_signed :
    ∃ s, (updater oneSignature noNetworks syncedConfig (fun _ => none) .new).Run [signedRound] s ∧
      ∀ round : Round Str, ∀ w ∈ fetchWrites oneSignature round.fs round.server
          "https://host/networks" keyHex "networks",
        ∃ name whole, (name, whole) ∈ publishedFiles ∧
          w.bytes = bytesLeft round.fs w.path whole := by
  have hrun := (updater oneSignature noNetworks syncedConfig (fun _ => none) .new).run_get
    [signedRound] rfl
  have hkey : Unforgeable oneSignature keyHex publishedFiles :=
    unforgeable_publishedFiles "r.json"
  refine ⟨_, hrun, fun round w hw => ?_⟩
  exact (((writes_published updaterSource_synced hkey hrun).2 round).2 w hw).2.2

/-- Directories named by their way down from the root, without links. -/
def plainTree : DirTree (List Str) where
  root := []
  cwd := ["atlas", "home"]
  enter d name :=
    if name = [] ∨ name = ".".toList then some d
    else if name = "..".toList then some d.tail
    else some (name :: d)
  enter_empty d := by simp

/-- The name `../evil.json` takes a verified file out of the networks directory. -/
theorem write_outside_dir :
    ⟨"../evil.json", "networks/../evil.json", [0x72]⟩ ∈
        fetchWrites (signedUnder "../evil.json") (renamingRound "../evil.json").fs
          (renamingRound "../evil.json").server "https://host/networks" keyHex "networks" ∧
      ¬ IsDirectChild plainTree "networks" "networks/../evil.json" := by
  refine ⟨by decide +kernel, ?_⟩
  rintro ⟨⟨d, hdir, hparent⟩, -⟩
  have hsame : follow plainTree plainTree.cwd "networks" =
      parent plainTree plainTree.cwd "networks/../evil.json" := hdir.trans hparent.symm
  exact absurd hsame (by decide)

end KineticAtlas.UpdaterWrites
