import KineticAtlas.UpdaterSync

/-!
Whether the items of a listing are updated independently of each other (updater.rs). A
download that cannot be sent or a signature that does not verify skips its item; an error
status or a body that breaks off ends the whole round, and the items behind it are not
looked at. The main result says that this is the only way for an item to suffer from
another one.
-/
namespace KineticAtlas.UpdaterItems

open Library.Texts Library.Utf8 Library.Files KineticAtlas.Types Registry RegistryLoad Updater
  UpdaterWrites

variable {Key F : Type} [DecidableEq F]

/-- A reply that has begun, with an error status or a body that breaks off. -/
def Breaks (reply : HttpReply) : Prop :=
  ∃ status body, reply = .response status body ∧
    (isErrorStatus status = true ∨ ∃ e, body = .error e)

/-- A reply with another status and its whole body. -/
def Complete (reply : HttpReply) : Prop :=
  ∃ status bytes, reply = .response status (.ok bytes) ∧ isErrorStatus status = false

/-- The item is a file to be fetched, and its download breaks, or that of its signature. -/
def Aborts (server : Server) (i : ℕ) (item : GitHubContent) : Prop :=
  item.itemType = "file".toList ∧ ".json".toList <:+ item.name ∧
    ∃ downloadUrl, item.downloadUrl = some downloadUrl ∧
      (Breaks (server.file i downloadUrl) ∨
        (Complete (server.file i downloadUrl) ∧
          Breaks (server.signature i (downloadUrl ++ ".sig".toList))))

/-- The writes of a round, each with the place of its item in the listing. -/
def itemWrites (lib : Libraries Key) (fs : FileSystem F) (server : Server) (publicKey : Key)
    (outDir : Str) (contents : List GitHubContent) : List (ℕ × Write) :=
  (reached lib fs server publicKey outDir 0 contents).filterMap fun p =>
    (writeOf lib fs server publicKey outDir p).map fun w => (p.2, w)

variable {lib : Libraries Key} {fs : FileSystem F} {server : Server} {publicKey : Key}
  {outDir : Str} {contents : List GitHubContent}

theorem itemWrites_eq (contents : List GitHubContent) :
    (itemWrites lib fs server publicKey outDir contents).map Prod.snd =
      updateWrites lib fs server publicKey outDir 0 contents := by
  rw [itemWrites, updateWrites, List.map_filterMap]
  refine List.filterMap_congr fun p _ => ?_
  rw [Option.map_map]
  exact Option.map_id'

theorem mem_reached_from {item : GitHubContent} {i k : ℕ} :
    (item, k + i) ∈ reached lib fs server publicKey outDir k contents ↔
      contents[i]? = some item ∧ ∀ j < i, ∀ other, contents[j]? = some other →
        endsRound lib fs server publicKey outDir (k + j) other = false := by
  induction contents generalizing i k with
  | nil => simp [reached]
  | cons first rest ih =>
    rw [reached_cons, List.mem_cons]
    cases i with
    | zero =>
      have hlater : (item, k + 0) ∉
          if endsRound lib fs server publicKey outDir k first = true then []
          else reached lib fs server publicKey outDir (k + 1) rest := by
        split
        · exact List.not_mem_nil
        · intro hmem
          have hle := List.le_snd_of_mem_zipIdx (List.mem_of_mem_take hmem)
          exact absurd hle (by simp)
      rw [or_iff_left hlater]
      constructor
      · intro heq
        obtain ⟨rfl, -⟩ := Prod.mk.inj heq
        exact ⟨rfl, fun j hj => absurd hj (Nat.not_lt_zero j)⟩
      · rintro ⟨hitem, -⟩
        obtain rfl : first = item := Option.some.inj hitem
        rfl
    | succ i =>
      have hfirst : (item, k + (i + 1)) ≠ (first, k) := by
        intro heq
        have hk := (Prod.mk.inj heq).2
        omega
      have hindex : k + (i + 1) = k + 1 + i := by omega
      rw [or_iff_right hfirst, hindex, List.getElem?_cons_succ]
      by_cases hends : endsRound lib fs server publicKey outDir k first = true
      · rw [if_pos hends]
        refine iff_of_false List.not_mem_nil fun h => ?_
        have hgoes := h.2 0 (by omega) first rfl
        simp [hends] at hgoes
      · rw [if_neg hends, ih]
        refine and_congr_right fun _ => ⟨fun h j hj other hother => ?_, fun h j hj other hother => ?_⟩
        · cases j with
          | zero =>
            obtain rfl : first = other := Option.some.inj hother
            simpa using hends
          | succ j =>
            have hgoes := h j (by omega) other hother
            rwa [Nat.add_right_comm] at hgoes
        · have hgoes := h (j + 1) (by omega) other hother
          rwa [Nat.add_right_comm k 1 j]

theorem mem_reached {item : GitHubContent} {i : ℕ} :
    (item, i) ∈ reached lib fs server publicKey outDir 0 contents ↔
      contents[i]? = some item ∧ ∀ j < i, ∀ other, contents[j]? = some other →
        endsRound lib fs server publicKey outDir j other = false := by
  simpa only [Nat.zero_add] using
    @mem_reached_from _ _ _ lib fs server publicKey outDir contents item i 0

theorem download_failed_iff {url : Str} {describe : Str → Str} {reply : HttpReply} :
    (∃ e, download lib url describe reply = .failed e) ↔ Breaks reply := by
  cases reply with
  | sendError e => simp [download, Breaks]
  | response status body =>
    by_cases hstatus : isErrorStatus status = true
    · simp [download, Breaks, hstatus]
    · cases body <;> simp [download, Breaks, hstatus]

theorem download_body_iff {url : Str} {describe : Str → Str} {reply : HttpReply} :
    (∃ bytes, download lib url describe reply = .body bytes) ↔ Complete reply := by
  cases reply with
  | sendError e => simp [download, Complete]
  | response status body =>
    by_cases hstatus : isErrorStatus status = true
    · simp [download, Complete, hstatus]
    · cases body <;> simp [download, Complete, hstatus]

theorem Complete.not_breaks {reply : HttpReply} (h : Complete reply) : ¬ Breaks reply := by
  obtain ⟨status, bytes, rfl, hstatus⟩ := h
  rintro ⟨status', body, heq, hbad⟩
  obtain ⟨rfl, rfl⟩ := HttpReply.response.inj heq
  rcases hbad with herror | ⟨e, he⟩
  · simp [hstatus] at herror
  · cases he

theorem endsRound_iff_error (i : ℕ) (item : GitHubContent) (s : Update F) :
    endsRound lib fs server publicKey outDir i item = true ↔
      ∃ e, (updateItem lib fs server publicKey outDir i item s).2 = some e := by
  rw [updateItem_outcome, endsRound]
  cases itemOutcome lib fs server publicKey outDir i item <;> simp [ItemOutcome.error]

/-- An item whose file can be written ends the round exactly when it aborts. -/
theorem endsRound_iff (i : ℕ) (item : GitHubContent)
    (hdisk : Writable fs (joinPath outDir item.name)) :
    endsRound lib fs server publicKey outDir i item = true ↔ Aborts server i item := by
  rw [endsRound_iff_error i item ⟨fun _ => none, 0⟩]
  by_cases hfilter : item.itemType = "file".toList ∧ ".json".toList <:+ item.name
  · cases hurl : item.downloadUrl with
    | none => simp [updateItem, hurl, Aborts]
    | some downloadUrl =>
      have haborts : Aborts server i item ↔ Breaks (server.file i downloadUrl) ∨
          (Complete (server.file i downloadUrl) ∧
            Breaks (server.signature i (downloadUrl ++ ".sig".toList))) := by
        constructor
        · rintro ⟨-, -, url, hsome, h⟩
          obtain rfl : downloadUrl = url := Option.some.inj (hurl.symm.trans hsome)
          exact h
        · exact fun h => ⟨hfilter.1, hfilter.2, downloadUrl, hurl, h⟩
      rw [haborts, ← @download_failed_iff _ lib downloadUrl id,
        ← @download_body_iff _ lib downloadUrl id,
        ← @download_failed_iff _ lib (downloadUrl ++ ".sig".toList) (missingSignature item.name)]
      simp only [updateItem, if_pos hfilter, hurl]
      cases hfile : download lib downloadUrl id (server.file i downloadUrl) with
      | skipped => simp
      | failed e => simp
      | body fileBytes =>
        cases hsig : download lib (downloadUrl ++ ".sig".toList) (missingSignature item.name)
            (server.signature i (downloadUrl ++ ".sig".toList)) with
        | skipped => simp
        | failed e => simp
        | body sigHexBytes =>
          dsimp only
          cases hhex : signatureOf sigHexBytes with
          | error e => simp
          | ok sigBytes =>
            dsimp only
            by_cases hverify : lib.verify publicKey fileBytes sigBytes = true
            · simp [hverify, writeVerified, writeFile_writable hdisk]
            · simp [hverify]
  · simp only [updateItem, if_neg hfilter]
    refine iff_of_false (by simp) fun h => hfilter ⟨h.1, h.2.1⟩

/-- An accepted item is written unless an item in front of it aborts. -/
theorem written_iff (hdisk : ∀ item ∈ contents, Writable fs (joinPath outDir item.name)) {i : ℕ}
    {item : GitHubContent} {bytes : Bytes} (hitem : contents[i]? = some item)
    (haccepts : Accepts lib server publicKey i item bytes) :
    (i, ⟨item.name, joinPath outDir item.name, bytes⟩) ∈
        itemWrites lib fs server publicKey outDir contents ↔
      ∀ j < i, ∀ other, contents[j]? = some other → ¬ Aborts server j other := by
  have hwritable := hdisk item (List.mem_of_getElem? hitem)
  have hwrite : writeOf lib fs server publicKey outDir (item, i) =
      some ⟨item.name, joinPath outDir item.name, bytes⟩ := by
    have hleft := left_iff.mpr
      ⟨bytes, haccepts, hwritable.1, (bytesLeft_whole (hwritable.2 bytes)).symm⟩
    rw [writeOf, hleft, Option.map_some]
  have hreached : (item, i) ∈ reached lib fs server publicKey outDir 0 contents ↔
      ∀ j < i, ∀ other, contents[j]? = some other → ¬ Aborts server j other := by
    rw [mem_reached, and_iff_right hitem]
    refine forall₄_congr fun j hj other hother => ?_
    rw [← Bool.not_eq_true, endsRound_iff j other (hdisk other (List.mem_of_getElem? hother))]
  rw [← hreached, itemWrites, List.mem_filterMap]
  constructor
  · rintro ⟨⟨found, k⟩, hfound, hmap⟩
    obtain ⟨w, -, hpair⟩ := Option.map_eq_some_iff.mp hmap
    obtain rfl : k = i := congrArg Prod.fst hpair
    obtain rfl : item = found := Option.some.inj (hitem.symm.trans (mem_reached.mp hfound).1)
    exact hfound
  · intro hmem
    exact ⟨(item, i), hmem, by rw [hwrite, Option.map_some]⟩

/-- Where the files of a listing that has been fetched can be written, the round makes its
writes in the order of the listing, and every accepted item is among them exactly when none
of them has an item in front of it that aborts. -/
theorem items_independent_iff {url pubkeyHex networksDir : Str}
    (hdisk : ∀ item ∈ contents, Writable fs (joinPath networksDir item.name))
    (hlisting : prepare lib fs server url pubkeyHex networksDir = .ok (publicKey, contents)) :
    (∀ disk, (fetchAndUpdate lib fs server url pubkeyHex networksDir disk).1 =
      applyWrites fs disk
        ((itemWrites lib fs server publicKey networksDir contents).map Prod.snd)) ∧
      ((∀ i item bytes, contents[i]? = some item → Accepts lib server publicKey i item bytes →
          (i, ⟨item.name, joinPath networksDir item.name, bytes⟩) ∈
            itemWrites lib fs server publicKey networksDir contents) ↔
        ∀ i item bytes, contents[i]? = some item → Accepts lib server publicKey i item bytes →
          ∀ j < i, ∀ other, contents[j]? = some other → ¬ Aborts server j other) := by
  constructor
  · intro disk
    rw [fetchAndUpdate_writes, itemWrites_eq, fetchWrites, hlisting]
  · refine ⟨fun h i item bytes hitem haccepts => ?_, fun h i item bytes hitem haccepts => ?_⟩
    · exact (written_iff hdisk hitem haccepts).mp (h i item bytes hitem haccepts)
    · exact (written_iff hdisk hitem haccepts).mpr (h i item bytes hitem haccepts)

/-- The first of the two files has the given status; everything else is found. -/
def firstFile (status : UInt16) : Server where
  listing := fun _ => .response 200 (.ok UpdaterSync.lateListing)
  file := fun i _ => .response (if i = 0 then status else 200) (.ok [0x72])
  signature := signedRound.server.signature

def twoItems : List GitHubContent :=
  [⟨"r.json", some "https://host/r.json", "file"⟩, ⟨"x.json", some "https://host/x.json", "file"⟩]

/-- The bytes of a hexadecimal text. -/
def bytesOf (hex : Str) : Bytes :=
  match hexDecode hex with
  | .ok bytes => bytes
  | .error _ => []

theorem twoItems_listed (status : UInt16) :
    prepare UpdaterSync.lateLibraries (directory "networks" []) (firstFile status)
      "https://host/networks" keyHex "networks" = .ok (bytesOf keyHex, twoItems) := by
  have hkey : publicKeyOf UpdaterSync.lateLibraries keyHex = .ok (bytesOf keyHex) := by
    decide +kernel
  have hlisting : fetchListing UpdaterSync.lateLibraries (firstFile status)
      "https://host/networks" = .ok twoItems := by
    have hstatus : isErrorStatus 200 = false := by decide
    simp only [fetchListing, firstFile, hstatus, Bool.false_eq_true, if_false,
      UpdaterSync.lateLibraries, Except.bind, if_true]
    rfl
  have hdir : ensureOutDir (directory "networks" []) "networks" = .ok () := by decide
  simp only [prepare, hkey, hlisting, hdir, bind, Except.bind, pure, Except.pure]

theorem second_accepted (status : UInt16) :
    Accepts UpdaterSync.lateLibraries (firstFile status) (bytesOf keyHex) 1
      ⟨"x.json", some "https://host/x.json", "file"⟩ [0x72] :=
  ⟨rfl, by decide, "https://host/x.json", signatureHex.flatMap String.utf8EncodeChar,
    bytesOf signatureHex, rfl, rfl, rfl, by decide +kernel, by decide +kernel⟩

/-- The first file is not found, and the second one is not written. -/
theorem second_item_lost :
    prepare UpdaterSync.lateLibraries (directory "networks" []) (firstFile 404)
        "https://host/networks" keyHex "networks" = .ok (bytesOf keyHex, twoItems) ∧
      Accepts UpdaterSync.lateLibraries (firstFile 404) (bytesOf keyHex) 1
        ⟨"x.json", some "https://host/x.json", "file"⟩ [0x72] ∧
      itemWrites UpdaterSync.lateLibraries (directory "networks" []) (firstFile 404)
        (bytesOf keyHex) "networks" twoItems = [] :=
  ⟨twoItems_listed 404, second_accepted 404, by decide +kernel⟩

theorem none_aborts (i : ℕ) (item : GitHubContent) : ¬ Aborts (firstFile 200) i item := by
  rintro ⟨-, -, url, -, hbreaks | ⟨-, hbreaks⟩⟩
  · exact Complete.not_breaks ⟨200, [0x72], by simp [firstFile], by decide⟩ hbreaks
  · exact Complete.not_breaks ⟨200, _, rfl, by decide⟩ hbreaks

theorem items_independent_found :
    (1, ⟨"x.json", "networks/x.json", [0x72]⟩) ∈ itemWrites UpdaterSync.lateLibraries
      (directory "networks" []) (firstFile 200) (bytesOf keyHex) "networks" twoItems :=
  (items_independent_iff (fun _ _ => ⟨rfl, fun _ => rfl⟩) (twoItems_listed 200)).2.mpr
    (fun _ _ _ _ _ j _ other _ => none_aborts j other) 1
    ⟨"x.json", some "https://host/x.json", "file"⟩ [0x72] rfl (second_accepted 200)

end KineticAtlas.UpdaterItems
