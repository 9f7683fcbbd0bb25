import KineticAtlas.UpdaterWrites

/-!
The registry in memory and the networks directory over the rounds of the auto-updater
(updater.rs). A round that fails at a later item, or in the middle of a write, leaves what
it has written behind and does not reload. The main result is that this is the only way
for the registry to fall out of step with the directory, as long as the announcements go
elsewhere and nobody else writes it. The directory need not be there at the start; the
first round that gets a listing creates it.
-/
namespace KineticAtlas.UpdaterSync

open Library.Texts Library.Runs Library.Utf8 Library.Files KineticAtlas.Types Registry RegistryLoad
  Updater UpdaterWrites

variable {Key F : Type} [DecidableEq F]

/-- The registry is what a load of the networks directory yields. -/
def Agrees (fs : FileSystem F) (json : Json) (config : AtlasConfig) (disk : Disk F)
    (registry : TldRegistry) : Prop :=
  (loadFromDir fs json config.networksDir config ⟨.new, disk⟩).registry = registry

/-- Files and directories are read as ever, and are there if they are there now. -/
def foundNow (fs now : FileSystem F) : FileSystem F :=
  { fs with pathExists := now.pathExists, isDir := now.isDir }

/-- The fetch gets a listing and creates the directory for it. -/
def createsDir (lib : Libraries Key) (config : AtlasConfig) (url pubkeyHex : Str)
    (round : Round F) : Bool :=
  (prepare lib round.fs round.server url pubkeyHex config.networksDir).isOk &&
    !round.fs.pathExists config.networksDir

/-- The round finds the directory as it was left and readable as before, and whether it is
there changes only when it is created, which makes an empty one. -/
structure Undisturbed (lib : Libraries Key) (config : AtlasConfig) (url pubkeyHex : Str)
    (fs before : FileSystem F) (s : UpdaterState F) (round : Round F) : Prop where
  reload_file : round.reloadFs.file = fs.file
  readDir_eq : round.reloadFs.readDir = fs.readDir
  unreadable_eq : round.reloadFs.unreadable = fs.unreadable
  dataLocalDir_eq : round.reloadFs.dataLocalDir = fs.dataLocalDir
  found_as_left : isMissing round.fs config.networksDir = isMissing before config.networksDir
  created : createsDir lib config url pubkeyHex round = true →
    isMissing round.reloadFs config.networksDir = false ∧
      listed fs config.networksDir s.disk = []
  kept : createsDir lib config url pubkeyHex round = false →
    isMissing round.reloadFs config.networksDir = isMissing round.fs config.networksDir

/-- No item ends the round after an item, or with one, whose file gets other bytes than it
holds; a round that succeeds announces its networks outside the directory. -/
structure KeepsUp (lib : Libraries Key) (json : Json) (config : AtlasConfig)
    (url pubkeyHex : Str) (s : UpdaterState F) (round : Round F) : Prop where
  no_late_failure : ∀ publicKey contents,
    prepare lib round.fs round.server url pubkeyHex config.networksDir =
        .ok (publicKey, contents) →
    (∃ p ∈ contents.zipIdx,
      endsRound lib round.fs round.server publicKey config.networksDir p.2 p.1 = true) →
    ∀ p ∈ reached lib round.fs round.server publicKey config.networksDir 0 contents,
      ∀ bytes, Accepts lib round.server publicKey p.2 p.1 bytes →
        round.fs.writeError (joinPath config.networksDir p.1.name) = none →
          s.disk (round.fs.file (joinPath config.networksDir p.1.name)) =
            some (bytesLeft round.fs (joinPath config.networksDir p.1.name) bytes)
  announces_outside : ∀ disk count,
    fetchAndUpdate lib round.fs round.server url pubkeyHex config.networksDir s.disk =
        (disk, .ok count) →
    AnnouncesOutside round.reloadFs json config config.networksDir disk

/-- The directory as the latest round has left it. -/
def asLeft (fs : FileSystem F) (rounds : List (Round F)) : FileSystem F :=
  (rounds.getLast?.map Round.reloadFs).getD fs

variable {lib : Libraries Key} {fs : FileSystem F} {json : Json} {config : AtlasConfig}
  {url pubkeyHex : Str} {round : Round F} {s : UpdaterState F} {before : FileSystem F}

/-- A failed round that keeps up has not changed the disk. -/
theorem KeepsUp.disk_of_error (h : KeepsUp lib json config url pubkeyHex s round) {disk : Disk F}
    {e : AtlasError}
    (hfetch : fetchAndUpdate lib round.fs round.server url pubkeyHex config.networksDir s.disk =
      (disk, .error e)) : disk = s.disk := by
  have hwrites := fetchAndUpdate_writes lib round.fs round.server url pubkeyHex
    config.networksDir s.disk
  rw [hfetch] at hwrites
  refine hwrites.trans (applyWrites_eq_self fun w hw => ?_)
  have herror := congrArg Prod.snd hfetch
  rcases fetchAndUpdate_error herror with hnone | ⟨publicKey, contents, hprepare, hends⟩
  · simp [hnone] at hw
  · obtain ⟨key, items, hprepare', p, hp, bytes, haccepts, hopen, rfl⟩ := mem_fetchWrites.mp hw
    obtain ⟨rfl, rfl⟩ : publicKey = key ∧ contents = items := by
      simpa [hprepare] using hprepare'
    exact h.no_late_failure publicKey contents hprepare hends p hp bytes haccepts hopen

omit [DecidableEq F] in
/-- Two file systems that read the directory alike load the same from it. -/
theorem Undisturbed.entriesOf_eq (h : Undisturbed lib config url pubkeyHex fs before s round)
    (disk : Disk F) :
    entriesOf round.reloadFs json config config.networksDir disk =
      entriesOf fs json config config.networksDir disk := by
  have hlisted : listed round.reloadFs config.networksDir disk =
      listed fs config.networksDir disk := by
    simp only [listed, h.readDir_eq]
  have hnetwork : fileNetwork round.reloadFs json config config.networksDir disk =
      fileNetwork fs json config config.networksDir disk := by
    funext name
    simp only [fileNetwork, readToString, h.reload_file, h.unreadable_eq]
  rw [entriesOf, hlisted, hnetwork]
  rfl

theorem Undisturbed.announcesOutside
    (h : Undisturbed lib config url pubkeyHex fs before s round) {disk : Disk F}
    (hout : AnnouncesOutside round.reloadFs json config config.networksDir disk) :
    AnnouncesOutside fs json config config.networksDir disk := by
  intro baseDir hbase entry hentry
  rw [← h.entriesOf_eq] at hentry
  have hentry' := hout baseDir (h.dataLocalDir_eq.trans hbase) entry hentry
  simpa only [AnnouncedOutside, listed, h.readDir_eq, h.reload_file] using hentry'

theorem agrees_of_missing {disk : Disk F} {registry : TldRegistry}
    (hmissing : isMissing fs config.networksDir = true) :
    Agrees fs json config disk registry ↔ registry = .new := by
  rw [Agrees, loadFromDir_missing hmissing]
  exact eq_comm

/-- Nothing else is asked of the directory than whether it is there. -/
theorem agrees_foundNow {now now' : FileSystem F} {disk : Disk F} {registry : TldRegistry}
    (hsame : isMissing now config.networksDir = isMissing now' config.networksDir) :
    Agrees (foundNow fs now) json config disk registry ↔
      Agrees (foundNow fs now') json config disk registry := by
  have hmissing : ∀ now : FileSystem F, isMissing (foundNow fs now) config.networksDir =
      isMissing now config.networksDir := fun _ => rfl
  cases hnow : isMissing now config.networksDir with
  | true =>
    rw [agrees_of_missing ((hmissing now).trans hnow),
      agrees_of_missing ((hmissing now').trans (hsame ▸ hnow))]
  | false =>
    rw [Agrees, Agrees, loadFromDir_found ((hmissing now).trans hnow),
      loadFromDir_found ((hmissing now').trans (hsame ▸ hnow))]
    rfl

/-- A reload leaves memory and directory in agreement. -/
theorem agrees_after_reload
    (hround : Undisturbed lib config url pubkeyHex fs before s round)
    (hfound : isMissing round.reloadFs config.networksDir = false) {loading : Loading F}
    (hout : AnnouncesOutside round.reloadFs json config config.networksDir loading.disk) :
    Agrees (foundNow fs round.reloadFs) json config
      (loadFromDir round.reloadFs json config.networksDir config loading).disk
      (loadFromDir round.reloadFs json config.networksDir config loading).registry := by
  obtain ⟨hexists, hisDir⟩ : round.reloadFs.pathExists config.networksDir = true ∧
      round.reloadFs.isDir config.networksDir = true := by
    simpa [isMissing] using hfound
  obtain ⟨hregistry, hsame⟩ := loadFromDir_spec hexists hisDir hout
  have hout' : AnnouncesOutside (foundNow fs round.reloadFs) json config config.networksDir
      (loadFromDir round.reloadFs json config.networksDir config loading).disk :=
    hround.announcesOutside (hsame.announcesOutside hout)
  have hexists' : (foundNow fs round.reloadFs).pathExists config.networksDir = true := hexists
  have hagain := (loadFromDir_spec (s := ⟨.new, _⟩) hexists' hisDir hout').1
  rw [Agrees, hagain, hregistry]
  refine congrArg TldRegistry.mk (funext fun k => ?_)
  rw [← hsame.entriesOf_eq, hround.entriesOf_eq]
  rfl

/-- A directory that has just been created has nothing in it, as there was nothing before. -/
theorem agrees_after_error (hround : Undisturbed lib config url pubkeyHex fs before s round)
    (hagrees : Agrees (foundNow fs before) json config s.disk s.registry) :
    Agrees (foundNow fs round.reloadFs) json config s.disk s.registry := by
  cases hcreates : createsDir lib config url pubkeyHex round with
  | false =>
    exact (agrees_foundNow ((hround.kept hcreates).trans hround.found_as_left)).mpr hagrees
  | true =>
    obtain ⟨hfound, hempty⟩ := hround.created hcreates
    have habsent : isMissing round.fs config.networksDir = true := by
      have hnot : round.fs.pathExists config.networksDir = false := by
        simpa using (Bool.and_eq_true_iff.mp hcreates).2
      simp [isMissing, hnot]
    have hbefore : isMissing (foundNow fs before) config.networksDir = true :=
      hround.found_as_left.symm.trans habsent
    have hnew := (agrees_of_missing hbefore).mp hagrees
    have hnothing : listed (foundNow fs round.reloadFs) config.networksDir s.disk = [] := hempty
    rw [Agrees, loadFromDir_found (show isMissing (foundNow fs round.reloadFs) _ = false
      from hfound), hnothing, hnew]
    rfl

theorem agrees_round (hround : Undisturbed lib config url pubkeyHex fs before s round)
    (hkeeps : KeepsUp lib json config url pubkeyHex s round)
    (hagrees : Agrees (foundNow fs before) json config s.disk s.registry) :
    Agrees (foundNow fs round.reloadFs) json config
      (loopRound lib json config url pubkeyHex round s).1.disk
      (loopRound lib json config url pubkeyHex round s).1.registry := by
  unfold loopRound
  cases hfetch : fetchAndUpdate lib round.fs round.server url pubkeyHex config.networksDir
      s.disk with
  | mk disk result =>
    cases result with
    | error e =>
      have hdisk : disk = s.disk := hkeeps.disk_of_error hfetch
      dsimp only
      rw [hdisk]
      exact agrees_after_error hround hagrees
    | ok count =>
      cases hfound : isMissing round.reloadFs config.networksDir with
      | false =>
        exact agrees_after_reload hround hfound (hkeeps.announces_outside disk count hfetch)
      | true =>
        -- the directory is no directory, so there was no network before either
        have hcreates : createsDir lib config url pubkeyHex round = false := by
          by_contra hcreates
          have hthere := (hround.created (by simpa using hcreates)).1
          simp [hfound] at hthere
        have hmissing : isMissing (foundNow fs before) config.networksDir = true := by
          show isMissing before config.networksDir = true
          rw [← hround.found_as_left, ← hround.kept hcreates, hfound]
        have hnew := (agrees_of_missing hmissing).mp hagrees
        dsimp only
        rw [loadFromDir_missing hfound]
        exact (agrees_of_missing (show isMissing (foundNow fs round.reloadFs) _ = true
          from hfound)).mpr hnew

/-- In every run of rounds that keep up and are not disturbed, the registry agrees with
the directory after each of them if it did at the start. -/
theorem agrees_throughout {disk : Disk F} {registry : TldRegistry} {rounds : List (Round F)}
    (hsource : updaterSource config = some (url, pubkeyHex))
    (hstart : Agrees fs json config disk registry)
    (hrun : (updater lib json config disk registry).Run rounds s)
    (hrounds : ∀ earlier round t, earlier ++ [round] <+: rounds →
      (updater lib json config disk registry).Run earlier t →
        Undisturbed lib config url pubkeyHex fs (asLeft fs earlier) t round ∧
          KeepsUp lib json config url pubkeyHex t round) :
    Agrees (foundNow fs (asLeft fs rounds)) json config s.disk s.registry := by
  revert hrounds
  have hinit : Agrees (foundNow fs (asLeft fs [])) json config disk registry := hstart
  refine Machine.Run.invariant (P := fun rounds s =>
    (∀ earlier round t, earlier ++ [round] <+: rounds →
      (updater lib json config disk registry).Run earlier t →
        Undisturbed lib config url pubkeyHex fs (asLeft fs earlier) t round ∧
          KeepsUp lib json config url pubkeyHex t round) →
      Agrees (foundNow fs (asLeft fs rounds)) json config s.disk s.registry)
    (fun _ => hinit) ?_ hrun
  intro rounds s round s' hbefore ih hstep hrounds
  have hs' : (loopRound lib json config url pubkeyHex round s).1 = s' := by
    simpa [updater, hsource] using hstep
  subst s'
  obtain ⟨hround, hkeeps⟩ := hrounds rounds round s List.prefix_rfl hbefore
  have hagrees := ih fun earlier r t hinturn =>
    hrounds earlier r t (hinturn.trans (List.prefix_append rounds [round]))
  have hleft : asLeft fs (rounds ++ [round]) = round.reloadFs := by simp [asLeft]
  rw [hleft]
  exact agrees_round hround hkeeps hagrees

/-- A networks directory that has the file r.json in it once this is written. -/
def growing (there : Bool) : FileSystem Str :=
  { directory "networks" [] with
    pathExists := fun path => there && path = "networks".toList
    isDir := fun path => there && path = "networks".toList
    readDir := fun disk _ =>
      if (disk "networks/r.json".toList).isSome then some ["r.json"] else some [] }

def firstRound : Round Str :=
  { renamingRound "r.json" with fs := growing false, reloadFs := growing true }

def firstUpdater : Machine (UpdaterState Str) (Round Str) :=
  updater (signedUnder "r.json") (jsonOf [("main", "kin")]) syncedConfig (fun _ => none) .new

theorem firstRound_run : (firstUpdater.exec [firstRound]).isSome = true := by decide +kernel

theorem firstRound_keepsUp (earlier : List (Round Str)) (round : Round Str)
    (t : UpdaterState Str) (hinturn : earlier ++ [round] <+: [firstRound])
    (ht : firstUpdater.Run earlier t) :
    Undisturbed (signedUnder "r.json") syncedConfig "https://host/networks" keyHex (growing false)
        (asLeft (growing false) earlier) t round ∧
      KeepsUp (signedUnder "r.json") (jsonOf [("main", "kin")]) syncedConfig
        "https://host/networks" keyHex t round := by
  obtain ⟨rfl, rfl⟩ : earlier = [] ∧ round = firstRound := by
    have hlength := hinturn.length_le
    obtain rfl : earlier = [] := by
      simpa using hlength
    simpa using hinturn
  obtain rfl := ht.unique .nil
  refine ⟨⟨rfl, rfl, rfl, rfl, rfl, fun _ => ⟨rfl, rfl⟩, fun hnot => ?_⟩, ⟨?_, ?_⟩⟩
  · exact absurd hnot (by decide +kernel)
  · rintro publicKey contents hprepare ⟨p, hp, hends⟩
    obtain ⟨key, item, hone, hgood⟩ : ∃ key item,
        prepare (signedUnder "r.json") firstRound.fs firstRound.server "https://host/networks"
          keyHex "networks" = .ok (key, [item]) ∧
        endsRound (signedUnder "r.json") firstRound.fs firstRound.server key "networks" 0 item =
          false :=
      ⟨_, _, rfl, by decide +kernel⟩
    obtain ⟨rfl, rfl⟩ : key = publicKey ∧ [item] = contents := by
      simpa using hone.symm.trans hprepare
    obtain rfl : p = (item, 0) := by simpa using hp
    exact absurd (hgood.symm.trans hends) (by decide)
  · intro disk count hfetch baseDir hbase entry hentry
    obtain rfl : (fetchAndUpdate (signedUnder "r.json") firstRound.fs firstRound.server
        "https://host/networks" keyHex "networks" (fun _ => none)).1 = disk :=
      congrArg Prod.fst hfetch
    have hnone : entriesOf firstRound.reloadFs (jsonOf [("main", "kin")]) syncedConfig "networks"
        (fetchAndUpdate (signedUnder "r.json") firstRound.fs firstRound.server
          "https://host/networks" keyHex "networks" (fun _ => none)).1 = [] := by
      decide +kernel
    exact absurd (hnone ▸ hentry) (by simp)

theorem agrees_throughout_created :
    ((firstUpdater.exec [firstRound]).get firstRound_run).disk "networks/r.json".toList =
        some [0x72] ∧
      Agrees (foundNow (growing false) (growing true)) (jsonOf [("main", "kin")]) syncedConfig
        ((firstUpdater.exec [firstRound]).get firstRound_run).disk
        ((firstUpdater.exec [firstRound]).get firstRound_run).registry := by
  have hstart : Agrees (growing false) (jsonOf [("main", "kin")]) syncedConfig (fun _ => none)
      .new := rfl
  have hagrees := agrees_throughout updaterSource_synced hstart
    (firstUpdater.run_get [firstRound] firstRound_run) firstRound_keepsUp
  exact ⟨by decide +kernel, hagrees⟩

def networkDisk : Disk Str := diskOf [("networks/r.json", networkJson "main" "kin")]

def networkLoaded : TldRegistry :=
  (loadFromDir (directory "networks" ["r.json"]) (jsonOf [("main", "kin")]) "networks" syncedConfig
    ⟨.new, networkDisk⟩).registry

def lateListing : Bytes :=
  encode ("[\x7b\"name\":\"r.json\",\"download_url\":\"https://host/r.json\",".toList ++
    "\"type\":\"file\"\x7d,\x7b\"name\":\"x.json\",".toList ++
    "\"download_url\":\"https://host/x.json\",\"type\":\"file\"\x7d]".toList)

def lateLibraries : Libraries Bytes where
  keyFromBytes := oneSignature.keyFromBytes
  verify := oneSignature.verify
  parseListing bytes :=
    if bytes = lateListing then
      .ok [⟨"r.json", some "https://host/r.json", "file"⟩,
        ⟨"x.json", some "https://host/x.json", "file"⟩]
    else .error "expected value"
  statusError := oneSignature.statusError
  hexError := oneSignature.hexError

/-- The second file of the listing is not found. -/
def lateFailure : Round Str where
  server :=
    { listing := fun _ => .response 200 (.ok lateListing)
      file := fun i _ => if i = 0 then .response 200 (.ok [0x72]) else .response 404 (.ok [])
      signature := signedRound.server.signature }
  fs := directory "networks" ["r.json"]
  reloadFs := directory "networks" ["r.json"]

/-- The registry keeps a network whose file the failed round has replaced. -/
theorem stale_after_late_failure :
    Agrees (directory "networks" ["r.json"]) (jsonOf [("main", "kin")]) syncedConfig networkDisk
        networkLoaded ∧
      Undisturbed lateLibraries syncedConfig "https://host/networks" keyHex
        (directory "networks" ["r.json"]) (directory "networks" ["r.json"])
        ⟨networkDisk, networkLoaded, hour⟩ lateFailure ∧
      ∃ s, (updater lateLibraries (jsonOf [("main", "kin")]) syncedConfig networkDisk
          networkLoaded).Run [lateFailure] s ∧
        ¬ Agrees (directory "networks" ["r.json"]) (jsonOf [("main", "kin")]) syncedConfig s.disk
          s.registry := by
  refine ⟨rfl, ⟨rfl, rfl, rfl, rfl, rfl, fun hcreates => ?_, fun _ => rfl⟩, _,
    Machine.run_get _ _ rfl, ?_⟩
  · exact absurd (Bool.and_eq_true_iff.mp hcreates).2 (by decide)
  · intro hagrees
    have hkin := congrArg (fun r => TldRegistry.getConfig r ".kin") hagrees
    revert hkin
    decide +kernel

end KineticAtlas.UpdaterSync
