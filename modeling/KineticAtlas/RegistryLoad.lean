import KineticAtlas.Registry
import KineticAtlas.Library.FirstWins

/-!
What a load of the registry finds (registry.rs). A file of the networks directory has
at most one network, stored under its cleaned TLD, and the first file of a TLD in the
listing keeps it. As long as no announcement lands in the directory itself, a load is
that lookup and finds the same again when it is repeated.
-/
namespace KineticAtlas.RegistryLoad

open Library.Texts Library.Utf8 Library.Files Library.FirstWins KineticAtlas.Types Registry

variable {F : Type}

/-- The directory is absent, so that a load leaves the registry alone. -/
def isMissing (fs : FileSystem F) (dir : Str) : Bool := !fs.pathExists dir || !fs.isDir dir

/-- The network of a file with the key it is stored under, unless it is turned down. -/
def fileNetwork (fs : FileSystem F) (json : Json) (globalConfig : AtlasConfig) (dir : Str)
    (disk : Disk F) (name : Str) : Option (Str × NetworkConfig) :=
  if extension name = some "json".toList then
    match (readToString fs disk (joinPath dir name)).bind json.parseConfig with
    | none => none
    | some config =>
      if isExcluded globalConfig (trimStartDots config.tld) then none
      else some ('.' :: trimStartDots config.tld, config)
  else none

/-- The names in the order in which the directory is read. -/
def listed (fs : FileSystem F) (dir : Str) (disk : Disk F) : List Str :=
  (fs.readDir disk dir).getD []

/-- The networks of a directory with their keys, file by file. -/
def entriesOf (fs : FileSystem F) (json : Json) (globalConfig : AtlasConfig) (dir : Str)
    (disk : Disk F) : List (Str × NetworkConfig) :=
  (listed fs dir disk).filterMap (fileNetwork fs json globalConfig dir disk)

/-- The announcement of a TLD, which stays out of the directory and its listing. -/
def AnnouncedOutside [DecidableEq F] (fs : FileSystem F) (dir baseDir cleanTld : Str) : Prop :=
  ∀ disk bytes,
    fs.readDir (Function.update disk (fs.file (proxyFile baseDir cleanTld)) (some bytes)) dir =
        fs.readDir disk dir ∧
      ∀ name ∈ listed fs dir disk,
        fs.file (joinPath dir name) ≠ fs.file (proxyFile baseDir cleanTld)

/-- No network of the directory is announced into the directory. -/
def AnnouncesOutside [DecidableEq F] (fs : FileSystem F) (json : Json) (globalConfig : AtlasConfig)
    (dir : Str) (disk : Disk F) : Prop :=
  ∀ baseDir, fs.dataLocalDir = some baseDir →
    ∀ entry ∈ entriesOf fs json globalConfig dir disk, AnnouncedOutside fs dir baseDir entry.1

/-- The directory and its files are found alike on both disks. -/
def SameDir (fs : FileSystem F) (dir : Str) (disk disk' : Disk F) : Prop :=
  fs.readDir disk' dir = fs.readDir disk dir ∧
    ∀ name ∈ listed fs dir disk,
      disk' (fs.file (joinPath dir name)) = disk (fs.file (joinPath dir name))

variable {fs : FileSystem F} {json : Json} {globalConfig : AtlasConfig} {dir : Str}
  {disk disk' disk'' : Disk F}

theorem SameDir.refl (disk : Disk F) : SameDir fs dir disk disk := ⟨rfl, fun _ _ => rfl⟩

theorem SameDir.listed_eq (h : SameDir fs dir disk disk') :
    listed fs dir disk' = listed fs dir disk := by
  simp only [listed, h.1]

theorem SameDir.trans (h : SameDir fs dir disk disk') (h' : SameDir fs dir disk' disk'') :
    SameDir fs dir disk disk'' := by
  refine ⟨h'.1.trans h.1, fun name hname => ?_⟩
  have hname' : name ∈ listed fs dir disk' := h.listed_eq ▸ hname
  exact (h'.2 name hname').trans (h.2 name hname)

theorem SameDir.fileNetwork_eq (h : SameDir fs dir disk disk') {name : Str}
    (hname : name ∈ listed fs dir disk) :
    fileNetwork fs json globalConfig dir disk' name =
      fileNetwork fs json globalConfig dir disk name := by
  simp only [fileNetwork, readToString, h.2 name hname]

theorem SameDir.entriesOf_eq (h : SameDir fs dir disk disk') :
    entriesOf fs json globalConfig dir disk' = entriesOf fs json globalConfig dir disk := by
  unfold entriesOf
  rw [h.listed_eq]
  exact List.filterMap_congr fun name hname => h.fileNetwork_eq hname

variable [DecidableEq F]

theorem SameDir.announcesOutside (h : SameDir fs dir disk disk')
    (hout : AnnouncesOutside fs json globalConfig dir disk) :
    AnnouncesOutside fs json globalConfig dir disk' := by
  intro baseDir hbase entry hentry
  rw [h.entriesOf_eq] at hentry
  exact hout baseDir hbase entry hentry

theorem loadEntry_eq (s : Loading F) (name : Str) :
    loadEntry fs json globalConfig dir s name =
      match fileNetwork fs json globalConfig dir s.disk name with
      | none => s
      | some (cleanTld, config) =>
        if (s.registry.networks cleanTld).isSome then s
        else
          { registry := ⟨Function.update s.registry.networks cleanTld (some config)⟩
            disk := registerWithPac fs json globalConfig s.disk cleanTld } := by
  unfold loadEntry fileNetwork
  split
  · cases (readToString fs s.disk (joinPath dir name)).bind json.parseConfig with
    | none => rfl
    | some config =>
      dsimp only
      by_cases hexcluded : isExcluded globalConfig (trimStartDots config.tld) = true
      · rw [if_pos hexcluded, if_pos hexcluded]
      · rw [if_neg hexcluded, if_neg hexcluded]
  · rfl

/-- The load of a directory that is there. -/
theorem loadFromDir_found (hfound : isMissing fs dir = false) (s : Loading F) :
    loadFromDir fs json dir globalConfig s =
      (listed fs dir s.disk).foldl (loadEntry fs json globalConfig dir) ⟨.new, s.disk⟩ := by
  have hguard : ¬ (!fs.pathExists dir || !fs.isDir dir) = true := by
    simpa [isMissing] using hfound
  unfold loadFromDir
  rw [if_neg hguard]
  cases hread : fs.readDir s.disk dir <;> simp [listed, hread]

theorem loadFromDir_missing (hmissing : isMissing fs dir = true) (s : Loading F) :
    loadFromDir fs json dir globalConfig s = s := if_pos hmissing

/-- An announcement outside the directory leaves it as it is. -/
theorem sameDir_registerWithPac (disk : Disk F) (cleanTld : Str)
    (hout : ∀ baseDir, fs.dataLocalDir = some baseDir →
      AnnouncedOutside fs dir baseDir cleanTld) :
    SameDir fs dir disk (registerWithPac fs json globalConfig disk cleanTld) := by
  unfold registerWithPac
  cases hbase : fs.dataLocalDir with
  | none => exact SameDir.refl disk
  | some baseDir =>
    cases herror : fs.writeError (proxyFile baseDir cleanTld) with
    | some e =>
      simp only [writeFile, herror]
      exact SameDir.refl disk
    | none =>
      simp only [writeFile, herror]
      refine ⟨(hout baseDir hbase disk _).1, fun name hname => ?_⟩
      exact Function.update_of_ne ((hout baseDir hbase disk []).2 name hname) _ _

/-- One entry of the listing: its network is stored unless its key is taken. -/
theorem loadEntry_spec (hout : AnnouncesOutside fs json globalConfig dir disk) {s : Loading F}
    (hsame : SameDir fs dir disk s.disk) {name : Str} (hname : name ∈ listed fs dir disk) :
    (loadEntry fs json globalConfig dir s name).registry.networks =
        (fileNetwork fs json globalConfig dir disk name).toList.foldl insertNew
          s.registry.networks ∧
      SameDir fs dir disk (loadEntry fs json globalConfig dir s name).disk := by
  rw [loadEntry_eq, hsame.fileNetwork_eq hname]
  cases hnetwork : fileNetwork fs json globalConfig dir disk name with
  | none => exact ⟨rfl, hsame⟩
  | some entry =>
    obtain ⟨cleanTld, config⟩ := entry
    have hentry : (cleanTld, config) ∈ entriesOf fs json globalConfig dir disk :=
      List.mem_filterMap.mpr ⟨name, hname, hnetwork⟩
    by_cases htaken : (s.registry.networks cleanTld).isSome = true
    · simpa [htaken, insertNew] using hsame
    · have hpac : SameDir fs dir s.disk
          (registerWithPac fs json globalConfig s.disk cleanTld) :=
        sameDir_registerWithPac s.disk cleanTld fun baseDir hbase => hout baseDir hbase _ hentry
      exact ⟨by simp [htaken, insertNew], by simpa [htaken] using hsame.trans hpac⟩

theorem loadEntries_spec (hout : AnnouncesOutside fs json globalConfig dir disk)
    (names : List Str) (hnames : names ⊆ listed fs dir disk) (s : Loading F)
    (hsame : SameDir fs dir disk s.disk) :
    (names.foldl (loadEntry fs json globalConfig dir) s).registry.networks =
        (names.filterMap (fileNetwork fs json globalConfig dir disk)).foldl insertNew
          s.registry.networks ∧
      SameDir fs dir disk (names.foldl (loadEntry fs json globalConfig dir) s).disk := by
  induction names generalizing s with
  | nil => exact ⟨rfl, hsame⟩
  | cons name rest ih =>
    obtain ⟨hname, hrest⟩ := List.cons_subset.mp hnames
    obtain ⟨hentry, hsame'⟩ := loadEntry_spec hout hsame hname
    obtain ⟨hnetworks, hdir⟩ := ih hrest _ hsame'
    refine ⟨?_, hdir⟩
    rw [List.foldl_cons, hnetworks, hentry]
    cases hnetwork : fileNetwork fs json globalConfig dir disk name <;> simp [hnetwork]

/-- A load finds the first network of each key, and leaves the directory as it was. -/
theorem loadFromDir_spec {s : Loading F} (hexists : fs.pathExists dir = true)
    (hisDir : fs.isDir dir = true) (hout : AnnouncesOutside fs json globalConfig dir s.disk) :
    (loadFromDir fs json dir globalConfig s).registry =
        ⟨fun k => (entriesOf fs json globalConfig dir s.disk).lookup k⟩ ∧
      SameDir fs dir s.disk (loadFromDir fs json dir globalConfig s).disk := by
  obtain ⟨hnetworks, hsame⟩ := loadEntries_spec hout (listed fs dir s.disk)
    (List.Subset.refl _) ⟨.new, s.disk⟩ (SameDir.refl s.disk)
  rw [loadFromDir_found (by simp [isMissing, hexists, hisDir])]
  refine ⟨congrArg TldRegistry.mk (hnetworks.trans (funext fun k => ?_)), hsame⟩
  rw [foldl_insertNew, entriesOf]
  simp [TldRegistry.new]

/-- The same directory, read in a given order. -/
def enumerating (fs : FileSystem F) (names : List Str) : FileSystem F :=
  { fs with readDir := fun _ _ => some names }

theorem announcesOutside_perm {names names' : List Str} (hperm : names'.Perm names)
    (hout : AnnouncesOutside (enumerating fs names) json globalConfig dir disk) :
    AnnouncesOutside (enumerating fs names') json globalConfig dir disk := by
  intro baseDir hbase entry hentry disk' bytes
  have hmem : entry ∈ entriesOf (enumerating fs names) json globalConfig dir disk :=
    (hperm.filterMap _).mem_iff.mp hentry
  refine ⟨rfl, fun name hname => ?_⟩
  exact (hout baseDir hbase entry hmem disk' bytes).2 name (hperm.mem_iff.mp hname)

/-- The load of the listing in another order. -/
theorem load_enumerated {s : Loading F} {names names' : List Str}
    (hout : AnnouncesOutside (enumerating fs names) json globalConfig dir s.disk)
    (hexists : fs.pathExists dir = true) (hisDir : fs.isDir dir = true)
    (hperm : names'.Perm names) :
    (loadFromDir (enumerating fs names') json dir globalConfig s).registry =
      ⟨fun k => (names'.filterMap (fileNetwork fs json globalConfig dir s.disk)).lookup k⟩ := by
  have hexists' : (enumerating fs names').pathExists dir = true := hexists
  have hisDir' : (enumerating fs names').isDir dir = true := hisDir
  exact (loadFromDir_spec hexists' hisDir' (announcesOutside_perm hperm hout)).1

/-- The order of the listing is irrelevant exactly when no two admitted files store
different networks under one key. In every order the first of the files of a key is the
one kept. -/
theorem load_order_iff {s : Loading F} {names : List Str}
    (hout : AnnouncesOutside (enumerating fs names) json globalConfig dir s.disk) :
    ((∀ names' : List Str, names'.Perm names →
        (loadFromDir (enumerating fs names') json dir globalConfig s).registry =
          (loadFromDir (enumerating fs names) json dir globalConfig s).registry) ↔
      (fs.pathExists dir = true → fs.isDir dir = true →
        Consistent (entriesOf (enumerating fs names) json globalConfig dir s.disk))) ∧
    (fs.pathExists dir = true → fs.isDir dir = true → ∀ names' : List Str, names'.Perm names →
      ∀ k, (loadFromDir (enumerating fs names') json dir globalConfig s).registry.getConfig k =
        (names'.filterMap (fileNetwork fs json globalConfig dir s.disk)).lookup k) := by
  refine ⟨?_, fun hexists hisDir names' hperm k => ?_⟩
  · by_cases hdir : fs.pathExists dir = true ∧ fs.isDir dir = true
    · obtain ⟨hexists, hisDir⟩ := hdir
      have hload := fun names' => @load_enumerated _ fs json globalConfig dir _ s names names'
        hout hexists hisDir
      have horder := lookup_order_iff (fileNetwork fs json globalConfig dir s.disk) names
      refine Iff.trans ⟨fun h names' hperm k => ?_, fun h names' hperm => ?_⟩
        (horder.trans ⟨fun h _ _ => h, fun h => h hexists hisDir⟩)
      · have heq := h names' hperm
        rw [hload names' hperm, hload names (List.Perm.refl names)] at heq
        exact congrFun (TldRegistry.mk.inj heq) k
      · rw [hload names' hperm, hload names (List.Perm.refl names)]
        exact congrArg TldRegistry.mk (funext (h names' hperm))
    · have hkeep : ∀ names' : List Str,
          loadFromDir (enumerating fs names') json dir globalConfig s = s := by
        intro names'
        have hmissing : isMissing (enumerating fs names') dir = true := by
          rw [not_and_or] at hdir
          simpa [isMissing, enumerating] using hdir
        exact loadFromDir_missing hmissing s
      exact ⟨fun _ hexists hisDir => absurd ⟨hexists, hisDir⟩ hdir,
        fun _ names' _ => by rw [hkeep names', hkeep names]⟩
  · rw [load_enumerated hout hexists hisDir hperm]
    rfl

def networkJson (networkId tld : Str) : Str :=
  "\x7b\"version\":\"1.0\",\"network_id\":\"".toList ++ networkId ++
    "\",\"tld\":\"".toList ++ tld ++
    "\",\"bootstrap_nodes\":[],\"local_bind_ip\":\"127.0.0.1\"\x7d".toList

def network (networkId tld : Str) : NetworkConfig :=
  ⟨"1.0", networkId, tld, [], "127.0.0.1", none, none, none, none⟩

/-- The JSON library on the files of the given networks. -/
def jsonOf (known : List (Str × Str)) : Json where
  parseConfig text :=
    (known.find? fun p => text = networkJson p.1 p.2).map fun p => network p.1 p.2
  prettyProxy tld _ proxyIp :=
    encode ("\x7b\n  \"proxy_ip\": \"".toList ++ proxyIp ++
      "\",\n  \"proxy_port\": 17002,\n  \"tld\": \"".toList ++ tld ++ "\"\n\x7d".toList)

def diskOf (files : List (Str × Str)) : Disk Str := fun path => (files.lookup path).map encode

/-- A file system with one directory that is listed in the given order. -/
def directory (dir : Str) (names : List Str) : FileSystem Str where
  file path := path
  pathExists path := path = dir
  isDir path := path = dir
  readDir _ _ := some names
  unreadable _ := false
  writeError _ := none
  breaksOff _ _ := none
  createDirError _ := none
  dataLocalDir := some "data"

def openConfig : AtlasConfig :=
  ⟨"1.0", [], [], 17002, "http://127.0.0.1:16202", "", "networks", none, none, none⟩

def loadNetworks (dir : Str) (names : List Str) (known : List (Str × Str)) (disk : Disk Str) :
    TldRegistry :=
  (loadFromDir (directory dir names) (jsonOf known) dir openConfig ⟨.new, disk⟩).registry

/-- A directory with the one file kin.json. -/
def kinDisk : Disk Str := diskOf [("networks/kin.json", networkJson "main" "kin")]

def twoTlds : Disk Str :=
  diskOf [("networks/a.json", networkJson "main" "kin"),
    ("networks/b.json", networkJson "test" ".test")]

theorem load_order_two_tlds :
    loadNetworks "networks" ["b.json", "a.json"] [("main", "kin"), ("test", ".test")] twoTlds =
      loadNetworks "networks" ["a.json", "b.json"] [("main", "kin"), ("test", ".test")]
        twoTlds := by
  have hentries : entriesOf (directory "networks" ["a.json", "b.json"])
      (jsonOf [("main", "kin"), ("test", ".test")]) openConfig "networks" twoTlds =
        [(".kin".toList, network "main" "kin"), (".test".toList, network "test" ".test")] := by
    decide +kernel
  have hnames : ∀ tld ∈ [".kin".toList, ".test".toList],
      ∀ name ∈ ["a.json".toList, "b.json".toList],
      joinPath "networks" name ≠ proxyFile "data" tld := by
    decide
  have hout : AnnouncesOutside (enumerating (directory "networks" []) ["a.json", "b.json"])
      (jsonOf [("main", "kin"), ("test", ".test")]) openConfig "networks" twoTlds := by
    intro baseDir hbase entry hentry disk bytes
    obtain rfl : "data".toList = baseDir := Option.some.inj hbase
    have hmem : entry ∈ [(".kin".toList, network "main" "kin"),
        (".test".toList, network "test" ".test")] := hentries ▸ hentry
    have htld : entry.1 ∈ [".kin".toList, ".test".toList] := List.mem_map_of_mem hmem
    exact ⟨rfl, hnames entry.1 htld⟩
  have hconsistent : Consistent [(".kin".toList, network "main" "kin"),
      (".test".toList, network "test" ".test")] := by
    intro k v v' hv hv'
    simp only [List.mem_cons, Prod.mk.injEq, List.not_mem_nil, or_false] at hv hv'
    rcases hv with ⟨rfl, rfl⟩ | ⟨rfl, rfl⟩ <;> rcases hv' with ⟨h, rfl⟩ | ⟨h, rfl⟩
    · rfl
    · exact absurd h (by decide)
    · exact absurd h (by decide)
    · rfl
  exact (load_order_iff (s := ⟨.new, twoTlds⟩) hout).1.mpr (fun _ _ => hentries.symm ▸ hconsistent)
    ["b.json", "a.json"] (List.Perm.swap _ _ [])

def oneTldTwice : Disk Str :=
  diskOf [("networks/a.json", networkJson "main" "kin"),
    ("networks/b.json", networkJson "test" ".kin")]

/-- Networks kept where kinetic-pac is told of them, one under the name of an announcement. -/
def amongAnnouncements : Disk Str :=
  diskOf [("data/kinetic_global/proxies/b.json", networkJson "main" "kin"),
    ("data/kinetic_global/proxies/atlas_kin.json", networkJson "test" "test")]

/-- The order decides which of two networks gets a TLD, and, where the announcements
are dropped into the directory itself, whether a network is still there to be read. -/
theorem order_decides :
    (["b.json".toList, "a.json".toList].Perm ["a.json".toList, "b.json".toList] ∧
      (loadNetworks "networks" ["b.json", "a.json"] [("main", "kin"), ("test", ".kin")]
          oneTldTwice).networks ".kin".toList ≠
        (loadNetworks "networks" ["a.json", "b.json"] [("main", "kin"), ("test", ".kin")]
          oneTldTwice).networks ".kin".toList) ∧
    ["b.json".toList, "atlas_kin.json".toList].Perm ["atlas_kin.json".toList, "b.json".toList] ∧
      (loadNetworks "data/kinetic_global/proxies" ["b.json", "atlas_kin.json"]
          [("main", "kin"), ("test", "test")] amongAnnouncements).networks ".test".toList ≠
        (loadNetworks "data/kinetic_global/proxies" ["atlas_kin.json", "b.json"]
          [("main", "kin"), ("test", "test")] amongAnnouncements).networks ".test".toList := by
  decide +kernel

end KineticAtlas.RegistryLoad
