import KineticAtlas.RegistryLoad
import KineticAtlas.Library.Runs
import Mathlib.Data.Set.Lattice

/-!
The announcements to kinetic-pac over a run of loads (registry.rs). A load writes the
file of every TLD it stores and removes none, so the files present are those of all
TLDs that some load has stored. They are the files of the registry exactly as long as
no TLD of an earlier load has been lost, and no TLD of the registry has a slash that
takes its file out of the directory.
-/
namespace KineticAtlas.PacMirror

open Library.Texts Library.Runs Library.Utf8 Library.Files KineticAtlas.Types Registry
  RegistryLoad

/-- Where the directory of the proxies is, and the files that paths lead to. -/
structure Pac (F : Type) where
  baseDir : Str
  file : Str → F

variable {F : Type}

/-- The file `atlas_<tld>.json` of the proxies directory. -/
def Pac.fileOf (pac : Pac F) (cleanTld : Str) : F := pac.file (proxyFile pac.baseDir cleanTld)

/-- A file system with this directory on which every write goes through. -/
def Pac.writable (pac : Pac F) (fs : FileSystem F) : FileSystem F :=
  { fs with
    file := pac.file
    dataLocalDir := some pac.baseDir
    writeError := fun _ => none
    breaksOff := fun _ _ => none }

/-- What the file of a TLD says. -/
def announcement (json : Json) (cleanTld : Str) (port : UInt16) : Bytes :=
  json.prettyProxy cleanTld port defaultBindIp

/-- A load that went through: what it stored, and the port it was configured with. -/
structure Load where
  registry : TldRegistry
  port : UInt16

/-- The loads that went through, the latest first. -/
structure PacState (F : Type) where
  registry : TldRegistry
  disk : Disk F
  loads : List Load

inductive PacInput (F : Type)
  | load (fs : FileSystem F) (dir : Str) (globalConfig : AtlasConfig)
  | outside (disk : Disk F)

variable [DecidableEq F]

def pacStep (json : Json) (pac : Pac F) (s : PacState F) : PacInput F → PacState F
  | .load fs dir globalConfig =>
    let loaded := loadFromDir (pac.writable fs) json dir globalConfig ⟨s.registry, s.disk⟩
    { registry := loaded.registry
      disk := loaded.disk
      loads :=
        if isMissing fs dir then s.loads
        else ⟨loaded.registry, globalConfig.bindPort⟩ :: s.loads }
  | .outside disk => { s with disk := disk }

/-- One registry that is loaded again and again. -/
def pacMachine (json : Json) (pac : Pac F) (disk : Disk F) :
    Machine (PacState F) (PacInput F) where
  init := ⟨.new, disk, []⟩
  step s i := some (pacStep json pac s i)

/-- The files `atlas_<tld>.json` that are in the proxies directory itself. -/
def proxies (pac : Pac F) : Set F := pac.fileOf '' {tld | '/' ∉ tld}

/-- Others leave the announcements alone. -/
def KeepsAnnouncements (pac : Pac F) (s : PacState F) : PacInput F → Prop
  | .load .. => True
  | .outside disk => ∀ f ∈ proxies pac, disk f = s.disk f

/-- The TLDs that a registry has networks for. -/
def tlds (registry : TldRegistry) : Set Str := {tld | (registry.getConfig tld).isSome = true}

/-- The files that announce the TLDs of a registry. -/
def filesOf (pac : Pac F) (registry : TldRegistry) : Set F := pac.fileOf '' tlds registry

/-- The announcements that are there. -/
def present (pac : Pac F) (disk : Disk F) : Set F := {f ∈ proxies pac | (disk f).isSome = true}

variable {json : Json} {pac : Pac F} {globalConfig : AtlasConfig} {fs : FileSystem F} {dir : Str}
  {f : F}

/-- The disk of a load under way: the files of what is stored so far are announcements,
all others are as they were. -/
structure Announced (json : Json) (pac : Pac F) (port : UInt16) (disk : Disk F)
    (s : Loading F) : Prop where
  stored : ∀ f ∈ filesOf pac s.registry, ∃ tld ∈ tlds s.registry,
    pac.fileOf tld = f ∧ s.disk f = some (announcement json tld port)
  kept : ∀ f ∉ filesOf pac s.registry, s.disk f = disk f

omit [DecidableEq F] in
theorem tlds_new : tlds .new = ∅ := by
  ext tld
  simp [tlds, TldRegistry.new, TldRegistry.getConfig]

omit [DecidableEq F] in
theorem tlds_insert (registry : TldRegistry) (cleanTld : Str) (config : NetworkConfig) :
    tlds ⟨Function.update registry.networks cleanTld (some config)⟩ =
      insert cleanTld (tlds registry) := by
  ext tld
  by_cases htld : tld = cleanTld
  · simp [tlds, TldRegistry.getConfig, htld]
  · simp [tlds, TldRegistry.getConfig, htld]

omit [DecidableEq F] in
theorem announced_cleared (port : UInt16) (disk : Disk F) :
    Announced json pac port disk ⟨.new, disk⟩ :=
  ⟨by simp [filesOf, tlds_new], fun _ _ => rfl⟩

theorem registerWithPac_writable (disk : Disk F) (cleanTld : Str) :
    registerWithPac (pac.writable fs) json globalConfig disk cleanTld =
      Function.update disk (pac.fileOf cleanTld)
        (some (announcement json cleanTld globalConfig.bindPort)) := rfl

theorem Announced.insert {disk : Disk F} {s : Loading F}
    (h : Announced json pac globalConfig.bindPort disk s) (cleanTld : Str)
    (config : NetworkConfig) :
    Announced json pac globalConfig.bindPort disk
      { registry := ⟨Function.update s.registry.networks cleanTld (some config)⟩
        disk := registerWithPac (pac.writable fs) json globalConfig s.disk cleanTld } := by
  have hfiles : filesOf pac ⟨Function.update s.registry.networks cleanTld (some config)⟩ =
      Insert.insert (pac.fileOf cleanTld) (filesOf pac s.registry) := by
    rw [filesOf, tlds_insert, Set.image_insert_eq, filesOf]
  rw [registerWithPac_writable]
  constructor
  · intro f hf
    rw [hfiles, Set.mem_insert_iff] at hf
    rw [tlds_insert]
    by_cases hsame : f = pac.fileOf cleanTld
    · subst f
      exact ⟨cleanTld, Set.mem_insert _ _, rfl, Function.update_self _ _ _⟩
    · obtain ⟨tld, htld, hfile, hdisk⟩ := h.stored f (hf.resolve_left hsame)
      exact ⟨tld, Set.mem_insert_of_mem _ htld, hfile,
        (Function.update_of_ne hsame _ _).trans hdisk⟩
  · intro f hf
    rw [hfiles, Set.mem_insert_iff, not_or] at hf
    exact (Function.update_of_ne hf.1 _ _).trans (h.kept f hf.2)

theorem Announced.entry {disk : Disk F} {s : Loading F}
    (h : Announced json pac globalConfig.bindPort disk s) (name : Str) :
    Announced json pac globalConfig.bindPort disk
      (loadEntry (pac.writable fs) json globalConfig dir s name) := by
  rw [loadEntry_eq]
  cases fileNetwork (pac.writable fs) json globalConfig dir s.disk name with
  | none => exact h
  | some entry =>
    dsimp only
    split
    · exact h
    · exact h.insert entry.1 entry.2

theorem announced_load (hfound : isMissing fs dir = false) (s : Loading F) :
    Announced json pac globalConfig.bindPort s.disk
      (loadFromDir (pac.writable fs) json dir globalConfig s) := by
  have hfound' : isMissing (pac.writable fs) dir = false := hfound
  rw [loadFromDir_found hfound']
  exact List.foldlRecOn (listed (pac.writable fs) dir s.disk)
    (loadEntry (pac.writable fs) json globalConfig dir)
    (motive := fun s' : Loading F => Announced json pac globalConfig.bindPort s.disk s')
    (announced_cleared _ _) fun _ h name _ => h.entry name

/-- What a file holds after the loads, the latest first: what the latest load that stored
a TLD of this file has written. -/
inductive LastAnnounced (json : Json) (pac : Pac F) (f : F) : List Load → Option Bytes → Prop
  | never : LastAnnounced json pac f [] none
  | now (load : Load) (older : List Load) (tld : Str) :
      tld ∈ tlds load.registry → pac.fileOf tld = f →
      LastAnnounced json pac f (load :: older) (some (announcement json tld load.port))
  | before (load : Load) (older : List Load) (content : Option Bytes) :
      f ∉ filesOf pac load.registry → LastAnnounced json pac f older content →
      LastAnnounced json pac f (load :: older) content

omit [DecidableEq F] in
theorem LastAnnounced.isSome_iff {loads : List Load} {content : Option Bytes}
    (h : LastAnnounced json pac f loads content) :
    content.isSome = true ↔ ∃ load ∈ loads, f ∈ filesOf pac load.registry := by
  induction h with
  | never => simp
  | now load older tld htld hfile =>
    have hmem : f ∈ filesOf pac load.registry := ⟨tld, htld, hfile⟩
    simp [hmem]
  | before load older content hnot _ ih => simp [ih, hnot]

omit [DecidableEq F] in
/-- The latest load has the say over the files of its own TLDs. -/
theorem LastAnnounced.latest {load : Load} {older : List Load} {content : Option Bytes}
    (h : LastAnnounced json pac f (load :: older) content)
    (hmem : f ∈ filesOf pac load.registry) :
    ∃ tld ∈ tlds load.registry, pac.fileOf tld = f ∧
      content = some (announcement json tld load.port) := by
  cases h with
  | now _ _ tld htld hfile => exact ⟨tld, htld, hfile, rfl⟩
  | before _ _ _ hnot _ => exact absurd hmem hnot

/-- The registry is the one of the latest load, and the loads tell what the files hold. -/
structure Mirrored (json : Json) (pac : Pac F) (s : PacState F) : Prop where
  registry : s.registry = (s.loads.head?.map Load.registry).getD .new
  files : ∀ f ∈ proxies pac, LastAnnounced json pac f s.loads (s.disk f)

theorem mirrored_step {s : PacState F} {i : PacInput F} (h : Mirrored json pac s)
    (hkeeps : KeepsAnnouncements pac s i) : Mirrored json pac (pacStep json pac s i) := by
  cases i with
  | load fs dir globalConfig =>
    by_cases hmissing : isMissing fs dir = true
    · have hmissing' : isMissing (pac.writable fs) dir = true := hmissing
      simpa [pacStep, loadFromDir_missing hmissing', hmissing] using h
    · have hload : Announced json pac globalConfig.bindPort s.disk
          (loadFromDir (pac.writable fs) json dir globalConfig ⟨s.registry, s.disk⟩) :=
        announced_load (by simpa using hmissing) ⟨s.registry, s.disk⟩
      refine ⟨by simp [pacStep, hmissing], fun f hf => ?_⟩
      simp only [pacStep, hmissing]
      by_cases hstored : f ∈ filesOf pac
          (loadFromDir (pac.writable fs) json dir globalConfig ⟨s.registry, s.disk⟩).registry
      · obtain ⟨tld, htld, hfile, hdisk⟩ := hload.stored f hstored
        rw [hdisk]
        exact .now _ _ tld htld hfile
      · rw [hload.kept f hstored]
        exact .before _ _ _ hstored (h.files f hf)
  | outside disk =>
    refine ⟨h.registry, fun f hf => ?_⟩
    have hsame : disk f = s.disk f := hkeeps f hf
    simpa [pacStep, hsame] using h.files f hf

theorem mirrored_run {disk : Disk F} (hempty : ∀ f ∈ proxies pac, disk f = none)
    {is : List (PacInput F)} {s : PacState F} (hrun : (pacMachine json pac disk).Run is s)
    (hkeeps : (pacMachine json pac disk).Throughout (KeepsAnnouncements pac) is) :
    Mirrored json pac s := by
  refine hrun.invariant_throughout (P := fun s => Mirrored json pac s) ?_ ?_ hkeeps
  · refine ⟨rfl, fun f hf => ?_⟩
    have hnone : (pacMachine json pac disk).init.disk f = none := hempty f hf
    rw [hnone]
    exact .never
  · intro s i s' h hok hstep
    obtain rfl : pacStep json pac s i = s' := Option.some.inj hstep
    exact mirrored_step h hok

omit [DecidableEq F] in
/-- A registry that is not empty was stored by the latest load. -/
theorem Mirrored.latest {s : PacState F} (h : Mirrored json pac s) {tld : Str}
    (htld : tld ∈ tlds s.registry) :
    ∃ load older, s.loads = load :: older ∧ load.registry = s.registry := by
  have hregistry := h.registry
  cases hloads : s.loads with
  | nil =>
    rw [hregistry, hloads] at htld
    simp [tlds_new] at htld
  | cons load older => exact ⟨load, older, rfl, by simpa [hloads] using hregistry.symm⟩

/-- The announcements present are those of all TLDs stored by some load so far. They are
the files of the registry exactly when these are all in the directory and no earlier
load has stored another one there. And the file of a TLD of the registry has the port of
the load that stored it, and names this TLD or one of the registry with the same file. -/
theorem pac_files_of_all_loads {disk : Disk F} (hempty : ∀ f ∈ proxies pac, disk f = none)
    {is : List (PacInput F)} {s : PacState F} (hrun : (pacMachine json pac disk).Run is s)
    (hkeeps : (pacMachine json pac disk).Throughout (KeepsAnnouncements pac) is) :
    present pac s.disk =
      {f ∈ proxies pac | ∃ load ∈ s.loads, f ∈ filesOf pac load.registry} ∧
    (present pac s.disk = filesOf pac s.registry ↔
      filesOf pac s.registry ⊆ proxies pac ∧
        ∀ load ∈ s.loads, filesOf pac load.registry ∩ proxies pac ⊆ filesOf pac s.registry) ∧
    ∀ tld ∈ tlds s.registry, pac.fileOf tld ∈ proxies pac →
      ∃ load ∈ s.loads.head?, load.registry = s.registry ∧
        ∃ tld' ∈ tlds s.registry, pac.fileOf tld' = pac.fileOf tld ∧
          s.disk (pac.fileOf tld) = some (announcement json tld' load.port) := by
  have hmirrored := mirrored_run hempty hrun hkeeps
  have hpresent : present pac s.disk =
      {f ∈ proxies pac | ∃ load ∈ s.loads, f ∈ filesOf pac load.registry} := by
    ext f
    exact and_congr_right fun hf => (hmirrored.files f hf).isSome_iff
  refine ⟨hpresent, ⟨?_, ?_⟩, ?_⟩
  · intro hexact
    rw [hpresent] at hexact
    refine ⟨fun f hf => ?_, fun load hload f hf => ?_⟩
    · rw [← hexact] at hf
      exact hf.1
    · rw [← hexact]
      exact ⟨hf.2, load, hload, hf.1⟩
  · rintro ⟨hinside, hall⟩
    rw [hpresent]
    refine Set.Subset.antisymm
      (fun f ⟨hf, load, hload, hstored⟩ => hall load hload ⟨hstored, hf⟩) ?_
    rintro f ⟨tld, htld, rfl⟩
    obtain ⟨load, older, hloads, hsame⟩ := hmirrored.latest htld
    exact ⟨hinside ⟨tld, htld, rfl⟩, load, by simp [hloads], tld, hsame ▸ htld, rfl⟩
  · intro tld htld hf
    obtain ⟨load, older, hloads, hsame⟩ := hmirrored.latest htld
    have hfile := hmirrored.files _ hf
    rw [hloads] at hfile
    obtain ⟨tld', htld', hfiles, hdisk⟩ := hfile.latest ⟨tld, hsame ▸ htld, rfl⟩
    exact ⟨load, by simp [hloads], hsame, tld', hsame ▸ htld', hfiles, hdisk⟩

theorem pac_run (disk : Disk F) (is : List (PacInput F)) :
    (pacMachine json pac disk).Run is (is.foldl (pacStep json pac) ⟨.new, disk, []⟩) := by
  induction is using List.reverseRecOn with
  | nil => exact .nil
  | append_singleton is i ih =>
    rw [List.foldl_concat]
    exact ih.snoc rfl

/-- Runs of loads alone. -/
theorem keeps_loads (disk : Disk F) {is : List (PacInput F)}
    (hloads : ∀ i ∈ is, ∀ s, KeepsAnnouncements pac s i) :
    (pacMachine json pac disk).Throughout (KeepsAnnouncements pac) is :=
  (Machine.throughout_nil _ _).append hloads

/-- Paths that are files of their own, and paths that ignore case. -/
def pacHere : Pac Str := ⟨"data", fun path => path⟩

def pacFolding : Pac Str := ⟨"data", fun path => path.map Char.toLower⟩

theorem proxyFile_data (tld : Str) : proxyFile "data" tld =
    "data/kinetic_global/proxies/atlas_".toList ++ (trimStartDots tld ++ ".json".toList) := rfl

theorem proxies_head {f : Str} (hf : f ∈ proxies pacHere ∨ f ∈ proxies pacFolding) :
    f.head? = some 'd' := by
  rcases hf with ⟨tld, -, rfl⟩ | ⟨tld, -, rfl⟩
  · rfl
  · rfl

/-- Disks with nothing but network files have no announcement. -/
theorem diskOf_apart {files : List (Str × Str)} (hfiles : ∀ p ∈ files, p.1.head? = some 'n')
    {f : Str} (hf : f ∈ proxies pacHere ∨ f ∈ proxies pacFolding) : diskOf files f = none := by
  have hnone : files.lookup f = none := by
    rw [List.lookup_eq_none_iff]
    intro p hp
    simp only [bne_iff_ne]
    rintro rfl
    exact absurd ((hfiles p hp).symm.trans (proxies_head hf)) (by decide)
  simp [diskOf, hnone]

def loadNamed (names : List Str) : PacInput Str :=
  .load (directory "networks" names) "networks" openConfig

def kinLoaded : PacState Str :=
  pacStep (jsonOf [("main", "kin")]) pacHere ⟨.new, kinDisk, []⟩ (loadNamed ["kin.json"])

def kinRemoved : PacInput Str :=
  .outside (Function.update kinLoaded.disk "networks/kin.json".toList none)

/-- The network is withdrawn: its file is removed between two loads. -/
def kinWithdrawn : List (PacInput Str) := [loadNamed ["kin.json"], kinRemoved, loadNamed []]

def withoutKin : PacState Str :=
  kinWithdrawn.foldl (pacStep (jsonOf [("main", "kin")]) pacHere) ⟨.new, kinDisk, []⟩

theorem kinDisk_empty : ∀ f ∈ proxies pacHere, kinDisk f = none :=
  fun _ hf => diskOf_apart (by decide) (Or.inl hf)

theorem kinWithdrawn_run :
    (pacMachine (jsonOf [("main", "kin")]) pacHere kinDisk).Run kinWithdrawn withoutKin :=
  pac_run kinDisk kinWithdrawn

theorem kinWithdrawn_keeps :
    (pacMachine (jsonOf [("main", "kin")]) pacHere kinDisk).Throughout
      (KeepsAnnouncements pacHere) kinWithdrawn := by
  have hfirst : (pacMachine (jsonOf [("main", "kin")]) pacHere kinDisk).Throughout
      (KeepsAnnouncements pacHere) [loadNamed ["kin.json"]] :=
    keeps_loads kinDisk (by simp [KeepsAnnouncements, loadNamed])
  have hremoved : ∀ s, (pacMachine (jsonOf [("main", "kin")]) pacHere kinDisk).Run
      [loadNamed ["kin.json"]] s → KeepsAnnouncements pacHere s kinRemoved := by
    intro s hs f hf
    obtain rfl : kinLoaded = s := (pac_run kinDisk [loadNamed ["kin.json"]]).unique hs
    refine Function.update_of_ne (fun heq => ?_) _ _
    exact absurd (proxies_head (Or.inl (heq ▸ hf))) (by decide)
  have hlast : ∀ i ∈ [loadNamed []], ∀ s, KeepsAnnouncements pacHere s i := by
    simp [KeepsAnnouncements, loadNamed]
  exact (hfirst.snoc hremoved).append hlast

theorem pac_files_of_all_loads_kin :
    present pacHere withoutKin.disk =
      {f ∈ proxies pacHere | ∃ load ∈ withoutKin.loads, f ∈ filesOf pacHere load.registry} :=
  (pac_files_of_all_loads kinDisk_empty kinWithdrawn_run kinWithdrawn_keeps).1

/-- A TLD whose file is not in the directory. -/
def slashedDisk : Disk Str := diskOf [("networks/a.json", networkJson "main" "a/b")]

def slashed : PacState Str :=
  pacStep (jsonOf [("main", "a/b")]) pacHere ⟨.new, slashedDisk, []⟩ (loadNamed ["a.json"])

theorem slashed_outside : pacHere.fileOf ".a/b" ∉ proxies pacHere := by
  rintro ⟨tld, hplain, hfile⟩
  have hsame : trimStartDots tld ++ ".json".toList = "a/b.json".toList := by
    have hpath : proxyFile "data" tld = proxyFile "data" ".a/b" := hfile
    rw [proxyFile_data, proxyFile_data] at hpath
    exact List.append_cancel_left hpath
  have hslash : '/' ∈ trimStartDots tld ++ ".json".toList := hsame ▸ by decide
  rcases List.mem_append.mp hslash with htld | hjson
  · exact hplain ((List.dropWhile_suffix _).subset htld)
  · exact absurd hjson (by decide)

/-- Two TLDs that share a file where case is ignored. -/
def foldedDisk : Disk Str :=
  diskOf [("networks/a.json", networkJson "main" "kin"),
    ("networks/b.json", networkJson "test" "Kin")]

def folded : PacState Str :=
  pacStep (jsonOf [("main", "kin"), ("test", "Kin")]) pacFolding ⟨.new, foldedDisk, []⟩
    (loadNamed ["a.json", "b.json"])

/-- The file of a withdrawn TLD stays; a TLD with a slash has its file elsewhere; and a
TLD that shares its file is not the one it names. -/
theorem pac_files_differ :
    ((∀ f ∈ proxies pacHere, kinDisk f = none) ∧
      (pacMachine (jsonOf [("main", "kin")]) pacHere kinDisk).Run kinWithdrawn withoutKin ∧
      (pacMachine (jsonOf [("main", "kin")]) pacHere kinDisk).Throughout
        (KeepsAnnouncements pacHere) kinWithdrawn ∧
      withoutKin.registry.getConfig ".kin" = none ∧
      present pacHere withoutKin.disk ≠ filesOf pacHere withoutKin.registry) ∧
    ((∀ f ∈ proxies pacHere, slashedDisk f = none) ∧
      (pacMachine (jsonOf [("main", "a/b")]) pacHere slashedDisk).Run [loadNamed ["a.json"]]
        slashed ∧
      present pacHere slashed.disk ≠ filesOf pacHere slashed.registry) ∧
    (∀ f ∈ proxies pacFolding, foldedDisk f = none) ∧
      (pacMachine (jsonOf [("main", "kin"), ("test", "Kin")]) pacFolding foldedDisk).Run
        [loadNamed ["a.json", "b.json"]] folded ∧
      ".kin".toList ∈ tlds folded.registry ∧
      folded.disk (pacFolding.fileOf ".kin") ≠
        some (announcement (jsonOf [("main", "kin"), ("test", "Kin")]) ".kin"
          openConfig.bindPort) := by
  refine ⟨⟨kinDisk_empty, kinWithdrawn_run, kinWithdrawn_keeps, rfl, fun hsame => ?_⟩,
    ⟨fun _ hf => diskOf_apart (by decide) (Or.inl hf), pac_run slashedDisk _, fun hsame => ?_⟩,
    fun _ hf => diskOf_apart (by decide) (Or.inr hf), pac_run foldedDisk _, ?_, ?_⟩
  · have hthere : pacHere.fileOf ".kin" ∈ present pacHere withoutKin.disk :=
      ⟨⟨".kin".toList, by decide, rfl⟩, by decide +kernel⟩
    rw [hsame] at hthere
    obtain ⟨tld, htld, -⟩ := hthere
    exact absurd htld (by simp [tlds, show withoutKin.registry = .new from rfl, TldRegistry.new,
      TldRegistry.getConfig])
  · have hstored : ".a/b".toList ∈ tlds slashed.registry := by
      show (slashed.registry.getConfig ".a/b").isSome = true
      decide +kernel
    have hfile : pacHere.fileOf ".a/b" ∈ filesOf pacHere slashed.registry :=
      ⟨_, hstored, rfl⟩
    rw [← hsame] at hfile
    exact slashed_outside hfile.1
  · show (folded.registry.getConfig ".kin").isSome = true
    decide +kernel
  · decide +kernel

end KineticAtlas.PacMirror
