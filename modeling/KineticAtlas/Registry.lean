import KineticAtlas.Types
import KineticAtlas.Library.Utf8
import KineticAtlas.Library.Files

/-!
The registry of networks by TLD (registry.rs). Loading clears it and reads the
networks directory entry by entry; every network admitted is announced to
kinetic-pac in a file of its own, so a load also writes to the disk.
-/
namespace KineticAtlas.Registry

open Library.Texts Library.Utf8 Library.Files KineticAtlas.Types

structure TldRegistry where
  networks : Str → Option NetworkConfig

def TldRegistry.new : TldRegistry := ⟨fun _ => none⟩

def TldRegistry.getConfig (r : TldRegistry) (tld : Str) : Option NetworkConfig := r.networks tld

/-- What the operating system answers: the file a path leads to, listings, which reads it
refuses, which files it does not open for writing, and after how many bytes the write of
some bytes to a path breaks off. -/
structure FileSystem (F : Type) where
  file : Str → F
  pathExists : Str → Bool
  isDir : Str → Bool
  readDir : Disk F → Str → Option (List Str)
  unreadable : Str → Bool
  writeError : Str → Option Str
  breaksOff : Str → Bytes → Option (ℕ × Str)
  createDirError : Str → Option Str
  dataLocalDir : Option Str

/-- The JSON library at the types the registry uses. -/
structure Json where
  parseConfig : Str → Option NetworkConfig
  prettyProxy : (tld : Str) → (proxyPort : UInt16) → (proxyIp : Str) → Bytes

/-- The registry under construction and the disk. -/
structure Loading (F : Type) where
  registry : TldRegistry
  disk : Disk F

def trimStartDots (tld : Str) : Str := tld.dropWhile (· = '.')

variable {F : Type}

/-- `fs::read_to_string` fails on a missing file and on ill-formed UTF-8. -/
def readToString (fs : FileSystem F) (disk : Disk F) (path : Str) : Option Str :=
  if fs.unreadable path then none else (disk (fs.file path)).bind decodeStrict

def isExcluded (globalConfig : AtlasConfig) (tldName : Str) : Bool :=
  let isWhitelisted := globalConfig.whitelist.isEmpty || globalConfig.whitelist.contains tldName
  let isBlacklisted := !globalConfig.blacklist.isEmpty && globalConfig.blacklist.contains tldName
  !isWhitelisted || isBlacklisted

def proxyFile (baseDir cleanTld : Str) : Str :=
  joinPath (joinPath (joinPath baseDir globalDirName) proxiesDirName)
    (atlasPrefix ++ trimStartDots cleanTld ++ ".json".toList)

/-- What a file holds once the bytes have been written to it as far as they could be. -/
def bytesLeft (fs : FileSystem F) (path : Str) (bytes : Bytes) : Bytes :=
  match fs.breaksOff path bytes with
  | some (n, _) => bytes.take n
  | none => bytes

/-- Every write to the path goes through. -/
def Writable (fs : FileSystem F) (path : Str) : Prop :=
  fs.writeError path = none ∧ ∀ bytes, fs.breaksOff path bytes = none

/-- What comes of a write: whether the file was opened for it, and an error if there was
one. -/
structure Written (F : Type) where
  disk : Disk F
  opened : Bool
  error : Option Str

variable [DecidableEq F]

/-- `fs::write` empties the file when it opens it. Then it may break off after some bytes. -/
def writeFile (fs : FileSystem F) (disk : Disk F) (path : Str) (bytes : Bytes) : Written F :=
  match fs.writeError path with
  | some e => ⟨disk, false, some e⟩
  | none =>
    ⟨Function.update disk (fs.file path) (some (bytesLeft fs path bytes)), true,
      (fs.breaksOff path bytes).map Prod.snd⟩

/-- A write that fails is only logged. -/
def registerWithPac (fs : FileSystem F) (json : Json) (globalConfig : AtlasConfig)
    (disk : Disk F) (cleanTld : Str) : Disk F :=
  match fs.dataLocalDir with
  | none => disk
  | some baseDir =>
    (writeFile fs disk (proxyFile baseDir cleanTld)
      (json.prettyProxy cleanTld globalConfig.bindPort defaultBindIp)).disk

/-- One round of the loop over the directory. -/
def loadEntry (fs : FileSystem F) (json : Json) (globalConfig : AtlasConfig) (dir : Str)
    (s : Loading F) (name : Str) : Loading F :=
  if extension name = some "json".toList then
    match (readToString fs s.disk (joinPath dir name)).bind json.parseConfig with
    | none => s
    | some config =>
      let cleanTld := '.' :: trimStartDots config.tld
      let tldName := trimStartDots config.tld
      if isExcluded globalConfig tldName then s
      else if (s.registry.networks cleanTld).isSome then s
      else
        { registry := ⟨Function.update s.registry.networks cleanTld (some config)⟩
          disk := registerWithPac fs json globalConfig s.disk cleanTld }
  else s

def loadFromDir (fs : FileSystem F) (json : Json) (dir : Str) (globalConfig : AtlasConfig)
    (s : Loading F) : Loading F :=
  if !fs.pathExists dir || !fs.isDir dir then s
  else
    let cleared := { s with registry := TldRegistry.new }
    match fs.readDir s.disk dir with
    | some names => names.foldl (loadEntry fs json globalConfig dir) cleared
    | none => cleared

/-- The files a load may write: announcements of networks to kinetic-pac, or what is left
of one whose write broke off. -/
def IsProxyFile (fs : FileSystem F) (json : Json) (globalConfig : AtlasConfig) (f : F)
    (bytes : Bytes) : Prop :=
  ∃ baseDir cleanTld, fs.dataLocalDir = some baseDir ∧ f = fs.file (proxyFile baseDir cleanTld) ∧
    bytes = bytesLeft fs (proxyFile baseDir cleanTld)
      (json.prettyProxy cleanTld globalConfig.bindPort defaultBindIp)

variable {fs : FileSystem F} {json : Json} {globalConfig : AtlasConfig}

omit [DecidableEq F] in
theorem bytesLeft_begins (fs : FileSystem F) (path : Str) (bytes : Bytes) :
    bytesLeft fs path bytes <+: bytes := by
  unfold bytesLeft
  cases fs.breaksOff path bytes with
  | some cut => exact List.take_prefix cut.1 bytes
  | none => exact List.prefix_rfl

omit [DecidableEq F] in
theorem bytesLeft_whole {path : Str} {bytes : Bytes} (h : fs.breaksOff path bytes = none) :
    bytesLeft fs path bytes = bytes := by
  rw [bytesLeft, h]

theorem writeFile_writable {disk : Disk F} {path : Str} (h : Writable fs path) (bytes : Bytes) :
    writeFile fs disk path bytes =
      ⟨Function.update disk (fs.file path) (some bytes), true, none⟩ := by
  simp only [writeFile, h.1, bytesLeft_whole (h.2 bytes), h.2 bytes, Option.map_none]

/-- Nothing but the file that is written changes. -/
theorem writeFile_confined {P : F → Bytes → Prop} (disk : Disk F) {path : Str} {bytes : Bytes}
    (h : P (fs.file path) (bytesLeft fs path bytes)) :
    Confined P disk (writeFile fs disk path bytes).disk := by
  unfold writeFile
  cases fs.writeError path with
  | some e => exact Confined.refl _ _
  | none => exact Confined.write _ _ h

theorem registerWithPac_confined (disk : Disk F) (cleanTld : Str) :
    Confined (IsProxyFile fs json globalConfig) disk
      (registerWithPac fs json globalConfig disk cleanTld) := by
  unfold registerWithPac
  cases hbase : fs.dataLocalDir with
  | none => exact Confined.refl _ _
  | some baseDir => exact writeFile_confined disk ⟨baseDir, cleanTld, hbase, rfl, rfl⟩

theorem loadEntry_confined (dir : Str) (s : Loading F) (name : Str) :
    Confined (IsProxyFile fs json globalConfig) s.disk
      (loadEntry fs json globalConfig dir s name).disk := by
  unfold loadEntry
  split
  · split
    · exact Confined.refl _ _
    · dsimp only
      split
      · exact Confined.refl _ _
      · split
        · exact Confined.refl _ _
        · exact registerWithPac_confined _ _
  · exact Confined.refl _ _

/-- A load changes no file but the announcements. -/
theorem loadFromDir_confined (dir : Str) (s : Loading F) :
    Confined (IsProxyFile fs json globalConfig) s.disk
      (loadFromDir fs json dir globalConfig s).disk := by
  unfold loadFromDir
  split
  · exact Confined.refl _ _
  · dsimp only
    split
    · exact Confined.foldl Loading.disk _ (loadEntry_confined dir) _ _
    · exact Confined.refl _ _

end KineticAtlas.Registry
