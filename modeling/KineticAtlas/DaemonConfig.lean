import KineticAtlas.Registry
import KineticAtlas.Library.Json

/-!
The configuration file of the daemon (get_or_create_config in main.rs, AtlasConfig in
types.rs). It is read when the daemon starts, and a default one is written in its place
when it cannot be read. The main result says when that leaves an existing file alone: when
it can be read as text, whatever the text is, or cannot be written either.
-/
namespace KineticAtlas.DaemonConfig

open Library.Texts Library.Utf8 Library.Files Library.Json KineticAtlas.Types Registry

def optionalStr (text : Option Str) : Value := text.elim .null .str

def membersOf (config : AtlasConfig) : Members :=
  [("version", .str config.version), ("whitelist", .arr (config.whitelist.map .str)),
    ("blacklist", .arr (config.blacklist.map .str)), ("bind_port", .int config.bindPort.toNat),
    ("kinetic_api", .str config.kineticApi), ("kinetic_token", .str config.kineticToken),
    ("networks_dir", .str config.networksDir), ("registry_url", optionalStr config.registryUrl),
    ("override_ipfs_gateway", optionalStr config.overrideIpfsGateway),
    ("updater_public_key", optionalStr config.updaterPublicKey)]

def toJson (config : AtlasConfig) : Value := .obj (membersOf config)

def defaultRegistryUrl : Option Str :=
  some "https://api.github.com/repos/saifmukhtar/kinetic-atlas/contents/networks"

def decodeConfig (value : Value) : Option AtlasConfig := do
  let field ← structFields 10 value
  let version ← required asStr (field "version" 0)
  let whitelist ← defaulted (asListOf asStr) [] (field "whitelist" 1)
  let blacklist ← defaulted (asListOf asStr) [] (field "blacklist" 2)
  let bindPort ← required asU16 (field "bind_port" 3)
  let kineticApi ← required asStr (field "kinetic_api" 4)
  let kineticToken ← required asStr (field "kinetic_token" 5)
  let networksDir ← required asStr (field "networks_dir" 6)
  let registryUrl ← defaulted (asOption asStr) defaultRegistryUrl (field "registry_url" 7)
  let overrideIpfsGateway ← defaulted (asOption asStr) none (field "override_ipfs_gateway" 8)
  let updaterPublicKey ← defaulted (asOption asStr) none (field "updater_public_key" 9)
  pure ⟨version, whitelist, blacklist, bindPort, kineticApi, kineticToken, networksDir,
    registryUrl, overrideIpfsGateway, updaterPublicKey⟩

theorem defaulted_optionalStr (dflt text : Option Str) :
    defaulted (asOption asStr) dflt (some (some (optionalStr text))) = some text := by
  cases text <;> rfl

theorem defaulted_list (texts : List Str) :
    defaulted (asListOf asStr) [] (some (some (.arr (texts.map .str)))) = some texts :=
  asListOf_str texts

theorem required_port (port : UInt16) :
    required asU16 (some (some (.int port.toNat))) = some port := asU16_toNat port

/-- No name is written twice. -/
theorem membersOf_nodup (config : AtlasConfig) : ((membersOf config).map Prod.fst).Nodup := by
  show (["version".toList, "whitelist".toList, "blacklist".toList, "bind_port".toList,
    "kinetic_api".toList, "kinetic_token".toList, "networks_dir".toList, "registry_url".toList,
    "override_ipfs_gateway".toList, "updater_public_key".toList]).Nodup
  decide

/-- A configuration is read back as it was written. -/
theorem decodeConfig_toJson (config : AtlasConfig) :
    decodeConfig (toJson config) = some config := by
  have hmember : ∀ name value, (membersOf config).lookup name = some value →
      member name (membersOf config) = some (some value) := by
    intro name value hlookup
    rw [member_of_nodup name (membersOf_nodup config), hlookup]
  have hversion := hmember "version" _ rfl
  have hwhitelist := hmember "whitelist" _ rfl
  have hblacklist := hmember "blacklist" _ rfl
  have hport := hmember "bind_port" _ rfl
  have hapi := hmember "kinetic_api" _ rfl
  have htoken := hmember "kinetic_token" _ rfl
  have hdir := hmember "networks_dir" _ rfl
  have hurl := hmember "registry_url" _ rfl
  have hgateway := hmember "override_ipfs_gateway" _ rfl
  have hkey := hmember "updater_public_key" _ rfl
  simp only [decodeConfig, toJson, structFields, hversion, hwhitelist, hblacklist, hport, hapi,
    htoken, hdir, hurl, hgateway, hkey, defaulted_optionalStr, defaulted_list, required_port,
    Option.bind_eq_bind, Option.bind_some]
  rfl

/-- serde_json: writing a value, parsing a text, and the message for a text that is turned
down. -/
structure SerdeJson where
  toStringPretty : Value → Except Str Str
  parse : Str → Option Value
  message : Str → Str

def fromStr (json : SerdeJson) (content : Str) : Except Str AtlasConfig :=
  match (json.parse content).bind decodeConfig with
  | some config => .ok config
  | none => .error (json.message content)

variable {F : Type}

/-- The directory is created if it can be; whether it is there shows in what can be written. -/
def baseDir (fs : FileSystem F) : Str := joinPath (fs.dataLocalDir.getD ".") "kinetic_atlas"

def atlasConfigPath (fs : FileSystem F) : Str := joinPath (baseDir fs) "atlas.json"

def defaultConfig (fs : FileSystem F) : AtlasConfig where
  version := "1.0"
  whitelist := []
  blacklist := []
  bindPort := defaultProxyPort
  kineticApi := defaultKineticApi
  kineticToken := ""
  networksDir := joinPath (baseDir fs) "networks"
  registryUrl := some "https://api.github.com/repos/saifmukhtar/kinetic-atlas/contents/networks"
  overrideIpfsGateway := none
  updaterPublicKey := none

/-- The result of a call, the disk after it, and whether it has opened the file for writing. -/
structure Called (F : Type) where
  result : Except AtlasError AtlasConfig
  disk : Disk F
  opened : Bool

def getOrCreateConfig [DecidableEq F] (fs : FileSystem F) (json : SerdeJson) (disk : Disk F) :
    Called F :=
  match readToString fs disk (atlasConfigPath fs) with
  | some content =>
    match fromStr json content with
    | .ok config => ⟨.ok config, disk, false⟩
    | .error e => ⟨.error (.configError e), disk, false⟩
  | none =>
    match json.toStringPretty (toJson (defaultConfig fs)) with
    | .error e => ⟨.error (.configError e), disk, false⟩
    | .ok text =>
      let written := writeFile fs disk (atlasConfigPath fs) (encode text)
      match written.error with
      | some e =>
        ⟨.error (.configError ("Failed to write default config: ".toList ++ e)), written.disk,
          written.opened⟩
      | none => ⟨.ok (defaultConfig fs), written.disk, written.opened⟩

/-- The configuration that the bytes of a file are. -/
def parsedConfig (json : SerdeJson) (bytes : Bytes) : Option AtlasConfig :=
  (decodeStrict bytes).bind fun content => (fromStr json content).toOption

/-- The library reads the default configuration back as it has written it. -/
def ReadsBack (json : SerdeJson) (config : AtlasConfig) : Prop :=
  ∃ text, json.toStringPretty (toJson config) = .ok text ∧ json.parse text = some (toJson config)

/-- A later call finds the file at the same place, and it can read or write it. -/
structure Follows (fs later : FileSystem F) : Prop where
  same_dir : later.dataLocalDir = fs.dataLocalDir
  same_file : later.file (atlasConfigPath fs) = fs.file (atlasConfigPath fs)
  works : later.unreadable (atlasConfigPath fs) = false ∨ Writable later (atlasConfigPath fs)

variable {fs later : FileSystem F} {json : SerdeJson} {disk : Disk F}

theorem readToString_eq_some {path content : Str} :
    readToString fs disk path = some content ↔
      fs.unreadable path = false ∧ ∃ bytes, disk (fs.file path) = some bytes ∧
        decodeStrict bytes = some content := by
  unfold readToString
  cases fs.unreadable path with
  | true => simp
  | false => simp [Option.bind_eq_some_iff]

theorem Follows.same_path (h : Follows fs later) :
    atlasConfigPath later = atlasConfigPath fs := by
  rw [atlasConfigPath, atlasConfigPath, baseDir, baseDir, h.same_dir]

theorem Follows.same_default (h : Follows fs later) :
    defaultConfig later = defaultConfig fs := by
  rw [defaultConfig, defaultConfig, baseDir, baseDir, h.same_dir]

variable [DecidableEq F]

/-- An existing file keeps its bytes, and the default is written only in the place of none,
where the next call returns it again. -/
structure NeverOverwrites (fs : FileSystem F) (json : SerdeJson) (disk : Disk F) : Prop where
  kept : ∀ bytes, disk (fs.file (atlasConfigPath fs)) = some bytes →
    (getOrCreateConfig fs json disk).disk (fs.file (atlasConfigPath fs)) = some bytes ∧
      ((∃ config, parsedConfig json bytes = some config ∧
          (getOrCreateConfig fs json disk).result = .ok config) ∨
        ∃ reason, (getOrCreateConfig fs json disk).result = .error (.configError reason))
  only_new : (getOrCreateConfig fs json disk).opened = true →
    disk (fs.file (atlasConfigPath fs)) = none
  again : ∀ config, (getOrCreateConfig fs json disk).opened = true →
    (getOrCreateConfig fs json disk).result = .ok config →
      ∀ later, Follows fs later →
        (getOrCreateConfig later json (getOrCreateConfig fs json disk).disk).result = .ok config

/-- Whatever text is read, the disk is left alone. -/
theorem call_of_read (json : SerdeJson) {content : Str}
    (hread : readToString fs disk (atlasConfigPath fs) = some content) :
    getOrCreateConfig fs json disk =
      ⟨(fromStr json content).mapError .configError, disk, false⟩ := by
  simp only [getOrCreateConfig, hread]
  cases fromStr json content <;> rfl

section

variable {text : Str} (hread : readToString fs disk (atlasConfigPath fs) = none)
  (htext : json.toStringPretty (toJson (defaultConfig fs)) = .ok text)
include hread htext

theorem call_refused {e : Str} (hopen : fs.writeError (atlasConfigPath fs) = some e) :
    getOrCreateConfig fs json disk =
      ⟨.error (.configError ("Failed to write default config: ".toList ++ e)), disk, false⟩ := by
  simp only [getOrCreateConfig, hread, htext, writeFile, hopen]

theorem call_broken (hopen : fs.writeError (atlasConfigPath fs) = none) {n : ℕ} {e : Str}
    (hbreak : fs.breaksOff (atlasConfigPath fs) (encode text) = some (n, e)) :
    getOrCreateConfig fs json disk =
      ⟨.error (.configError ("Failed to write default config: ".toList ++ e)),
        Function.update disk (fs.file (atlasConfigPath fs)) (some ((encode text).take n)),
        true⟩ := by
  simp only [getOrCreateConfig, hread, htext, writeFile, bytesLeft, hopen, hbreak, Option.map_some]

theorem call_written (hopen : fs.writeError (atlasConfigPath fs) = none)
    (hbreak : fs.breaksOff (atlasConfigPath fs) (encode text) = none) :
    getOrCreateConfig fs json disk =
      ⟨.ok (defaultConfig fs),
        Function.update disk (fs.file (atlasConfigPath fs)) (some (encode text)), true⟩ := by
  simp only [getOrCreateConfig, hread, htext, writeFile, bytesLeft, hopen, hbreak, Option.map_none]

theorem opened_iff : (getOrCreateConfig fs json disk).opened = true ↔
    fs.writeError (atlasConfigPath fs) = none := by
  cases hopen : fs.writeError (atlasConfigPath fs) with
  | some e => simp [call_refused hread htext hopen]
  | none =>
    cases hbreak : fs.breaksOff (atlasConfigPath fs) (encode text) with
    | some cut => simp [call_broken hread htext hopen hbreak]
    | none => simp [call_written hread htext hopen hbreak]

end

/-- The default is returned again, be it read or, where it cannot be, written once more. -/
theorem default_again {text : Str}
    (htext : json.toStringPretty (toJson (defaultConfig fs)) = .ok text)
    (hparse : json.parse text = some (toJson (defaultConfig fs)))
    (hdisk : disk (fs.file (atlasConfigPath fs)) = some (encode text))
    (hlater : Follows fs later) :
    (getOrCreateConfig later json disk).result = .ok (defaultConfig fs) := by
  by_cases hreadable : later.unreadable (atlasConfigPath fs) = false
  · have hread : readToString later disk (atlasConfigPath later) = some text := by
      rw [hlater.same_path, readToString_eq_some]
      exact ⟨hreadable, _, hlater.same_file ▸ hdisk, decodeStrict_encode text⟩
    have hparsed : fromStr json text = .ok (defaultConfig fs) := by
      rw [fromStr, hparse, Option.bind_some, decodeConfig_toJson]
    rw [call_of_read json hread, hparsed]
    rfl
  · obtain ⟨hopen, hbreak⟩ := hlater.works.resolve_left hreadable
    have hread : readToString later disk (atlasConfigPath later) = none := by
      rw [hlater.same_path, readToString, if_pos (Bool.not_eq_false _ ▸ hreadable)]
    rw [← hlater.same_path] at hopen hbreak
    rw [call_written hread (hlater.same_default ▸ htext) hopen (hbreak _), hlater.same_default]

/-- A call that does not open the file for writing may return what the file holds, or an
error. -/
theorem neverOverwrites_of_closed {result : Except AtlasError AtlasConfig}
    (hcall : getOrCreateConfig fs json disk = ⟨result, disk, false⟩)
    (hresult : ∀ bytes, disk (fs.file (atlasConfigPath fs)) = some bytes →
      (∃ config, parsedConfig json bytes = some config ∧ result = .ok config) ∨
        ∃ reason, result = .error (.configError reason)) :
    NeverOverwrites fs json disk := by
  constructor
  · intro bytes hbytes
    rw [hcall]
    exact ⟨hbytes, hresult bytes hbytes⟩
  · rw [hcall]
    exact fun hopened => absurd hopened Bool.false_ne_true
  · rw [hcall]
    exact fun config hopened => absurd hopened Bool.false_ne_true

theorem neverOverwrites_of_read {content : Str}
    (hread : readToString fs disk (atlasConfigPath fs) = some content) :
    NeverOverwrites fs json disk := by
  refine neverOverwrites_of_closed (call_of_read json hread) fun bytes hbytes => ?_
  obtain ⟨-, bytes', hbytes', hcontent⟩ := readToString_eq_some.mp hread
  obtain rfl : bytes = bytes' := Option.some.inj (hbytes.symm.trans hbytes')
  cases hparsed : fromStr json content with
  | ok config =>
    refine Or.inl ⟨config, ?_, rfl⟩
    rw [parsedConfig, hcontent, Option.bind_some, hparsed]
    rfl
  | error e => exact Or.inr ⟨e, rfl⟩

/-- Where there is no file the default may be written. -/
theorem neverOverwrites_of_missing (hback : ReadsBack json (defaultConfig fs))
    (hnone : disk (fs.file (atlasConfigPath fs)) = none) :
    NeverOverwrites fs json disk := by
  obtain ⟨text, htext, hparse⟩ := hback
  have hread : readToString fs disk (atlasConfigPath fs) = none := by
    rw [readToString, hnone, Option.bind_none, ite_self]
  constructor
  · intro bytes hbytes
    rw [hnone] at hbytes
    cases hbytes
  · exact fun _ => hnone
  · intro config hopened hresult later hlater
    have hopen := (opened_iff hread htext).mp hopened
    cases hbreak : fs.breaksOff (atlasConfigPath fs) (encode text) with
    | some cut =>
      rw [call_broken hread htext hopen hbreak] at hresult
      cases hresult
    | none =>
      rw [call_written hread htext hopen hbreak] at hresult ⊢
      obtain rfl : defaultConfig fs = config := Except.ok.inj hresult
      exact default_again htext hparse (Function.update_self _ _ _) hlater

/-- An existing file that cannot be read is opened for writing if it can be. -/
theorem not_neverOverwrites_of_unread {text : Str} {bytes : Bytes}
    (hread : readToString fs disk (atlasConfigPath fs) = none)
    (htext : json.toStringPretty (toJson (defaultConfig fs)) = .ok text)
    (hwrite : fs.writeError (atlasConfigPath fs) = none)
    (hdisk : disk (fs.file (atlasConfigPath fs)) = some bytes) :
    ¬ NeverOverwrites fs json disk := by
  intro hkeeps
  have hnone := hkeeps.only_new ((opened_iff hread htext).mpr hwrite)
  rw [hdisk] at hnone
  cases hnone

/-- The file can be read as a text, or cannot be opened for writing. -/
def ReadableOrLocked (fs : FileSystem F) (bytes : Bytes) : Prop :=
  (fs.unreadable (atlasConfigPath fs) = false ∧ (decodeStrict bytes).isSome = true) ∨
    fs.writeError (atlasConfigPath fs) ≠ none

/-- The file is left alone exactly when it is missing, holds a text that can be read, or
cannot be opened for writing. -/
theorem never_overwrites_iff (fs : FileSystem F) (json : SerdeJson) (disk : Disk F)
    (hback : ReadsBack json (defaultConfig fs)) :
    NeverOverwrites fs json disk ↔
      ∀ bytes, disk (fs.file (atlasConfigPath fs)) = some bytes → ReadableOrLocked fs bytes := by
  cases hdisk : disk (fs.file (atlasConfigPath fs)) with
  | none =>
    refine iff_of_true (neverOverwrites_of_missing hback hdisk) ?_
    exact fun bytes hbytes => by cases hbytes
  | some bytes =>
    cases hread : readToString fs disk (atlasConfigPath fs) with
    | some content =>
      refine iff_of_true (neverOverwrites_of_read hread) ?_
      rintro _ ⟨⟩
      obtain ⟨hreadable, bytes', hbytes', hcontent⟩ := readToString_eq_some.mp hread
      obtain rfl : bytes = bytes' := Option.some.inj (hdisk.symm.trans hbytes')
      exact Or.inl ⟨hreadable, by rw [hcontent]; rfl⟩
    | none =>
      obtain ⟨text, htext, -⟩ := hback
      cases hwrite : fs.writeError (atlasConfigPath fs) with
      | some e =>
        refine iff_of_true (neverOverwrites_of_closed (call_refused hread htext hwrite)
          fun _ _ => Or.inr ⟨_, rfl⟩) ?_
        exact fun _ _ => Or.inr (by simp [hwrite])
      | none =>
        refine iff_of_false (not_neverOverwrites_of_unread hread htext hwrite hdisk) ?_
        intro hall
        rcases hall bytes rfl with ⟨hreadable, hdecodes⟩ | hlocked
        · obtain ⟨content, hcontent⟩ := Option.isSome_iff_exists.mp hdecodes
          rw [readToString_eq_some.mpr ⟨hreadable, bytes, hdisk, hcontent⟩] at hread
          cases hread
        · exact hlocked hwrite

/-- The data directory of a user, everything in it readable and writable. -/
def home : FileSystem Str where
  file path := path
  pathExists path := path = "/home/user/.local/share/kinetic_atlas".toList
  isDir path := path = "/home/user/.local/share/kinetic_atlas".toList
  readDir _ _ := some []
  unreadable _ := false
  writeError _ := none
  breaksOff _ _ := none
  createDirError _ := none
  dataLocalDir := some "/home/user/.local/share"

def homeFile : Str := "/home/user/.local/share/kinetic_atlas/atlas.json"

theorem home_file : home.file (atlasConfigPath home) = homeFile := by decide

/-- The default configuration as `to_string_pretty` writes it. -/
def homeText : Str :=
  "\x7b\n  \"version\": \"1.0\",\n  \"whitelist\": [],\n  \"blacklist\": [],\n".toList ++
    "  \"bind_port\": 17002,\n  \"kinetic_api\": \"http://127.0.0.1:16202\",\n".toList ++
    "  \"kinetic_token\": \"\",\n  \"networks_dir\": ".toList ++
    "\"/home/user/.local/share/kinetic_atlas/networks\",\n  \"registry_url\": ".toList ++
    "\"https://api.github.com/repos/saifmukhtar/kinetic-atlas/contents/networks\",\n".toList ++
    "  \"override_ipfs_gateway\": null,\n  \"updater_public_key\": null\n\x7d".toList

/-- The JSON library on that one configuration. -/
def homeJson : SerdeJson where
  toStringPretty _ := .ok homeText
  parse content := if content = homeText then some (toJson (defaultConfig home)) else none
  message _ := "expected value at line 1 column 1"

theorem homeJson_readsBack : ReadsBack homeJson (defaultConfig home) := by
  refine ⟨homeText, rfl, ?_⟩
  simp only [homeJson, if_true]

theorem never_overwrites_first_start : NeverOverwrites home homeJson fun _ => none :=
  (never_overwrites_iff home homeJson _ homeJson_readsBack).mpr fun _ hbytes => by cases hbytes

/-- A file with a byte that is no UTF-8 is replaced by the default one. -/
theorem undecodable_overwritten :
    (getOrCreateConfig home homeJson
        (Function.update (fun _ => none) homeFile (some [0xFF]))).disk homeFile =
      some (encode homeText) ∧
      ¬ NeverOverwrites home homeJson
        (Function.update (fun _ => none) homeFile (some [0xFF])) := by
  have hbytes : Function.update (fun _ => none) homeFile (some [0xFF])
      (home.file (atlasConfigPath home)) = some ([0xFF] : Bytes) := by
    rw [home_file, Function.update_self]
  have hread : readToString home (Function.update (fun _ => none) homeFile (some [0xFF]))
      (atlasConfigPath home) = none := by
    rw [readToString, hbytes]
    decide
  constructor
  · rw [call_written hread rfl rfl rfl, home_file]
    simp only [Function.update_self]
  · exact not_neverOverwrites_of_unread hread rfl rfl hbytes

end KineticAtlas.DaemonConfig
