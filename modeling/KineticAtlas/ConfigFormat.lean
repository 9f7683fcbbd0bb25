import KineticAtlas.RegistrationBot
import KineticAtlas.RegistryLoad
import KineticAtlas.Library.Json
import Mathlib.Data.Bool.AllAny

/-!
From the registration bot to the registry. The bot writes its configuration as a JSON
object; the registry reads it by the derived schema of NetworkConfig (types.rs). The
main result says which accepted forms the registry can load: those whose port is a port.
-/
namespace KineticAtlas.ConfigFormat

open Library.Texts Library.Utf8 Library.Files Library.Json KineticAtlas.Types Registry
  RegistryLoad RegistrationBot
open IssueForm (Data Key)

def optionalMember (name : Str) (text : Option Str) : Members :=
  text.elim [] fun t => [(name, .str t)]

/-- The members in the order in which `main` sets them. -/
def membersOf (config : BotConfig) : Members :=
  [("version".toList, .str config.version), ("network_id".toList, .str config.networkId),
      ("tld".toList, .str config.tld), ("local_bind_ip".toList, .str config.localBindIp),
      ("api_port".toList, .int config.apiPort), ("seed_domain".toList, .str config.seedDomain),
      ("bootstrap_nodes".toList, .arr (config.bootstrapNodes.map .str))] ++
    (optionalMember "logo" config.logo ++ optionalMember "ipfs_gateway" config.ipfsGateway ++
      optionalMember "repo" config.repo ++
      optionalMember "binary_download" config.binaryDownload)

def toJson (config : BotConfig) : Value := .obj (membersOf config)

def decodeConfig (value : Value) : Option NetworkConfig := do
  let field ← structFields 9 value
  let version ← required asStr (field "version" 0)
  let networkId ← required asStr (field "network_id" 1)
  let tld ← required asStr (field "tld" 2)
  let bootstrapNodes ← required (asListOf asStr) (field "bootstrap_nodes" 3)
  let localBindIp ← required asStr (field "local_bind_ip" 4)
  let apiPort ← defaulted (asOption asU16) none (field "api_port" 5)
  let repo ← defaulted (asOption asStr) none (field "repo" 6)
  let seedDomain ← defaulted (asOption asStr) none (field "seed_domain" 7)
  let ipfsGateway ← defaulted (asOption asStr) none (field "ipfs_gateway" 8)
  pure ⟨version, networkId, tld, bootstrapNodes, localBindIp, apiPort, repo, seedDomain,
    ipfsGateway⟩

/-- The network that an accepted form describes. -/
def expected (config : BotConfig) : NetworkConfig where
  version := config.version
  networkId := config.networkId
  tld := config.tld
  bootstrapNodes := config.bootstrapNodes
  localBindIp := config.localBindIp
  apiPort := some (UInt16.ofNat config.apiPort.toNat)
  repo := config.repo
  seedDomain := some config.seedDomain
  ipfsGateway := config.ipfsGateway

theorem optionalMember_names (name : Str) (text : Option Str) :
    ((optionalMember name text).map Prod.fst).Sublist [name] := by
  cases text with
  | none => exact List.nil_sublist _
  | some t => exact List.Sublist.refl _

/-- No name is written twice. -/
theorem membersOf_nodup (config : BotConfig) : ((membersOf config).map Prod.fst).Nodup := by
  have hnames : ((membersOf config).map Prod.fst).Sublist
      (["version".toList, "network_id".toList, "tld".toList, "local_bind_ip".toList,
        "api_port".toList, "seed_domain".toList, "bootstrap_nodes".toList] ++
        (["logo".toList] ++ ["ipfs_gateway".toList] ++ ["repo".toList] ++
          ["binary_download".toList])) := by
    simp only [membersOf, List.map_append]
    exact (List.Sublist.refl _).append ((((optionalMember_names _ _).append
      (optionalMember_names _ _)).append (optionalMember_names _ _)).append
        (optionalMember_names _ _))
  exact hnames.nodup (by decide)

theorem member_membersOf (config : BotConfig) (name : Str) :
    member name (membersOf config) = some ((membersOf config).lookup name) :=
  member_of_nodup name (membersOf_nodup config)

theorem lookup_optionalMember (name name' : Str) (text : Option Str) :
    (optionalMember name text).lookup name' =
      if name' = name then text.map .str else none := by
  by_cases hname : name' = name
  · subst hname
    cases text <;> simp [optionalMember]
  · have hbeq : (name' == name) = false := beq_false_of_ne hname
    cases text <;> simp [optionalMember, List.lookup_cons, hname, hbeq]

/-- Past the members that are always there, a name is found among the optional ones. -/
theorem lookup_membersOf (config : BotConfig) (name : Str)
    (hname : name ∉ ["version".toList, "network_id".toList, "tld".toList,
      "local_bind_ip".toList, "api_port".toList, "seed_domain".toList,
      "bootstrap_nodes".toList]) :
    (membersOf config).lookup name =
      ((((optionalMember "logo" config.logo).lookup name).or
        ((optionalMember "ipfs_gateway" config.ipfsGateway).lookup name)).or
        ((optionalMember "repo" config.repo).lookup name)).or
        ((optionalMember "binary_download" config.binaryDownload).lookup name) := by
  simp only [List.mem_cons, List.not_mem_nil, or_false, not_or] at hname
  obtain ⟨h1, h2, h3, h4, h5, h6, h7⟩ := hname
  have hbeq : ∀ n, name ≠ n → (name == n) = false := fun n h => beq_false_of_ne h
  rw [membersOf, List.lookup_append, List.lookup_append, List.lookup_append, List.lookup_append]
  simp only [List.lookup_cons, List.lookup_nil, hbeq _ h1, hbeq _ h2, hbeq _ h3, hbeq _ h4,
    hbeq _ h5, hbeq _ h6, hbeq _ h7, Option.none_or]

theorem lookup_repo (config : BotConfig) :
    (membersOf config).lookup "repo".toList = config.repo.map .str := by
  rw [lookup_membersOf config _ (by decide)]
  simp only [lookup_optionalMember]
  cases config.repo <;> rfl

theorem lookup_ipfsGateway (config : BotConfig) :
    (membersOf config).lookup "ipfs_gateway".toList = config.ipfsGateway.map .str := by
  rw [lookup_membersOf config _ (by decide)]
  simp only [lookup_optionalMember]
  cases config.ipfsGateway <;> rfl

theorem required_str (text : Str) : required asStr (some (some (.str text))) = some text := rfl

theorem required_list (texts : List Str) :
    required (asListOf asStr) (some (some (.arr (texts.map .str)))) = some texts :=
  asListOf_str texts

theorem defaulted_str (text : Option Str) :
    defaulted (asOption asStr) none (some (text.map .str)) = some text := by
  cases text <;> rfl

theorem defaulted_port (n : ℤ) :
    defaulted (asOption asU16) none (some (some (.int n))) =
      if 0 ≤ n ∧ n ≤ 65535 then some (some (UInt16.ofNat n.toNat)) else none := by
  show Option.map some (if 0 ≤ n ∧ n ≤ 65535 then some (UInt16.ofNat n.toNat) else none) = _
  split <;> rfl

/-- The schema takes the bot's object exactly when the port fits. -/
theorem decodeConfig_toJson (config : BotConfig) :
    decodeConfig (toJson config) =
      if 0 ≤ config.apiPort ∧ config.apiPort ≤ 65535 then some (expected config) else none := by
  have hmember := member_membersOf config
  have hversion : member "version" (membersOf config) = some (some (.str config.version)) :=
    hmember "version"
  have hid : member "network_id" (membersOf config) = some (some (.str config.networkId)) :=
    hmember "network_id"
  have htld : member "tld" (membersOf config) = some (some (.str config.tld)) := hmember "tld"
  have hnodes : member "bootstrap_nodes" (membersOf config) =
      some (some (.arr (config.bootstrapNodes.map .str))) := hmember "bootstrap_nodes"
  have hbind : member "local_bind_ip" (membersOf config) =
      some (some (.str config.localBindIp)) := hmember "local_bind_ip"
  have hport : member "api_port" (membersOf config) = some (some (.int config.apiPort)) :=
    hmember "api_port"
  have hseed : member "seed_domain" (membersOf config) =
      some ((some config.seedDomain).map .str) := hmember "seed_domain"
  simp only [decodeConfig, toJson, structFields, hversion, hid, htld, hnodes, hbind, hport, hseed,
    hmember "repo", hmember "ipfs_gateway", lookup_repo, lookup_ipfsGateway, required_str,
    required_list, defaulted_str, defaulted_port, Option.bind_eq_bind, Option.bind_some]
  split <;> rfl

/-- `json.dump` of Python, which leaves no character outside ASCII unescaped, and the
parser of serde_json. -/
structure JsonText where
  dump : Value → Str
  parse : Str → Option Value
  dump_ascii : ∀ value, ∀ c ∈ dump value, c.toNat < 128

/-- The integers that the parser keeps as integers. -/
def FitsWord (n : ℤ) : Prop := -9223372036854775808 ≤ n ∧ n ≤ 18446744073709551615

/-- The members with a float for the port. -/
def withFloatPort (literal : Str) (members : Members) : Members :=
  members.map fun m => if m.1 = "api_port".toList then (m.1, .float literal) else m

/-- What is read of a configuration that was written: the same object, but for a port beyond
64 bits, which becomes a float if the text is read at all. -/
structure ReadBack (text : JsonText) (config : BotConfig) : Prop where
  whole : FitsWord config.apiPort →
    text.parse (text.dump (toJson config)) = some (toJson config)
  beyond : ¬ FitsWord config.apiPort →
    ∀ value, text.parse (text.dump (toJson config)) = some value →
      ∃ literal, value = .obj (withFloatPort literal (membersOf config))

theorem member_withFloatPort (config : BotConfig) (literal : Str) :
    member "api_port" (withFloatPort literal (membersOf config)) =
      some (some (.float literal)) := by
  have hnames : (withFloatPort literal (membersOf config)).map Prod.fst =
      (membersOf config).map Prod.fst := by
    rw [withFloatPort, List.map_map]
    refine List.map_congr_left fun m _ => ?_
    simp only [Function.comp_apply]
    split <;> rfl
  rw [member_of_nodup _ (hnames ▸ membersOf_nodup config)]
  rfl

/-- No port is read from a float. -/
theorem decodeConfig_withFloatPort (config : BotConfig) (literal : Str) :
    decodeConfig (.obj (withFloatPort literal (membersOf config))) = none := by
  have hport : defaulted (asOption asU16) none
      (member "api_port" (withFloatPort literal (membersOf config))) = none := by
    rw [member_withFloatPort]
    rfl
  simp only [decodeConfig, structFields, hport, Option.bind_eq_bind, Option.bind_some,
    Option.bind_none, Option.bind_fun_none]

theorem ReadBack.decode_eq {text : JsonText} {config : BotConfig} (h : ReadBack text config) :
    (text.parse (text.dump (toJson config))).bind decodeConfig =
      if 0 ≤ config.apiPort ∧ config.apiPort ≤ 65535 then some (expected config) else none := by
  by_cases hfits : FitsWord config.apiPort
  · rw [h.whole hfits, Option.bind_some, decodeConfig_toJson]
  have hnot : ¬ (0 ≤ config.apiPort ∧ config.apiPort ≤ 65535) := by
    unfold FitsWord at hfits
    omega
  rw [if_neg hnot]
  cases hparse : text.parse (text.dump (toJson config)) with
  | none => rfl
  | some value =>
    obtain ⟨literal, rfl⟩ := h.beyond hfits value hparse
    exact decodeConfig_withFloatPort config literal

/-- The registry's JSON library over the text format. -/
def registryJson (text : JsonText) (prettyProxy : Str → UInt16 → Str → Bytes) : Registry.Json where
  parseConfig content := (text.parse content).bind decodeConfig
  prettyProxy := prettyProxy

variable {F : Type} [DecidableEq F]

/-- The directory holds one file, which can be read and has the given content. -/
structure OnlyFile (fs : FileSystem F) (disk : Disk F) (dir name : Str) (content : Bytes) :
    Prop where
  is_there : fs.pathExists dir = true
  is_dir : fs.isDir dir = true
  listing : fs.readDir disk dir = some [name]
  readable : fs.unreadable (joinPath dir name) = false
  holds : disk (fs.file (joinPath dir name)) = some content

def fileName (config : BotConfig) : Str := config.tld ++ ".json".toList

/-- The registry reads the configuration as it was written and stores it under its TLD. -/
def Loads (fs : FileSystem F) (text : JsonText) (prettyProxy : Str → UInt16 → Str → Bytes)
    (dir : Str) (globalConfig : AtlasConfig) (s : Loading F) (config : BotConfig) : Prop :=
  (registryJson text prettyProxy).parseConfig (text.dump (toJson config)) =
      some (expected config) ∧
    (loadFromDir fs (registryJson text prettyProxy) dir globalConfig s).registry.getConfig
      ('.' :: config.tld) = some (expected config)

/-- The port field of the form is a number that fits into sixteen bits. -/
def PortInRange (data : Data) : Prop :=
  ∃ port, pyInt (strip (textOf data .apiPort)) = some port ∧ 0 ≤ port ∧ port ≤ 65535

variable {env : Surroundings} {data : Data} {config : BotConfig} {fs : FileSystem F}
  {text : JsonText} {prettyProxy : Str → UInt16 → Str → Bytes} {dir : Str}
  {globalConfig : AtlasConfig} {s : Loading F}

theorem portInRange_iff (h : Passed data config) :
    PortInRange data ↔ 0 ≤ config.apiPort ∧ config.apiPort ≤ 65535 := by
  constructor
  · rintro ⟨port, hport, hrange⟩
    obtain rfl : config.apiPort = port := Option.some.inj (h.apiPort.symm.trans hport)
    exact hrange
  · intro hrange
    exact ⟨config.apiPort, h.apiPort, hrange⟩

theorem trimStartDots_of_passed (h : Passed data config) :
    trimStartDots config.tld = config.tld := by
  cases htld : config.tld with
  | nil => rfl
  | cons c rest =>
    have hc := h.tld_alphanumeric c (by simp [htld])
    have hdot : c ≠ '.' := by
      rintro rfl
      exact absurd hc (by decide)
    exact List.dropWhile_cons_of_neg (by simpa using hdot)

theorem extension_fileName (h : Passed data config) :
    extension (fileName config) = some "json".toList :=
  extension_append h.tld_nonempty (by decide)

/-- The one file of the directory decides what the registry holds. -/
theorem load_onlyFile (h : Passed data config)
    (honly : OnlyFile fs s.disk dir (fileName config) (encode (text.dump (toJson config))))
    (hlists : globalConfig.whitelist = [] ∧ globalConfig.blacklist = [])
    (hback : ReadBack text config) :
    (loadFromDir fs (registryJson text prettyProxy) dir globalConfig s).registry.getConfig
        ('.' :: config.tld) =
      if 0 ≤ config.apiPort ∧ config.apiPort ≤ 65535 then some (expected config) else none := by
  have hread : (readToString fs s.disk (joinPath dir (fileName config))).bind
      (registryJson text prettyProxy).parseConfig =
        if 0 ≤ config.apiPort ∧ config.apiPort ≤ 65535 then some (expected config) else none := by
    rw [readToString, if_neg (by simp [honly.readable]), honly.holds, Option.bind_some,
      decodeStrict_encode, Option.bind_some]
    exact hback.decode_eq
  have hfound : isMissing fs dir = false := by simp [isMissing, honly.is_there, honly.is_dir]
  have hincluded : ∀ tldName, isExcluded globalConfig tldName = false := by
    intro tldName
    simp [isExcluded, hlists.1, hlists.2]
  rw [loadFromDir_found hfound, listed, honly.listing, Option.getD_some]
  simp only [List.foldl_cons, List.foldl_nil, loadEntry, extension_fileName h,
    if_true, hread]
  by_cases hport : 0 ≤ config.apiPort ∧ config.apiPort ≤ 65535
  · have htld : trimStartDots (expected config).tld = config.tld := trimStartDots_of_passed h
    simp only [if_pos hport, htld, hincluded, TldRegistry.new, TldRegistry.getConfig,
      Option.isSome_none, Bool.false_eq_true, if_false, Function.update_self]
  · simp only [if_neg hport, TldRegistry.new, TldRegistry.getConfig]

/-- The registry loads what the bot wrote exactly when the port of the form is in range. -/
theorem loads_iff (h : main env data = .ok config)
    (hback : ReadBack text config)
    (honly : OnlyFile fs s.disk dir (fileName config) (encode (text.dump (toJson config))))
    (hlists : globalConfig.whitelist = [] ∧ globalConfig.blacklist = []) :
    Loads fs text prettyProxy dir globalConfig s config ↔ PortInRange data := by
  have hpassed := main_passed h
  rw [portInRange_iff hpassed, Loads, load_onlyFile hpassed honly hlists hback]
  simp only [registryJson, hback.decode_eq]
  by_cases hport : 0 ≤ config.apiPort ∧ config.apiPort ≤ 65535
  · simp [hport]
  · simp [hport]

def forkConfig (apiPort : ℤ) : BotConfig :=
  sampleConfig "fork" "fork-net" "127.0.0.2" apiPort sampleNodes

/-- The text that `json.dump` with an indent of four makes of it. -/
def forkText (apiPort : Str) : Str :=
  "\x7b\n    \"version\": \"1.0\",\n    \"network_id\": \"fork-net\",\n".toList ++
    "    \"tld\": \"fork\",\n    \"local_bind_ip\": \"127.0.0.2\",\n".toList ++
    "    \"api_port\": ".toList ++ apiPort ++
    ",\n    \"seed_domain\": \"fork.example.org\",\n    \"bootstrap_nodes\": [\n".toList ++
    "        \"/ip4/203.0.113.10/tcp/4001/p2p/QmNode1\",\n".toList ++
    "        \"/ip4/203.0.113.11/tcp/4001/p2p/QmNode2\",\n".toList ++
    "        \"/ip4/203.0.113.12/tcp/4001/p2p/QmNode3\"\n    ]\n\x7d".toList

theorem forkText_ascii {apiPort : Str} (h : ∀ c ∈ apiPort, c.toNat < 128) :
    ∀ c ∈ forkText apiPort, c.toNat < 128 := by
  unfold forkText
  simp only [List.forall_mem_append]
  refine ⟨⟨⟨⟨⟨⟨⟨?_, ?_⟩, ?_⟩, h⟩, ?_⟩, ?_⟩, ?_⟩, ?_⟩
  all_goals exact List.all_iff_forall_prop.mp (by decide +kernel)

/-- The JSON libraries on that one configuration. -/
def forkJson (apiPort : ℤ) (digits : Str) (h : ∀ c ∈ digits, c.toNat < 128) : JsonText where
  dump _ := forkText digits
  parse content := if content = forkText digits then some (toJson (forkConfig apiPort)) else none
  dump_ascii _ := forkText_ascii h

theorem forkJson_parse (apiPort : ℤ) (digits : Str) (h) (value : Value) :
    (forkJson apiPort digits h).parse ((forkJson apiPort digits h).dump value) =
      some (toJson (forkConfig apiPort)) := by
  simp [forkJson]

theorem forkJson_readBack (apiPort : ℤ) (digits : Str) (h) (hfits : FitsWord apiPort) :
    ReadBack (forkJson apiPort digits h) (forkConfig apiPort) :=
  ⟨fun _ => forkJson_parse apiPort digits h _, fun hbeyond => absurd hfits hbeyond⟩

def forkLoading (digits : Str) : Loading Str :=
  ⟨.new, diskOf [("networks/fork.json", forkText digits)]⟩

theorem forkLoading_onlyFile (digits : Str) :
    OnlyFile (directory "networks" ["fork.json"]) (forkLoading digits).disk "networks" "fork.json"
      (encode (forkText digits)) := by
  refine ⟨rfl, rfl, rfl, rfl, ?_⟩
  show (List.lookup (joinPath "networks" "fork.json")
    [("networks/fork.json".toList, forkText digits)]).map encode = _
  have hpath : joinPath "networks" "fork.json" = "networks/fork.json".toList := by decide
  rw [hpath, List.lookup_cons_self, Option.map_some]

theorem fork_accepted (digits : Str) (apiPort : ℤ) (hdigits : digits ≠ [])
    (hport : pyInt (strip digits) = some apiPort) :
    main quietSurroundings (sampleForm "fork" "fork-net" "127.0.0.2" digits sampleNodes) =
      .ok (forkConfig apiPort) :=
  sampleNodes_accepted ⟨by decide, by decide, by decide, hdigits⟩ (by decide +kernel) hport

theorem loads_port_8080 :
    Loads (directory "networks" ["fork.json"])
        (forkJson 8080 "8080" (List.all_iff_forall_prop.mp (by decide)))
        (jsonOf []).prettyProxy "networks" openConfig (forkLoading "8080") (forkConfig 8080) ↔
      PortInRange (sampleForm "fork" "fork-net" "127.0.0.2" "8080" sampleNodes) := by
  exact loads_iff (fork_accepted "8080" 8080 (by decide) (by decide +kernel))
    (forkJson_readBack _ _ _ ⟨by decide, by decide⟩) (forkLoading_onlyFile "8080") ⟨rfl, rfl⟩

/-- A form with the port 70000 is accepted, and no client can load what is written. -/
theorem port_70000_not_loaded :
    main quietSurroundings (sampleForm "fork" "fork-net" "127.0.0.2" "70000" sampleNodes) =
        .ok (forkConfig 70000) ∧
      ¬ Loads (directory "networks" ["fork.json"])
        (forkJson 70000 "70000" (List.all_iff_forall_prop.mp (by decide)))
        (jsonOf []).prettyProxy "networks" openConfig (forkLoading "70000") (forkConfig 70000) := by
  refine ⟨fork_accepted "70000" 70000 (by decide) (by decide +kernel), ?_⟩
  rintro ⟨hparsed, -⟩
  have hnone : decodeConfig (toJson (forkConfig 70000)) = none := decodeConfig_toJson _
  rw [registryJson] at hparsed
  simp only [forkJson_parse, Option.bind_some, hnone] at hparsed
  cases hparsed

end KineticAtlas.ConfigFormat
