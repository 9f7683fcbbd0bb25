import KineticAtlas.HotReload
import KineticAtlas.Updater
import KineticAtlas.DaemonConfig
import KineticAtlas.ConfigFormat
import KineticAtlas.Serving

/-!
Where the networks come from that the daemon serves (main.rs, updater.rs, registry.rs,
proxy.rs). The daemon reads its configuration, loads the registry and then runs its
handlers beside the updater, which fetches into the networks directory and reloads it
after every fetch that went through. Other programs may write files in between. The
daemon's own files, announcements and the default configuration, are JSON files too, but
no networks, not even where their write has broken off. So a network that is served was in
a file before the start, was written by another program, or was read from bytes that came
with a signature verified under the configured key, or from a beginning of them that a
broken-off write has left.
-/
namespace KineticAtlas.Provenance

open Library.Texts Library.Runs Library.Utf8 Library.Files Library.Json Library.Locks
  KineticAtlas.Types Registry RegistryLoad HotReload Updater DaemonConfig
open ProxyHandler (HttpRequest Answers Effect handleProxyRequest route)

/-- The object that tells kinetic-pac of a TLD. -/
def announcement (tld : Str) (proxyPort : UInt16) (proxyIp : Str) : Value :=
  .obj [("proxy_ip", .str proxyIp), ("proxy_port", .int proxyPort.toNat), ("tld", .str tld)]

/-- serde_json where the registry uses it. -/
def registryJson (json : SerdeJson) : Registry.Json where
  parseConfig content := (json.parse content).bind ConfigFormat.decodeConfig
  prettyProxy tld proxyPort proxyIp :=
    encode ((json.toStringPretty (announcement tld proxyPort proxyIp)).toOption.getD [])

/-- A step of a handler or of a reload, a fetch, or a file that another program writes or
removes. -/
inductive Input (F : Type)
  | hot (move : Move F)
  | fetch (fs : FileSystem F) (server : Server)
  | foreign (file : F) (content : Option Bytes)

/-- The daemon, with a note of a fetch whose reload is not yet over. -/
structure DaemonState (F : Type) where
  hot : HotState F
  fetched : Bool

/-- What a move makes of the note. The lock is taken for a reload that is due. -/
def noteAfter {F : Type} (fetched : Bool) : Move F → Option Bool
  | .lockWrite => if fetched then some true else none
  | .dropWrite => some false
  | .outside _ => none
  | _ => some fetched

variable {Reveal Key F : Type} [DecidableEq F]

def daemonStep (lib : ProxyHandler.Libraries Reveal) (keys : Updater.Libraries Key)
    (json : Registry.Json) (config : AtlasConfig) (s : DaemonState F) :
    Input F → Option (DaemonState F)
  | .hot move => do
    let fetched ← noteAfter s.fetched move
    let hot ← hotStep lib json config s.hot move
    pure ⟨hot, fetched⟩
  | .fetch fs server =>
    match updaterSource config, s.hot.updater, s.fetched with
    | some (url, pubkeyHex), .away, false =>
      let result := fetchAndUpdate keys fs server url pubkeyHex config.networksDir s.hot.disk
      some ⟨{ s.hot with disk := result.1 }, result.2.isOk⟩
    | _, _, _ => none
  | .foreign file content =>
    some { s with hot := { s.hot with disk := Function.update s.hot.disk file content } }

/-- The daemon with the registry it has loaded. -/
def daemon (lib : ProxyHandler.Libraries Reveal) (keys : Updater.Libraries Key)
    (json : Registry.Json) (config : AtlasConfig) (loaded : Loading F) :
    Machine (DaemonState F) (Input F) where
  init := ⟨(hotReload lib json config loaded.registry loaded.disk).init, false⟩
  step := daemonStep lib keys json config

/-- What `main` does before it serves. -/
def start (fs loadFs : FileSystem F) (json : SerdeJson) (disk : Disk F) :
    Except AtlasError (AtlasConfig × Loading F) :=
  let called := getOrCreateConfig fs json disk
  called.result.map fun config =>
    (config, loadFromDir loadFs (registryJson json) config.networksDir config
      ⟨.new, called.disk⟩)

variable {lib : ProxyHandler.Libraries Reveal} {keys : Updater.Libraries Key}
  {json : Registry.Json} {config : AtlasConfig} {loaded : Loading F} {inputs : List (Input F)}
  {s s' : DaemonState F}

/-- What the steps can do. -/
inductive DaemonStep (lib : ProxyHandler.Libraries Reveal) (keys : Updater.Libraries Key)
    (json : Registry.Json) (config : AtlasConfig) (s : DaemonState F) :
    Input F → DaemonState F → Prop
  | hot (move : Move F) (hot : HotState F) (fetched : Bool) :
      noteAfter s.fetched move = some fetched → hotStep lib json config s.hot move = some hot →
      DaemonStep lib keys json config s (.hot move) ⟨hot, fetched⟩
  | fetch (fs : FileSystem F) (server : Server) (url pubkeyHex : Str) :
      updaterSource config = some (url, pubkeyHex) → s.hot.updater = .away →
      DaemonStep lib keys json config s (.fetch fs server)
        ⟨{ s.hot with
            disk := (fetchAndUpdate keys fs server url pubkeyHex config.networksDir
              s.hot.disk).1 },
          (fetchAndUpdate keys fs server url pubkeyHex config.networksDir s.hot.disk).2.isOk⟩
  | foreign (file : F) (content : Option Bytes) :
      DaemonStep lib keys json config s (.foreign file content)
        { s with hot := { s.hot with disk := Function.update s.hot.disk file content } }

theorem daemon_step {input : Input F} (h : daemonStep lib keys json config s input = some s') :
    DaemonStep lib keys json config s input s' := by
  cases input with
  | hot move =>
    obtain ⟨fetched, hnote, hrest⟩ := Option.bind_eq_some_iff.mp h
    obtain ⟨hot, hhot, hs'⟩ := Option.bind_eq_some_iff.mp hrest
    cases hs'
    exact .hot move hot fetched hnote hhot
  | fetch fs server =>
    simp only [daemonStep] at h
    split at h
    · rename_i url pubkeyHex hsource haway _
      cases h
      exact .fetch fs server url pubkeyHex hsource haway
    · cases h
  | foreign file content =>
    cases h
    exact .foreign file content

/-- Handlers and reloads do not notice who else writes to the disk. -/
theorem hot_run (hrun : (daemon lib keys json config loaded).Run inputs s) :
    ∃ moves, (hotReload lib json config loaded.registry loaded.disk).Run moves s.hot := by
  refine Machine.Run.invariant (P := fun _ s => ∃ moves,
    (hotReload lib json config loaded.registry loaded.disk).Run moves s.hot) ⟨[], .nil⟩ ?_ hrun
  rintro _ s input s' - ⟨moves, hmoves⟩ hstep
  cases daemon_step hstep with
  | hot move hot fetched _ hhot => exact ⟨_, hmoves.snoc hhot⟩
  | fetch => exact ⟨_, hmoves.snoc (i := .outside _) rfl⟩
  | foreign => exact ⟨_, hmoves.snoc (i := .outside _) rfl⟩

/-- The network that the bytes of a file are read as. -/
def networkOf (json : Registry.Json) (bytes : Bytes) : Option NetworkConfig :=
  (decodeStrict bytes).bind json.parseConfig

/-- Everything in the registry passed the lists and was read from admitted bytes. -/
def ReadFrom (json : Registry.Json) (config : AtlasConfig) (A : Bytes → Prop)
    (registry : TldRegistry) : Prop :=
  Serving.Admitted config registry ∧
    ∀ k network, registry.getConfig k = some network →
      ∃ bytes, A bytes ∧ networkOf json bytes = some network

/-- The disk has admitted bytes only, and so had every registry that was ever shared. -/
structure Sourced (json : Registry.Json) (config : AtlasConfig) (A : Bytes → Prop)
    (s : HotState F) : Prop where
  disk : Holds A s.disk
  value : ReadFrom json config A s.lock.value
  history : ∀ registry ∈ s.lock.history, ReadFrom json config A registry

variable {A B : Bytes → Prop} {fs : FileSystem F} {hot hot' : HotState F}

theorem ReadFrom.mono {registry : TldRegistry} (hAB : ∀ bytes, A bytes → B bytes)
    (h : ReadFrom json config A registry) : ReadFrom json config B registry := by
  refine ⟨h.1, fun k network hnetwork => ?_⟩
  obtain ⟨bytes, hbytes, hread⟩ := h.2 k network hnetwork
  exact ⟨bytes, hAB bytes hbytes, hread⟩

omit [DecidableEq F] in
theorem Sourced.mono (hAB : ∀ bytes, A bytes → B bytes) (h : Sourced json config A hot) :
    Sourced json config B hot :=
  ⟨h.disk.mono hAB, h.value.mono hAB, fun registry hmem => (h.history registry hmem).mono hAB⟩

theorem readFrom_new (json : Registry.Json) (config : AtlasConfig) (A : Bytes → Prop) :
    ReadFrom json config A .new := by
  refine ⟨Serving.admitted_new config, fun k network h => ?_⟩
  simp [TldRegistry.new, TldRegistry.getConfig] at h

omit [DecidableEq F] in
/-- A file of the directory is read from its bytes on the disk. -/
theorem fileNetwork_read {dir name k : Str} {disk : Disk F} {network : NetworkConfig}
    (hdisk : Holds A disk) (h : fileNetwork fs json config dir disk name = some (k, network)) :
    ∃ bytes, A bytes ∧ networkOf json bytes = some network := by
  unfold fileNetwork at h
  split at h
  · split at h
    · cases h
    · rename_i found hfound
      split at h
      · cases h
      · cases h
        obtain ⟨content, hread, hparse⟩ := Option.bind_eq_some_iff.mp hfound
        obtain ⟨-, bytes, hbytes, hdecode⟩ := readToString_eq_some.mp hread
        refine ⟨bytes, hdisk _ bytes hbytes, ?_⟩
        rw [networkOf, hdecode, Option.bind_some, hparse]
  · cases h

theorem readFrom_loadEntry {dir : Str} {l : Loading F} (name : Str) (hdisk : Holds A l.disk)
    (h : ReadFrom json config A l.registry) :
    ReadFrom json config A (loadEntry fs json config dir l name).registry := by
  refine ⟨Serving.admitted_loadEntry name h.1, ?_⟩
  rw [loadEntry_eq]
  cases hnetwork : fileNetwork fs json config dir l.disk name with
  | none => exact h.2
  | some entry =>
    dsimp only
    split
    · exact h.2
    · intro k network hk
      by_cases hkey : k = entry.1
      · subst k
        obtain rfl : entry.2 = network := by simpa [TldRegistry.getConfig] using hk
        exact fileNetwork_read hdisk hnetwork
      · exact h.2 k network (by simpa [TldRegistry.getConfig, hkey] using hk)

/-- A load reads the files there are, and adds announcements. -/
theorem readFrom_loadFromDir {dir : Str} {l : Loading F}
    (hown : ∀ f bytes, IsProxyFile fs json config f bytes → A bytes) (hdisk : Holds A l.disk)
    (h : ReadFrom json config A l.registry) :
    ReadFrom json config A (loadFromDir fs json dir config l).registry ∧
      Holds A (loadFromDir fs json dir config l).disk := by
  refine ⟨?_, hdisk.confined hown (loadFromDir_confined dir l)⟩
  by_cases hmissing : isMissing fs dir = true
  · rwa [loadFromDir_missing hmissing]
  · rw [loadFromDir_found (by simpa using hmissing)]
    have hall := List.foldlRecOn (listed fs dir l.disk) (loadEntry fs json config dir)
      (motive := fun l : Loading F => ReadFrom json config A l.registry ∧ Holds A l.disk)
      (b := ⟨.new, l.disk⟩) ⟨readFrom_new json config A, hdisk⟩
      fun l hl name _ => ⟨readFrom_loadEntry name hl.2 hl.1,
        hl.2.confined hown (loadEntry_confined dir l name)⟩
    exact hall.1

/-- What a move does to the disk, to the history and to the updater's whereabouts. -/
theorem hot_cases {move : Move F} (hstep : hotStep lib json config hot move = some hot') :
    (move = .lockWrite ∧ hot'.disk = hot.disk ∧ hot'.lock.history = hot.lock.history) ∨
    (move = .dropWrite ∧ hot.updater ≠ .away ∧ hot'.updater = .away ∧ hot'.disk = hot.disk ∧
      hot'.lock.history = hot.lock.history ++ [hot.lock.value]) ∨
    (∃ disk, move = .outside disk) ∨
    ((∀ fetched, noteAfter fetched move = some fetched) ∧
      Confined (fun f bytes => ∃ fs, IsProxyFile fs json config f bytes) hot.disk hot'.disk ∧
      hot'.lock.history = hot.lock.history ∧ (hot'.updater ≠ .away → hot.updater ≠ .away)) := by
  cases hot_step hstep with
  | lockRead id req cleanTld lock _ hread =>
    obtain ⟨-, -, rfl⟩ := RwLock.read_some hread
    exact Or.inr (Or.inr (Or.inr ⟨fun _ => rfl, Confined.refl _ _, rfl, fun h => h⟩))
  | lookup | dropRead =>
    exact Or.inr (Or.inr (Or.inr ⟨fun _ => rfl, Confined.refl _ _, rfl, fun h => h⟩))
  | lockWrite lock _ hwrite =>
    obtain ⟨-, -, rfl⟩ := RwLock.write_some hwrite
    exact Or.inl ⟨rfl, rfl, rfl⟩
  | missing fs hplace | clear fs hplace | list fs hplace =>
    have haway : hot.updater ≠ .away := by simp [hplace]
    exact Or.inr (Or.inr (Or.inr ⟨fun _ => rfl, Confined.refl _ _, rfl, fun _ => haway⟩))
  | entry fs name rest loaded hplace hloaded =>
    have haway : hot.updater ≠ .away := by simp [hplace]
    subst hloaded
    exact Or.inr (Or.inr (Or.inr ⟨fun _ => rfl,
      (loadEntry_confined config.networksDir ⟨hot.lock.value, hot.disk⟩ name).mono
        fun f bytes h => ⟨fs, h⟩, rfl, fun _ => haway⟩))
  | dropWrite hplace => exact Or.inr (Or.inl ⟨rfl, by simp [hplace], rfl, rfl, rfl⟩)
  | outside disk => exact Or.inr (Or.inr (Or.inl ⟨disk, rfl⟩))

/-- Only announcements are written by handlers and reloads. -/
theorem hot_confined {move : Move F} (hmove : ∀ disk, move ≠ .outside disk)
    (hstep : hotStep lib json config hot move = some hot') :
    Confined (fun f bytes => ∃ fs, IsProxyFile fs json config f bytes) hot.disk hot'.disk := by
  rcases hot_cases hstep with ⟨-, hdisk, -⟩ | ⟨-, -, -, hdisk, -⟩ | ⟨disk, heq⟩ | ⟨-, hconfined, -⟩
  · exact hdisk ▸ Confined.refl _ _
  · exact hdisk ▸ Confined.refl _ _
  · exact absurd heq (hmove disk)
  · exact hconfined

/-- A reload reads what the disk has, and shares what it has read. -/
theorem Sourced.step {move : Move F} (h : Sourced json config A hot)
    (hstep : HotStep lib json config hot move hot') (hdisk : Holds A hot'.disk) :
    Sourced json config A hot' := by
  cases hstep with
  | lockRead id req cleanTld lock _ hread =>
    obtain ⟨-, -, rfl⟩ := RwLock.read_some hread
    exact ⟨hdisk, h.value, h.history⟩
  | lockWrite lock _ hwrite =>
    obtain ⟨-, -, rfl⟩ := RwLock.write_some hwrite
    exact ⟨hdisk, h.value, h.history⟩
  | clear => exact ⟨hdisk, readFrom_new json config A, h.history⟩
  | entry fs name rest loaded _ hloaded =>
    have hread : ReadFrom json config A
        (loadEntry fs json config config.networksDir ⟨hot.lock.value, hot.disk⟩ name).registry :=
      readFrom_loadEntry name h.disk h.value
    rw [hloaded] at hread
    exact ⟨hdisk, hread, h.history⟩
  | dropWrite =>
    refine ⟨hdisk, h.value, fun registry hmem => ?_⟩
    rcases List.mem_append.mp hmem with hold | hnew
    · exact h.history registry hold
    · exact (List.mem_singleton.mp hnew) ▸ h.value
  | lookup | dropRead | missing | list | outside => exact ⟨hdisk, h.value, h.history⟩

/-- In a file before the start, written by another program, verified, or left of verified
bytes whose write broke off. -/
inductive Trusted (keys : Updater.Libraries Key) (config : AtlasConfig) (disk : Disk F)
    (inputs : List (Input F)) (bytes : Bytes) : Prop
  | atStart (file : F) : disk file = some bytes → Trusted keys config disk inputs bytes
  | foreign (file : F) :
      Input.foreign file (some bytes) ∈ inputs → Trusted keys config disk inputs bytes
  | verified (fs : FileSystem F) (server : Server) (url pubkeyHex : Str) :
      Input.fetch fs server ∈ inputs → updaterSource config = some (url, pubkeyHex) →
      Verified keys server pubkeyHex bytes → Trusted keys config disk inputs bytes
  | brokenOff (fs : FileSystem F) (server : Server) (url pubkeyHex : Str) (file : F) :
      Input.fetch fs server ∈ inputs → updaterSource config = some (url, pubkeyHex) →
      BrokenOff (Verified keys server pubkeyHex) fs config.networksDir file bytes →
      Trusted keys config disk inputs bytes

/-- Trusted bytes, or a file of the daemon's own that is no network. -/
def TrustedOrOwn (keys : Updater.Libraries Key) (json : Registry.Json) (config : AtlasConfig)
    (disk : Disk F) (inputs : List (Input F)) (bytes : Bytes) : Prop :=
  Trusted keys config disk inputs bytes ∨ networkOf json bytes = none

/-- No announcement is read as a network, nor is one that has been cut short. -/
def SilentAnnouncements (json : Registry.Json) : Prop :=
  ∀ tld proxyPort proxyIp left, left <+: json.prettyProxy tld proxyPort proxyIp →
    networkOf json left = none

variable {disk : Disk F}

omit [DecidableEq F] in
theorem Trusted.later {bytes : Bytes} (h : Trusted keys config disk inputs bytes)
    (input : Input F) : Trusted keys config disk (inputs ++ [input]) bytes := by
  cases h with
  | atStart file hfile => exact .atStart file hfile
  | foreign file hmem => exact .foreign file (List.mem_append_left _ hmem)
  | verified fs server url pubkeyHex hmem hsource hverified =>
    exact .verified fs server url pubkeyHex (List.mem_append_left _ hmem) hsource hverified
  | brokenOff fs server url pubkeyHex file hmem hsource hbroken =>
    exact .brokenOff fs server url pubkeyHex file (List.mem_append_left _ hmem) hsource hbroken

theorem sourced_step {input : Input F} (hsilent : SilentAnnouncements json)
    (h : Sourced json config (TrustedOrOwn keys json config disk inputs) s.hot)
    (hstep : DaemonStep lib keys json config s input s') :
    Sourced json config (TrustedOrOwn keys json config disk (inputs ++ [input])) s'.hot := by
  have hlater := h.mono fun bytes =>
    Or.imp_left fun htrusted : Trusted keys config disk inputs bytes => htrusted.later input
  cases hstep with
  | hot move hot fetched hnote hhot =>
    refine hlater.step (hot_step hhot) (hlater.disk.confined ?_ (hot_confined ?_ hhot))
    · rintro f bytes ⟨fs, baseDir, cleanTld, -, -, rfl⟩
      exact Or.inr (hsilent _ _ _ _ (bytesLeft_begins _ _ _))
    · rintro disk rfl
      cases hnote
  | fetch fs server url pubkeyHex hsource _ =>
    refine ⟨hlater.disk.confined (fun f bytes hleft => Or.inl ?_)
      (fetchAndUpdate_confined url pubkeyHex config.networksDir s.hot.disk), hlater.value,
      hlater.history⟩
    rcases hleft with hverified | hbroken
    · exact .verified fs server url pubkeyHex (by simp) hsource hverified
    · exact .brokenOff fs server url pubkeyHex f (by simp) hsource hbroken
  | foreign file content =>
    refine ⟨fun f bytes hf => ?_, hlater.value, hlater.history⟩
    by_cases hfile : f = file
    · subst f
      obtain rfl : content = some bytes := by simpa using hf
      exact Or.inl (.foreign file (by simp))
    · exact hlater.disk f bytes (by simpa [Function.update_of_ne hfile] using hf)

theorem sourced_run (hsilent : SilentAnnouncements json)
    (hfirst : ReadFrom json config (TrustedOrOwn keys json config disk []) loaded.registry)
    (hdisk : Holds (TrustedOrOwn keys json config disk []) loaded.disk)
    (hrun : (daemon lib keys json config loaded).Run inputs s) :
    Sourced json config (TrustedOrOwn keys json config disk inputs) s.hot := by
  refine Machine.Run.invariant (P := fun inputs s =>
    Sourced json config (TrustedOrOwn keys json config disk inputs) s.hot)
    ⟨hdisk, hfirst, ?_⟩ ?_ hrun
  · intro registry hmem
    obtain rfl : registry = loaded.registry := List.mem_singleton.mp hmem
    exact hfirst
  · intro inputs s input s' _ ih hstep
    exact sourced_step hsilent ih (daemon_step hstep)

/-- serde_json writes the value, and reads nothing else from the text or a beginning of it. -/
def WritesOut (json : SerdeJson) (value : Value) : Prop :=
  ∃ text, json.toStringPretty value = .ok text ∧
    ∀ head, head <+: text → ∀ value', json.parse head = some value' → value' = value

variable {serde : SerdeJson} {loadFs : FileSystem F}

theorem no_network_of_writesOut {value : Value} {text : Str} {left : Bytes}
    (hwrites : WritesOut serde value) (htext : serde.toStringPretty value = .ok text)
    (hvalue : ConfigFormat.decodeConfig value = none) (hleft : left <+: encode text) :
    networkOf (registryJson serde) left = none := by
  obtain ⟨text', htext', hparse⟩ := hwrites
  obtain rfl : text' = text := Except.ok.inj (htext'.symm.trans htext)
  rw [networkOf]
  cases hdecode : decodeStrict left with
  | none => rfl
  | some head =>
    rw [Option.bind_some]
    show (serde.parse head).bind ConfigFormat.decodeConfig = none
    cases hread : serde.parse head with
    | none => rfl
    | some value' =>
      have hhead := prefix_of_decodeStrict hleft hdecode
      rw [hparse head hhead value' hread, Option.bind_some, hvalue]

/-- Announcements have no version, and the default configuration has no network id. -/
theorem announcement_no_network (tld : Str) (proxyPort : UInt16) (proxyIp : Str) :
    ConfigFormat.decodeConfig (announcement tld proxyPort proxyIp) = none := rfl

theorem daemonConfig_no_network (config : AtlasConfig) :
    ConfigFormat.decodeConfig (toJson config) = none := rfl

theorem silent_of_writesOut
    (hwrites : ∀ tld proxyPort proxyIp, WritesOut serde (announcement tld proxyPort proxyIp)) :
    SilentAnnouncements (registryJson serde) := by
  intro tld proxyPort proxyIp left hleft
  obtain ⟨text, htext, -⟩ := hwrites tld proxyPort proxyIp
  have hpretty : (registryJson serde).prettyProxy tld proxyPort proxyIp = encode text := by
    show encode ((serde.toStringPretty (announcement tld proxyPort proxyIp)).toOption.getD []) = _
    rw [htext]
    rfl
  exact no_network_of_writesOut (hwrites tld proxyPort proxyIp) htext
    (announcement_no_network tld proxyPort proxyIp) (hpretty ▸ hleft)

/-- A start that goes through has written the default configuration at most. -/
theorem configured_confined
    (hok : (getOrCreateConfig fs serde disk).result = .ok config) :
    Confined (fun _ bytes => ∃ text,
      serde.toStringPretty (toJson (defaultConfig fs)) = .ok text ∧ bytes = encode text)
      disk (getOrCreateConfig fs serde disk).disk := by
  cases hread : readToString fs disk (atlasConfigPath fs) with
  | some content =>
    rw [call_of_read serde hread]
    exact Confined.refl _ _
  | none =>
    cases htext : serde.toStringPretty (toJson (defaultConfig fs)) with
    | error e => simp [getOrCreateConfig, hread, htext] at hok
    | ok text =>
      cases hopen : fs.writeError (atlasConfigPath fs) with
      | some e =>
        rw [call_refused hread htext hopen]
        exact Confined.refl _ _
      | none =>
        cases hbreak : fs.breaksOff (atlasConfigPath fs) (encode text) with
        | some cut => simp [call_broken hread htext hopen hbreak] at hok
        | none =>
          rw [call_written hread htext hopen hbreak]
          exact Confined.write _ _ ⟨text, rfl, rfl⟩

theorem start_sourced (keys : Updater.Libraries Key)
    (hwrites : WritesOut serde (toJson (defaultConfig fs)))
    (hsilent : SilentAnnouncements (registryJson serde))
    (hstart : start fs loadFs serde disk = .ok (config, loaded)) :
    ReadFrom (registryJson serde) config
        (TrustedOrOwn keys (registryJson serde) config disk []) loaded.registry ∧
      Holds (TrustedOrOwn keys (registryJson serde) config disk []) loaded.disk := by
  have hok : (getOrCreateConfig fs serde disk).result = .ok config ∧
      loadFromDir loadFs (registryJson serde) config.networksDir config
        ⟨.new, (getOrCreateConfig fs serde disk).disk⟩ = loaded := by
    cases hresult : (getOrCreateConfig fs serde disk).result with
    | error e => simp [start, hresult, Except.map] at hstart
    | ok config' =>
      simp only [start, hresult, Except.map, Except.ok.injEq, Prod.mk.injEq] at hstart
      obtain ⟨rfl, hloaded⟩ := hstart
      exact ⟨rfl, hloaded⟩
  obtain ⟨hok, rfl⟩ := hok
  have hbefore : Holds (TrustedOrOwn keys (registryJson serde) config disk []) disk :=
    fun f bytes hf => Or.inl (.atStart f hf)
  have hdisk : Holds (TrustedOrOwn keys (registryJson serde) config disk [])
      (getOrCreateConfig fs serde disk).disk := by
    refine hbefore.confined ?_ (configured_confined hok)
    rintro f bytes ⟨text, htext, rfl⟩
    exact Or.inr (no_network_of_writesOut hwrites htext (daemonConfig_no_network _)
      List.prefix_rfl)
  refine readFrom_loadFromDir ?_ hdisk (readFrom_new _ _ _)
  rintro f bytes ⟨baseDir, cleanTld, -, -, rfl⟩
  exact Or.inr (hsilent _ _ _ _ (bytesLeft_begins _ _ _))

/-- A swarm is asked for under the key of the request, with the network found there. -/
theorem spawned_with_found {globalConfig : AtlasConfig} {registry : TldRegistry}
    {answers : Answers} {req : HttpRequest} {cleanTld tld : Str} {network : NetworkConfig}
    (hkey : lookupKey req = .ok cleanTld)
    (heffect : Effect.getOrSpawnSwarm tld network ∈
      (handleProxyRequest lib globalConfig registry answers req).effects) :
    tld = cleanTld ∧ registry.getConfig cleanTld = some network := by
  obtain ⟨r, hroute, hkind⟩ := ProxyHandler.handled_effect heffect
  obtain ⟨hdomain, htld, hconfig, -⟩ := ProxyHandler.route_parts hroute
  have hclean : r.cleanTld = cleanTld := by
    simpa [lookupKey, hdomain, htld, bind, Except.bind] using hkey
  rcases hkind with hspawn | hrecord | ⟨_, _, targets, body, -, -, -, hlater⟩
  · cases hspawn
    exact ⟨hclean, hclean ▸ hconfig⟩
  · cases hrecord
  · obtain ⟨j, target, -, hattempt⟩ := ProxyHandler.failover_effect hlater
    rcases ProxyHandler.attemptTarget_effect hattempt with ⟨_, _, _, -, hgateway⟩ | ⟨_, _, hpeer⟩
    · cases hgateway
    · cases hpeer

/-- However requests, fetches, reloads and the writes of other programs are interleaved,
every network that a request is served with has the key it was looked up under, is not
excluded by the lists, and was read from bytes that were on the disk before the start,
were written by another program, were verified under the configured key, or were left of
verified bytes whose write broke off. No swarm is asked for with any other network. -/
theorem served_networks_trusted (hdefault : WritesOut serde (toJson (defaultConfig fs)))
    (hwrites : ∀ tld proxyPort proxyIp, WritesOut serde (announcement tld proxyPort proxyIp))
    (hstart : start fs loadFs serde disk = .ok (config, loaded))
    (hrun : (daemon lib keys (registryJson serde) config loaded).Run inputs s) :
    ∀ served ∈ s.hot.log,
      (∀ network, served.config = some network →
        (served.cleanTld = '.' :: trimStartDots network.tld ∧
          isExcluded config (trimStartDots network.tld) = false) ∧
        ∃ bytes, networkOf (registryJson serde) bytes = some network ∧
          Trusted keys config disk inputs bytes) ∧
      ∀ tld network, Effect.getOrSpawnSwarm tld network ∈ served.handled.effects →
        tld = served.cleanTld ∧ served.config = some network := by
  intro served hserved
  have hsilent := silent_of_writesOut hwrites
  obtain ⟨hfirst, hdisk⟩ := start_sourced keys hdefault hsilent hstart
  have hsourced := sourced_run hsilent hfirst hdisk hrun
  obtain ⟨moves, hmoves⟩ := hot_run hrun
  obtain ⟨hkey, registry, hhistory, hconfig, hhandled⟩ := (tracked_run hmoves).served served hserved
  obtain ⟨hadmitted, hbytes⟩ := hsourced.history registry (List.mem_of_getElem? hhistory)
  constructor
  · intro network hnetwork
    rw [hconfig] at hnetwork
    obtain ⟨bytes, htrusted, hread⟩ := hbytes _ network hnetwork
    refine ⟨hadmitted _ network hnetwork, bytes, hread, ?_⟩
    exact htrusted.resolve_right fun hnone => by simp [hread] at hnone
  · intro tld network heffect
    rw [hhandled] at heffect
    rw [hconfig]
    exact spawned_with_found hkey heffect

def kinValue : Value :=
  .obj [("version", .str "1.0"), ("network_id", .str "main"), ("tld", .str "kin"),
    ("bootstrap_nodes", .arr []), ("local_bind_ip", .str "127.0.0.1")]

def syncedText : Str :=
  "\x7b\"version\":\"1.0\",\"bind_port\":17002,\"kinetic_api\":".toList ++
    "\"http://127.0.0.1:16202\",\"kinetic_token\":\"\",\"networks_dir\":\"networks\",".toList ++
    "\"registry_url\":\"https://host/networks\",\"updater_public_key\":\"".toList ++ keyHex ++
    "\"\x7d".toList

def announcementText (tld : Str) (proxyPort : ℤ) (proxyIp : Str) : Str :=
  "\x7b\n  \"proxy_ip\": \"".toList ++ (proxyIp ++ "\",\n  \"proxy_port\": ".toList ++
    (toString proxyPort).toList ++ ",\n  \"tld\": \"".toList ++ tld ++ "\"\n\x7d".toList)

/-- serde_json on two configurations, one network and its announcement. -/
def sampleSerde : SerdeJson where
  toStringPretty
    | .obj [(_, .str proxyIp), (_, .int proxyPort), (_, .str tld)] =>
      .ok (announcementText tld proxyPort proxyIp)
    | _ => .ok homeText
  parse content :=
    if content = networkJson "main" "kin" then some kinValue
    else if content = homeText then some (toJson (defaultConfig home))
    else if content = syncedText then some (toJson syncedConfig)
    else none
  message _ := "expected value at line 1 column 1"

theorem sampleSerde_default : WritesOut sampleSerde (toJson (defaultConfig home)) := by
  refine ⟨homeText, rfl, fun head hhead value' hparse => ?_⟩
  have hnot : ∀ known : Str, ¬ known <+: homeText → head ≠ known := by
    rintro known hno rfl
    exact hno hhead
  have hnetwork := hnot (networkJson "main" "kin") (by decide +kernel)
  have hsynced := hnot syncedText (by decide +kernel)
  simp only [sampleSerde, if_neg hnetwork, if_neg hsynced] at hparse
  split at hparse
  · exact (Option.some.inj hparse).symm
  · cases hparse

theorem sampleSerde_announcement (tld : Str) (proxyPort : UInt16) (proxyIp : Str) :
    WritesOut sampleSerde (announcement tld proxyPort proxyIp) := by
  refine ⟨announcementText tld proxyPort.toNat proxyIp, rfl, fun head hhead value' hparse => ?_⟩
  have hsixth : (announcementText tld proxyPort.toNat proxyIp)[5]? = some 'p' := rfl
  have hother : ∀ known : Str, (∃ c, known[5]? = some c ∧ c ≠ 'p') → head ≠ known := by
    rintro _ ⟨c, hc, hne⟩ rfl
    obtain ⟨rest, hrest⟩ := hhead
    have hlong := (List.getElem?_eq_some_iff.mp hc).1
    rw [← hrest, List.getElem?_append_left hlong, hc] at hsixth
    exact hne (Option.some.inj hsixth)
  have hnetwork := hother (networkJson "main" "kin") ⟨_, rfl, by decide⟩
  have hhome := hother homeText ⟨_, rfl, by decide⟩
  have hsynced := hother syncedText ⟨_, rfl, by decide⟩
  simp only [sampleSerde, if_neg hnetwork, if_neg hhome, if_neg hsynced] at hparse
  cases hparse

def kinListing : FileSystem Str := directory "networks" ["kin.json", "r.json"]

def syncedDisk : Disk Str :=
  diskOf [(homeFile, syncedText), ("networks/kin.json", networkJson "main" "kin")]

def syncedStart : Except AtlasError (AtlasConfig × Loading Str) :=
  start home (directory "networks" ["kin.json"]) sampleSerde syncedDisk

def syncedLoading : Loading Str :=
  loadFromDir (directory "networks" ["kin.json"]) (registryJson sampleSerde) "networks"
    syncedConfig ⟨.new, syncedDisk⟩

theorem syncedStart_ok : syncedStart = .ok (syncedConfig, syncedLoading) := by
  have hbytes : syncedDisk (home.file (atlasConfigPath home)) = some (encode syncedText) := by
    rw [home_file]
    decide +kernel
  have hread : readToString home syncedDisk (atlasConfigPath home) = some syncedText := by
    rw [readToString_eq_some]
    exact ⟨rfl, encode syncedText, hbytes, decodeStrict_encode syncedText⟩
  have hparse : fromStr sampleSerde syncedText = .ok syncedConfig := by
    have hnetwork : syncedText ≠ networkJson "main" "kin" := by decide +kernel
    have hhome : syncedText ≠ homeText := by decide +kernel
    simp only [fromStr, sampleSerde, if_neg hnetwork, if_neg hhome, if_true, Option.bind_some,
      decodeConfig_toJson]
  rw [syncedStart, start, call_of_read sampleSerde hread, hparse]
  rfl

def syncedDaemon : Machine (DaemonState Str) (Input Str) :=
  daemon ProxyHandler.sampleLibraries oneSignature (registryJson sampleSerde) syncedConfig
    syncedLoading

/-- A fetch and its reload before a request. -/
def syncedInputs : List (Input Str) :=
  [.fetch signedRound.fs signedRound.server, .hot .lockWrite, .hot (.check kinListing),
    .hot (.list kinListing), .hot (.entry kinListing), .hot (.entry kinListing), .hot .dropWrite,
    .hot (.lockRead 0 (ProxyHandler.requestFor "a.kin")),
    .hot (.lookup 0 ProxyHandler.revealAnswered)]

theorem syncedInputs_run : (syncedDaemon.exec syncedInputs).isSome = true := by decide +kernel

theorem served_networks_trusted_synced :
    ((syncedDaemon.exec syncedInputs).get syncedInputs_run).hot.log.map
        (fun served => (served.loads, served.config)) = [(1, some (network "main" "kin"))] ∧
    ∀ served ∈ ((syncedDaemon.exec syncedInputs).get syncedInputs_run).hot.log,
      ∀ network, served.config = some network →
        ∃ bytes, networkOf (registryJson sampleSerde) bytes = some network ∧
          Trusted oneSignature syncedConfig syncedDisk syncedInputs bytes := by
  refine ⟨by decide +kernel, fun served hserved network hnetwork => ?_⟩
  exact ((served_networks_trusted sampleSerde_default sampleSerde_announcement syncedStart_ok
    (syncedDaemon.run_get syncedInputs syncedInputs_run) served hserved).1 network hnetwork).2

def isFetch {F : Type} : Input F → Bool
  | .fetch _ _ => true
  | _ => false

/-- A reload is due to a fetch of its own. -/
structure Scheduled (inputs : List (Input F)) (s : DaemonState F) : Prop where
  due : s.hot.updater ≠ .away → s.fetched = true
  counted : s.hot.lock.history.length + s.fetched.toNat ≤ 1 + inputs.countP isFetch

theorem scheduled_step {input : Input F} (h : Scheduled inputs s)
    (hstep : DaemonStep lib keys json config s input s') :
    Scheduled (inputs ++ [input]) s' := by
  obtain ⟨hdue, hcounted⟩ := h
  cases hstep with
  | hot move hot fetched hnote hhot =>
    have hfetches : (inputs ++ [Input.hot move]).countP isFetch = inputs.countP isFetch := by
      rw [List.countP_append]
      rfl
    rcases hot_cases hhot with ⟨rfl, -, hhistory⟩ | ⟨rfl, hthere, haway, -, hhistory⟩ |
      ⟨disk, rfl⟩ | ⟨hkept, -, hhistory, hstill⟩
    · obtain ⟨hfetched, rfl⟩ : s.fetched = true ∧ true = fetched := by
        simpa [noteAfter] using hnote
      refine ⟨fun _ => rfl, ?_⟩
      rw [hhistory, hfetches]
      simpa [hfetched] using hcounted
    · obtain rfl : false = fetched := by simpa [noteAfter] using hnote
      refine ⟨fun hnot => absurd haway hnot, ?_⟩
      rw [hhistory, hfetches, List.length_append, List.length_singleton]
      simpa [hdue hthere] using hcounted
    · cases hnote
    · obtain rfl : s.fetched = fetched := Option.some.inj ((hkept s.fetched).symm.trans hnote)
      refine ⟨fun hnot => hdue (hstill hnot), ?_⟩
      rw [hhistory, hfetches]
      exact hcounted
  | fetch fs server url pubkeyHex hsource haway =>
    refine ⟨fun hnot => absurd haway hnot, ?_⟩
    have hbool : ∀ b : Bool, b.toNat ≤ 1 := by decide
    have hnew := hbool (fetchAndUpdate keys fs server url pubkeyHex config.networksDir
      s.hot.disk).2.isOk
    have hfetches : (inputs ++ [Input.fetch fs server]).countP isFetch =
        inputs.countP isFetch + 1 := by
      rw [List.countP_append]
      rfl
    rw [hfetches]
    dsimp only
    omega
  | foreign file content =>
    have hfetches : (inputs ++ [Input.foreign file content]).countP isFetch =
        inputs.countP isFetch := by
      rw [List.countP_append]
      rfl
    exact ⟨hdue, hfetches.symm ▸ hcounted⟩

/-- The registry is reloaded at most once for each fetch. -/
theorem scheduled_run (hrun : (daemon lib keys json config loaded).Run inputs s) :
    Scheduled inputs s := by
  refine Machine.Run.invariant (P := Scheduled) ⟨fun hnot => absurd rfl hnot, by simp; rfl⟩ ?_ hrun
  intro inputs s input s' _ ih hstep
  exact scheduled_step ih (daemon_step hstep)

theorem no_fetch_without_source (hsource : updaterSource config = none)
    (hrun : (daemon lib keys json config loaded).Run inputs s) : inputs.countP isFetch = 0 := by
  refine Machine.Run.invariant (P := fun inputs _ => inputs.countP isFetch = 0) rfl ?_ hrun
  intro inputs s input s' _ ih hstep
  rw [List.countP_append, ih]
  cases daemon_step hstep with
  | fetch fs server url pubkeyHex hsome => simp [hsource] at hsome
  | hot | foreign => rfl

/-- Where no url or no key is configured, every request of every run is handled with the
registry of the start, whatever is written to the disk meanwhile, and so every network it is
served with was in a file before the start. -/
theorem served_as_at_start (hdefault : WritesOut serde (toJson (defaultConfig fs)))
    (hwrites : ∀ tld proxyPort proxyIp, WritesOut serde (announcement tld proxyPort proxyIp))
    (hstart : start fs loadFs serde disk = .ok (config, loaded))
    (hsource : updaterSource config = none)
    (hrun : (daemon lib keys (registryJson serde) config loaded).Run inputs s) :
    ∀ served ∈ s.hot.log,
      served.handled = handleProxyRequest lib config loaded.registry served.answers served.req ∧
      ∀ network, served.config = some network →
        ∃ file bytes, disk file = some bytes ∧
          networkOf (registryJson serde) bytes = some network := by
  intro served hserved
  obtain ⟨moves, hmoves⟩ := hot_run hrun
  have hshort := (scheduled_run hrun).counted
  rw [no_fetch_without_source hsource hrun] at hshort
  have hhistory : s.hot.lock.history = [loaded.registry] :=
    ((started_run hmoves).eq_of_length_le (by simp; omega)).symm
  obtain ⟨-, registry, hread, hconfig, hhandled⟩ := (tracked_run hmoves).served served hserved
  obtain rfl : registry = loaded.registry := by
    have hmem := List.mem_of_getElem? hread
    rwa [hhistory, List.mem_singleton] at hmem
  refine ⟨hhandled, fun network hnetwork => ?_⟩
  have hsilent := silent_of_writesOut hwrites
  obtain ⟨hfirst, -⟩ := start_sourced keys hdefault hsilent hstart
  rw [hconfig] at hnetwork
  obtain ⟨bytes, htrusted, hnetworkOf⟩ := hfirst.2 _ network hnetwork
  have hbytes := htrusted.resolve_right fun hnone => by simp [hnetworkOf] at hnone
  cases hbytes with
  | atStart file hfile => exact ⟨file, bytes, hfile, hnetworkOf⟩
  | foreign file hmem => cases hmem
  | verified fs server url pubkeyHex hmem => cases hmem
  | brokenOff fs server url pubkeyHex file hmem => cases hmem

/-- The first start, with a network file already there. -/
def firstDisk : Disk Str :=
  diskOf [("/home/user/.local/share/kinetic_atlas/networks/kin.json".toList,
    networkJson "main" "kin")]

def firstListing : FileSystem Str :=
  directory "/home/user/.local/share/kinetic_atlas/networks" ["kin.json"]

def firstLoading : Loading Str :=
  loadFromDir firstListing (registryJson sampleSerde) (defaultConfig home).networksDir
    (defaultConfig home)
    ⟨.new, Function.update firstDisk (home.file (atlasConfigPath home)) (some (encode homeText))⟩

theorem firstStart_ok :
    start home firstListing sampleSerde firstDisk =
      .ok (defaultConfig home, firstLoading) := by
  have hread : readToString home firstDisk (atlasConfigPath home) = none := by decide +kernel
  have htext : sampleSerde.toStringPretty (toJson (defaultConfig home)) = .ok homeText := rfl
  rw [start, call_written hread htext rfl rfl]
  rfl

def firstDaemon : Machine (DaemonState Str) (Input Str) :=
  daemon ProxyHandler.sampleLibraries oneSignature (registryJson sampleSerde) (defaultConfig home)
    firstLoading

/-- The network file is removed before the request. -/
def firstInputs : List (Input Str) :=
  [.foreign "/home/user/.local/share/kinetic_atlas/networks/kin.json".toList none,
    .hot (.lockRead 0 (ProxyHandler.requestFor "a.kin")),
    .hot (.lookup 0 ProxyHandler.revealAnswered)]

theorem firstInputs_run : (firstDaemon.exec firstInputs).isSome = true := by decide +kernel

theorem served_as_at_start_first :
    ((firstDaemon.exec firstInputs).get firstInputs_run).hot.log.map
        (fun served => served.config) = [some (network "main" "kin")] ∧
    ∀ served ∈ ((firstDaemon.exec firstInputs).get firstInputs_run).hot.log,
      ∀ network, served.config = some network →
        ∃ file bytes, firstDisk file = some bytes ∧
          networkOf (registryJson sampleSerde) bytes = some network := by
  refine ⟨by decide +kernel, fun served hserved => ?_⟩
  exact (served_as_at_start sampleSerde_default sampleSerde_announcement firstStart_ok rfl
    (firstDaemon.run_get firstInputs firstInputs_run) served hserved).2

end KineticAtlas.Provenance
