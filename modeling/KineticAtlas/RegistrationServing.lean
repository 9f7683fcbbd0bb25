import KineticAtlas.ConfigFormat
import KineticAtlas.RegistrationRuns
import KineticAtlas.Serving

/-!
From registrations to hosts (validate_registration.py, registry.rs, proxy.rs). A history of
forms leaves one file per TLD in the networks directory, that of the last form accepted for
it. A client that has these files, in whatever order it lists them, serves under a TLD the
network of that form, provided its port is a port and the lists of the client do not exclude
the TLD, and routes every host under the TLD to it.
-/
namespace KineticAtlas.RegistrationServing

open Library.Texts Library.Runs Library.Utf8 Library.Files Library.Json Library.FirstWins
  KineticAtlas.Types HostSplit Registry RegistryLoad RegistrationBot RegistrationRuns ConfigFormat
open ProxyHandler (HttpRequest Route route fullDomainOf tldOf)

/-- The last configuration written for a TLD. -/
def lastFor (written : List BotConfig) (tld : Str) : Option BotConfig :=
  written.reverse.find? fun config => config.tld = tld

theorem lastFor_concat (written : List BotConfig) (config : BotConfig) (tld : Str) :
    lastFor (written ++ [config]) tld =
      if config.tld = tld then some config else lastFor written tld := by
  unfold lastFor
  rw [List.reverse_append, List.reverse_singleton, List.singleton_append, List.find?_cons]
  by_cases htld : config.tld = tld <;> simp [htld]

theorem lastFor_some {written : List BotConfig} {tld : Str} {config : BotConfig}
    (h : lastFor written tld = some config) : config ∈ written ∧ config.tld = tld := by
  constructor
  · exact List.mem_reverse.mp (List.mem_of_find?_eq_some h)
  · simpa using List.find?_some h

/-- Each file is that of the last configuration written for its TLD. -/
structure Filed (s : Directory) : Prop where
  file_eq : ∀ tld, s.files (jsonPath tld) = lastFor s.written tld
  passed : ∀ config ∈ s.written, ∃ data, Passed data config

theorem filed_step {s s' : Directory} {i : Submission} (h : Filed s)
    (hstep : register s i = some s') : Filed s' := by
  rcases register_cases hstep with ⟨rfl, -⟩ | ⟨config, hmain, rfl⟩
  · exact h
  · refine ⟨fun tld => ?_, fun c hc => ?_⟩
    · rw [lastFor_concat]
      by_cases htld : config.tld = tld
      · subst htld
        simp
      · have hpath : jsonPath tld ≠ jsonPath config.tld := fun heq =>
          htld (jsonPath_injective heq).symm
        rw [if_neg htld, ← h.file_eq tld]
        exact Function.update_of_ne hpath _ _
    · rcases List.mem_append.mp hc with hold | hlast
      · exact h.passed c hold
      · obtain rfl : c = config := List.mem_singleton.mp hlast
        exact ⟨i.data, main_passed hmain⟩

theorem filed_run {is : List Submission} {s : Directory} (hrun : bot.Run is s) : Filed s := by
  have hinit : Filed bot.init := ⟨fun _ => rfl, fun _ hc => absurd hc List.not_mem_nil⟩
  refine Machine.Run.invariant (P := fun _ s => Filed s) hinit ?_ hrun
  intro _ s i s' _ ih hstep
  exact filed_step ih hstep

def tldFile (tld : Str) : Str := tld ++ ".json".toList

/-- A client's networks directory has the files of the repository, in some order. -/
structure Mirrors {F : Type} (fs : FileSystem F) (text : JsonText) (dir : Str) (disk : Disk F)
    (s : Directory) : Prop where
  is_there : fs.pathExists dir = true
  is_dir : fs.isDir dir = true
  names : ∀ name, name ∈ listed fs dir disk ↔
    ∃ tld config, s.files (jsonPath tld) = some config ∧ name = tldFile tld
  readable : ∀ tld config, s.files (jsonPath tld) = some config →
    fs.unreadable (joinPath dir (tldFile tld)) = false
  holds : ∀ tld config, s.files (jsonPath tld) = some config →
    disk (fs.file (joinPath dir (tldFile tld))) = some (encode (text.dump (toJson config)))

/-- The network that a client serves under a TLD. -/
def servedNetwork (globalConfig : AtlasConfig) (written : List BotConfig) (tld : Str) :
    Option NetworkConfig :=
  (lastFor written tld).bind fun config =>
    if (0 ≤ config.apiPort ∧ config.apiPort ≤ 65535) ∧ isExcluded globalConfig tld = false then
      some (expected config)
    else none

variable {F : Type} {fs : FileSystem F} {text : JsonText}
  {prettyProxy : Str → UInt16 → Str → Bytes} {dir : Str} {globalConfig : AtlasConfig}
  {disk : Disk F} {s : Directory} {is : List Submission}

/-- One file of the directory. -/
theorem fileNetwork_tldFile (hfiled : Filed s) (hmirrors : Mirrors fs text dir disk s)
    (hback : ∀ config ∈ s.written, ReadBack text config)
    {tld : Str} {config : BotConfig} (hfile : s.files (jsonPath tld) = some config) :
    fileNetwork fs (registryJson text prettyProxy) globalConfig dir disk (tldFile tld) =
      (servedNetwork globalConfig s.written tld).map fun network => ('.' :: tld, network) := by
  have hlast : lastFor s.written tld = some config := (hfiled.file_eq tld).symm.trans hfile
  obtain ⟨hmem, rfl⟩ := lastFor_some hlast
  obtain ⟨data, hpassed⟩ := hfiled.passed config hmem
  have hext : extension (tldFile config.tld) = some "json".toList := extension_fileName hpassed
  have hread : (readToString fs disk (joinPath dir (tldFile config.tld))).bind
      (registryJson text prettyProxy).parseConfig =
        if 0 ≤ config.apiPort ∧ config.apiPort ≤ 65535 then some (expected config) else none := by
    rw [readToString, if_neg (by simp [hmirrors.readable _ _ hfile]), hmirrors.holds _ _ hfile,
      Option.bind_some, decodeStrict_encode, Option.bind_some]
    exact (hback config hmem).decode_eq
  have htrim : trimStartDots (expected config).tld = config.tld := trimStartDots_of_passed hpassed
  rw [fileNetwork, if_pos hext, hread, servedNetwork, hlast, Option.bind_some]
  by_cases hport : 0 ≤ config.apiPort ∧ config.apiPort ≤ 65535
  · cases hexcluded : isExcluded globalConfig config.tld <;> simp [hport, htrim, hexcluded]
  · simp [hport]

theorem mem_entriesOf_iff (hfiled : Filed s) (hmirrors : Mirrors fs text dir disk s)
    (hback : ∀ config ∈ s.written, ReadBack text config)
    (k : Str) (network : NetworkConfig) :
    (k, network) ∈ entriesOf fs (registryJson text prettyProxy) globalConfig dir disk ↔
      ∃ tld, k = '.' :: tld ∧ servedNetwork globalConfig s.written tld = some network := by
  rw [entriesOf, List.mem_filterMap]
  constructor
  · rintro ⟨name, hname, hnetwork⟩
    obtain ⟨tld, config, hfile, rfl⟩ := (hmirrors.names name).mp hname
    rw [fileNetwork_tldFile hfiled hmirrors hback hfile, Option.map_eq_some_iff] at hnetwork
    obtain ⟨network', hserved, heq⟩ := hnetwork
    cases heq
    exact ⟨tld, rfl, hserved⟩
  · rintro ⟨tld, rfl, hserved⟩
    obtain ⟨config, hlast, -⟩ := Option.bind_eq_some_iff.mp hserved
    have hfile : s.files (jsonPath tld) = some config := (hfiled.file_eq tld).trans hlast
    refine ⟨tldFile tld, (hmirrors.names _).mpr ⟨tld, config, hfile, rfl⟩, ?_⟩
    rw [fileNetwork_tldFile hfiled hmirrors hback hfile, hserved]
    rfl

variable [DecidableEq F]

/-- The registry of a client has the network of the last form under each TLD. -/
theorem loaded_networks (hfiled : Filed s) (hmirrors : Mirrors fs text dir disk s)
    (hback : ∀ config ∈ s.written, ReadBack text config)
    (hout : AnnouncesOutside fs (registryJson text prettyProxy) globalConfig dir disk)
    (before : TldRegistry) (k : Str) (network : NetworkConfig) :
    (loadFromDir fs (registryJson text prettyProxy) dir globalConfig
        ⟨before, disk⟩).registry.getConfig k = some network ↔
      ∃ tld, k = '.' :: tld ∧ servedNetwork globalConfig s.written tld = some network := by
  have hentries : ∀ k network,
      (k, network) ∈ entriesOf fs (registryJson text prettyProxy) globalConfig dir disk ↔
        ∃ tld, k = '.' :: tld ∧ servedNetwork globalConfig s.written tld = some network :=
    mem_entriesOf_iff hfiled hmirrors hback
  have hconsistent : Consistent
      (entriesOf fs (registryJson text prettyProxy) globalConfig dir disk) := by
    intro k v v' hv hv'
    obtain ⟨tld, rfl, hserved⟩ := (hentries k v).mp hv
    obtain ⟨tld', heq, hserved'⟩ := (hentries _ v').mp hv'
    obtain rfl : tld = tld' := (List.cons.inj heq).2
    exact Option.some.inj (hserved.symm.trans hserved')
  rw [(loadFromDir_spec hmirrors.is_there hmirrors.is_dir hout).1, ← hentries]
  exact hconsistent.lookup_iff k network

/-- The host of a request is a label under a TLD, in any case and with any port. -/
structure HostUnder (req : HttpRequest) (label tld : Str) : Prop where
  header : ∃ host, req.headers.lookup "host".toList = some (encode host) ∧
    host.all Serving.isVisible = true ∧
    (host.takeWhile (· ≠ ':')).map Char.toLower = label ++ '.' :: tld
  label_nonempty : label ≠ []
  label_dot_free : '.' ∉ label
  tld_dot_free : '.' ∉ tld

variable {req : HttpRequest} {label tld : Str} {r : Route}

theorem HostUnder.route_iff (h : HostUnder req label tld) (registry : TldRegistry) :
    route registry req = .ok r ↔ ∃ network, registry.getConfig ('.' :: tld) = some network ∧
      r = ⟨label ++ '.' :: tld, '.' :: tld, network, label ++ '.' :: tld, apex⟩ := by
  obtain ⟨host, hheader, hvisible, hlower⟩ := h.header
  have hdomain : fullDomainOf req.headers = .ok (label ++ '.' :: tld) :=
    (Serving.fullDomainOf_ok_iff hheader).mpr ⟨hvisible, hlower⟩
  have htld : tldOf (label ++ '.' :: tld) = .ok ('.' :: tld) := by
    rw [tldOf, if_pos (by simp), Serving.rtakeWhile_append_dot,
      Serving.rtakeWhile_of_notMem h.tld_dot_free]
  have hsplit := Serving.extract_label (t := tld) h.label_nonempty h.label_dot_free
  constructor
  · intro hroute
    obtain ⟨hdomain', htld', hconfig, hsplit'⟩ := ProxyHandler.route_parts hroute
    have hfull : label ++ '.' :: tld = r.fullDomain := Except.ok.inj (hdomain.symm.trans hdomain')
    rw [← hfull, htld, Except.ok.injEq] at htld'
    rw [← hfull, ← htld', hsplit, Option.some.injEq, Prod.mk.injEq] at hsplit'
    rw [← htld'] at hconfig
    refine ⟨r.config, hconfig, ?_⟩
    obtain ⟨fullDomain, cleanTld, config, baseDomain, subdomain⟩ := r
    dsimp only at hfull htld' hsplit'
    obtain ⟨hbase, hsub⟩ := hsplit'
    rw [← hfull, ← htld', ← hbase, ← hsub]
  · rintro ⟨network, hconfig, rfl⟩
    exact Serving.route_of_parts hdomain htld hconfig hsplit

/-- After any history of forms, a client whose directory has the files of the repository
holds under each TLD exactly the network of the last form accepted for it, if its port is a
port and the lists admit the TLD; and it routes a host right under a TLD exactly when there
is such a network, to that network and the domain named by the host. -/
theorem registered_tlds_served (hrun : bot.Run is s) (hmirrors : Mirrors fs text dir disk s)
    (hback : ∀ config ∈ s.written, ReadBack text config)
    (hout : AnnouncesOutside fs (registryJson text prettyProxy) globalConfig dir disk)
    (before : TldRegistry) :
    (∀ k network,
      (loadFromDir fs (registryJson text prettyProxy) dir globalConfig
          ⟨before, disk⟩).registry.getConfig k = some network ↔
        ∃ tld, k = '.' :: tld ∧ servedNetwork globalConfig s.written tld = some network) ∧
    ∀ req label tld, HostUnder req label tld → ∀ r,
      route (loadFromDir fs (registryJson text prettyProxy) dir globalConfig
          ⟨before, disk⟩).registry req = .ok r ↔
        ∃ network, servedNetwork globalConfig s.written tld = some network ∧
          r = ⟨label ++ '.' :: tld, '.' :: tld, network, label ++ '.' :: tld, apex⟩ := by
  have hnetworks := loaded_networks (filed_run hrun) hmirrors hback hout before
  refine ⟨hnetworks, fun req label tld hhost r => ?_⟩
  rw [hhost.route_iff]
  refine exists_congr fun network => and_congr_left fun _ => (hnetworks _ _).trans ?_
  constructor
  · rintro ⟨tld', heq, hserved⟩
    exact (List.cons.inj heq).2 ▸ hserved
  · intro hserved
    exact ⟨tld, rfl, hserved⟩

theorem fork_run : ∃ s, bot.Run [submission "fork" "fork-net" "127.0.0.2"] s ∧
    s.written = [forkConfig 8080] := first_registration

def forkFiles : FileSystem Str := directory "networks" ["fork.json"]

def forkText8080 : JsonText := forkJson 8080 "8080" (List.all_iff_forall_prop.mp (by decide))

theorem fork_mirrored {s : Directory} (hrun : bot.Run is s)
    (hwritten : s.written = [forkConfig 8080]) :
    Mirrors forkFiles forkText8080 "networks" (forkLoading "8080").disk s := by
  have hfiles : ∀ tld config, s.files (jsonPath tld) = some config ↔
      tld = "fork".toList ∧ config = forkConfig 8080 := by
    intro tld config
    rw [(filed_run hrun).file_eq, hwritten, ← List.nil_append [forkConfig 8080], lastFor_concat]
    have htld : (forkConfig 8080).tld = "fork".toList := rfl
    rw [htld]
    by_cases hfork : "fork".toList = tld
    · simp [← hfork, eq_comm]
    · rw [if_neg hfork]
      exact iff_of_false (by simp [lastFor]) fun h => hfork h.1.symm
  have honly := forkLoading_onlyFile "8080"
  refine ⟨rfl, rfl, fun name => ?_, fun _ _ _ => rfl, ?_⟩
  · simp only [hfiles]
    constructor
    · intro hname
      exact ⟨_, _, ⟨rfl, rfl⟩, List.mem_singleton.mp hname⟩
    · rintro ⟨tld, config, ⟨rfl, rfl⟩, rfl⟩
      exact List.mem_singleton.mpr rfl
  · intro tld config hfile
    obtain ⟨rfl, rfl⟩ := (hfiles tld config).mp hfile
    exact honly.holds

theorem fork_announced_outside : AnnouncesOutside forkFiles
    (registryJson forkText8080 (jsonOf []).prettyProxy) openConfig "networks"
    (forkLoading "8080").disk := by
  intro baseDir hbase entry hentry disk bytes
  obtain rfl : "data".toList = baseDir := Option.some.inj hbase
  refine ⟨rfl, fun name hname => ?_⟩
  obtain rfl : name = "fork.json".toList := List.mem_singleton.mp hname
  intro heq
  have hfirst : (joinPath "networks" "fork.json").head? = some 'n' := by decide
  have hother : ∀ tld, (proxyFile "data" tld).head? = some 'd' := fun _ => rfl
  have hpath : joinPath "networks" "fork.json" = proxyFile "data" entry.1 := heq
  rw [hpath, hother] at hfirst
  cases hfirst

theorem registered_tlds_served_fork :
    ∃ s, bot.Run [submission "fork" "fork-net" "127.0.0.2"] s ∧
      ∃ r, route (loadFromDir forkFiles (registryJson forkText8080 (jsonOf []).prettyProxy)
          "networks" openConfig ⟨.new, (forkLoading "8080").disk⟩).registry
          (ProxyHandler.requestFor "Shop.FORK:8080") = .ok r ∧
        r.config = expected (forkConfig 8080) ∧ r.baseDomain = "shop.fork".toList := by
  obtain ⟨s, hrun, hwritten⟩ := fork_run
  refine ⟨s, hrun, ⟨"shop".toList ++ '.' :: "fork".toList, '.' :: "fork".toList,
    expected (forkConfig 8080), "shop".toList ++ '.' :: "fork".toList, apex⟩, ?_, rfl, by decide⟩
  have hback : ∀ config ∈ s.written, ReadBack forkText8080 config := by
    intro config hconfig
    obtain rfl : config = forkConfig 8080 := by simpa [hwritten] using hconfig
    exact forkJson_readBack _ _ _ ⟨by decide, by decide⟩
  have hhost : HostUnder (ProxyHandler.requestFor "Shop.FORK:8080") "shop" "fork" :=
    ⟨⟨"Shop.FORK:8080".toList, by decide, by decide, by decide⟩, by decide, by decide, by decide⟩
  refine ((registered_tlds_served hrun (fork_mirrored hrun hwritten) hback fork_announced_outside
    .new).2 _ _ _ hhost _).mpr ⟨expected (forkConfig 8080), ?_, rfl⟩
  rw [hwritten]
  decide +kernel

end KineticAtlas.RegistrationServing
