import KineticAtlas.RegistryLoad
import KineticAtlas.ProxyHandler
import KineticAtlas.Library.Runs

/-!
Requests and registry loads in any order (registry.rs, proxy.rs). The loader cleans
the TLD of a network file its own way, the handler that of a host its own way, and the
lists of the configuration are not cleaned at all. The results say which networks a
host can reach, and for which lists no listed TLD can be reached.
-/
namespace KineticAtlas.Serving

open Library.Texts Library.Runs Library.Utf8 Library.Files KineticAtlas.Types HostSplit Registry
  RegistryLoad ProxyHandler

structure ServingState where
  registry : TldRegistry
  log : List (HttpRequest × Handled)

/-- A load reads the networks directory as it then is; a request reads the registry once. -/
inductive ServingInput (F : Type)
  | load (fs : FileSystem F) (json : Json) (disk : Disk F)
  | request (answers : Answers) (req : HttpRequest)

variable {Reveal F : Type} [DecidableEq F]

def servingStep (lib : Libraries Reveal) (globalConfig : AtlasConfig) (s : ServingState) :
    ServingInput F → ServingState
  | .load fs json disk =>
    { s with registry :=
        (loadFromDir fs json globalConfig.networksDir globalConfig ⟨s.registry, disk⟩).registry }
  | .request answers req =>
    { s with log := s.log ++ [(req, handleProxyRequest lib globalConfig s.registry answers req)] }

def serving (lib : Libraries Reveal) (globalConfig : AtlasConfig) :
    Machine ServingState (ServingInput F) where
  init := ⟨.new, []⟩
  step s i := some (servingStep lib globalConfig s i)

/-- What is stored went through the loader: the key is the cleaned TLD, and the TLD
without its dots is not excluded. -/
def Admitted (globalConfig : AtlasConfig) (registry : TldRegistry) : Prop :=
  ∀ k config, registry.getConfig k = some config →
    k = '.' :: trimStartDots config.tld ∧
      isExcluded globalConfig (trimStartDots config.tld) = false

variable {lib : Libraries Reveal} {globalConfig : AtlasConfig} {fs : FileSystem F} {json : Json}

theorem admitted_new (globalConfig : AtlasConfig) : Admitted globalConfig .new := by
  intro k config h
  simp [TldRegistry.new, TldRegistry.getConfig] at h

omit [DecidableEq F] in
theorem fileNetwork_some {dir name k : Str} {disk : Disk F} {config : NetworkConfig}
    (h : fileNetwork fs json globalConfig dir disk name = some (k, config)) :
    k = '.' :: trimStartDots config.tld ∧
      isExcluded globalConfig (trimStartDots config.tld) = false := by
  unfold fileNetwork at h
  split at h
  · split at h
    · cases h
    · split at h
      · cases h
      · rename_i hnot
        cases h
        exact ⟨rfl, by simpa using hnot⟩
  · cases h

theorem admitted_loadEntry {dir : Str} {s : Loading F} (name : Str)
    (h : Admitted globalConfig s.registry) :
    Admitted globalConfig (loadEntry fs json globalConfig dir s name).registry := by
  rw [loadEntry_eq]
  cases hnetwork : fileNetwork fs json globalConfig dir s.disk name with
  | none => exact h
  | some entry =>
    obtain ⟨cleanTld, config⟩ := entry
    dsimp only
    split
    · exact h
    · intro k config' hk
      by_cases hkey : k = cleanTld
      · subst k
        obtain rfl : config = config' := by simpa [TldRegistry.getConfig] using hk
        exact fileNetwork_some hnetwork
      · exact h k config' (by simpa [TldRegistry.getConfig, hkey] using hk)

theorem admitted_loadFromDir {dir : Str} {s : Loading F} (h : Admitted globalConfig s.registry) :
    Admitted globalConfig (loadFromDir fs json dir globalConfig s).registry := by
  by_cases hmissing : isMissing fs dir = true
  · rwa [loadFromDir_missing hmissing]
  · rw [loadFromDir_found (by simpa using hmissing)]
    exact List.foldlRecOn (listed fs dir s.disk) (loadEntry fs json globalConfig dir)
      (motive := fun s : Loading F => Admitted globalConfig s.registry)
      (admitted_new globalConfig) fun s hs name _ => admitted_loadEntry name hs

theorem admitted_run {is : List (ServingInput F)} {s : ServingState}
    (hrun : (serving lib globalConfig).Run is s) : Admitted globalConfig s.registry := by
  refine Machine.Run.invariant (P := fun _ s => Admitted globalConfig s.registry)
    (admitted_new globalConfig) ?_ hrun
  intro is s i s' _ ih hstep
  obtain rfl : servingStep lib globalConfig s i = s' := by simpa [serving] using hstep
  cases i with
  | load fs json disk => exact admitted_loadFromDir ih
  | request answers req => exact ih

/-- A character that the text of a header may contain. -/
def isVisible (c : Char) : Bool := (32 ≤ c.toNat ∧ c.toNat < 127) ∨ c.toNat = 9

/-- The part of a host after its last dot, without the port. -/
def lastLabel (host : Str) : Str := (host.takeWhile (· ≠ ':')).rtakeWhile (· ≠ '.')

theorem isVisible_byte {c : Char} (hc : c.toNat < 128) :
    ((32 ≤ UInt8.ofNat c.toNat ∧ UInt8.ofNat c.toNat < 127) ∨ UInt8.ofNat c.toNat = 9) ↔
      isVisible c = true := by
  have hbyte : (UInt8.ofNat c.toNat).toNat = c.toNat :=
    UInt8.toNat_ofNat_of_lt' (Nat.lt_trans hc (by decide))
  simp [isVisible, UInt8.le_iff_toNat_le, UInt8.lt_iff_toNat_lt, ← UInt8.toNat_inj, hbyte]

/-- A header can be read back exactly if all its characters are visible. -/
theorem toStr_encode (host : Str) :
    toStr (encode host) = if host.all isVisible then some host else none := by
  by_cases hvisible : host.all isVisible = true
  · have hascii : ∀ c ∈ host, c.toNat < 128 := by
      intro c hc
      have hv := List.all_eq_true.mp hvisible c hc
      simp only [isVisible, decide_eq_true_eq] at hv
      omega
    have hbytes : (encode host).all (fun b => (32 ≤ b ∧ b < 127) ∨ b = 9) = true := by
      rw [encode_ascii hascii, List.all_map, List.all_eq_true]
      intro c hc
      exact decide_eq_true
        ((isVisible_byte (hascii c hc)).mpr (List.all_eq_true.mp hvisible c hc))
    have hback : (encode host).map (fun b => Char.ofNat b.toNat) = host := by
      rw [encode_ascii hascii, List.map_map]
      refine (List.map_congr_left fun c hc => ?_).trans (List.map_id host)
      have hbyte : (UInt8.ofNat c.toNat).toNat = c.toNat :=
        UInt8.toNat_ofNat_of_lt' (Nat.lt_trans (hascii c hc) (by decide))
      simp [hbyte]
    rw [toStr, if_pos hbytes, hback, if_pos hvisible]
  · have hbytes : ¬ (encode host).all (fun b => (32 ≤ b ∧ b < 127) ∨ b = 9) = true := by
      intro hall
      apply hvisible
      rw [List.all_eq_true] at hall ⊢
      intro c hc
      have hpart : ∀ b ∈ String.utf8EncodeChar c, (32 ≤ b ∧ b < 127) ∨ b = 9 := fun b hb =>
        of_decide_eq_true (hall b (List.mem_flatMap.mpr ⟨c, hc, hb⟩))
      by_cases hsmall : c.toNat < 128
      · exact (isVisible_byte hsmall).mp (hpart _ (by simp [utf8EncodeChar_ascii hsmall]))
      · obtain ⟨b, hb, hhigh⟩ := exists_high_byte (Nat.le_of_not_lt hsmall)
        rcases hpart b hb with ⟨-, hlow⟩ | rfl
        · exact absurd (UInt8.lt_of_le_of_lt hhigh hlow) (by decide)
        · exact absurd hhigh (by decide)
    rw [toStr, if_neg hbytes, if_neg hvisible]

variable {req : HttpRequest} {host : Str}

theorem fullDomainOf_ok_iff (hhost : req.headers.lookup "host".toList = some (encode host))
    {fullDomain : Str} :
    fullDomainOf req.headers = .ok fullDomain ↔
      host.all isVisible = true ∧ (host.takeWhile (· ≠ ':')).map Char.toLower = fullDomain := by
  rw [fullDomainOf, hhost]
  by_cases hvisible : host.all isVisible = true
  · simp [toStr_encode, hvisible]
  · simp [toStr_encode, hvisible]

theorem tldOf_ok_iff {text cleanTld : Str} :
    tldOf (text.map Char.toLower) = .ok cleanTld ↔
      '.' ∈ text ∧ '.' :: (text.rtakeWhile (· ≠ '.')).map Char.toLower = cleanTld := by
  have hdot : ∀ c : Char, c.toLower = '.' ↔ c = '.' := fun c => toLower_eq_iff (by decide)
  have hmem : '.' ∈ text.map Char.toLower ↔ '.' ∈ text := by simp [hdot]
  have hlast : (text.map Char.toLower).rtakeWhile (· ≠ '.') =
      (text.rtakeWhile (· ≠ '.')).map Char.toLower := by
    simp only [List.rtakeWhile, ← List.map_reverse, List.takeWhile_map]
    simp [Function.comp_def, hdot]
  unfold tldOf
  rw [hlast]
  by_cases h : '.' ∈ text
  · simp [h, hmem]
  · simp [h, hmem]

/-- The lookup that a request gets to in the registry, and its outcome. -/
def PassesLookup (registry : TldRegistry) (req : HttpRequest) (config : NetworkConfig) : Prop :=
  ∃ fullDomain cleanTld, fullDomainOf req.headers = .ok fullDomain ∧
    tldOf fullDomain = .ok cleanTld ∧ registry.getConfig cleanTld = some config

theorem passesLookup_iff {registry : TldRegistry} {config : NetworkConfig}
    (hhost : req.headers.lookup "host".toList = some (encode host)) :
    PassesLookup registry req config ↔
      host.all isVisible = true ∧ '.' ∈ host.takeWhile (· ≠ ':') ∧
        registry.getConfig ('.' :: (lastLabel host).map Char.toLower) = some config := by
  simp only [PassesLookup, fullDomainOf_ok_iff hhost]
  constructor
  · rintro ⟨fullDomain, cleanTld, ⟨hvisible, rfl⟩, htld, hconfig⟩
    obtain ⟨hdot, rfl⟩ := tldOf_ok_iff.mp htld
    exact ⟨hvisible, hdot, hconfig⟩
  · rintro ⟨hvisible, hdot, hconfig⟩
    exact ⟨_, _, ⟨hvisible, rfl⟩, tldOf_ok_iff.mpr ⟨hdot, rfl⟩, hconfig⟩

theorem rtakeWhile_append_dot (before after : Str) :
    (before ++ '.' :: after).rtakeWhile (· ≠ '.') = after.rtakeWhile (· ≠ '.') := by
  have hreverse : (before ++ '.' :: after).reverse = after.reverse ++ '.' :: before.reverse := by
    simp
  simp only [List.rtakeWhile, hreverse, List.takeWhile_append]
  split
  · rename_i hlength
    have hall : after.reverse.takeWhile (· ≠ '.') = after.reverse :=
      (List.takeWhile_prefix _).eq_of_length hlength
    rw [hall, List.takeWhile_cons_of_neg (by decide), List.append_nil]
  · rfl

theorem takeWhile_of_notMem {c : Char} {s : Str} (h : c ∉ s) : s.takeWhile (· ≠ c) = s := by
  rw [List.takeWhile_eq_self_iff]
  intro d hd
  exact decide_eq_true fun heq => h (heq ▸ hd)

theorem rtakeWhile_of_notMem {c : Char} {s : Str} (h : c ∉ s) : s.rtakeWhile (· ≠ c) = s := by
  rw [List.rtakeWhile_eq_self_iff]
  intro d hd
  exact decide_eq_true fun heq => h (heq ▸ hd)

theorem dot_notMem_lastLabel (host : Str) : '.' ∉ lastLabel host := by
  intro hmem
  have hdot := List.mem_rtakeWhile_imp hmem
  simp at hdot

theorem colon_notMem_takeWhile (host : Str) : ':' ∉ host.takeWhile (· ≠ ':') := by
  intro hmem
  have hcolon := List.mem_takeWhile_imp hmem
  simp at hcolon

/-- A host with a dot after its first label keeps that label before any port. -/
theorem lastLabel_append {a t : Str} (hdot : '.' ∉ a)
    (hcut : '.' ∈ (a ++ '.' :: t).takeWhile (· ≠ ':')) :
    ':' ∉ a ∧ lastLabel (a ++ '.' :: t) = (t.takeWhile (· ≠ ':')).rtakeWhile (· ≠ '.') := by
  have hcolon : ':' ∉ a := by
    intro hmem
    obtain ⟨before, after, rfl⟩ := List.append_of_mem hmem
    have hpre : (before ++ ':' :: after ++ '.' :: t).takeWhile (· ≠ ':') <+:
        before ++ ':' :: (after ++ '.' :: t) := by
      simpa using List.takeWhile_prefix (l := before ++ ':' :: after ++ '.' :: t) (· ≠ ':')
    have hbefore := prefix_of_prefix_append_cons hpre (colon_notMem_takeWhile _)
    exact hdot (List.mem_append_left _ (hbefore.subset hcut))
  have hall : ∀ c ∈ a, (decide (c ≠ ':')) = true := by
    intro c hc
    exact decide_eq_true fun heq => hcolon (heq ▸ hc)
  refine ⟨hcolon, ?_⟩
  rw [lastLabel, List.takeWhile_append_of_pos hall, List.takeWhile_cons_of_pos (by decide),
    rtakeWhile_append_dot]

theorem lower_lower (s : Str) : (s.map Char.toLower).map Char.toLower = s.map Char.toLower := by
  rw [List.map_map]
  exact List.map_congr_left fun c _ => toLower_toLower c

theorem dot_notMem_lower {s : Str} (h : '.' ∉ s) : '.' ∉ s.map Char.toLower := by
  intro hmem
  obtain ⟨c, hc, hlower⟩ := List.mem_map.mp hmem
  exact h ((toLower_eq_iff (by decide)).mp hlower ▸ hc)

theorem trimStartDots_of_dot_free {s : Str} (h : '.' ∉ s) : trimStartDots s = s := by
  cases s with
  | nil => rfl
  | cons c rest =>
    have hc : c ≠ '.' := fun heq => h (by simp [heq])
    simp [trimStartDots, hc]

theorem route_of_parts {registry : TldRegistry} {fullDomain cleanTld baseDomain subdomain : Str}
    {config : NetworkConfig} (hdomain : fullDomainOf req.headers = .ok fullDomain)
    (htld : tldOf fullDomain = .ok cleanTld) (hconfig : registry.getConfig cleanTld = some config)
    (hsplit : extractBaseDomainAndSubdomain fullDomain cleanTld = some (baseDomain, subdomain)) :
    route registry req = .ok ⟨fullDomain, cleanTld, config, baseDomain, subdomain⟩ := by
  simp [route, hdomain, htld, hconfig, hsplit, bind, Except.bind]

theorem extract_label {a t : Str} (hne : a ≠ []) (hdot : '.' ∉ a) :
    extractBaseDomainAndSubdomain (a ++ '.' :: t) ('.' :: t) = some (a ++ '.' :: t, apex) := by
  refine extract_of_trim _ _ [] ⟨a, hne, hdot⟩ ?_
  rw [trimEndMatches_append _ _ (List.cons_ne_nil '.' t)]
  have hkept := trimEndMatches_of_not_suffix ('.' :: t) a (not_dotted_suffix_of_dot_free a t hdot)
  simpa [joined, texts] using hkept

/-- A host that is one lower-case label and the key of a stored network is routed to
that network exactly when the host is visible text without a colon and the cleaned TLD
is a single lower-case label. -/
theorem reachable_iff {is : List (ServingInput F)} {s : ServingState} {k a : Str}
    {config : NetworkConfig} (hrun : (serving lib globalConfig).Run is s)
    (hstored : s.registry.getConfig k = some config) (hne : a ≠ []) (hdot : '.' ∉ a)
    (hlower : a.map Char.toLower = a)
    (hhost : req.headers.lookup "host".toList = some (encode (a ++ k))) :
    (∃ r, route s.registry req = .ok r ∧ r.config = config) ↔
      ((a ++ k).all isVisible = true ∧ ':' ∉ a ++ k) ∧ '.' ∉ trimStartDots config.tld ∧
        (trimStartDots config.tld).map Char.toLower = trimStartDots config.tld := by
  have hadmitted := admitted_run hrun
  obtain ⟨hkey, -⟩ := hadmitted k config hstored
  obtain ⟨t, ht⟩ : ∃ t, trimStartDots config.tld = t := ⟨_, rfl⟩
  rw [ht] at hkey ⊢
  subst k
  constructor
  · rintro ⟨r, hroute, rfl⟩
    obtain ⟨hdomain, htld, hconfig, -⟩ := route_parts hroute
    obtain ⟨hvisible, hcut, hlast⟩ := (passesLookup_iff hhost).mp ⟨_, _, hdomain, htld, hconfig⟩
    obtain ⟨hcolon, hlabel⟩ := lastLabel_append hdot hcut
    -- the key found is the key of the same configuration
    have hsame : (lastLabel (a ++ '.' :: t)).map Char.toLower = t := by
      obtain ⟨hkey, -⟩ := hadmitted _ _ hlast
      rw [ht] at hkey
      exact (List.cons.inj hkey).2
    have hfull : t.takeWhile (· ≠ ':') = t := by
      have hlength := congrArg List.length hsame
      have hsuffix := (List.rtakeWhile_suffix (· ≠ '.') (t.takeWhile (· ≠ ':'))).length_le
      rw [List.length_map, hlabel] at hlength
      exact (List.takeWhile_prefix _).eq_of_length_le (by omega)
    have hcolonTld : ':' ∉ t := hfull ▸ colon_notMem_takeWhile t
    refine ⟨⟨hvisible, by simp [hcolon, hcolonTld]⟩, ?_, ?_⟩
    · exact hsame ▸ dot_notMem_lower (dot_notMem_lastLabel _)
    · exact hsame ▸ lower_lower _
  · rintro ⟨⟨hvisible, hcolon⟩, hdotTld, hlowerTld⟩
    have hfixed : (a ++ '.' :: t).map Char.toLower = a ++ '.' :: t := by
      rw [List.map_append, List.map_cons, hlower, hlowerTld]
      rfl
    have hdomain : fullDomainOf req.headers = .ok (a ++ '.' :: t) :=
      (fullDomainOf_ok_iff hhost).mpr ⟨hvisible, by rw [takeWhile_of_notMem hcolon, hfixed]⟩
    have htld : tldOf (a ++ '.' :: t) = .ok ('.' :: t) := by
      rw [← hfixed, tldOf_ok_iff, rtakeWhile_append_dot, rtakeWhile_of_notMem hdotTld, hlowerTld]
      exact ⟨by simp, rfl⟩
    exact ⟨_, route_of_parts hdomain htld hstored (extract_label hne hdot), rfl⟩

/-- A TLD as the last label of a host is read: without leading dots, in lower case. -/
def normalTld (tld : Str) : Str := (trimStartDots tld).map Char.toLower

/-- The last label of the host is some entry of the blacklist, dots and case ignored. -/
def ForBlacklisted (globalConfig : AtlasConfig) (req : HttpRequest) : Prop :=
  ∃ host entry, req.headers.lookup "host".toList = some (encode host) ∧
    entry ∈ globalConfig.blacklist ∧ normalTld (lastLabel host) = normalTld entry

/-- Requests for blacklisted TLDs find no network now, and got nowhere before. -/
def Enforced (globalConfig : AtlasConfig) (s : ServingState) : Prop :=
  (∀ req config, ForBlacklisted globalConfig req → ¬ PassesLookup s.registry req config) ∧
    ∀ req handled, (req, handled) ∈ s.log → ForBlacklisted globalConfig req →
      handled.effects = []

/-- A text that can be the last label of a host. -/
def IsLabel (text : Str) : Prop := text.all isVisible = true ∧ '.' ∉ text ∧ ':' ∉ text

/-- Every entry that a host can name is excluded in the spelling in which hosts name it. -/
def SpelledForHosts (globalConfig : AtlasConfig) : Prop :=
  ∀ entry ∈ globalConfig.blacklist, IsLabel (normalTld entry) →
    isExcluded globalConfig (normalTld entry) = true

theorem isVisible_lower {text : Str} (h : text.all isVisible = true) :
    (text.map Char.toLower).all isVisible = true := by
  rw [List.all_map, List.all_eq_true]
  intro c hc
  have hvisible := List.all_eq_true.mp h c hc
  simp only [Function.comp_apply, isVisible, decide_eq_true_eq] at hvisible ⊢
  rcases toLower_cases c with hsame | ⟨hlow, hhigh, hshift⟩
  · rwa [hsame]
  · omega

theorem lastLabel_sublist (host : Str) : List.Sublist (lastLabel host) host :=
  (List.rtakeWhile_suffix _ _).sublist.trans (List.takeWhile_prefix _).sublist

theorem isLabel_normalTld_lastLabel {host : Str} (h : host.all isVisible = true) :
    IsLabel (normalTld (lastLabel host)) := by
  have hdot := dot_notMem_lastLabel host
  have hvisible : (lastLabel host).all isVisible = true := by
    rw [List.all_eq_true] at h ⊢
    exact fun c hc => h c ((lastLabel_sublist host).subset hc)
  rw [normalTld, trimStartDots_of_dot_free hdot]
  refine ⟨isVisible_lower hvisible, dot_notMem_lower hdot, fun hmem => ?_⟩
  obtain ⟨c, hc, hcolon⟩ := List.mem_map.mp hmem
  have hc' : c = ':' := (toLower_eq_iff (by decide)).mp hcolon
  subst c
  exact colon_notMem_takeWhile host ((List.rtakeWhile_suffix _ _).subset hc)

/-- Whoever passes the lookup asks for a TLD that is not excluded in a host's spelling. -/
theorem not_excluded_of_passes {registry : TldRegistry} {config : NetworkConfig}
    (hadmitted : Admitted globalConfig registry)
    (hhost : req.headers.lookup "host".toList = some (encode host))
    (hpasses : PassesLookup registry req config) :
    IsLabel (normalTld (lastLabel host)) ∧
      isExcluded globalConfig (normalTld (lastLabel host)) = false := by
  obtain ⟨hvisible, -, hconfig⟩ := (passesLookup_iff hhost).mp hpasses
  refine ⟨isLabel_normalTld_lastLabel hvisible, ?_⟩
  obtain ⟨hkey, hallowed⟩ := hadmitted _ _ hconfig
  rw [normalTld, trimStartDots_of_dot_free (dot_notMem_lastLabel host), (List.cons.inj hkey).2]
  exact hallowed

theorem not_passes_of_blacklisted {registry : TldRegistry} {config : NetworkConfig}
    (hadmitted : Admitted globalConfig registry) (hspelled : SpelledForHosts globalConfig)
    (hreq : ForBlacklisted globalConfig req) : ¬ PassesLookup registry req config := by
  obtain ⟨host, entry, hhost, hentry, hsame⟩ := hreq
  intro hpasses
  obtain ⟨hlabel, hnot⟩ := not_excluded_of_passes hadmitted hhost hpasses
  rw [hsame] at hlabel hnot
  exact absurd (hspelled entry hentry hlabel) (by simp [hnot])

/-- A request that does not pass the lookup has no effect. -/
theorem effects_of_not_passes {registry : TldRegistry} {answers : Answers}
    (h : ∀ config, ¬ PassesLookup registry req config) :
    (handleProxyRequest lib globalConfig registry answers req).effects = [] := by
  cases hroute : route registry req with
  | error e => simp [handleProxyRequest, hroute]
  | ok r =>
    obtain ⟨hdomain, htld, hconfig, -⟩ := route_parts hroute
    exact absurd ⟨_, _, hdomain, htld, hconfig⟩ (h r.config)

theorem enforced_run (hspelled : SpelledForHosts globalConfig) {is : List (ServingInput F)}
    {s : ServingState} (hrun : (serving lib globalConfig).Run is s) :
    Enforced globalConfig s := by
  refine ⟨fun req config => not_passes_of_blacklisted (admitted_run hrun) hspelled, ?_⟩
  refine Machine.Run.invariant (P := fun _ s => ∀ req handled, (req, handled) ∈ s.log →
    ForBlacklisted globalConfig req → handled.effects = []) (by simp [serving]) ?_ hrun
  intro is s i s' hbefore ih hstep
  obtain rfl : servingStep lib globalConfig s i = s' := by simpa [serving] using hstep
  cases i with
  | load fs json disk => exact ih
  | request answers req =>
    intro req' handled hmem hreq
    rcases List.mem_append.mp hmem with hold | hnew
    · exact ih req' handled hold hreq
    · obtain ⟨rfl, rfl⟩ : req' = req ∧
          handled = handleProxyRequest lib globalConfig s.registry answers req := by
        simpa using hnew
      exact effects_of_not_passes fun config =>
        not_passes_of_blacklisted (admitted_run hbefore) hspelled hreq

/-- A directory with one network of a given TLD, wherever its files are. -/
def loadOf [Inhabited F] (config : NetworkConfig) : ServingInput F :=
  .load ⟨fun _ => default, fun _ => true, fun _ => true, fun _ _ => some ["a.json"],
    fun _ => false, fun _ => none, fun _ _ => none, fun _ => none, none⟩
    ⟨fun _ => some config, fun _ _ _ => []⟩ fun _ => some []

theorem loadOf_stores [Inhabited F] {tld : Str} (s : ServingState) (hdot : '.' ∉ tld)
    (hallowed : isExcluded globalConfig tld = false) :
    (servingStep lib globalConfig s
      (loadOf (network [] tld) : ServingInput F)).registry.getConfig ('.' :: tld) =
        some (network [] tld) := by
  have hextension : extension ['a', '.', 'j', 's', 'o', 'n'] = some ['j', 's', 'o', 'n'] := by
    decide
  have hempty : decodeStrict [] = some [] := rfl
  simp [servingStep, loadOf, loadFromDir, loadEntry, hextension, readToString, hempty, network,
    trimStartDots_of_dot_free hdot, hallowed, TldRegistry.new, TldRegistry.getConfig]

theorem lastLabel_of_label {a tld : Str} (hcolon : ':' ∉ a) (hlabel : IsLabel tld) :
    '.' ∈ (a ++ '.' :: tld).takeWhile (· ≠ ':') ∧ lastLabel (a ++ '.' :: tld) = tld := by
  obtain ⟨-, hdotTld, hcolonTld⟩ := hlabel
  have hcut : (a ++ '.' :: tld).takeWhile (· ≠ ':') = a ++ '.' :: tld :=
    takeWhile_of_notMem (by simp [hcolon, hcolonTld])
  refine ⟨?_, ?_⟩
  · rw [hcut]
    exact List.mem_append_right a List.mem_cons_self
  · rw [lastLabel, hcut, rtakeWhile_append_dot, rtakeWhile_of_notMem hdotTld]

/-- The blacklist holds against every directory and every request exactly when each
entry that a host can name is excluded in the spelling in which hosts name it. -/
theorem enforced_iff [Inhabited F] (lib : Libraries Reveal) (globalConfig : AtlasConfig) :
    (∀ (is : List (ServingInput F)) s, (serving lib globalConfig).Run is s →
        Enforced globalConfig s) ↔
      SpelledForHosts globalConfig := by
  refine ⟨fun henforced entry hentry hlabel => ?_, fun hspelled is s => enforced_run hspelled⟩
  by_contra hnot
  obtain ⟨tld, htld⟩ : ∃ tld, normalTld entry = tld := ⟨_, rfl⟩
  have hlower : tld.map Char.toLower = tld := htld ▸ lower_lower _
  have hallowed : isExcluded globalConfig tld = false := by simpa [htld] using hnot
  rw [htld] at hlabel
  -- a network under the lower-case TLD is admitted, and a host under it finds it
  let host : Str := "a".toList ++ '.' :: tld
  let req : HttpRequest := ⟨[], none, [("host", encode host)], none⟩
  have hhost : req.headers.lookup "host".toList = some (encode host) := rfl
  have hrun : (serving lib globalConfig : Machine _ (ServingInput F)).Run
      ([] ++ [loadOf (network [] tld)])
      (servingStep lib globalConfig ⟨.new, []⟩ (loadOf (network [] tld))) :=
    Machine.Run.snoc .nil rfl
  obtain ⟨hcut, hlast⟩ := lastLabel_of_label (a := "a") (by decide) hlabel
  have hvisible : host.all isVisible = true := by
    rw [List.all_append, List.all_cons, hlabel.1]
    decide
  have hpasses : PassesLookup (servingStep lib globalConfig ⟨.new, []⟩
      (loadOf (network [] tld) : ServingInput F)).registry req (network [] tld) := by
    rw [passesLookup_iff hhost]
    refine ⟨hvisible, hcut, ?_⟩
    rw [hlast, hlower]
    exact loadOf_stores _ hlabel.2.1 hallowed
  have hblacklisted : ForBlacklisted globalConfig req := by
    refine ⟨host, entry, hhost, hentry, ?_⟩
    rw [hlast, htld, normalTld, trimStartDots_of_dot_free hlabel.2.1, hlower]
  exact (henforced _ _ hrun).1 req _ hblacklisted hpasses

def loadTld (tld : Str) : ServingInput Str :=
  .load (directory "networks" ["a.json"]) (jsonOf [("main", tld)])
    (diskOf [("networks/a.json", networkJson "main" tld)])

theorem reachable_kin :
    ∃ s, (serving sampleLibraries globalDefaults).Run [loadTld "kin"] s ∧
      ∃ r, route s.registry (requestFor "a.kin") = .ok r ∧ r.config = network "main" "kin" := by
  have hrun := (serving sampleLibraries globalDefaults).run_get [loadTld "kin"] rfl
  have hhost : (requestFor "a.kin").headers.lookup "host".toList =
      some (encode ("a".toList ++ ".kin".toList)) := by
    decide
  refine ⟨_, hrun, (reachable_iff hrun (by decide +kernel) (by decide) (by decide) (by decide)
    hhost).mpr ?_⟩
  decide

/-- A TLD with a capital letter and one of two labels are stored where no host looks. -/
theorem unreachable_spellings :
    (∃ s, (serving sampleLibraries globalDefaults).Run [loadTld "Kin"] s ∧
        s.registry.getConfig ".Kin" = some (network "main" "Kin") ∧
        (handleProxyRequest sampleLibraries globalDefaults s.registry revealAnswered
          (requestFor "a.Kin")).result = .error .tldBlacklisted) ∧
      ∃ s, (serving sampleLibraries globalDefaults).Run [loadTld "co.kin"] s ∧
        s.registry.getConfig ".co.kin" = some (network "main" "co.kin") ∧
        (handleProxyRequest sampleLibraries globalDefaults s.registry revealAnswered
          (requestFor "a.co.kin")).result = .error .tldBlacklisted :=
  ⟨⟨_, Machine.run_get _ _ rfl, by decide +kernel, by decide +kernel⟩,
    ⟨_, Machine.run_get _ _ rfl, by decide +kernel, by decide +kernel⟩⟩

def listing (blacklist : List Str) : AtlasConfig :=
  { globalDefaults with blacklist := blacklist }

/-- The entries `Evil` and `.evil` leave the TLD `evil` open, and its swarm is spawned. -/
theorem blacklist_missed :
    (∃ s, (serving sampleLibraries (listing ["Evil"])).Run
          [loadTld "evil", .request revealAnswered (requestFor "a.evil")] s ∧
        ForBlacklisted (listing ["Evil"]) (requestFor "a.evil") ∧
        ∃ handled, (requestFor "a.evil", handled) ∈ s.log ∧
          .getOrSpawnSwarm ".evil" (network "main" "evil") ∈ handled.effects) ∧
      ∃ s, (serving sampleLibraries (listing [".evil"])).Run
          [loadTld "evil", .request revealAnswered (requestFor "a.evil")] s ∧
        ForBlacklisted (listing [".evil"]) (requestFor "a.evil") ∧
        ∃ handled, (requestFor "a.evil", handled) ∈ s.log ∧
          .getOrSpawnSwarm ".evil" (network "main" "evil") ∈ handled.effects := by
  have hhost : (requestFor "a.evil").headers.lookup "host".toList =
      some (encode "a.evil".toList) := by
    decide
  constructor
  · exact ⟨_, Machine.run_get _ _ rfl, ⟨_, _, hhost, .head _, by decide⟩, _, .head _,
      by decide +kernel⟩
  · exact ⟨_, Machine.run_get _ _ rfl, ⟨_, _, hhost, .head _, by decide⟩, _, .head _,
      by decide +kernel⟩

end KineticAtlas.Serving
