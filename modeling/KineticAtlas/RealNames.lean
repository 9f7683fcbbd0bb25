import KineticAtlas.HostRoundTrip
import KineticAtlas.Serving

/-!
Which names the proxy asks the DHT for (proxy.rs). A query should be for a label right
below a registered TLD. The check for an empty label looks at the first piece of the
host, whereas the name that is queried is the last one; the main result says for which
hosts an empty name gets past the check.
-/
namespace KineticAtlas.RealNames

open Library.Texts KineticAtlas.Types HostSplit HostRoundTrip Registry ProxyHandler

/-- The host ends in a registered TLD with a non-empty label right before it. -/
def NamesLabel (registry : TldRegistry) (fullDomain : Str) : Prop :=
  ∃ h : HostText, h.text = fullDomain ∧ (registry.networks h.cleanTld).isSome ∧
    ∃ before name, h.before = before ++ name ∧ (before = [] ∨ before.getLast? = some '.') ∧
      name ≠ [] ∧ '.' ∉ name

/-- The domain is a label below the registered TLD that the host ends in. -/
def RealQuery (registry : TldRegistry) (fullDomain domain : Str) : Prop :=
  ∃ (h : HostText) (name : Str), h.text = fullDomain ∧ (registry.networks h.cleanTld).isSome ∧
    name ≠ [] ∧ '.' ∉ name ∧ domain = name ++ h.cleanTld

/-- The request is refused as invalid before anything is asked of a swarm. Where there is
no such TLD at all, that is what the refusal says. -/
def Rejected (registry : TldRegistry) (fullDomain : Str) (handled : Handled) : Prop :=
  handled.effects = [] ∧
    ((∃ reason, handled.result = .error (.invalidProxyRequest reason)) ∨
      (handled.result = .error .tldBlacklisted ∧
        ∃ h : HostText, h.text = fullDomain ∧ registry.networks h.cleanTld = none))

variable {Reveal : Type}

/-- Whatever the request meets, only real names are queried, and a host without one is
refused. -/
def QueriesRealNames (lib : Libraries Reveal) (globalConfig : AtlasConfig)
    (registry : TldRegistry) (req : HttpRequest) : Prop :=
  ∀ answers fullDomain, fullDomainOf req.headers = .ok fullDomain →
    (∀ domain, .getRecord domain ∈
        (handleProxyRequest lib globalConfig registry answers req).effects →
      RealQuery registry fullDomain domain) ∧
    (¬ NamesLabel registry fullDomain →
      Rejected registry fullDomain (handleProxyRequest lib globalConfig registry answers req))

/-- In front of the copies of a registered TLD that it ends in, the host has an empty label,
and before that a text that does not begin with a dot. -/
def EmptyName (registry : TldRegistry) (fullDomain : Str) : Prop :=
  ∃ before last n, '.' ∉ last ∧ (registry.networks ('.' :: last)).isSome ∧ before ≠ [] ∧
    before.head? ≠ some '.' ∧
    fullDomain = before ++ '.' :: (List.replicate (n + 1) ('.' :: last)).flatten

variable {lib : Libraries Reveal} {globalConfig : AtlasConfig} {registry : TldRegistry}
  {answers : Answers} {req : HttpRequest} {fullDomain : Str}

theorem exists_hostText (hdot : '.' ∈ fullDomain) : ∃ h : HostText, h.text = fullDomain := by
  obtain ⟨before, last, htext, hlast⟩ := exists_last_piece hdot
  exact ⟨⟨before, last, hlast⟩, htext.symm⟩

theorem hostText_unique {h h' : HostText} (htext : h.text = h'.text) : h = h' := by
  obtain ⟨before, last, hlast⟩ := h
  obtain ⟨before', last', hlast'⟩ := h'
  obtain ⟨rfl, rfl⟩ := last_piece_unique hlast hlast' htext
  rfl

theorem tldOf_text (h : HostText) : tldOf h.text = .ok h.cleanTld := by
  have hlast : h.text.rtakeWhile (· ≠ '.') = h.last :=
    (Serving.rtakeWhile_append_dot h.before h.last).trans (Serving.rtakeWhile_of_notMem h.dot_free)
  have hdot : '.' ∈ h.text := by simp [HostText.text, HostText.cleanTld]
  rw [tldOf, if_pos hdot, hlast]
  rfl

/-- A host is split unless it begins with a dot. -/
theorem split_of_no_leading_dot {h : HostText} (hhead : h.text.head? ≠ some '.') :
    ∃ base sub, h.route = some (base, sub) := by
  rcases route_cases h with ⟨hdot, -⟩ | ⟨u, -, ⟨-, hroute⟩ | ⟨before, name, -, -, hroute⟩⟩
  · exact absurd hdot hhead
  · exact ⟨_, _, hroute⟩
  · exact ⟨_, _, hroute⟩

theorem route_no_dot (hdomain : fullDomainOf req.headers = .ok fullDomain)
    (hdot : '.' ∉ fullDomain) :
    route registry req =
      .error (.invalidProxyRequest "Invalid domain structure: No TLD") := by
  simp [route, tldOf, hdomain, hdot, bind, Except.bind]

theorem route_unknown {h : HostText} (hdomain : fullDomainOf req.headers = .ok h.text)
    (hnone : registry.networks h.cleanTld = none) :
    route registry req = .error .tldBlacklisted := by
  simp [route, hdomain, tldOf_text, TldRegistry.getConfig, hnone, bind, Except.bind]

theorem route_unsplit {h : HostText} (hdomain : fullDomainOf req.headers = .ok h.text)
    (hknown : (registry.networks h.cleanTld).isSome) (hnone : h.route = none) :
    route registry req = .error (.invalidProxyRequest "Could not parse base domain") := by
  obtain ⟨config, hconfig⟩ := Option.isSome_iff_exists.mp hknown
  have hsplit : extractBaseDomainAndSubdomain h.text h.cleanTld = none := hnone
  simp [route, hdomain, tldOf_text, TldRegistry.getConfig, hconfig, hsplit, bind, Except.bind]

theorem route_split {h : HostText} {base sub : Str}
    (hdomain : fullDomainOf req.headers = .ok h.text)
    (hknown : (registry.networks h.cleanTld).isSome) (hroute : h.route = some (base, sub)) :
    ∃ config, route registry req = .ok ⟨h.text, h.cleanTld, config, base, sub⟩ := by
  obtain ⟨config, hconfig⟩ := Option.isSome_iff_exists.mp hknown
  exact ⟨config, Serving.route_of_parts hdomain (tldOf_text h) hconfig hroute⟩

/-- A query is for the base domain that a host of a registered TLD is split into. -/
theorem query_base {domain : Str} (hdomain : fullDomainOf req.headers = .ok fullDomain)
    (hquery : .getRecord domain ∈
      (handleProxyRequest lib globalConfig registry answers req).effects) :
    ∃ (h : HostText) (sub : Str), h.text = fullDomain ∧
      (registry.networks h.cleanTld).isSome ∧ h.route = some (domain, sub) := by
  obtain ⟨r, hroute, hcase⟩ := handled_effect hquery
  obtain ⟨hfull, htld, hconfig, hsplit⟩ := route_parts hroute
  have hbase : domain = r.baseDomain := by
    rcases hcase with hspawn | hrecord | ⟨_, _, _, _, -, -, -, hfailover⟩
    · cases hspawn
    · exact (Effect.getRecord.inj hrecord)
    · obtain ⟨j, target, -, heffect⟩ := failover_effect hfailover
      rcases attemptTarget_effect heffect with ⟨_, _, _, _, heq⟩ | ⟨_, _, heq⟩ <;> cases heq
  subst domain
  obtain rfl : r.fullDomain = fullDomain := Except.ok.inj (hfull.symm.trans hdomain)
  have hdot : '.' ∈ r.fullDomain := by
    by_contra hnone
    simp [tldOf, hnone] at htld
  obtain ⟨h, htext⟩ := exists_hostText hdot
  have hclean : h.cleanTld = r.cleanTld := by
    rw [← htext, tldOf_text] at htld
    exact Except.ok.inj htld
  rw [← hclean] at hconfig hsplit
  rw [← htext] at hsplit
  exact ⟨h, r.subdomain, htext, Option.isSome_iff_exists.mpr ⟨r.config, hconfig⟩, hsplit⟩

/-- A swarm is there, but its answer never comes. -/
def unanswered : Answers := ⟨true, .dropped, fun _ => .error [], fun _ => .dropped⟩

theorem effects_unanswered {r : Route} (hroute : route registry req = .ok r) :
    (handleProxyRequest lib globalConfig registry unanswered req).effects =
      [.getOrSpawnSwarm r.cleanTld r.config, .getRecord r.baseDomain] := by
  simp [handleProxyRequest, hroute, unanswered]

/-- The host that such a text is, cut at its last dot. -/
def emptyNamed (before last : Str) (n : ℕ) (hlast : '.' ∉ last) : HostText :=
  ⟨before ++ '.' :: (List.replicate n ('.' :: last)).flatten, last, hlast⟩

theorem emptyNamed_text (before last : Str) (n : ℕ) (hlast : '.' ∉ last) :
    (emptyNamed before last n hlast).text =
      before ++ '.' :: (List.replicate (n + 1) ('.' :: last)).flatten := by
  rw [List.replicate_succ', List.flatten_append]
  simp [HostText.text, emptyNamed, HostText.cleanTld]

/-- Under a TLD that is more than a dot, the empty name is what is queried. -/
theorem emptyNamed_route {before last : Str} {n : ℕ} {hlast : '.' ∉ last} (hne : before ≠ [])
    (hhead : before.head? ≠ some '.') (hnil : last ≠ []) :
    (emptyNamed before last n hlast).route =
      some ((emptyNamed before last n hlast).cleanTld, before) := by
  have hkept : ¬ '.' :: last <:+ before ++ '.' :: [] := by
    rw [dotted_suffix_iff before [] last List.not_mem_nil hlast]
    exact hnil.symm
  have htrim : trimEndMatches ('.' :: last) (emptyNamed before last n hlast).text =
      before ++ '.' :: [] := by
    have hcopies := trimEndMatches_append_copies ('.' :: last) (before ++ '.' :: [])
      (List.cons_ne_nil '.' last) (n + 1)
    rw [trimEndMatches_of_not_suffix _ _ hkept] at hcopies
    rw [emptyNamed_text, ← hcopies]
    simp
  exact extract_labels_of_trim htrim List.not_mem_nil hne hhead

/-- Under the TLD that is a dot alone, the host has no label right before it. -/
theorem emptyNamed_no_label {before : Str} {n : ℕ} :
    ¬ NamesLabel registry (emptyNamed before [] n List.not_mem_nil).text := by
  rintro ⟨h, htext, -, front, name, hbefore, -, hname, hdot⟩
  obtain rfl := hostText_unique htext
  have hend : (emptyNamed before [] n List.not_mem_nil).before.getLast? = some '.' := by
    rw [emptyNamed, List.flatten_replicate_singleton, ← List.replicate_succ,
      List.getLast?_append_of_ne_nil before (by simp)]
    simp [List.getLast?_replicate]
  rw [hbefore, List.getLast?_append_of_ne_nil front hname] at hend
  exact hdot (List.mem_of_getLast? hend)

theorem not_real_of_emptyName (hdomain : fullDomainOf req.headers = .ok fullDomain)
    (hempty : EmptyName registry fullDomain) :
    ¬ QueriesRealNames lib globalConfig registry req := by
  intro hreal
  obtain ⟨before, last, n, hlast, hknown, hne, hhead, htext⟩ := hempty
  rw [← emptyNamed_text before last n hlast] at htext
  subst htext
  obtain ⟨hqueries, hrefused⟩ := hreal unanswered _ hdomain
  by_cases hnil : last = []
  · subst hnil
    have hstart : (emptyNamed before [] n hlast).text.head? ≠ some '.' := by
      rw [emptyNamed_text, List.head?_append_of_ne_nil before hne]
      exact hhead
    obtain ⟨base, sub, hroute⟩ := split_of_no_leading_dot hstart
    obtain ⟨config, hsplit⟩ := route_split hdomain hknown hroute
    obtain ⟨hsilent, -⟩ := hrefused emptyNamed_no_label
    rw [effects_unanswered hsplit] at hsilent
    cases hsilent
  · obtain ⟨config, hsplit⟩ := route_split hdomain hknown (emptyNamed_route hne hhead hnil)
    rw [effects_unanswered hsplit] at hqueries
    obtain ⟨h, name, htext, -, hname, -, hquery⟩ :=
      hqueries _ (List.mem_cons_of_mem _ (List.mem_singleton_self _))
    obtain rfl := hostText_unique htext
    exact hname (List.append_left_eq_self.mp hquery.symm)

theorem real_of_query {domain : Str} (hempty : ¬ EmptyName registry fullDomain)
    (hdomain : fullDomainOf req.headers = .ok fullDomain)
    (hquery : .getRecord domain ∈
      (handleProxyRequest lib globalConfig registry answers req).effects) :
    RealQuery registry fullDomain domain := by
  obtain ⟨h, sub, rfl, hknown, hroute⟩ := query_base hdomain hquery
  have hhead : h.text.head? ≠ some '.' := by
    intro hdot
    rw [h.route_of_leading_dot hdot] at hroute
    cases hroute
  obtain ⟨hne, hstart⟩ := h.trim_of_no_leading_dot hhead
  rcases route_cases h with ⟨hdot, -⟩ | ⟨u, rfl, ⟨hdot, hname⟩ | ⟨before, name, hu, hdot, hlabels⟩⟩
  · exact absurd hdot hhead
  · rw [hname, Option.some.injEq, Prod.mk.injEq] at hroute
    exact ⟨h, _, rfl, hknown, hne, hdot, hroute.1.symm⟩
  · rw [hlabels, Option.some.injEq, Prod.mk.injEq] at hroute
    refine ⟨h, name, rfl, hknown, ?_, hdot, hroute.1.symm⟩
    rintro rfl
    obtain ⟨k, hcopies⟩ := h.text_eq_copies
    rw [hu] at hcopies hstart
    have hbefore : before ≠ [] := by
      rintro rfl
      exact hstart rfl
    rw [List.head?_append_of_ne_nil before hbefore] at hstart
    refine hempty ⟨before, h.last, k, h.dot_free, hknown, hbefore, hstart, hcopies.trans ?_⟩
    simp [HostText.cleanTld]

/-- A host of a registered TLD has a label in front of it, an empty name, or begins with a
dot. -/
theorem leading_dot_of_no_label {h : HostText} (hknown : (registry.networks h.cleanTld).isSome)
    (hempty : ¬ EmptyName registry h.text) (hlabel : ¬ NamesLabel registry h.text) :
    h.text.head? = some '.' := by
  by_contra hhead
  by_cases hbefore : '.' ∈ h.before
  · obtain ⟨before, name, hparts, hname⟩ := exists_last_piece hbefore
    have hnil : name = [] := by
      by_contra hne
      exact hlabel ⟨h, rfl, hknown, before ++ ['.'], name, by simpa using hparts,
        Or.inr (by simp), hne, hname⟩
    subst hnil
    have htext : h.text = before ++ '.' :: h.cleanTld := by simp [HostText.text, hparts]
    have hne : before ≠ [] := by
      rintro rfl
      exact hhead (by rw [htext]; rfl)
    rw [htext, List.head?_append_of_ne_nil before hne] at hhead
    refine hempty ⟨before, h.last, 0, h.dot_free, hknown, hne, hhead, htext.trans ?_⟩
    simp [HostText.cleanTld]
  · have hne : h.before ≠ [] := by
      intro hnil
      exact hhead (by simp [HostText.text, HostText.cleanTld, hnil])
    exact hlabel ⟨h, rfl, hknown, [], h.before, rfl, Or.inl rfl, hne, hbefore⟩

theorem rejected_of_no_label (hempty : ¬ EmptyName registry fullDomain)
    (hdomain : fullDomainOf req.headers = .ok fullDomain)
    (hlabel : ¬ NamesLabel registry fullDomain) :
    Rejected registry fullDomain
      (handleProxyRequest lib globalConfig registry answers req) := by
  by_cases hdot : '.' ∈ fullDomain
  · obtain ⟨h, rfl⟩ := exists_hostText hdot
    cases hnetwork : registry.networks h.cleanTld with
    | none =>
      rw [handled_of_route_error (route_unknown hdomain hnetwork)]
      exact ⟨rfl, Or.inr ⟨rfl, h, rfl, hnetwork⟩⟩
    | some config =>
      have hknown : (registry.networks h.cleanTld).isSome := by simp [hnetwork]
      have hleading := leading_dot_of_no_label hknown hempty hlabel
      rw [handled_of_route_error (route_unsplit hdomain hknown (h.route_of_leading_dot hleading))]
      exact ⟨rfl, Or.inl ⟨_, rfl⟩⟩
  · rw [handled_of_route_error (route_no_dot hdomain hdot)]
    exact ⟨rfl, Or.inl ⟨_, rfl⟩⟩

/-- Only real names are queried exactly for the hosts that do not have an empty name in
front of their registered TLD and something else before that. -/
theorem queries_real_names_iff (lib : Libraries Reveal) (globalConfig : AtlasConfig)
    (registry : TldRegistry) (req : HttpRequest) :
    QueriesRealNames lib globalConfig registry req ↔
      ∀ fullDomain, fullDomainOf req.headers = .ok fullDomain →
        ¬ EmptyName registry fullDomain := by
  constructor
  · intro hreal fullDomain hdomain hempty
    exact not_real_of_emptyName hdomain hempty hreal
  · intro hnone answers fullDomain hdomain
    have hempty := hnone fullDomain hdomain
    exact ⟨fun domain hquery => real_of_query hempty hdomain hquery,
      rejected_of_no_label hempty hdomain⟩

/-- For the host `a..kin` the name queried is the TLD itself. -/
theorem empty_name_queried :
    .getRecord ".kin".toList ∈ (handleProxyRequest sampleLibraries globalDefaults kinRegistry
        revealAnswered (requestFor "a..kin")).effects ∧
      ¬ QueriesRealNames sampleLibraries globalDefaults kinRegistry (requestFor "a..kin") := by
  have hdomain : fullDomainOf (requestFor "a..kin").headers = .ok "a..kin".toList := by decide
  refine ⟨by decide, not_real_of_emptyName hdomain ?_⟩
  exact ⟨"a", "kin", 0, by decide, by decide, by decide, by decide, by decide⟩

end KineticAtlas.RealNames
