import KineticAtlas.Library.Texts

/-!
Splitting a host into the registered base domain and the zone key below it
(extract_base_domain_and_subdomain in proxy.rs). The top-level domain is taken
off by a repeated suffix trim, so labels that repeat it at the end of the host
disappear together with it. A host is given by its labels; the main result says
for exactly which hosts the trim agrees with removing the last label alone.
-/
namespace KineticAtlas.HostSplit

open Library.Texts

/-- The subdomain reported for a bare registered name. -/
def apex : Str := "@"

/-- `parts[0].is_empty()` rejects, among others, the empty remainder of a bare TLD. -/
def extractBaseDomainAndSubdomain (fullDomain cleanTld : Str) : Option (Str × Str) :=
  let domainWithoutTld := trimEndMatches cleanTld fullDomain
  let parts := domainWithoutTld.splitOn '.'
  match parts with
  | [] => none
  | [] :: _ => none
  | first :: rest =>
    let registeredName := (first :: rest).getLast (List.cons_ne_nil first rest)
    let baseDomain := registeredName ++ cleanTld
    let subdomain :=
      if (first :: rest).length > 1 then ['.'].intercalate (first :: rest).dropLast else apex
    some (baseDomain, subdomain)

/-- A host label: non-empty and free of dots. -/
structure Label where
  text : Str
  nonempty : text ≠ []
  dot_free : '.' ∉ text

/-- A host of at least two labels, the last of which is the top-level domain. -/
structure Host where
  subs : List Label
  name : Label
  tld : Label

def texts (ls : List Label) : List Str := ls.map Label.text

def joined (ls : List Label) : Str := ['.'].intercalate (texts ls)

namespace Host

def text (h : Host) : Str := joined (h.subs ++ [h.name, h.tld])

def suffix (h : Host) : Str := '.' :: h.tld.text

/-- The registered name directly below the TLD, whatever the other labels are. -/
def base (h : Host) : Str := h.name.text ++ h.suffix

def zoneKey (h : Host) : Str := if h.subs = [] then apex else joined h.subs

end Host

theorem splitOn_joined (ls : List Label) (hne : ls ≠ []) : (joined ls).splitOn '.' = texts ls := by
  apply List.splitOn_intercalate
  · intro l hl
    obtain ⟨a, _, rfl⟩ := List.mem_map.mp hl
    exact a.dot_free
  · simpa [texts] using hne

theorem joined_append_singleton (ls : List Label) (hne : ls ≠ []) (a : Label) :
    joined (ls ++ [a]) = joined ls ++ '.' :: a.text := by
  induction ls with
  | nil => exact absurd rfl hne
  | cons b rest ih =>
    cases rest with
    | nil => simp [joined, texts]
    | cons c rest =>
      have hrec := ih (List.cons_ne_nil c rest)
      simp only [joined, texts, List.cons_append, List.map_cons,
        List.intercalate_cons_cons, List.append_assoc] at hrec ⊢
      rw [hrec]

/-- Only the last label decides whether a dotted suffix can be trimmed. -/
theorem dotted_suffix_iff (s a t : Str) (ha : '.' ∉ a) (ht : '.' ∉ t) :
    '.' :: t <:+ s ++ '.' :: a ↔ a = t := by
  constructor
  · rintro ⟨p, hp⟩
    have hsplit := congrArg (fun x => (List.splitOn '.' x).getLast?) hp
    simp only [List.splitOn_append_cons_self, List.splitOn_eq_singleton ha,
      List.splitOn_eq_singleton ht, List.getLast?_append, List.getLast?_singleton,
      Option.some_or, Option.some.injEq] at hsplit
    exact hsplit.symm
  · rintro rfl
    exact List.suffix_append s ('.' :: a)

theorem not_dotted_suffix_of_dot_free (a t : Str) (ha : '.' ∉ a) : ¬ '.' :: t <:+ a := by
  intro h
  exact ha (h.subset List.mem_cons_self)

/-- Trimming a dotted label off a joined label list leaves a non-empty initial
part of the list, which either is one label or no longer ends in that label. -/
theorem trim_joined (t : Label) (ls : List Label) (hne : ls ≠ []) :
    ∃ ms, ms ≠ [] ∧ ms <+: ls ∧ trimEndMatches ('.' :: t.text) (joined ls) = joined ms ∧
      (ms.length = 1 ∨ ∃ ks a, ms = ks ++ [a] ∧ a.text ≠ t.text) := by
  induction ls using List.reverseRecOn with
  | nil => exact absurd rfl hne
  | append_singleton rest a ih =>
    by_cases hrest : rest = []
    · subst rest
      refine ⟨[a], List.cons_ne_nil a [], List.prefix_rfl, ?_, Or.inl rfl⟩
      apply trimEndMatches_of_not_suffix
      simpa [joined, texts] using not_dotted_suffix_of_dot_free a.text t.text a.dot_free
    · rw [joined_append_singleton rest hrest a]
      by_cases hat : a.text = t.text
      · obtain ⟨ms, hms, hpre, htrim, hend⟩ := ih hrest
        refine ⟨ms, hms, hpre.trans (List.prefix_append rest [a]), ?_, hend⟩
        rw [hat, trimEndMatches_append _ _ (List.cons_ne_nil '.' t.text)]
        exact htrim
      · refine ⟨rest ++ [a], by simp, List.prefix_rfl, ?_, Or.inr ⟨rest, a, rfl, hat⟩⟩
        rw [joined_append_singleton rest hrest a]
        apply trimEndMatches_of_not_suffix
        rw [dotted_suffix_iff _ _ _ a.dot_free t.dot_free]
        exact hat

/-- What is returned once the trim has left a joined label list. -/
theorem extract_of_trim (fullDomain cleanTld : Str) (ks : List Label) (a : Label)
    (htrim : trimEndMatches cleanTld fullDomain = joined (ks ++ [a])) :
    extractBaseDomainAndSubdomain fullDomain cleanTld =
      some (a.text ++ cleanTld, if ks = [] then apex else joined ks) := by
  have hparts : (joined (ks ++ [a])).splitOn '.' = texts ks ++ [a.text] := by
    rw [splitOn_joined _ (by simp)]
    simp [texts]
  unfold extractBaseDomainAndSubdomain
  simp only [htrim, hparts]
  cases ks with
  | nil =>
    obtain ⟨text, hnonempty, hdot⟩ := a
    cases text with
    | nil => exact absurd rfl hnonempty
    | cons c rest => simp [texts]
  | cons k rest =>
    obtain ⟨text, hnonempty, hdot⟩ := k
    cases text with
    | nil => exact absurd rfl hnonempty
    | cons c cs => simp [texts, joined, List.dropLast_cons_of_ne_nil]

namespace Host

theorem text_eq (h : Host) : h.text = joined (h.subs ++ [h.name]) ++ h.suffix := by
  have happend : h.subs ++ [h.name, h.tld] = (h.subs ++ [h.name]) ++ [h.tld] := by simp
  rw [text, happend, joined_append_singleton _ (by simp) h.tld]
  rfl

theorem trim_text (h : Host) :
    trimEndMatches h.suffix h.text = trimEndMatches h.suffix (joined (h.subs ++ [h.name])) := by
  rw [text_eq]
  exact trimEndMatches_append _ _ (List.cons_ne_nil '.' h.tld.text)

end Host

/-- The repeated trim does no harm: the registered name is not the TLD again,
or nothing stands before it. The third case is a coincidence of texts: in
`@.@.@` the label that is lost and the apex marker are the same character. -/
def TrimHarmless (h : Host) : Prop :=
  h.subs = [] ∨ h.name.text ≠ h.tld.text ∨
    (h.tld.text = apex ∧ texts h.subs = [apex] ∧ h.name.text = apex)

theorem extract_of_harmless_trim (h : Host)
    (hh : h.subs = [] ∨ h.name.text ≠ h.tld.text) :
    extractBaseDomainAndSubdomain h.text h.suffix = some (h.base, h.zoneKey) := by
  apply extract_of_trim
  rw [h.trim_text]
  apply trimEndMatches_of_not_suffix
  by_cases hsubs : h.subs = []
  · rw [hsubs]
    simpa [joined, texts, Host.suffix] using
      not_dotted_suffix_of_dot_free h.name.text h.tld.text h.name.dot_free
  · rw [joined_append_singleton _ hsubs, Host.suffix,
      dotted_suffix_iff _ _ _ h.name.dot_free h.tld.dot_free]
    exact hh.resolve_left hsubs

/-- A repeated TLD is lost unless the whole host is the apex marker three times. -/
theorem apex_host_of_extract (h : Host) (hsubs : h.subs ≠ []) (hname : h.name.text = h.tld.text)
    (hx : extractBaseDomainAndSubdomain h.text h.suffix = some (h.base, h.zoneKey)) :
    h.tld.text = apex ∧ texts h.subs = [apex] := by
  obtain ⟨ms, hms, hpre, htrim, hend⟩ := trim_joined h.tld h.subs hsubs
  obtain ⟨ks, a, rfl⟩ : ∃ ks a, ms = ks ++ [a] :=
    ⟨ms.dropLast, ms.getLast hms, (List.dropLast_append_getLast hms).symm⟩
  have htext : trimEndMatches h.suffix h.text = joined (ks ++ [a]) := by
    rw [h.trim_text, joined_append_singleton _ hsubs, hname]
    exact (trimEndMatches_append _ _ (List.cons_ne_nil '.' h.tld.text)).trans htrim
  rw [extract_of_trim _ _ ks a htext] at hx
  simp only [Host.base, Host.zoneKey, if_neg hsubs, Option.some.injEq, Prod.mk.injEq,
    List.append_cancel_right_eq] at hx
  obtain ⟨hlast, hkey⟩ := hx
  have hks : ks = [] := by
    rcases hend with hone | ⟨ks', a', hsame, hne⟩
    · simpa using hone
    · have ha : a = a' := by simpa using congrArg List.getLast? hsame
      exact absurd (ha ▸ hlast.trans hname) hne
  subst ks
  have hapexKey : joined h.subs = apex := by simpa using hkey.symm
  have hsubsText : texts h.subs = [apex] := by
    rw [← splitOn_joined h.subs hsubs, hapexKey]
    decide
  refine ⟨?_, hsubsText⟩
  -- the one label the trim left is the first of the host, hence the apex marker
  obtain ⟨rest, hrest⟩ := hpre
  have hfirst : a.text :: texts rest = [apex] := by
    rw [← hsubsText, ← hrest]
    rfl
  rw [← hname, ← hlast]
  exact (List.cons.inj hfirst).1

/-- The host is split at the label below its TLD exactly when the trim is harmless. -/
theorem extract_correct_iff (h : Host) :
    extractBaseDomainAndSubdomain h.text h.suffix = some (h.base, h.zoneKey) ↔
      TrimHarmless h := by
  constructor
  · intro hx
    by_cases hsubs : h.subs = []
    · exact Or.inl hsubs
    by_cases hname : h.name.text = h.tld.text
    · obtain ⟨htld, hlist⟩ := apex_host_of_extract h hsubs hname hx
      exact Or.inr (Or.inr ⟨htld, hlist, hname.trans htld⟩)
    · exact Or.inr (Or.inl hname)
  · rintro (hsubs | hname | ⟨htld, hlist, hname⟩)
    · exact extract_of_harmless_trim h (Or.inl hsubs)
    · exact extract_of_harmless_trim h (Or.inr hname)
    · have hsubs : h.subs ≠ [] := by
        intro hnil
        simp [hnil, texts] at hlist
      have htext : h.text = "@.@.@".toList := by
        rw [h.text_eq, joined_append_singleton _ hsubs, joined, hlist, hname, Host.suffix, htld]
        decide
      have hkey : h.zoneKey = apex := by
        rw [Host.zoneKey, if_neg hsubs, joined, hlist]
        rfl
      rw [htext, hkey, Host.base, Host.suffix, htld, hname]
      decide

def repeatedTldHost : Host :=
  ⟨[⟨"a", by decide, by decide⟩], ⟨"kin", by decide, by decide⟩, ⟨"kin", by decide, by decide⟩⟩

/-- `a.kin.kin` is routed to the owner of `a.kin` instead of that of `kin.kin`. -/
theorem repeated_tld_misrouted :
    repeatedTldHost.text = "a.kin.kin".toList ∧
      extractBaseDomainAndSubdomain repeatedTldHost.text repeatedTldHost.suffix =
        some ("a.kin".toList, apex) ∧
      extractBaseDomainAndSubdomain repeatedTldHost.text repeatedTldHost.suffix ≠
        some (repeatedTldHost.base, repeatedTldHost.zoneKey) := by
  decide

end KineticAtlas.HostSplit
