import KineticAtlas.HostSplit

/-!
Reading a host back from the base domain and the zone key it was split into. The
labels are whatever a Host header holds, empty ones included. Two things conflate
hosts: the repeated trim of the TLD, and the apex marker, which is itself a label
that a host may carry. The main result says exactly which hosts come back.
-/
namespace KineticAtlas.HostRoundTrip

open Library.Texts HostSplit

/-- A host with a dot in it, cut at the last one. -/
structure HostText where
  before : Str
  last : Str
  dot_free : '.' ∉ last

namespace HostText

def cleanTld (h : HostText) : Str := '.' :: h.last

def text (h : HostText) : Str := h.before ++ h.cleanTld

/-- Where the proxy looks a host up: the registered domain and the key in its zone. -/
def route (h : HostText) : Option (Str × Str) :=
  extractBaseDomainAndSubdomain h.text h.cleanTld

end HostText

/-- The host that a base domain and a zone key stand for. -/
def rejoin (base sub : Str) : Str := if sub = apex then base else sub ++ '.' :: base

def LosesNothing (h : HostText) : Prop :=
  ∀ base sub, h.route = some (base, sub) → h.text = rejoin base sub

/-- The host is refused for its leading dot, or the label before the TLD does not
repeat it and the apex marker is not the one label below the registered name. -/
def Recoverable (h : HostText) : Prop :=
  h.text.head? = some '.' ∨
    (¬ h.cleanTld <:+ h.before ∧ ∀ name, '.' ∉ name → h.before ≠ apex ++ '.' :: name)

section Extract

variable {fullDomain cleanTld u : Str}

theorem extract_none_of_trim (htrim : trimEndMatches cleanTld fullDomain = u)
    (hu : u = [] ∨ u.head? = some '.') :
    extractBaseDomainAndSubdomain fullDomain cleanTld = none := by
  unfold extractBaseDomainAndSubdomain
  rw [htrim]
  rcases hu with rfl | hhead
  · rfl
  · obtain ⟨rest, rfl⟩ := List.head?_eq_some_iff.mp hhead
    simp [List.splitOn_cons_eq_if_modifyHead]

theorem extract_name_of_trim (htrim : trimEndMatches cleanTld fullDomain = u) (hne : u ≠ [])
    (hdot : '.' ∉ u) :
    extractBaseDomainAndSubdomain fullDomain cleanTld = some (u ++ cleanTld, apex) := by
  unfold extractBaseDomainAndSubdomain
  simp only [htrim, List.splitOn_eq_singleton hdot]
  cases u with
  | nil => exact absurd rfl hne
  | cons c rest => rfl

theorem extract_labels_of_trim {before name : Str}
    (htrim : trimEndMatches cleanTld fullDomain = before ++ '.' :: name) (hdot : '.' ∉ name)
    (hne : before ≠ []) (hhead : before.head? ≠ some '.') :
    extractBaseDomainAndSubdomain fullDomain cleanTld = some (name ++ cleanTld, before) := by
  have hback : ['.'].intercalate (before.splitOn '.') = before := List.intercalate_splitOn '.'
  unfold extractBaseDomainAndSubdomain
  simp only [htrim, splitOn_last_piece before hdot]
  cases hsplit : before.splitOn '.' with
  | nil => exact absurd hsplit (List.splitOn_ne_nil '.' before)
  | cons first rest =>
    rw [hsplit] at hback
    cases first with
    | cons c cs =>
      simp [List.dropLast_cons_of_ne_nil, hback]
    | nil =>
      -- an empty first part means an empty text or a leading dot
      cases rest with
      | nil => exact absurd (by simpa using hback.symm) hne
      | cons next rest =>
        rw [List.intercalate_cons_cons] at hback
        exact absurd (by rw [← hback]; rfl) hhead

end Extract

namespace HostText

theorem trim_text (h : HostText) :
    trimEndMatches h.cleanTld h.text = trimEndMatches h.cleanTld h.before :=
  trimEndMatches_append _ _ (List.cons_ne_nil '.' h.last)

theorem before_eq (h : HostText) :
    ∃ k, h.before =
      trimEndMatches h.cleanTld h.text ++ (List.replicate k h.cleanTld).flatten := by
  rw [h.trim_text]
  exact eq_trimEndMatches_append h.cleanTld h.before

/-- What is trimmed off a host are its copies of the TLD, of which it has at least one. -/
theorem text_eq_copies (h : HostText) :
    ∃ k, h.text = trimEndMatches h.cleanTld h.text ++
      (List.replicate (k + 1) h.cleanTld).flatten := by
  obtain ⟨k, hk⟩ := h.before_eq
  refine ⟨k, ?_⟩
  rw [List.replicate_succ', List.flatten_append, ← List.append_assoc, ← hk]
  simp [text]

/-- A host that does not begin with a dot keeps something in front of its TLD. -/
theorem trim_of_no_leading_dot (h : HostText) (hhead : h.text.head? ≠ some '.') :
    trimEndMatches h.cleanTld h.text ≠ [] ∧
      (trimEndMatches h.cleanTld h.text).head? ≠ some '.' := by
  obtain ⟨k, htext⟩ := h.text_eq_copies
  cases htrim : trimEndMatches h.cleanTld h.text with
  | nil =>
    rw [htrim, List.nil_append, List.replicate_succ, List.flatten_cons] at htext
    exact absurd (by rw [htext]; rfl) hhead
  | cons c rest =>
    refine ⟨List.cons_ne_nil c rest, ?_⟩
    rw [htext, htrim] at hhead
    exact hhead

theorem route_of_leading_dot (h : HostText) (hhead : h.text.head? = some '.') :
    h.route = none := by
  apply extract_none_of_trim rfl
  obtain ⟨k, hk⟩ := h.before_eq
  cases htrim : trimEndMatches h.cleanTld h.text with
  | nil => exact Or.inl rfl
  | cons c rest =>
    rw [htrim] at hk
    rw [text, hk] at hhead
    exact Or.inr hhead

theorem text_eq_trim_iff (h : HostText) :
    h.text = trimEndMatches h.cleanTld h.text ++ h.cleanTld ↔ ¬ h.cleanTld <:+ h.before := by
  rw [h.trim_text, text, List.append_cancel_right_eq, eq_comm]
  exact trimEndMatches_eq_self_iff _ _ (List.cons_ne_nil '.' h.last)

end HostText

/-- The three ways a host is taken apart. The last alternative names the label left
of the TLD and the text before it. -/
theorem route_cases (h : HostText) :
    (h.text.head? = some '.' ∧ h.route = none) ∨
      ∃ u, u = trimEndMatches h.cleanTld h.text ∧
        (('.' ∉ u ∧ h.route = some (u ++ h.cleanTld, apex)) ∨
          ∃ before name, u = before ++ '.' :: name ∧ '.' ∉ name ∧
            h.route = some (name ++ h.cleanTld, before)) := by
  by_cases hhead : h.text.head? = some '.'
  · exact Or.inl ⟨hhead, h.route_of_leading_dot hhead⟩
  obtain ⟨hne, hdot⟩ := h.trim_of_no_leading_dot hhead
  refine Or.inr ⟨_, rfl, ?_⟩
  by_cases hmem : '.' ∈ trimEndMatches h.cleanTld h.text
  · obtain ⟨before, name, hu, hname⟩ := exists_last_piece hmem
    rw [hu] at hdot
    have hbefore : before ≠ [] := by
      rintro rfl
      exact hdot rfl
    refine Or.inr ⟨before, name, hu, hname, extract_labels_of_trim hu hname hbefore ?_⟩
    rwa [List.head?_append_of_ne_nil before hbefore] at hdot
  · exact Or.inl ⟨hmem, extract_name_of_trim rfl hne hmem⟩

theorem last_piece_unique {s s' a a' : Str} (ha : '.' ∉ a) (ha' : '.' ∉ a')
    (h : s ++ '.' :: a = s' ++ '.' :: a') : s = s' ∧ a = a' := by
  have hlast : a = a' :=
    (dotted_suffix_iff s' a' a ha' ha).mp (h ▸ List.suffix_append s ('.' :: a)) |>.symm
  subst hlast
  exact ⟨List.append_cancel_right h, rfl⟩

theorem losesNothing_of_route {h : HostText} {base sub : Str}
    (hroute : h.route = some (base, sub)) : LosesNothing h ↔ h.text = rejoin base sub := by
  constructor
  · intro hh
    exact hh base sub hroute
  · intro htext base' sub' hroute'
    rw [hroute, Option.some.injEq, Prod.mk.injEq] at hroute'
    rw [← hroute'.1, ← hroute'.2]
    exact htext

theorem recoverable_of_route {h : HostText} {p : Str × Str} (hroute : h.route = some p) :
    Recoverable h ↔
      ¬ h.cleanTld <:+ h.before ∧ ∀ name, '.' ∉ name → h.before ≠ apex ++ '.' :: name := by
  refine or_iff_right fun hhead => ?_
  rw [h.route_of_leading_dot hhead] at hroute
  exact Option.some_ne_none p hroute.symm

/-- Exactly the recoverable hosts come back from their split. -/
theorem losesNothing_iff (h : HostText) : LosesNothing h ↔ Recoverable h := by
  rcases route_cases h with ⟨hhead, hroute⟩ | ⟨u, hu, hcases⟩
  · exact ⟨fun _ => Or.inl hhead, fun _ base sub hsome => by simp [hroute] at hsome⟩
  have hkept := h.text_eq_trim_iff
  rw [← hu] at hkept
  have hbefore : ¬ h.cleanTld <:+ h.before → h.before = u := fun hsuffix =>
    List.append_cancel_right (hkept.mpr hsuffix)
  rcases hcases with ⟨hdot, hroute⟩ | ⟨before, name, hparts, hname, hroute⟩
  · rw [losesNothing_of_route hroute, recoverable_of_route hroute, rejoin, if_pos rfl, hkept]
    refine ⟨fun hsuffix => ⟨hsuffix, fun name _ heq => hdot ?_⟩, fun hrec => hrec.1⟩
    rw [← hbefore hsuffix, heq]
    simp
  · rw [losesNothing_of_route hroute, recoverable_of_route hroute, rejoin]
    by_cases hapex : before = apex
    · -- the marker stands for no label, so the host that is read back is shorter
      rw [if_pos hapex]
      constructor
      · intro htext
        rw [HostText.text, List.append_cancel_right_eq] at htext
        obtain ⟨k, hk⟩ := h.before_eq
        have hlen := congrArg List.length hk
        rw [← hu, hparts, htext] at hlen
        simp only [List.length_append, List.length_cons] at hlen
        omega
      · rintro ⟨hsuffix, hmarker⟩
        refine absurd ?_ (hmarker name hname)
        rw [hbefore hsuffix, hparts, hapex]
    · have hrejoin : before ++ '.' :: (name ++ h.cleanTld) = u ++ h.cleanTld := by
        rw [hparts]
        simp
      rw [if_neg hapex, hrejoin, hkept]
      refine ⟨fun hsuffix => ⟨hsuffix, fun name' hname' heq => hapex ?_⟩, fun hrec => hrec.1⟩
      rw [hbefore hsuffix, hparts] at heq
      exact (last_piece_unique hname hname' heq).1

/-- Splitting loses nothing on exactly the recoverable hosts. No two of them are
routed to one registered domain and zone key, and the apex marker stands only for
a host with a single label before its TLD. -/
theorem split_loses_nothing_iff (h : HostText) :
    (LosesNothing h ↔ Recoverable h) ∧
      (Recoverable h →
        (∀ g : HostText, Recoverable g → ∀ target, g.route = some target →
          h.route = some target → g.text = h.text) ∧
        ∀ base, h.route = some (base, apex) → h.text = base ∧ '.' ∉ h.before) := by
  refine ⟨losesNothing_iff h, fun hh => ⟨?_, ?_⟩⟩
  · rintro g hg ⟨base, sub⟩ hgroute hhroute
    rw [(losesNothing_iff g).mpr hg base sub hgroute, (losesNothing_iff h).mpr hh base sub hhroute]
  · intro base hroute
    have htext := (losesNothing_iff h).mpr hh base apex hroute
    rw [rejoin, if_pos rfl] at htext
    refine ⟨htext, ?_⟩
    rcases route_cases h with ⟨_, hnone⟩ | ⟨u, hu, ⟨hdot, hname⟩ | ⟨before, name, _, _, hlabels⟩⟩
    · simp [hnone] at hroute
    · rw [hname, Option.some.injEq, Prod.mk.injEq] at hroute
      rw [HostText.text, ← hroute.1, List.append_cancel_right_eq] at htext
      rwa [htext]
    · rw [hlabels, Option.some.injEq, Prod.mk.injEq] at hroute
      rw [HostText.text, ← hroute.1, List.append_cancel_right_eq] at htext
      rwa [htext]

theorem kin_dot_free : '.' ∉ "kin".toList := by decide

def tripled : HostText := ⟨"a.kin", "kin", kin_dot_free⟩

def marked : HostText := ⟨"@.a", "kin", kin_dot_free⟩

def bare : HostText := ⟨"a", "kin", kin_dot_free⟩

/-- `a.kin.kin` and `@.a.kin` are both taken for the apex of `a.kin`. -/
theorem hosts_conflated :
    tripled.text = "a.kin.kin".toList ∧ marked.text = "@.a.kin".toList ∧
      tripled.route = some (bare.text, apex) ∧ marked.route = some (bare.text, apex) ∧
      bare.route = some (bare.text, apex) ∧
      ¬ LosesNothing tripled ∧ ¬ LosesNothing marked := by
  have htripled : tripled.route = some (bare.text, apex) := by decide
  have hmarked : marked.route = some (bare.text, apex) := by decide
  refine ⟨by decide, by decide, htripled, hmarked, by decide, fun h => ?_, fun h => ?_⟩
  · exact absurd (h _ _ htripled) (by decide)
  · exact absurd (h _ _ hmarked) (by decide)

/-- `www.a.kin` comes back. -/
theorem loses_nothing_www :
    LosesNothing ⟨"www.a", "kin", kin_dot_free⟩ := by
  apply (split_loses_nothing_iff _).1.mpr
  refine Or.inr ⟨by decide, fun name _ => ?_⟩
  simp [apex]

end KineticAtlas.HostRoundTrip
