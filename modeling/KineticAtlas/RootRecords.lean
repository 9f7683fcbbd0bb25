import KineticAtlas.DnsTree

/-!
Which strings of a domain are taken for the root of its tree (dns_tree.rs). A root record is
a text of words, the tag with its version first; the code looks for the tag as a prefix and
for ` e=` as a part of the text. The main result says for which records that makes no
difference.
-/
namespace KineticAtlas.RootRecords

open Library.Texts Library.Utf8 Updater DnsTree

/-- The first word is the tag, and a later one names a hash. -/
def Names (txt hash : Str) : Prop :=
  ∃ rest, words isWhitespace txt = rootTag :: rest ∧ "e=".toList ++ hash ∈ rest ∧ hash ≠ []

/-- A character-string is such a text. -/
def IsRoot (rawTxt : Bytes) (hash : Str) : Prop :=
  ∃ txt, decodeStrict rawTxt = some txt ∧ Names txt hash

variable {Addr : Type}

/-- The hash that the traversal starts from, if there is one to start from. -/
def rootHash (parse : Str → Option Addr) (rootRecords : List TxtRecord) : Option Str :=
  (readRootRecords parse rootRecords).rootHash

/-- A traversal starts exactly when there is a root record, and from a hash that one names.
Strings that are none might as well not be there. -/
structure RecognisesRoots (parse : Str → Option Addr) (rootRecords : List TxtRecord) : Prop where
  starts : (rootHash parse rootRecords).isSome = true ↔
    ∃ rawTxt ∈ rootRecords.flatten, ∃ hash, IsRoot rawTxt hash
  traversed : ∀ hash, rootHash parse rootRecords = some hash →
    ∃ rawTxt ∈ rootRecords.flatten, IsRoot rawTxt hash
  undisturbed : ∀ kept : Bytes → Bool,
    (∀ rawTxt ∈ rootRecords.flatten, ∀ hash, IsRoot rawTxt hash → kept rawTxt = true) →
      rootHash parse (rootRecords.map (List.filter kept)) = rootHash parse rootRecords

/-- The text between the first ` e=` and the next (`split(" e=").nth(1)`). -/
def hashPart (txt : Str) : Option Str :=
  (splitOnce " e=" txt).map fun parts => ((splitOnce " e=" parts.2).map Prod.fst).getD parts.2

/-- A text that looks like a root record: the tag is a prefix, and there is an ` e=`. -/
def Resembles (rawTxt : Bytes) (part : Str) : Prop :=
  ∃ txt, decodeStrict rawTxt = some txt ∧ rootTag <+: txt ∧ hashPart txt = some part

/-- Either there is no root record and nothing looks like one, or from some root record on
that looks like one, a single hash is the first word behind the first ` e=` of all that do,
and it is the hash of a root record. -/
def Settled (strings : List Bytes) : Prop :=
  (∀ rawTxt ∈ strings, (∀ part, ¬ Resembles rawTxt part) ∧ ∀ hash, ¬ IsRoot rawTxt hash) ∨
    ∃ before rawTxt after hash, strings = before ++ rawTxt :: after ∧
      (∃ source ∈ strings, IsRoot source hash) ∧ (∃ named, IsRoot rawTxt named) ∧
        (∃ part, Resembles rawTxt part) ∧ ∀ later ∈ rawTxt :: after, ∀ part,
          Resembles later part → firstWord isWhitespace part = some hash

theorem hashOf_eq (txt : Str) :
    hashOf txt = (hashPart txt).map fun part => (firstWord isWhitespace part).getD part := by
  rw [hashOf, hashPart]
  cases splitOnce " e=" txt with
  | none => rfl
  | some parts =>
    simp only [Option.map_some]
    cases splitOnce " e=" parts.2 <;> rfl

theorem rootHashOf_eq_some {rawTxt : Bytes} {hash : Str} : rootHashOf rawTxt = some hash ↔
    ∃ part, Resembles rawTxt part ∧ (firstWord isWhitespace part).getD part = hash := by
  constructor
  · intro htaken
    obtain ⟨txt, hdecode, hread⟩ := Option.bind_eq_some_iff.mp htaken
    split at hread
    · rename_i htag
      rw [hashOf_eq] at hread
      obtain ⟨part, hpart, hhash⟩ := Option.map_eq_some_iff.mp hread
      exact ⟨part, ⟨txt, hdecode, htag, hpart⟩, hhash⟩
    · cases hread
  · rintro ⟨part, ⟨txt, hdecode, htag, hpart⟩, rfl⟩
    rw [rootHashOf, hdecode, Option.bind_some, if_pos htag, hashOf_eq, hpart]
    rfl

theorem rootHashOf_eq_none {rawTxt : Bytes} :
    rootHashOf rawTxt = none ↔ ∀ part, ¬ Resembles rawTxt part := by
  constructor
  · intro hnone part hpart
    rw [rootHashOf_eq_some.mpr ⟨part, hpart, rfl⟩] at hnone
    cases hnone
  · intro h
    cases htaken : rootHashOf rawTxt with
    | none => rfl
    | some hash =>
      obtain ⟨part, hpart, -⟩ := rootHashOf_eq_some.mp htaken
      exact absurd hpart (h part)

theorem Resembles.unique {rawTxt : Bytes} {part other : Str} (h : Resembles rawTxt part)
    (hother : Resembles rawTxt other) : part = other := by
  obtain ⟨txt, hdecode, -, hpart⟩ := h
  obtain ⟨txt', hdecode', -, hpart'⟩ := hother
  obtain rfl : txt = txt' := Option.some.inj (hdecode.symm.trans hdecode')
  exact Option.some.inj (hpart.symm.trans hpart')

theorem taken_of_firstWord {rawTxt : Bytes} {part hash : Str} (hpart : Resembles rawTxt part)
    (hword : firstWord isWhitespace part = some hash) : rootHashOf rawTxt = some hash :=
  rootHashOf_eq_some.mpr ⟨part, hpart, by rw [hword, Option.getD_some]⟩

/-- A hash that a root record names is a word, so it is not taken for want of one. -/
theorem firstWord_of_taken {source rawTxt : Bytes} {part hash : Str} (hroot : IsRoot source hash)
    (htaken : rootHashOf rawTxt = some hash) (hpart : Resembles rawTxt part) :
    firstWord isWhitespace part = some hash := by
  obtain ⟨part', hpart', hhash⟩ := rootHashOf_eq_some.mp htaken
  obtain rfl : part' = part := hpart'.unique hpart
  cases hword : firstWord isWhitespace part' with
  | some word =>
    rw [hword] at hhash
    exact congrArg some hhash
  | none =>
    rw [hword] at hhash
    obtain rfl : part' = hash := hhash
    obtain ⟨txt, -, rest, hwords, hmem, hne⟩ := hroot
    cases part' with
    | nil => exact absurd rfl hne
    | cons c rest' =>
      have hc : isWhitespace c = false :=
        not_space_of_mem_words (hwords ▸ List.mem_cons_of_mem _ hmem) c (by simp)
      rw [firstWord_cons hc] at hword
      cases hword

variable {parse : Str → Option Addr} {rootRecords : List TxtRecord}

theorem rootHash_eq (parse : Str → Option Addr) (rootRecords : List TxtRecord) :
    rootHash parse rootRecords = (rootRecords.flatten.filterMap rootHashOf).getLast? := by
  rw [rootHash, readRootRecords_eq]

theorem rootHash_eq_none : rootHash parse rootRecords = none ↔
    ∀ rawTxt ∈ rootRecords.flatten, ∀ part, ¬ Resembles rawTxt part := by
  rw [rootHash_eq, List.getLast?_eq_none_iff, List.filterMap_eq_nil_iff]
  exact forall₂_congr fun _ _ => rootHashOf_eq_none

/-- Without a root hash only the flat addresses are returned, and with one the traversal
starts from it. -/
theorem resolveDnsTree_of_records {resolver : Resolver} {domain : Str}
    (hrecords : resolver domain = some rootRecords) :
    resolveDnsTree parse (some resolver) domain =
      (rootHash parse rootRecords).elim (flatAt parse resolver domain) fun hash =>
        (treeFrom parse resolver domain hash).addrs := by
  rw [resolveDnsTree_eq, rootHash_eq, rootHashAt, stringsAt, hrecords, Option.getD_some]
  cases (rootRecords.flatten.filterMap rootHashOf).getLast? <;> rfl

theorem rootHash_filter (parse : Str → Option Addr) (rootRecords : List TxtRecord)
    (kept : Bytes → Bool) :
    rootHash parse (rootRecords.map (List.filter kept)) =
      ((rootRecords.flatten.filter kept).filterMap rootHashOf).getLast? := by
  rw [rootHash_eq, List.filter_flatten]

section

variable {A V : Type} {value : A → Option V}

/-- The last value stands where no element after it has one. -/
theorem getLast?_filterMap_eq_some {l : List A} {v : V}
    (h : (l.filterMap value).getLast? = some v) :
    ∃ before a after, l = before ++ a :: after ∧ value a = some v ∧
      ∀ x ∈ after, value x = none := by
  rw [List.getLast?_filterMap] at h
  obtain ⟨after, a, before, hl, ha, hnone⟩ := List.findSome?_eq_some_iff.mp h
  refine ⟨before.reverse, a, after.reverse, ?_, ha, fun x hx => hnone x (by simpa using hx)⟩
  have hrev := congrArg List.reverse hl
  simpa using hrev

/-- Later elements that have no other value do not change it. -/
theorem getLast?_filterMap_append_cons {before after : List A} {a : A} {v : V}
    (ha : value a = some v) (hafter : ∀ x ∈ after, ∀ w, value x = some w → w = v) :
    ((before ++ a :: after).filterMap value).getLast? = some v := by
  rw [List.filterMap_append, List.filterMap_cons_some ha,
    List.getLast?_append_of_ne_nil _ (List.cons_ne_nil _ _), List.getLast?_cons]
  cases hlast : (after.filterMap value).getLast? with
  | none => rfl
  | some w =>
    obtain ⟨x, hx, hw⟩ := List.mem_filterMap.mp (List.mem_of_getLast? hlast)
    rw [hafter x hx w hw]
    rfl

end

/-- The values of the elements that are kept. -/
def keptValue (kept : Bytes → Bool) (rawTxt : Bytes) : Option Str :=
  if kept rawTxt = true then rootHashOf rawTxt else none

theorem rootHash_filter_eq (parse : Str → Option Addr) (rootRecords : List TxtRecord)
    (kept : Bytes → Bool) :
    rootHash parse (rootRecords.map (List.filter kept)) =
      (rootRecords.flatten.filterMap (keptValue kept)).getLast? := by
  rw [rootHash_filter, List.filterMap_filter]
  rfl

theorem keptValue_eq_some {kept : Bytes → Bool} {rawTxt : Bytes} {hash : Str} :
    keptValue kept rawTxt = some hash ↔ kept rawTxt = true ∧ rootHashOf rawTxt = some hash := by
  unfold keptValue
  split <;> simp [*]

theorem recognises_of_none (h : ∀ rawTxt ∈ rootRecords.flatten,
      (∀ part, ¬ Resembles rawTxt part) ∧ ∀ hash, ¬ IsRoot rawTxt hash) :
    RecognisesRoots parse rootRecords := by
  have hnone : ∀ kept, rootRecords.flatten.filterMap (keptValue kept) = [] := by
    intro kept
    rw [List.filterMap_eq_nil_iff]
    intro rawTxt hmem
    rw [keptValue, rootHashOf_eq_none.mpr (h rawTxt hmem).1, ite_self]
  have hhash : rootHash parse rootRecords = none :=
    rootHash_eq_none.mpr fun rawTxt hmem => (h rawTxt hmem).1
  constructor
  · rw [hhash]
    refine iff_of_false Bool.false_ne_true ?_
    rintro ⟨rawTxt, hmem, hash, hroot⟩
    exact (h rawTxt hmem).2 hash hroot
  · intro hash hsome
    rw [hhash] at hsome
    cases hsome
  · intro kept _
    rw [rootHash_filter_eq, hnone, hhash]
    rfl

theorem recognises_of_settled {before after : List Bytes} {rawTxt : Bytes} {hash : Str}
    (hstrings : rootRecords.flatten = before ++ rawTxt :: after)
    (htaken : rootHashOf rawTxt = some hash) (hroot : ∃ named, IsRoot rawTxt named)
    (hafter : ∀ later ∈ after, ∀ other, rootHashOf later = some other → other = hash)
    (hsource : ∃ source ∈ rootRecords.flatten, IsRoot source hash) :
    RecognisesRoots parse rootRecords := by
  have hhash : rootHash parse rootRecords = some hash := by
    rw [rootHash_eq, hstrings]
    exact getLast?_filterMap_append_cons htaken hafter
  obtain ⟨source, hmem, hnamed⟩ := hsource
  constructor
  · rw [hhash]
    exact iff_of_true rfl ⟨source, hmem, hash, hnamed⟩
  · intro hash' hsome
    obtain rfl : hash = hash' := Option.some.inj (hhash.symm.trans hsome)
    exact ⟨source, hmem, hnamed⟩
  · intro kept hkept
    obtain ⟨named, hroot⟩ := hroot
    have hkeeps : kept rawTxt = true := hkept rawTxt (by simp [hstrings]) named hroot
    rw [rootHash_filter_eq, hhash, hstrings]
    refine getLast?_filterMap_append_cons (keptValue_eq_some.mpr ⟨hkeeps, htaken⟩) ?_
    exact fun later hlater other hother => hafter later hlater other (keptValue_eq_some.mp hother).2

theorem settled_of_taken {strings before after : List Bytes} {rawTxt : Bytes} {hash : Str}
    (hstrings : strings = before ++ rawTxt :: after) (htaken : rootHashOf rawTxt = some hash)
    (hroot : ∃ named, IsRoot rawTxt named)
    (hafter : ∀ later ∈ after, ∀ other, rootHashOf later = some other → other = hash)
    (hsource : ∃ source ∈ strings, IsRoot source hash) : Settled strings := by
  obtain ⟨part, hpart, -⟩ := rootHashOf_eq_some.mp htaken
  refine Or.inr ⟨before, rawTxt, after, hash, hstrings, hsource, hroot, ⟨part, hpart⟩, ?_⟩
  obtain ⟨source, -, hnamed⟩ := hsource
  intro later hlater part' hpart'
  refine firstWord_of_taken hnamed ?_ hpart'
  rcases List.mem_cons.mp hlater with rfl | hlater
  · exact htaken
  · have hother := rootHashOf_eq_some.mpr ⟨part', hpart', rfl⟩
    rw [hother, hafter later hlater _ hother]

/-- Behind the last root record that is taken, strings that are none can only repeat the hash:
another one would come through if the rest were left out. -/
theorem eq_of_undisturbed {before after : List Bytes} {rawTxt : Bytes} {hash : Str}
    (h : RecognisesRoots parse rootRecords) (hhash : rootHash parse rootRecords = some hash)
    (hstrings : rootRecords.flatten = before ++ rawTxt :: after)
    (hlast : ∀ x ∈ after, (∃ named, IsRoot x named) → rootHashOf x = none) :
    ∀ later ∈ after, ∀ other, rootHashOf later = some other → other = hash := by
  classical
  intro later hlater other hother
  obtain ⟨between, rest, rfl⟩ := List.append_of_mem hlater
  let kept : Bytes → Bool := fun x => decide (∃ named, IsRoot x named) || decide (x = later)
  have hwith := h.undisturbed kept fun x _ named hroot =>
    Bool.or_eq_true_iff.mpr (Or.inl (decide_eq_true ⟨named, hroot⟩))
  have hkept : keptValue kept later = some other :=
    keptValue_eq_some.mpr ⟨Bool.or_eq_true_iff.mpr (Or.inr (decide_eq_true rfl)), hother⟩
  have hrest : ∀ x ∈ rest, ∀ w, keptValue kept x = some w → w = other := by
    intro x hx w hw
    obtain ⟨hxkept, htaken⟩ := keptValue_eq_some.mp hw
    rcases Bool.or_eq_true_iff.mp hxkept with hxroot | hxlater
    · rw [hlast x (List.mem_append_right _ (List.mem_cons_of_mem _ hx))
        (of_decide_eq_true hxroot)] at htaken
      cases htaken
    · obtain rfl := of_decide_eq_true hxlater
      exact Option.some.inj (htaken.symm.trans hother)
  rw [rootHash_filter_eq, hhash, hstrings, ← List.cons_append, ← List.append_assoc,
    getLast?_filterMap_append_cons hkept hrest] at hwith
  exact Option.some.inj hwith

theorem settled_of_recognises (h : RecognisesRoots parse rootRecords) :
    Settled rootRecords.flatten := by
  classical
  cases hhash : rootHash parse rootRecords with
  | none =>
    refine Or.inl fun rawTxt hmem => ⟨rootHash_eq_none.mp hhash rawTxt hmem, ?_⟩
    intro hash hroot
    have hsome := h.starts.mpr ⟨rawTxt, hmem, hash, hroot⟩
    rw [hhash] at hsome
    cases hsome
  | some hash =>
    -- With the root records alone the hash is the same, so the last one taken has it.
    have hroots := h.undisturbed (fun rawTxt => decide (∃ named, IsRoot rawTxt named))
      fun rawTxt _ named hroot => decide_eq_true ⟨named, hroot⟩
    rw [rootHash_filter_eq, hhash] at hroots
    obtain ⟨before, rawTxt, after, hstrings, hvalue, hnone⟩ := getLast?_filterMap_eq_some hroots
    obtain ⟨hroot, htaken⟩ := keptValue_eq_some.mp hvalue
    have hlast : ∀ x ∈ after, (∃ named, IsRoot x named) → rootHashOf x = none := by
      intro x hx hxroot
      have hnot := hnone x hx
      rwa [keptValue, if_pos (decide_eq_true hxroot)] at hnot
    exact settled_of_taken hstrings htaken (of_decide_eq_true hroot)
      (eq_of_undisturbed h hhash hstrings hlast) (h.traversed hash hhash)

/-- Root records are recognised exactly when what looks like one from the last of them on has
its hash, and that hash is named. -/
theorem recognises_roots_iff (parse : Str → Option Addr) (rootRecords : List TxtRecord) :
    RecognisesRoots parse rootRecords ↔ Settled rootRecords.flatten := by
  constructor
  · exact settled_of_recognises
  · rintro (hnone | ⟨before, rawTxt, after, hash, hstrings, hsource, hroot, ⟨part, hpart⟩, hword⟩)
    · exact recognises_of_none hnone
    · refine recognises_of_settled hstrings ?_ hroot ?_ hsource
      · exact taken_of_firstWord hpart (hword rawTxt List.mem_cons_self part hpart)
      · intro later hlater other hother
        obtain ⟨part', hpart', -⟩ := rootHashOf_eq_some.mp hother
        have hsame := hword later (List.mem_cons_of_mem _ hlater) part' hpart'
        exact Option.some.inj (hother.symm.trans (taken_of_firstWord hpart' hsame))

/-- A blank follows the tag, and no blank the first ` e=`. -/
def WellFormed (txt : Str) : Prop :=
  (∃ c rest, txt = rootTag ++ c :: rest ∧ isWhitespace c = true) ∧
    ∃ before d behind, splitOnce " e=" txt = some (before, d :: behind) ∧ isWhitespace d = false

/-- The hash ends at the next blank, which another ` e=` would begin with. -/
theorem hashOf_of_behind {txt before behind : Str} {d : Char}
    (hsplit : splitOnce " e=" txt = some (before, d :: behind)) (hd : isWhitespace d = false) :
    hashOf txt = some ((d :: behind).takeWhile fun c => !isWhitespace c) := by
  have hword : ∀ s : Str, s.head? = some d →
      (firstWord isWhitespace s).getD s = s.takeWhile fun c => !isWhitespace c := by
    intro s hs
    obtain ⟨s, rfl⟩ : ∃ t, s = d :: t := by
      cases s with
      | nil => cases hs
      | cons a t => exact ⟨t, by rw [Option.some.inj hs]⟩
    rw [firstWord_cons hd, Option.getD_some]
  rw [hashOf, hsplit, Option.map_some]
  cases hnext : splitOnce " e=" (d :: behind) with
  | none => exact congrArg some (hword _ rfl)
  | some parts =>
    obtain ⟨hashPart, others⟩ := parts
    have htext := eq_of_splitOnce hnext
    have hhead : hashPart.head? = some d := by
      cases hashPart with
      | nil =>
        obtain rfl : d = ' ' := (List.cons.inj htext).1
        cases hd
      | cons a t => rw [(List.cons.inj htext).1]; rfl
    refine congrArg some ((hword _ hhead).trans ?_)
    rw [htext]
    exact (takeWhile_append_cons (by decide) hashPart _).symm

/-- Before the first ` e=` there is the tag and whole words after it. -/
theorem words_before {before rest behind : Str} {c : Char} (hc : isWhitespace c = true)
    (htext : rootTag ++ c :: rest = before ++ (" e=".toList ++ behind)) :
    ∃ others, words isWhitespace before = rootTag :: others := by
  have htag : ∀ d ∈ rootTag, isWhitespace d = false := by
    intro d hd
    have hall := List.all_eq_true.mp (by decide : rootTag.all fun d => !isWhitespace d) d hd
    simpa using hall
  have hword := words_singleton htag (by decide)
  rcases List.append_eq_append_iff.mp htext with ⟨u, rfl, hu⟩ | ⟨u, hu, hbehind⟩
  · cases u with
    | nil => exact ⟨[], by rw [List.append_nil, hword]⟩
    | cons a u =>
      obtain rfl : c = a := (List.cons.inj hu).1
      exact ⟨words isWhitespace u, by rw [words_append_cons hc, hword]; rfl⟩
  · cases u with
    | nil => exact ⟨[], by rw [← hword, hu, List.append_nil]⟩
    | cons a u =>
      obtain rfl : ' ' = a := (List.cons.inj hbehind).1
      have hblank := htag ' ' (by rw [hu]; simp)
      cases hblank

/-- The code takes such a text for what it is. -/
theorem names_of_wellFormed {txt : Str} (h : WellFormed txt) :
    rootTag <+: txt ∧ ∃ hash, hashOf txt = some hash ∧ Names txt hash := by
  obtain ⟨⟨c, rest, rfl, hc⟩, before, d, behind, hsplit, hd⟩ := h
  refine ⟨List.prefix_append _ _, _, hashOf_of_behind hsplit hd, ?_⟩
  have htext := eq_of_splitOnce hsplit
  obtain ⟨others, hothers⟩ := words_before hc htext
  have hspace : isWhitespace ' ' = true := by decide
  have hfirst : isWhitespace 'e' = false := by decide
  refine ⟨others ++ words isWhitespace ('e' :: '=' :: d :: behind), ?_, ?_, ?_⟩
  · have hcut : before ++ (" e=".toList ++ d :: behind) =
        before ++ ' ' :: 'e' :: '=' :: d :: behind := rfl
    rw [htext, hcut, words_append_cons hspace, hothers]
    rfl
  · refine List.mem_append_right _ ?_
    rw [words_of_head hfirst]
    exact List.mem_cons_self
  · simp [hd]

/-- Whatever looks like a root record of the domain, or is one, is well formed. -/
def AllWellFormed (strings : List Bytes) : Prop :=
  ∀ rawTxt ∈ strings, ((∃ part, Resembles rawTxt part) ∨ ∃ hash, IsRoot rawTxt hash) →
    ∃ txt, decodeStrict rawTxt = some txt ∧ WellFormed txt

theorem taken_of_wellFormed {rawTxt : Bytes} {txt : Str} (hdecode : decodeStrict rawTxt = some txt)
    (h : WellFormed txt) : ∃ hash, rootHashOf rawTxt = some hash ∧ IsRoot rawTxt hash := by
  obtain ⟨htag, hash, hhash, hnames⟩ := names_of_wellFormed h
  refine ⟨hash, ?_, txt, hdecode, hnames⟩
  rw [rootHashOf, hdecode, Option.bind_some, if_pos htag, hhash]

/-- Among well-formed records the last one is the root. -/
theorem recognises_of_wellFormed (h : AllWellFormed rootRecords.flatten) :
    RecognisesRoots parse rootRecords := by
  cases hlast : rootHash parse rootRecords with
  | none =>
    have hnone := rootHash_eq_none.mp hlast
    refine recognises_of_none fun rawTxt hmem => ⟨hnone rawTxt hmem, fun hash hroot => ?_⟩
    obtain ⟨txt, hdecode, hformed⟩ := h rawTxt hmem (Or.inr ⟨hash, hroot⟩)
    obtain ⟨hash', htaken, -⟩ := taken_of_wellFormed hdecode hformed
    obtain ⟨part, hpart, -⟩ := rootHashOf_eq_some.mp htaken
    exact hnone rawTxt hmem part hpart
  | some hash =>
    rw [rootHash_eq] at hlast
    obtain ⟨before, rawTxt, after, hstrings, htaken, hnone⟩ := getLast?_filterMap_eq_some hlast
    have hmem : rawTxt ∈ rootRecords.flatten := by simp [hstrings]
    obtain ⟨part, hpart, -⟩ := rootHashOf_eq_some.mp htaken
    obtain ⟨txt, hdecode, hformed⟩ := h rawTxt hmem (Or.inl ⟨part, hpart⟩)
    obtain ⟨hash', htaken', hroot⟩ := taken_of_wellFormed hdecode hformed
    obtain rfl : hash = hash' := Option.some.inj (htaken.symm.trans htaken')
    refine recognises_of_settled hstrings htaken ⟨hash, hroot⟩ ?_ ⟨rawTxt, hmem, hroot⟩
    intro later hlater other hother
    rw [hnone later hlater] at hother
    cases hother

/-- A version that only begins like the first one. -/
theorem not_names_of_version {c : Char} (hc : isWhitespace c = false) (rest hash : Str) :
    ¬ Names (rootTag ++ c :: rest) hash := by
  rintro ⟨others, hwords, -, -⟩
  have htag : ∀ d ∈ rootTag, (!isWhitespace d) = true := List.all_eq_true.mp (by decide)
  have hhead : rootTag ++ c :: rest = 'k' :: (rootTag.tail ++ c :: rest) := rfl
  have hfirst : isWhitespace 'k' = false := by decide
  rw [hhead, words_of_head hfirst, ← hhead, List.takeWhile_append_of_pos htag,
    List.takeWhile_cons_of_pos (by simp [hc])] at hwords
  exact absurd (List.append_right_eq_self.mp (List.cons.inj hwords).1) (List.cons_ne_nil _ _)

theorem not_recognises_single {txt : Str} {hash : Str} (hnot : ∀ named, ¬ Names txt named)
    (htag : rootTag <+: txt) (hhash : hashOf txt = some hash) :
    rootHash parse [[encode txt]] = some hash ∧ ¬ RecognisesRoots parse [[encode txt]] := by
  have hstart : rootHash parse [[encode txt]] = some hash := by
    rw [rootHash_eq]
    simp [rootHashOf, decodeStrict_encode, htag, hhash]
  refine ⟨hstart, fun h => ?_⟩
  obtain ⟨rawTxt, hmem, txt', hdecode, hnames⟩ := h.traversed hash hstart
  obtain rfl : rawTxt = encode txt := by simpa using hmem
  rw [decodeStrict_encode] at hdecode
  exact hnot hash (Option.some.inj hdecode ▸ hnames)

/-- A string of another version starts a traversal, and so does one with an empty hash. -/
theorem other_version_starts :
    (rootHash sampleParse [[encode "kintree-root:v10 e=h"]] = some "h".toList ∧
        ¬ RecognisesRoots sampleParse [[encode "kintree-root:v10 e=h"]]) ∧
      rootHash sampleParse [[encode "kintree-root:v1 e="]] = some [] ∧
        ¬ RecognisesRoots sampleParse [[encode "kintree-root:v1 e="]] := by
  constructor
  · refine not_recognises_single ?_ (by decide) (by decide)
    exact not_names_of_version (c := '0') (by decide) " e=h".toList
  · refine not_recognises_single ?_ (by decide) (by decide)
    rintro named ⟨others, hwords, hmem, hne⟩
    have hcut : words isWhitespace "kintree-root:v1 e=" = [rootTag, "e=".toList] := by decide
    rw [hcut] at hwords
    obtain rfl := (List.cons.inj hwords).2
    exact hne (List.append_right_eq_self.mp (List.mem_singleton.mp hmem))

end KineticAtlas.RootRecords
