import KineticAtlas.Library.Utf8
import Mathlib.Data.List.DropRight

/-!
The path of an http or https URL as the URL standard has it parsed. The text is cut into
segments at slashes of both kinds; a segment `..` leads one level up, a segment `.`
nowhere, and every other segment is a name one level down. A list of segments so amounts
to a climb and a descent, which tells from where the resolved path goes where.
-/
namespace Library.UrlPaths

open Texts

def isTabOrNewline (c : Char) : Bool := c = '\t' ∨ c = '\n' ∨ c = '\r'

def isC0OrSpace (c : Char) : Bool := c.toNat ≤ 32

def isSlash (c : Char) : Bool := c = '/' ∨ c = '\\'

/-- A query or a fragment begins. -/
def endsPath (c : Char) : Bool := c = '?' ∨ c = '#'

def endsAuthority (c : Char) : Bool := isSlash c || endsPath c

/-- The path percent-encode set; the circumflex is a later addition to it. -/
def inPathSet (caret : Bool) (c : Char) : Bool :=
  isC0OrSpace c || decide (126 < c.toNat) || decide (c ∈ "\"#<>?`{}".toList) ||
    (caret && decide (c = '^'))

def hexDigit (n : ℕ) : Char := "0123456789ABCDEF".toList.getD n '0'

def percentByte (b : UInt8) : Str := ['%', hexDigit (b.toNat / 16), hexDigit (b.toNat % 16)]

def percentEncode (caret : Bool) (c : Char) : Str :=
  if inPathSet caret c then (String.utf8EncodeChar c).flatMap percentByte else [c]

def isSingleDot (segment : Str) : Bool :=
  segment.map Char.toLower ∈ [".".toList, "%2e".toList]

def isDoubleDot (segment : Str) : Bool :=
  segment.map Char.toLower ∈ ["..".toList, ".%2e".toList, "%2e.".toList, "%2e%2e".toList]

def isDots (segment : Str) : Bool := isSingleDot segment || isDoubleDot segment

theorem isDots_eq_false_iff {segment : Str} :
    isDots segment = false ↔ isDoubleDot segment = false ∧ isSingleDot segment = false := by
  simp [isDots, and_comm]

/-- The segments of a path, where a slash in front of the first one is left out. -/
def segmentsOf (caret : Bool) (path : Str) : List Str :=
  (path.splitOnP isSlash).map fun segment => segment.flatMap (percentEncode caret)

def enter (dirs : List Str) (segment : Str) : List Str :=
  if isDoubleDot segment then dirs.dropLast
  else if isSingleDot segment then dirs
  else dirs ++ [segment]

/-- Dots at the end leave an empty name behind. -/
def lastName (segments : List Str) : List Str :=
  if segments.getLast?.any isDots then [[]] else []

def resolve (dirs segments : List Str) : List Str :=
  segments.foldl enter dirs ++ lastName segments

/-- The path of a URL, from the text behind its authority. -/
def pathOf (caret : Bool) (text : Str) : Str :=
  '/' :: ['/'].intercalate
    (resolve [] (segmentsOf caret ((text.takeWhile fun c => !endsPath c).drop 1)))

/-- The text of a URL as it is parsed. -/
def cleaned (text : Str) : Str := (trim isC0OrSpace text).filter fun c => !isTabOrNewline c

structure HttpUrl (Host : Type) where
  scheme : Str
  host : Host
  path : Str

/-- The URL up to its path. Authorities are left to the given parser. -/
def parseHttp {Host : Type} (caret : Bool) (hostOf : Str → Option Host) (text : Str) :
    Option (HttpUrl Host) :=
  let scheme := ((cleaned text).takeWhile (· ≠ ':')).map Char.toLower
  match (cleaned text).dropWhile (· ≠ ':') with
  | [] => none
  | _ :: rest =>
    if scheme = "http".toList ∨ scheme = "https".toList then
      let rest := rest.dropWhile isSlash
      (hostOf (rest.takeWhile fun c => !endsAuthority c)).map fun host =>
        ⟨scheme, host, pathOf caret (rest.dropWhile fun c => !endsAuthority c)⟩
    else none

/-- The path is the given one or lies below it. -/
def IsUnder (above path : Str) : Prop := path = above ∨ above ++ ['/'] <+: path

structure Trail where
  up : ℕ
  down : List Str

def Trail.enter (t : Trail) (segment : Str) : Trail :=
  if isDoubleDot segment then
    if t.down = [] then ⟨t.up + 1, []⟩ else ⟨t.up, t.down.dropLast⟩
  else if isSingleDot segment then t
  else ⟨t.up, t.down ++ [segment]⟩

/-- How many levels segments lead up, and which names then down. -/
def trailOf (segments : List Str) : Trail :=
  let t := segments.foldl Trail.enter ⟨0, []⟩
  ⟨t.up, t.down ++ lastName segments⟩

theorem dropLast_rdrop (dirs : List Str) (n : ℕ) :
    (dirs.rdrop n).dropLast = dirs.rdrop (n + 1) := by
  rw [List.rdrop, List.rdrop, List.dropLast_eq_take, List.take_take, List.length_take]
  congr 1
  omega

theorem foldl_enter_eq (dirs : List Str) (t : Trail) (segments : List Str) :
    segments.foldl enter (dirs.rdrop t.up ++ t.down) =
      dirs.rdrop (segments.foldl Trail.enter t).up ++ (segments.foldl Trail.enter t).down := by
  induction segments generalizing t with
  | nil => rfl
  | cons segment rest ih =>
    rw [List.foldl_cons, List.foldl_cons, ← ih]
    congr 1
    unfold enter Trail.enter
    split
    · split
      · rename_i hdown
        simp [hdown, dropLast_rdrop]
      · rename_i hdown
        rw [List.dropLast_append_of_ne_nil hdown]
    · split
      · rfl
      · rw [List.append_assoc]

/-- Segments do the same from everywhere. -/
theorem resolve_eq (dirs segments : List Str) :
    resolve dirs segments = dirs.rdrop (trailOf segments).up ++ (trailOf segments).down := by
  have h := foldl_enter_eq dirs ⟨0, []⟩ segments
  rw [List.rdrop_zero, List.append_nil] at h
  rw [resolve, h, trailOf, List.append_assoc]

/-- The path resolved keeps to the names above it and the one it started with exactly when
it goes down again along the names that it has climbed. -/
theorem prefix_resolve_iff (dirs segments : List Str) (name : Str) :
    dirs ++ [name] <+: resolve dirs segments ↔
      dirs.rtake (trailOf segments).up ++ [name] <+: (trailOf segments).down := by
  have hsplit : dirs = dirs.rdrop (trailOf segments).up ++ dirs.rtake (trailOf segments).up := by
    rw [List.rdrop, List.rtake, List.take_append_drop]
  rw [resolve_eq]
  conv_lhs => rw [hsplit, List.append_assoc]
  rw [← hsplit, List.prefix_append_right_inj]

/-- A character that a path keeps as it is. -/
def IsPlain (caret : Bool) (c : Char) : Prop := inPathSet caret c = false ∧ c ≠ '\\'

/-- A text that parsing does not change: its characters are plain and its names no dots. -/
structure PlainPath (caret : Bool) (path : Str) : Prop where
  plain : ∀ c ∈ path, IsPlain caret c
  no_dots : ∀ name ∈ path.splitOn '/', isDots name = false

variable {caret : Bool} {dirs segments : List Str}

theorem plain_of_all {text : Str}
    (h : (text.all fun c => !inPathSet caret c && decide (c ≠ '\\')) = true) :
    ∀ c ∈ text, IsPlain caret c := by
  intro c hc
  simpa [IsPlain] using List.all_eq_true.mp h c hc

theorem slash_plain : IsPlain caret '/' := by
  cases caret <;> exact ⟨by decide, by decide⟩

theorem percent_plain : IsPlain caret '%' := by
  cases caret <;> exact ⟨by decide, by decide⟩

theorem hexDigit_plain (n : ℕ) : IsPlain caret (hexDigit n) ∧ hexDigit n ≠ '/' := by
  have hplain : ∀ c ∈ '0' :: "0123456789ABCDEF".toList, IsPlain caret c :=
    plain_of_all (by cases caret <;> decide)
  have hslash : '/' ∉ '0' :: "0123456789ABCDEF".toList := by decide
  have hall : ∀ c ∈ '0' :: "0123456789ABCDEF".toList, IsPlain caret c ∧ c ≠ '/' := fun c hc =>
    ⟨hplain c hc, fun heq => hslash (heq ▸ hc)⟩
  unfold hexDigit
  refine hall _ ?_
  rw [List.getD_eq_getElem?_getD]
  cases h : "0123456789ABCDEF".toList[n]? with
  | none => exact List.mem_cons_self
  | some c => exact List.mem_cons_of_mem _ (List.mem_of_getElem? h)

/-- Escapes are plain, and so is what is not escaped, separators apart. -/
theorem percentEncode_plain {c d : Char} (hc : isSlash c = false)
    (hd : d ∈ percentEncode caret c) : IsPlain caret d ∧ d ≠ '/' := by
  have hne : c ≠ '/' ∧ c ≠ '\\' := by simpa [isSlash] using hc
  unfold percentEncode at hd
  split at hd
  · obtain ⟨b, -, hb⟩ := List.mem_flatMap.mp hd
    simp only [percentByte, List.mem_cons, List.not_mem_nil, or_false] at hb
    rcases hb with rfl | rfl | rfl
    · exact ⟨percent_plain, by decide⟩
    · exact hexDigit_plain _
    · exact hexDigit_plain _
  · rename_i hnot
    obtain rfl := List.mem_singleton.mp hd
    exact ⟨⟨by simpa using hnot, hne.2⟩, hne.1⟩

theorem notMem_of_mem_splitOnP {p : Char → Bool} {s piece : Str} (h : piece ∈ s.splitOnP p) :
    ∀ c ∈ piece, p c = false := by
  induction s generalizing piece with
  | nil =>
    obtain rfl : piece = [] := by simpa using h
    simp
  | cons d rest ih =>
    rw [List.splitOnP_cons_eq_if_modifyHead] at h
    split at h
    · rcases List.mem_cons.mp h with rfl | h
      · simp
      · exact ih h
    · rename_i hd
      cases hrest : rest.splitOnP p with
      | nil => exact absurd hrest (List.splitOnP_ne_nil p rest)
      | cons first others =>
        rw [hrest, List.modifyHead_cons] at h
        rcases List.mem_cons.mp h with rfl | h
        · intro c hc
          rcases List.mem_cons.mp hc with rfl | hc
          · simpa using hd
          · exact ih (hrest ▸ List.mem_cons_self) c hc
        · exact ih (hrest ▸ List.mem_cons_of_mem _ h)

theorem notMem_of_mem_splitOn {c : Char} {s piece : Str} (h : piece ∈ s.splitOn c) : c ∉ piece := by
  intro hmem
  rw [List.splitOn_eq_splitOnP] at h
  simpa using notMem_of_mem_splitOnP h c hmem

theorem segmentsOf_plain {path segment : Str} (h : segment ∈ segmentsOf caret path) :
    ∀ c ∈ segment, IsPlain caret c ∧ c ≠ '/' := by
  obtain ⟨piece, hpiece, rfl⟩ := List.mem_map.mp h
  intro c hc
  obtain ⟨d, hd, hc⟩ := List.mem_flatMap.mp hc
  exact percentEncode_plain (notMem_of_mem_splitOnP hpiece d hd) hc

theorem foldl_enter_names {P : Str → Prop} (hsegments : ∀ s ∈ segments, isDots s = false → P s)
    (hdirs : ∀ s ∈ dirs, P s) : ∀ s ∈ segments.foldl enter dirs, P s := by
  induction segments generalizing dirs with
  | nil => exact hdirs
  | cons segment rest ih =>
    refine ih (fun s hs => hsegments s (List.mem_cons_of_mem _ hs)) fun s hs => ?_
    unfold enter at hs
    split at hs
    · exact hdirs s (List.mem_of_mem_dropLast hs)
    · rename_i hdouble
      split at hs
      · exact hdirs s hs
      · rename_i hsingle
        rcases List.mem_append.mp hs with hs | hs
        · exact hdirs s hs
        · obtain rfl := List.mem_singleton.mp hs
          exact hsegments s List.mem_cons_self (by simp [isDots, hdouble, hsingle])

/-- Dots are gone from a path resolved, and its names are plain. -/
theorem resolve_names (path : Str) :
    ∀ name ∈ resolve [] (segmentsOf caret path),
      isDots name = false ∧ ∀ c ∈ name, IsPlain caret c ∧ c ≠ '/' := by
  intro name hname
  rcases List.mem_append.mp hname with hname | hname
  · refine foldl_enter_names (P := fun name =>
      isDots name = false ∧ ∀ c ∈ name, IsPlain caret c ∧ c ≠ '/') ?_ (by simp) name hname
    exact fun s hs hdots => ⟨hdots, segmentsOf_plain hs⟩
  · unfold lastName at hname
    split at hname
    · obtain rfl := List.mem_singleton.mp hname
      exact ⟨by decide, by simp⟩
    · simp at hname

theorem resolve_ne_nil (hsegments : segments ≠ []) : resolve dirs segments ≠ [] := by
  rcases List.eq_nil_or_concat' segments with rfl | ⟨before, last, rfl⟩
  · exact absurd rfl hsegments
  intro hnil
  obtain ⟨hfold, hlast⟩ := List.append_eq_nil_iff.mp hnil
  by_cases hdots : isDots last = true
  · simp [lastName, hdots] at hlast
  · have hnot := isDots_eq_false_iff.mp (Bool.not_eq_true _ ▸ hdots)
    simp [List.foldl_append, enter, hnot] at hfold

/-- Below a path in the text is below it name by name. -/
theorem isUnder_join_iff {above names : List Str} (hne : above ≠ []) (hnames : names ≠ [])
    (habove : ∀ name ∈ above, '/' ∉ name) (hslash : ∀ name ∈ names, '/' ∉ name) :
    IsUnder ('/' :: ['/'].intercalate above) ('/' :: ['/'].intercalate names) ↔
      above <+: names := by
  constructor
  · rintro (heq | ⟨rest, hrest⟩)
    · have hjoin := congrArg (List.splitOn '/') (List.cons.inj heq).2
      rw [List.splitOn_intercalate '/' hslash hnames,
        List.splitOn_intercalate '/' habove hne] at hjoin
      exact hjoin ▸ List.prefix_refl _
    · rw [List.cons_append, List.cons_append, List.append_assoc] at hrest
      have hjoin := congrArg (List.splitOn '/') (List.cons.inj hrest).2
      rw [List.splitOn_intercalate '/' hslash hnames, List.singleton_append,
        List.splitOn_append_cons_self, List.splitOn_intercalate '/' habove hne] at hjoin
      exact ⟨_, hjoin⟩
  · rintro ⟨rest, rfl⟩
    cases rest with
    | nil => exact Or.inl (by rw [List.append_nil])
    | cons name rest =>
      refine Or.inr ⟨['/'].intercalate (name :: rest), ?_⟩
      rw [intercalate_append hne (List.cons_ne_nil name rest), List.cons_append, List.cons_append,
        List.append_assoc, List.singleton_append]

variable (caret) in
theorem pathOf_eq_join (text : Str) : ∃ names, names ≠ [] ∧
    (∀ name ∈ names, isDots name = false ∧ ∀ c ∈ name, IsPlain caret c ∧ c ≠ '/') ∧
    pathOf caret text = '/' :: ['/'].intercalate names := by
  refine ⟨_, resolve_ne_nil ?_, resolve_names _, rfl⟩
  simp [segmentsOf, List.splitOnP_ne_nil]

/-- Only a path that parsing does not change has anything below it. -/
theorem plainPath_of_isUnder {path text : Str} (h : IsUnder ('/' :: path) (pathOf caret text)) :
    PlainPath caret path := by
  obtain ⟨names, hnames, hkept, heq⟩ := pathOf_eq_join caret text
  have hslash : ∀ name ∈ names, '/' ∉ name := fun name hname hmem =>
    ((hkept name hname).2 _ hmem).2 rfl
  rw [heq] at h
  have hbelow : path.splitOn '/' <+: names := by
    refine (isUnder_join_iff (List.splitOn_ne_nil _ _) hnames ?_ hslash).mp ?_
    · exact fun name hname => notMem_of_mem_splitOn hname
    · rwa [List.intercalate_splitOn]
  constructor
  · intro c hc
    have hjoin : c ∈ ['/'].intercalate (path.splitOn '/') := by rwa [List.intercalate_splitOn]
    rcases mem_intercalate hjoin with hsep | ⟨name, hname, hc⟩
    · obtain rfl := List.mem_singleton.mp hsep
      exact slash_plain
    · exact ((hkept name (hbelow.subset hname)).2 c hc).1
  · exact fun name hname => (hkept name (hbelow.subset hname)).1

theorem IsPlain.not_endsPath {c : Char} (h : IsPlain caret c) : endsPath c = false := by
  obtain ⟨hset, -⟩ := h
  simp only [inPathSet, Bool.or_eq_false_iff, decide_eq_false_iff_not] at hset
  have hmem := hset.1.2
  simp only [endsPath, decide_eq_false_iff_not]
  rintro (rfl | rfl) <;> exact hmem (by decide)

theorem flatMap_percentEncode {name : Str} (h : ∀ c ∈ name, IsPlain caret c) :
    name.flatMap (percentEncode caret) = name := by
  induction name with
  | nil => rfl
  | cons c rest ih =>
    have hc := (h c List.mem_cons_self).1
    rw [List.flatMap_cons, ih fun d hd => h d (List.mem_cons_of_mem c hd)]
    simp [percentEncode, hc]

/-- The names of a plain path are its segments, and what follows it belongs to the last. -/
theorem segmentsOf_append {name : Str} (rest : Str)
    (hdirs : ∀ d ∈ dirs, ∀ c ∈ d, IsPlain caret c ∧ c ≠ '/') :
    segmentsOf caret (['/'].intercalate (dirs ++ [name]) ++ rest) =
      dirs ++ segmentsOf caret (name ++ rest) := by
  induction dirs with
  | nil => simp
  | cons d ds ih =>
    have hd := hdirs d List.mem_cons_self
    have hnoslash : ∀ c ∈ d, isSlash c = false := by
      intro c hc
      simp only [isSlash, decide_eq_false_iff_not, not_or]
      exact ⟨(hd c hc).2, (hd c hc).1.2⟩
    have hrec := ih fun e he => hdirs e (List.mem_cons_of_mem d he)
    rw [List.cons_append, List.intercalate_cons_of_ne_nil (by simp), List.append_assoc,
      List.append_assoc, List.singleton_append, List.cons_append]
    unfold segmentsOf at hrec ⊢
    rw [List.splitOnP_append_cons_of_forall_mem hnoslash '/' (by decide), List.map_cons, hrec,
      flatMap_percentEncode fun c hc => (hd c hc).1]

theorem resolve_append (hdirs : ∀ d ∈ dirs, isDots d = false) (hsegments : segments ≠ []) :
    resolve [] (dirs ++ segments) = resolve dirs segments := by
  have hfold : ∀ before, dirs.foldl enter before = before ++ dirs := by
    induction dirs with
    | nil => simp
    | cons d ds ih =>
      intro before
      have hd := isDots_eq_false_iff.mp (hdirs d List.mem_cons_self)
      rw [List.foldl_cons, ih fun e he => hdirs e (List.mem_cons_of_mem d he)]
      simp [enter, hd]
  have hlast : lastName (dirs ++ segments) = lastName segments := by
    rw [lastName, lastName, List.getLast?_append_of_ne_nil _ hsegments]
  rw [resolve, List.foldl_append, hfold, List.nil_append, hlast, resolve]

/-- The segments of a text that goes on behind a name, up to a query or a fragment. -/
def trailFrom (caret : Bool) (name tail : Str) : Trail :=
  trailOf (segmentsOf caret (name ++ tail.takeWhile fun c => !endsPath c))

/-- Behind a plain path the text keeps to it when it does not climb, or comes down again. -/
theorem isUnder_pathOf_iff {name : Str} (tail : Str)
    (h : PlainPath caret (['/'].intercalate (dirs ++ [name])))
    (hslash : ∀ d ∈ dirs ++ [name], '/' ∉ d) :
    IsUnder ('/' :: ['/'].intercalate (dirs ++ [name]))
        (pathOf caret ('/' :: ['/'].intercalate (dirs ++ [name]) ++ tail)) ↔
      dirs.rtake (trailFrom caret name tail).up ++ [name] <+: (trailFrom caret name tail).down := by
  have hne : dirs ++ [name] ≠ [] := by simp
  have hnames : (['/'].intercalate (dirs ++ [name])).splitOn '/' = dirs ++ [name] :=
    List.splitOn_intercalate '/' hslash hne
  have hdots : ∀ d ∈ dirs, isDots d = false := fun d hd =>
    h.no_dots d (by rw [hnames]; exact List.mem_append_left _ hd)
  have hplain : ∀ d ∈ dirs, ∀ c ∈ d, IsPlain caret c ∧ c ≠ '/' := by
    intro d hd c hc
    refine ⟨h.plain c ?_, fun heq => hslash d (List.mem_append_left _ hd) (heq ▸ hc)⟩
    exact mem_intercalate_of_mem (List.mem_append_left _ hd) hc
  have htext : (('/' :: ['/'].intercalate (dirs ++ [name]) ++ tail).takeWhile
      fun c => !endsPath c).drop 1 =
        ['/'].intercalate (dirs ++ [name]) ++ tail.takeWhile fun c => !endsPath c := by
    rw [List.cons_append, List.takeWhile_cons_of_pos (by decide), List.drop_succ_cons,
      List.drop_zero, List.takeWhile_append_of_pos]
    intro c hc
    simp [(h.plain c hc).not_endsPath]
  have hsegments : segmentsOf caret (name ++ tail.takeWhile fun c => !endsPath c) ≠ [] := by
    simp [segmentsOf, List.splitOnP_ne_nil]
  rw [pathOf, htext, segmentsOf_append _ hplain, resolve_append hdots hsegments,
    isUnder_join_iff hne (resolve_ne_nil hsegments) hslash, prefix_resolve_iff]
  · rfl
  · rw [← resolve_append hdots hsegments, ← segmentsOf_append _ hplain]
    exact fun s hs hmem => ((resolve_names _ s hs).2 _ hmem).2 rfl

/-- What is left of a text at the end of a URL. -/
def cleanedEnd (text : Str) : Str :=
  (text.rdropWhile isC0OrSpace).filter fun c => !isTabOrNewline c

/-- The beginning of an http or https URL, up to its authority. -/
def IsOrigin {Host : Type} (hostOf : Str → Option Host) (origin : Str) : Prop :=
  ∃ scheme authority, origin = scheme ++ "://".toList ++ authority ∧
    (scheme.map Char.toLower = "http".toList ∨ scheme.map Char.toLower = "https".toList) ∧
    authority ≠ [] ∧ (∀ c ∈ authority, endsAuthority c = false ∧ isTabOrNewline c = false) ∧
    (hostOf authority).isSome

/-- With what follows a path the text does not climb, or it comes down again the same way:
along the names that it has climbed, and along the last name of the path. -/
def ComesBack (caret : Bool) (path tail : Str) : Prop :=
  (path.splitOn '/').dropLast.rtake
      (trailFrom caret ((path.splitOn '/').getLast?.getD []) (cleanedEnd tail)).up ++
    [(path.splitOn '/').getLast?.getD []] <+:
      (trailFrom caret ((path.splitOn '/').getLast?.getD []) (cleanedEnd tail)).down

theorem scheme_letter {scheme : Str}
    (h : scheme.map Char.toLower = "http".toList ∨ scheme.map Char.toLower = "https".toList)
    {c : Char} (hc : c ∈ scheme) :
    c ≠ ':' ∧ isTabOrNewline c = false ∧ isC0OrSpace c = false := by
  have hmem : c.toLower ∈ "https".toList := by
    have hmap := List.mem_map_of_mem (f := Char.toLower) hc
    rcases h with h | h
    · rw [h] at hmap
      exact (List.Sublist.subset (by decide : List.Sublist "http".toList "https".toList)) hmap
    · rwa [h] at hmap
  have hsmall : ∀ d : Char, d.toLower = d → d ∉ "https".toList → c ≠ d := by
    rintro d hd hnot rfl
    exact hnot (hd ▸ hmem)
  have hlarge : 32 < c.toNat := by
    rcases toLower_cases c with heq | hcapital
    · rw [heq] at hmem
      have hall := List.all_eq_true.mp
        (by decide : "https".toList.all fun d => decide (32 < d.toNat)) c hmem
      simpa using hall
    · omega
  refine ⟨hsmall ':' (by decide) (by decide), ?_, by simp [isC0OrSpace, hlarge]⟩
  simp only [isTabOrNewline, decide_eq_false_iff_not]
  rintro (rfl | rfl | rfl) <;> exact absurd hlarge (by decide)

theorem cleaned_origin {Host : Type} {hostOf : Str → Option Host} {origin : Str}
    (h : IsOrigin hostOf origin) (rest : Str) :
    cleaned (origin ++ '/' :: rest) = origin ++ '/' :: cleanedEnd rest := by
  obtain ⟨scheme, authority, rfl, hscheme, -, hauthority, -⟩ := h
  have hfirst : ∃ c s, scheme = c :: s := by
    cases scheme with
    | nil => simp at hscheme
    | cons c s => exact ⟨c, s, rfl⟩
  have hstart : (scheme ++ "://".toList ++ authority ++ '/' :: rest).dropWhile isC0OrSpace =
      scheme ++ "://".toList ++ authority ++ '/' :: rest := by
    obtain ⟨c, s, rfl⟩ := hfirst
    exact List.dropWhile_cons_of_neg (by simp [scheme_letter hscheme List.mem_cons_self])
  have hkeep : (scheme ++ "://".toList ++ authority).filter (fun c => !isTabOrNewline c) =
      scheme ++ "://".toList ++ authority := by
    refine List.filter_eq_self.mpr fun c hc => ?_
    rcases List.mem_append.mp hc with hc | hc
    · rcases List.mem_append.mp hc with hc | hc
      · simp [scheme_letter hscheme hc]
      · exact List.all_eq_true.mp
          (by decide : "://".toList.all fun c => !isTabOrNewline c) c hc
    · simp [(hauthority c hc).2]
  rw [cleaned, trim, hstart, rdropWhile_append_cons (by decide), List.filter_append, hkeep,
    List.filter_cons_of_pos (by decide)]
  rfl

variable (caret) in
/-- The URL of a text that goes on behind its authority. -/
theorem parseHttp_origin {Host : Type} {hostOf : Str → Option Host} {origin : Str}
    (h : IsOrigin hostOf origin) (rest : Str) :
    ∃ url, parseHttp caret hostOf (origin ++ '/' :: rest) = some url ∧
      url.path = pathOf caret ('/' :: cleanedEnd rest) := by
  have hclean := cleaned_origin h rest
  obtain ⟨scheme, authority, rfl, hscheme, hne, hauthority, hhost⟩ := h
  obtain ⟨host, hhost⟩ := Option.isSome_iff_exists.mp hhost
  have hcolon : ∀ c ∈ scheme, decide (c ≠ ':') = true := fun c hc => by
    simpa using (scheme_letter hscheme hc).1
  have htext : scheme ++ "://".toList ++ authority ++ '/' :: cleanedEnd rest =
      scheme ++ ':' :: ("//".toList ++ (authority ++ '/' :: cleanedEnd rest)) := by simp
  have hinside : ∀ c ∈ authority, (!endsAuthority c) = true := fun c hc => by
    simp [(hauthority c hc).1]
  have hslashes : ("//".toList ++ (authority ++ '/' :: cleanedEnd rest)).dropWhile isSlash =
      authority ++ '/' :: cleanedEnd rest := by
    obtain ⟨c, others, rfl⟩ := List.exists_cons_of_ne_nil hne
    have hc : isSlash c = false := by
      have hboth := (hauthority c List.mem_cons_self).1
      simp only [endsAuthority, Bool.or_eq_false_iff] at hboth
      exact hboth.1
    have hall : ∀ d ∈ "//".toList, isSlash d = true := List.all_eq_true.mp (by decide)
    rw [List.dropWhile_append_of_pos hall, List.cons_append,
      List.dropWhile_cons_of_neg (by simp [hc])]
  rw [htext] at hclean
  refine ⟨⟨scheme.map Char.toLower, host, pathOf caret ('/' :: cleanedEnd rest)⟩, ?_, rfl⟩
  unfold parseHttp
  simp only [hclean]
  rw [List.takeWhile_append_of_pos hcolon, List.takeWhile_cons_of_neg (by decide),
    List.append_nil, List.dropWhile_append_of_pos hcolon, List.dropWhile_cons_of_neg (by decide)]
  simp only [if_pos hscheme, hslashes]
  have htake : (authority ++ '/' :: cleanedEnd rest).takeWhile (fun c => !endsAuthority c) =
      authority := by
    rw [List.takeWhile_append_of_pos hinside, List.takeWhile_cons_of_neg (by decide),
      List.append_nil]
  have hdrop : (authority ++ '/' :: cleanedEnd rest).dropWhile (fun c => !endsAuthority c) =
      '/' :: cleanedEnd rest := by
    rw [List.dropWhile_append_of_pos hinside, List.dropWhile_cons_of_neg (by decide)]
  rw [htake, hdrop, hhost]
  rfl

theorem IsPlain.not_c0 {c : Char} (h : IsPlain caret c) : isC0OrSpace c = false := by
  obtain ⟨hset, -⟩ := h
  simp only [inPathSet, Bool.or_eq_false_iff] at hset
  exact hset.1.1.1

theorem cleanedEnd_append {path : Str} (h : ∀ c ∈ path, IsPlain caret c) (tail : Str) :
    cleanedEnd (path ++ tail) = path ++ cleanedEnd tail := by
  have htabs : path.filter (fun c => !isTabOrNewline c) = path := by
    refine List.filter_eq_self.mpr fun c hc => ?_
    have hlarge := (h c hc).not_c0
    simp only [isC0OrSpace, decide_eq_false_iff_not] at hlarge
    simp only [isTabOrNewline, Bool.not_eq_true', decide_eq_false_iff_not]
    rintro (rfl | rfl | rfl) <;> exact hlarge (by decide)
  have htrim : (path ++ tail).rdropWhile isC0OrSpace = path ++ tail.rdropWhile isC0OrSpace := by
    rcases List.eq_nil_or_concat' path with rfl | ⟨before, c, rfl⟩
    · rfl
    · have hc : isC0OrSpace c = false := (h c (by simp)).not_c0
      simpa using rdropWhile_append_cons hc before tail
  rw [cleanedEnd, htrim, List.filter_append, htabs, cleanedEnd]

/-- What is requested below an origin is below a path exactly when parsing does not change
the path and the text behind it comes back to it. -/
theorem requested_under_iff {Host : Type} {hostOf : Str → Option Host} {origin : Str}
    (horigin : IsOrigin hostOf origin) (path tail : Str) :
    (∃ url, parseHttp caret hostOf (origin ++ '/' :: (path ++ tail)) = some url ∧
        IsUnder ('/' :: path) url.path) ↔
      PlainPath caret path ∧ ComesBack caret path tail := by
  obtain ⟨url, hparse, hpath⟩ := parseHttp_origin caret horigin (path ++ tail)
  have hunder : (∃ url, parseHttp caret hostOf (origin ++ '/' :: (path ++ tail)) = some url ∧
      IsUnder ('/' :: path) url.path) ↔
        IsUnder ('/' :: path) (pathOf caret ('/' :: cleanedEnd (path ++ tail))) := by
    simp [hparse, ← hpath]
  have hbehind : PlainPath caret path →
      (IsUnder ('/' :: path) (pathOf caret ('/' :: cleanedEnd (path ++ tail))) ↔
        ComesBack caret path tail) := by
    intro hplain
    have hsplit : (path.splitOn '/').dropLast ++ [(path.splitOn '/').getLast?.getD []] =
        path.splitOn '/' := by
      rw [List.getLast?_eq_some_getLast (List.splitOn_ne_nil _ _), Option.getD_some]
      exact List.dropLast_append_getLast _
    have hjoin : ['/'].intercalate
        ((path.splitOn '/').dropLast ++ [(path.splitOn '/').getLast?.getD []]) = path := by
      rw [hsplit, List.intercalate_splitOn]
    have hslash : ∀ d ∈ (path.splitOn '/').dropLast ++ [(path.splitOn '/').getLast?.getD []],
        '/' ∉ d := by
      rw [hsplit]
      exact fun d hd => notMem_of_mem_splitOn hd
    have h := isUnder_pathOf_iff (cleanedEnd tail) (hjoin.symm ▸ hplain) hslash
    rw [hjoin, List.cons_append, ← cleanedEnd_append hplain.plain] at h
    exact h
  rw [hunder]
  constructor
  · intro h
    have hplain := plainPath_of_isUnder h
    exact ⟨hplain, (hbehind hplain).mp h⟩
  · rintro ⟨hplain, hback⟩
    exact (hbehind hplain).mpr hback

theorem plainPath_append_slash_iff (path rest : Str) :
    PlainPath caret (path ++ '/' :: rest) ↔ PlainPath caret path ∧ PlainPath caret rest := by
  constructor
  · rintro ⟨hplain, hdots⟩
    rw [List.splitOn_append_cons_self] at hdots
    refine ⟨⟨fun c hc => hplain c (List.mem_append_left _ hc),
      fun s hs => hdots s (List.mem_append_left _ hs)⟩,
      ⟨fun c hc => hplain c (List.mem_append_right _ (List.mem_cons_of_mem _ hc)),
      fun s hs => hdots s (List.mem_append_right _ hs)⟩⟩
  · rintro ⟨⟨hplain, hdots⟩, ⟨hplain', hdots'⟩⟩
    constructor
    · intro c hc
      rcases List.mem_append.mp hc with hc | hc
      · exact hplain c hc
      · rcases List.mem_cons.mp hc with rfl | hc
        · exact slash_plain
        · exact hplain' c hc
    · rw [List.splitOn_append_cons_self]
      intro s hs
      exact (List.mem_append.mp hs).elim (hdots s) (hdots' s)

theorem trailOf_no_dots (h : ∀ s ∈ segments, isDots s = false) :
    trailOf segments = ⟨0, segments⟩ := by
  have hfold : ∀ down, segments.foldl Trail.enter ⟨0, down⟩ = ⟨0, down ++ segments⟩ := by
    induction segments with
    | nil => simp
    | cons s rest ih =>
      intro down
      have hs := isDots_eq_false_iff.mp (h s List.mem_cons_self)
      rw [List.foldl_cons]
      simp only [Trail.enter, hs.1, hs.2, Bool.false_eq_true, if_false]
      rw [ih fun t ht => h t (List.mem_cons_of_mem s ht), List.append_assoc]
      rfl
  have hlast : lastName segments = [] := by
    unfold lastName
    cases hend : segments.getLast? with
    | none => simp
    | some s => simp [h s (List.mem_of_getLast? hend)]
  simp [trailOf, hfold, hlast]

/-- A slash and names that are no dots lead away from the path, but not back. -/
theorem comesBack_of_no_dots {path rest : Str} (hpath : PlainPath caret path)
    (hrest : ∀ s ∈ segmentsOf caret ((cleanedEnd rest).takeWhile fun c => !endsPath c),
      isDots s = false) :
    ComesBack caret path [] ∧ ComesBack caret path ('/' :: rest) := by
  obtain ⟨name, hname⟩ : ∃ name, (path.splitOn '/').getLast? = some name :=
    ⟨_, List.getLast?_eq_some_getLast (List.splitOn_ne_nil _ _)⟩
  have hmem : name ∈ path.splitOn '/' := List.mem_of_getLast? hname
  have hplain : ∀ c ∈ name, IsPlain caret c := by
    intro c hc
    have hjoin : c ∈ ['/'].intercalate (path.splitOn '/') := mem_intercalate_of_mem hmem hc
    exact hpath.plain c (by rwa [List.intercalate_splitOn] at hjoin)
  have hslash : ∀ c ∈ name, isSlash c = false := by
    intro c hc
    have hne : c ≠ '/' := fun heq => notMem_of_mem_splitOn hmem (heq ▸ hc)
    simp [isSlash, hne, (hplain c hc).2]
  have hback : ∀ tail segments, segmentsOf caret
      (name ++ (cleanedEnd tail).takeWhile fun c => !endsPath c) = name :: segments →
        (∀ s ∈ segments, isDots s = false) → ComesBack caret path tail := by
    intro tail segments htail hsegments
    have hdots : ∀ s ∈ name :: segments, isDots s = false := by
      intro s hs
      rcases List.mem_cons.mp hs with rfl | hs
      · exact hpath.no_dots s hmem
      · exact hsegments s hs
    unfold ComesBack trailFrom
    rw [hname, Option.getD_some, htail, trailOf_no_dots hdots, List.rtake_zero, List.nil_append]
    exact ⟨segments, rfl⟩
  constructor
  · refine hback [] [] ?_ (by simp)
    simp [cleanedEnd, segmentsOf, List.splitOnP_eq_singleton hslash, flatMap_percentEncode hplain]
  · refine hback _ _ ?_ hrest
    have hclean : cleanedEnd ('/' :: rest) = '/' :: cleanedEnd rest := by
      have hplain : ∀ c ∈ ['/'], IsPlain caret c := fun c hc =>
        List.mem_singleton.mp hc ▸ slash_plain
      exact cleanedEnd_append hplain rest
    rw [hclean, List.takeWhile_cons_of_pos (by decide), segmentsOf,
      List.splitOnP_append_cons_of_forall_mem hslash '/' (by decide), List.map_cons,
      flatMap_percentEncode hplain]
    rfl

end Library.UrlPaths
