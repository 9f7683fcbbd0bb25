import KineticAtlas.AtlasTable

/-!
The two scripts that rewrite ATLAS.md: update_atlas_md of validate_registration.py,
which adds or replaces the row of one network, and monitor_networks.py, which sets
the status cells. The main result says for which tables they lose nothing: for
those whose separator line is exactly the one that both look up by equality.
-/
namespace KineticAtlas.AtlasScripts

open Library.Texts AtlasTable

def activeBadge : Str := "🟢 Active"
def offlineBadge : Str := "🔴 Offline"

def sanitizeMarkdown (text : Str) : Str :=
  strip (((text.map fun c => if c = '|' then '-' else c).map
    fun c => if c = '\n' then ' ' else c).filter fun c => c ≠ '\r')

def linkTo (target : Str) : Str :=
  if target = [] then "N/A" else "[".toList ++ target ++ "](".toList ++ target ++ ")".toList

def newRow (tld networkId networkType status desc localBindIp url repo : Str) : Str :=
  "| `".toList ++ tld ++ "` | ".toList ++ networkId ++ " | ".toList ++ networkType ++
    " | ".toList ++ status ++ " | ".toList ++ desc ++ " | ".toList ++ localBindIp ++
    " | ".toList ++ linkTo url ++ " | ".toList ++ linkTo repo ++ " |".toList

/-- `sort(key=lambda x: x[0])`. -/
def sortByTld {V : Type} (rows : List (Str × V)) : List (Str × V) :=
  rows.insertionSort fun a b => a.1 ≤ b.1

def updateAtlasMd (atlas : Option Str)
    (tld networkId networkType desc localBindIp url repo status : Str) : Option Str × Outcome :=
  match atlas with
  | none => (none, .fileNotFound)
  | some content =>
    let s := scan (fun rows line parts =>
      if 5 ≤ parts.length then rows ++ [(tldKey (parts.headD []), line)] else rows) [] content
    let row := newRow tld networkId networkType status desc localBindIp url repo
    let tableRows := sortByTld (s.tableRows.filter (fun r => r.1 ≠ tld) ++ [(tld, row)])
    let (text, outcome) := rewriteTable s.headerLines (tableRows.map Prod.snd)
    (some text, outcome)

/-- A registration as `main` passes it on, before its fields are sanitized. -/
structure Registration where
  tld : Str
  networkId : Str
  networkType : Str
  desc : Str
  localBindIp : Str
  url : Str
  repo : Str
  tld_alphanumeric : tld ≠ [] ∧ ∀ c ∈ tld, ('a' ≤ c ∧ c ≤ 'z') ∨ ('0' ≤ c ∧ c ≤ '9')

def Registration.update (reg : Registration) (atlas : Option Str) : Option Str × Outcome :=
  updateAtlasMd atlas reg.tld (sanitizeMarkdown reg.networkId) (sanitizeMarkdown reg.networkType)
    (sanitizeMarkdown reg.desc) (sanitizeMarkdown reg.localBindIp) (sanitizeMarkdown reg.url)
    (sanitizeMarkdown reg.repo) activeBadge

/-- A file of the networks directory, with the strings among its bootstrap nodes;
reading or decoding one may fail. -/
inductive NetworkFile
  | broken
  | config (seedDomain : Option Str) (bootstrapNodes : List (Option Str))

/-- What a run meets: the networks directory if there is one, the counters saved by
the last run, and the answers to pings. -/
structure MonitorEnv where
  networks : Option (List (Str × NetworkFile))
  uptimeState : Str → Option ℕ
  pingHost : (host port : Str) → Bool

structure Monitoring where
  uptimeState : Str → Option ℕ
  tableRows : List (Str × List Str)

structure Monitored where
  atlas : Option Str
  savedState : Option (Str → Option ℕ)
  outcome : Outcome

/-- Assignment to a key of a dict, which keeps the order of its keys. -/
def setRow (rows : List (Str × List Str)) (tld : Str) (parts : List Str) :
    List (Str × List Str) :=
  if tld ∈ rows.map Prod.fst then
    rows.map fun row => if row.1 = tld then (tld, parts) else row
  else rows ++ [(tld, parts)]

/-- The status cell of a row, when the dict has one for the TLD. -/
def setStatus (rows : List (Str × List Str)) (tld badge : Str) : List (Str × List Str) :=
  rows.map fun row => if row.1 = tld then (row.1, row.2.set 3 badge) else row

/-- The host and the port behind `ip4` and `tcp` in a multiaddr. -/
def ip4Endpoint (node : Str) : Option (Str × Str) :=
  let parts := node.splitOn '/'
  match parts.idxOf? "ip4".toList, parts.idxOf? "tcp".toList with
  | some i, some j =>
    match parts[i + 1]?, parts[j + 1]? with
    | some ip, some port => some (ip, port)
    | _, _ => none
  | _, _ => none

def isLive (pingHost : Str → Str → Bool) (nodes : List (Option Str)) : Bool :=
  nodes.any fun node =>
    match node.bind ip4Endpoint with
    | some (ip, port) => pingHost ip port
    | none => false

/-- One round of the loop over the files of the directory. -/
def monitorFile (pingHost : Str → Str → Bool) (s : Monitoring) (file : Str × NetworkFile) :
    Monitoring :=
  if ".json".toList <:+ file.1 then
    let tld := file.1.take (file.1.length - 5)
    match file.2 with
    | .broken => s
    | .config seed nodes =>
      if seed.getD [] = [] ∨ nodes = [] then s
      else if isLive pingHost nodes then
        { uptimeState := Function.update s.uptimeState tld (some 0)
          tableRows := setStatus s.tableRows tld activeBadge }
      else
        let failures := (s.uptimeState tld).getD 0 + 1
        { uptimeState := Function.update s.uptimeState tld (some failures)
          tableRows := setStatus s.tableRows tld
            (if 7 ≤ failures then offlineBadge else activeBadge) }
  else s

def rowText (parts : List Str) : Str :=
  "| ".toList ++ " | ".toList.intercalate parts ++ " |".toList

def monitorNetworks (env : MonitorEnv) (atlas : Option Str) : Monitored :=
  match env.networks with
  | none => ⟨atlas, none, .completed⟩
  | some files =>
    match atlas with
    | none => ⟨none, none, .completed⟩
    | some content =>
      let s := scan (fun rows _ parts =>
        if 8 ≤ parts.length then setRow rows (tldKey (parts.headD [])) parts else rows) [] content
      let monitored := files.foldl (monitorFile env.pingHost) ⟨env.uptimeState, s.tableRows⟩
      match rewriteTable s.headerLines
          ((sortByTld monitored.tableRows).map fun row => rowText row.2) with
      | (text, .completed) => ⟨some text, some monitored.uptimeState, .completed⟩
      | (text, outcome) => ⟨some text, none, outcome⟩

def pad (cell : Str) : Str := ' ' :: cell ++ [' ']

theorem strip_pad (cell : Str) : strip (pad cell) = strip cell :=
  (trim_cons_of_pos (by decide) _).trans (trim_concat_of_pos (by decide) _)

theorem strip_strip (cell : Str) : strip (strip cell) = strip cell := trim_trim _ _

theorem clean_of_subset {s t : Str} (h : Clean t) (hst : ∀ c ∈ s, c ∈ t) : Clean s :=
  ⟨fun hc => h.1 (hst _ hc), fun hc => h.2.1 (hst _ hc), fun hc => h.2.2 (hst _ hc)⟩

theorem clean_append {s t : Str} (hs : Clean s) (ht : Clean t) : Clean (s ++ t) := by
  refine ⟨?_, ?_, ?_⟩
  · simpa using ⟨hs.1, ht.1⟩
  · simpa using ⟨hs.2.1, ht.2.1⟩
  · simpa using ⟨hs.2.2, ht.2.2⟩

theorem clean_strip {s : Str} (h : Clean s) : Clean (strip s) :=
  clean_of_subset h fun _ hc => (trim_sublist _ s).subset hc

theorem clean_sanitizeMarkdown (text : Str) : Clean (sanitizeMarkdown text) := by
  refine clean_strip ⟨?_, ?_, ?_⟩
  · intro hc
    obtain ⟨b, hb, heq⟩ := List.mem_map.mp (List.mem_of_mem_filter hc)
    obtain ⟨a, -, rfl⟩ := List.mem_map.mp hb
    split at heq <;> split at heq <;> simp_all
  · intro hc
    obtain ⟨b, hb, heq⟩ := List.mem_map.mp (List.mem_of_mem_filter hc)
    split at heq <;> simp_all
  · intro hc
    simpa using (List.mem_filter.mp hc).2

/-- A row with its cells set off by blanks. -/
def paddedRow (cells : List Str) (h8 : cells.length = 8) (hclean : ∀ c ∈ cells, Clean c)
    (hsep : ¬ ":---".toList <+: strip (cells.headD [])) : Row where
  cells := cells.map pad
  eight := by simpa using h8
  cells_clean c hc := by
    obtain ⟨cell, hcell, rfl⟩ := List.mem_map.mp hc
    have hblank : Clean [' '] := by decide
    exact clean_append (clean_append hblank (hclean cell hcell)) hblank
  not_separator := by
    cases cells with
    | nil => simp at h8
    | cons first rest => simpa [strip_pad] using hsep

section

variable {cells : List Str} (h8 : cells.length = 8) (hclean : ∀ c ∈ cells, Clean c)
  (hsep : ¬ ":---".toList <+: strip (cells.headD []))

theorem paddedRow_line : (paddedRow cells h8 hclean hsep).line = rowText cells := by
  have hpad : ∀ first rest, ['|'].intercalate ((first :: rest).map pad) =
      ' ' :: " | ".toList.intercalate (first :: rest) ++ [' '] := by
    intro first rest
    induction rest generalizing first with
    | nil => simp [pad]
    | cons second rest ih =>
      have hrec := ih second
      simp only [List.map_cons, List.intercalate_cons_cons] at hrec ⊢
      rw [hrec]
      simp [pad]
  cases cells with
  | nil => simp at h8
  | cons first rest =>
    rw [Row.line, paddedRow, hpad, rowText]
    simp

theorem paddedRow_tld : (paddedRow cells h8 hclean hsep).tld = tldKey (strip (cells.headD [])) := by
  cases cells with
  | nil => simp at h8
  | cons first rest => simp [Row.tld, paddedRow, strip_pad]

theorem paddedRow_stripped :
    (paddedRow cells h8 hclean hsep).cells.map strip = cells.map strip := by
  simp [paddedRow, Function.comp_def, strip_pad]

end

theorem clean_linkTo {target : Str} (h : Clean target) : Clean (linkTo target) := by
  have hmarks : Clean "N/A" ∧ Clean "[" ∧ Clean "](" ∧ Clean ")" := by decide
  unfold linkTo
  split
  · exact hmarks.1
  · exact clean_append (clean_append (clean_append (clean_append hmarks.2.1 h) hmarks.2.2.1) h)
      hmarks.2.2.2

theorem newRow_eq_rowText (tld networkId networkType status desc localBindIp url repo : Str) :
    newRow tld networkId networkType status desc localBindIp url repo =
      rowText ["`".toList ++ tld ++ "`".toList, networkId, networkType, status, desc, localBindIp,
        linkTo url, linkTo repo] := by
  have hopen : "| `".toList = "| ".toList ++ "`".toList := rfl
  have hclose : "` | ".toList = "`".toList ++ " | ".toList := rfl
  unfold newRow rowText
  rw [hopen, hclose]
  simp only [-String.reduceToList, List.intercalate_cons_cons, List.intercalate_singleton,
    List.append_assoc]

/-- The cells of a new row, from the fields before they are sanitized. -/
def rowCells (tld networkId networkType status desc localBindIp url repo : Str) : List Str :=
  ["`".toList ++ tld ++ "`".toList, sanitizeMarkdown networkId, sanitizeMarkdown networkType,
    status, sanitizeMarkdown desc, sanitizeMarkdown localBindIp, linkTo (sanitizeMarkdown url),
    linkTo (sanitizeMarkdown repo)]

theorem rowCells_clean {tld status : Str} (htld : Clean tld) (hstatus : Clean status)
    (networkId networkType desc localBindIp url repo : Str) :
    ∀ c ∈ rowCells tld networkId networkType status desc localBindIp url repo, Clean c := by
  have htick : Clean "`" := by decide
  intro c hc
  simp only [rowCells, List.mem_cons, List.not_mem_nil, or_false] at hc
  rcases hc with rfl | rfl | rfl | rfl | rfl | rfl | rfl | rfl
  · exact clean_append (clean_append htick htld) htick
  · exact clean_sanitizeMarkdown _
  · exact clean_sanitizeMarkdown _
  · exact hstatus
  · exact clean_sanitizeMarkdown _
  · exact clean_sanitizeMarkdown _
  · exact clean_linkTo (clean_sanitizeMarkdown _)
  · exact clean_linkTo (clean_sanitizeMarkdown _)

/-- Backticks are no blanks, so nothing is stripped off the first cell. -/
theorem strip_ticked (tld : Str) :
    strip ("`".toList ++ tld ++ "`".toList) = "`".toList ++ tld ++ "`".toList :=
  trim_of_ends (by decide) (by decide) tld

theorem ticked_not_separator (tld : Str) :
    ¬ ":---".toList <+: strip ("`".toList ++ tld ++ "`".toList) := by
  rw [strip_ticked]
  intro h
  exact absurd (List.cons_prefix_cons.mp h).1 (by decide)

theorem tldKey_ticked {tld : Str} (h : '`' ∉ tld) :
    tldKey ("`".toList ++ tld ++ "`".toList) = tld := by
  have htick : ∀ c ∈ tld, c ≠ '`' := fun c hc heq => h (heq ▸ hc)
  simpa [tldKey] using htick

namespace Registration

def cells (reg : Registration) : List Str :=
  ["`".toList ++ reg.tld ++ "`".toList, sanitizeMarkdown reg.networkId,
    sanitizeMarkdown reg.networkType, activeBadge, sanitizeMarkdown reg.desc,
    sanitizeMarkdown reg.localBindIp, linkTo (sanitizeMarkdown reg.url),
    linkTo (sanitizeMarkdown reg.repo)]

theorem tld_char_ne {reg : Registration} {c d : Char} (hc : c ∈ reg.tld)
    (hd : ¬ (('a' ≤ d ∧ d ≤ 'z') ∨ ('0' ≤ d ∧ d ≤ '9'))) : c ≠ d := by
  rintro rfl
  exact hd (reg.tld_alphanumeric.2 c hc)

theorem cells_clean (reg : Registration) : ∀ c ∈ reg.cells, Clean c := by
  have htld : Clean reg.tld :=
    ⟨fun h => tld_char_ne h (by decide) rfl, fun h => tld_char_ne h (by decide) rfl,
      fun h => tld_char_ne h (by decide) rfl⟩
  exact rowCells_clean htld (by decide) _ _ _ _ _ _

theorem not_separator (reg : Registration) : ¬ ":---".toList <+: strip (reg.cells.headD []) :=
  ticked_not_separator reg.tld

theorem cells_length (reg : Registration) : reg.cells.length = 8 := rfl

def row (reg : Registration) : Row :=
  paddedRow reg.cells reg.cells_length reg.cells_clean reg.not_separator

theorem row_tld (reg : Registration) : reg.row.tld = reg.tld := by
  have htick : '`' ∉ reg.tld := fun hc => tld_char_ne hc (by decide) rfl
  have hfirst : strip (reg.cells.headD []) = "`".toList ++ reg.tld ++ "`".toList :=
    strip_ticked reg.tld
  rw [row, paddedRow_tld, hfirst, tldKey_ticked htick]

theorem row_line (reg : Registration) :
    newRow reg.tld (sanitizeMarkdown reg.networkId) (sanitizeMarkdown reg.networkType) activeBadge
      (sanitizeMarkdown reg.desc) (sanitizeMarkdown reg.localBindIp) (sanitizeMarkdown reg.url)
      (sanitizeMarkdown reg.repo) = reg.row.line := by
  rw [row, paddedRow_line]
  exact newRow_eq_rowText _ _ _ _ _ _ _ _

end Registration

def sortRows (rows : List Row) : List Row := rows.insertionSort fun a b => a.tld ≤ b.tld

theorem sortRows_perm (rows : List Row) : (sortRows rows).Perm rows :=
  List.perm_insertionSort _ rows

theorem sortByTld_map {V : Type} (value : Row → V) (rows : List Row) :
    sortByTld (rows.map fun r => (r.tld, value r)) =
      (sortRows rows).map fun r => (r.tld, value r) := by
  unfold sortByTld sortRows
  rw [List.map_insertionSort (fun a b : Row => a.tld ≤ b.tld)
    (fun a b : Str × V => a.1 ≤ b.1) (fun r => (r.tld, value r))]
  exact fun _ _ _ _ => Iff.rfl

/-- The rows a registration leaves: those of other TLDs and its own. -/
def rowsAfter (t : Table) (reg : Registration) : List Row :=
  t.rows.filter (fun r => r.tld ≠ reg.tld) ++ [reg.row]

theorem rowsAfter_distinct (t : Table) (reg : Registration) :
    ((sortRows (rowsAfter t reg)).map Row.tld).Nodup := by
  rw [((sortRows_perm _).map Row.tld).nodup_iff, rowsAfter, List.map_append, List.nodup_append]
  refine ⟨t.tlds_distinct.sublist (List.filter_sublist.map _), by simp, ?_⟩
  intro tld htld tld' htld' heq
  obtain ⟨r, hr, rfl⟩ := List.mem_map.mp htld
  have hown : tld' = reg.tld := by simpa [reg.row_tld] using htld'
  exact absurd (heq.trans hown) (by simpa using (List.mem_filter.mp hr).2)

/-- What a registration writes, up to the rewriting of the file. -/
theorem update_eq (t : Table) (reg : Registration) :
    reg.update (some t.text) =
      let written := rewriteTable
        (t.header ++ t.separator :: if t.endsWithNewline then [[]] else [])
        ((sortRows (rowsAfter t reg)).map Row.line)
      (some written.1, written.2) := by
  have hscan : ∀ rows : List Row, ∀ seen : List (Str × Str),
      rows.foldl (fun acc row => if 5 ≤ (row.cells.map strip).length then
        acc ++ [(tldKey ((row.cells.map strip).headD []), row.line)] else acc) seen =
        seen ++ rows.map fun r => (r.tld, r.line) := by
    intro rows
    induction rows with
    | nil => simp
    | cons row rest ih =>
      intro seen
      have hlen : 5 ≤ (row.cells.map strip).length := by
        rw [List.length_map, row.eight]
        decide
      have hkey : tldKey ((row.cells.map strip).headD []) = row.tld := by
        obtain ⟨first, cells, hcells⟩ := List.exists_cons_of_ne_nil row.cells_ne_nil
        simp [Row.tld, hcells]
      rw [List.foldl_cons, if_pos hlen, ih, hkey]
      simp
  have hrows : (t.rows.map fun r => (r.tld, r.line)).filter (fun r => r.1 ≠ reg.tld) ++
      [(reg.tld, reg.row.line)] = (rowsAfter t reg).map fun r => (r.tld, r.line) := by
    simp [rowsAfter, List.filter_map, Function.comp_def, reg.row_tld]
  simp only [Registration.update, updateAtlasMd, Table.scan_text, hscan, List.nil_append,
    reg.row_line, hrows, sortByTld_map, List.map_map, Function.comp_def]

/-- A registration completes and leaves header, separator and the rows of other TLDs,
with one row of its own, sorted by TLD. -/
def UpdateLossless (t : Table) (reg : Registration) : Prop :=
  ∃ t' : Table, reg.update (some t.text) = (some t'.text, .completed) ∧
    t'.header = t.header ∧ t'.separator = t.separator ∧
    t'.rows.Perm (t.rows.filter (fun r => r.tld ≠ reg.tld) ++ [reg.row]) ∧
    t'.rows.Pairwise fun a b => a.tld ≤ b.tld

/-- A registration is lost together with the whole file unless the separator is bare. -/
theorem update_of_not_bare (t : Table) (reg : Registration) (hsep : t.separator ≠ separatorPrefix) :
    reg.update (some t.text) = (some [], .valueError) := by
  rw [update_eq, t.rewriteTable_of_not_bare hsep]

theorem updateLossless_iff (t : Table) (reg : Registration) :
    UpdateLossless t reg ↔ t.separator = separatorPrefix := by
  constructor
  · rintro ⟨t', hupdate, -⟩
    by_contra hsep
    rw [update_of_not_bare t reg hsep] at hupdate
    cases (Prod.mk.inj hupdate).2
  · intro hsep
    refine ⟨t.withRows _ (rowsAfter_distinct t reg), ?_, rfl, rfl, sortRows_perm _, ?_⟩
    · rw [update_eq, t.rewriteTable_of_bare hsep _ _ (rowsAfter_distinct t reg)]
    · exact List.pairwise_insertionSort (fun a b : Row => a.tld ≤ b.tld) _

inductive Badge
  | active
  | offline

def Badge.text : Badge → Str
  | .active => activeBadge
  | .offline => offlineBadge

/-- The items of the dict after some status cells have been set. -/
def badged (badges : Str → Option Badge) (row : Str × List Str) : Str × List Str :=
  match badges row.1 with
  | some badge => (row.1, row.2.set 3 badge.text)
  | none => row

theorem setStatus_badged (badges : Str → Option Badge) (rows : List (Str × List Str)) (tld : Str)
    (badge : Badge) :
    setStatus (rows.map (badged badges)) tld badge.text =
      rows.map (badged (Function.update badges tld (some badge))) := by
  rw [setStatus, List.map_map]
  refine List.map_congr_left fun row _ => ?_
  by_cases htld : row.1 = tld
  · cases hb : badges row.1 <;> simp [badged, ← htld, hb]
  · cases hb : badges row.1 <;> simp [badged, htld, hb]

theorem monitorFile_badged (pingHost : Str → Str → Bool) (s : Monitoring)
    (file : Str × NetworkFile) (rows : List (Str × List Str)) (badges : Str → Option Badge)
    (hs : s.tableRows = rows.map (badged badges)) :
    ∃ badges', (monitorFile pingHost s file).tableRows = rows.map (badged badges') := by
  obtain ⟨filename, content⟩ := file
  unfold monitorFile
  split
  · cases content with
    | broken => exact ⟨badges, hs⟩
    | config seed nodes =>
      dsimp only
      split
      · exact ⟨badges, hs⟩
      · split
        · rw [hs]
          exact ⟨_, setStatus_badged badges rows _ .active⟩
        · rw [hs]
          split
          · exact ⟨_, setStatus_badged badges rows _ .offline⟩
          · exact ⟨_, setStatus_badged badges rows _ .active⟩
  · exact ⟨badges, hs⟩

/-- Whatever the pings say, the loop only sets status cells. -/
theorem monitorFiles_badged (pingHost : Str → Str → Bool) (files : List (Str × NetworkFile))
    (s : Monitoring) (rows : List (Str × List Str)) (badges : Str → Option Badge)
    (hs : s.tableRows = rows.map (badged badges)) :
    ∃ badges', (files.foldl (monitorFile pingHost) s).tableRows = rows.map (badged badges') := by
  induction files generalizing s badges with
  | nil => exact ⟨badges, hs⟩
  | cons file rest ih =>
    obtain ⟨badges', hs'⟩ := monitorFile_badged pingHost s file rows badges hs
    exact ih _ badges' hs'

/-- The cells of a row as they are written back. -/
def cellsWith (r : Row) : Option Badge → List Str
  | some badge => (r.cells.map strip).set 3 badge.text
  | none => r.cells.map strip

theorem cellsWith_length (r : Row) (badge : Option Badge) : (cellsWith r badge).length = 8 := by
  cases badge <;> simp [cellsWith, r.eight]

theorem cellsWith_clean (r : Row) (badge : Option Badge) : ∀ c ∈ cellsWith r badge, Clean c := by
  have hold : ∀ c ∈ r.cells.map strip, Clean c := by
    intro c hc
    obtain ⟨cell, hcell, rfl⟩ := List.mem_map.mp hc
    exact clean_strip (r.cells_clean cell hcell)
  cases badge with
  | none => exact hold
  | some badge =>
    intro c hc
    rcases List.mem_or_eq_of_mem_set hc with hin | rfl
    · exact hold c hin
    · cases badge <;> decide

theorem cellsWith_head (r : Row) (badge : Option Badge) :
    strip ((cellsWith r badge).headD []) = strip (r.cells.headD []) := by
  obtain ⟨first, rest, hcells⟩ := List.exists_cons_of_ne_nil r.cells_ne_nil
  cases badge <;> simp [cellsWith, hcells, strip_strip]

def rewritten (badges : Str → Option Badge) (r : Row) : Row :=
  paddedRow (cellsWith r (badges r.tld)) (cellsWith_length r _) (cellsWith_clean r _)
    (cellsWith_head r _ ▸ r.not_separator)

theorem rewritten_tld (badges : Str → Option Badge) (r : Row) :
    (rewritten badges r).tld = r.tld := by
  rw [rewritten, paddedRow_tld, cellsWith_head]
  rfl

/-- Two rows that differ at most in the status cell, up to blanks around cells. -/
def SameButStatus (r r' : Row) : Prop :=
  (r.cells.map strip).eraseIdx 3 = (r'.cells.map strip).eraseIdx 3

theorem rewritten_same (badges : Str → Option Badge) (r : Row) :
    SameButStatus r (rewritten badges r) := by
  have hidem : (r.cells.map strip).map strip = r.cells.map strip := by
    simp [Function.comp_def, strip_strip]
  rw [SameButStatus, rewritten, paddedRow_stripped]
  cases badges r.tld with
  | none => rw [cellsWith, hidem]
  | some badge => rw [cellsWith, List.map_set, hidem, List.eraseIdx_set_eq]

theorem setRow_of_new (rows : List (Str × List Str)) (tld : Str) (parts : List Str)
    (h : tld ∉ rows.map Prod.fst) : setRow rows tld parts = rows ++ [(tld, parts)] := if_neg h

/-- Distinct TLDs make the dict a list of the rows. -/
theorem collected_rows (rows : List Row) (seen : List (Str × List Str))
    (h : (seen.map Prod.fst ++ rows.map Row.tld).Nodup) :
    rows.foldl (fun acc row => if 8 ≤ (row.cells.map strip).length then
      setRow acc (tldKey ((row.cells.map strip).headD [])) (row.cells.map strip) else acc) seen =
      seen ++ rows.map fun r => (r.tld, r.cells.map strip) := by
  induction rows generalizing seen with
  | nil => simp
  | cons row rest ih =>
    have hlen : 8 ≤ (row.cells.map strip).length := by
      rw [List.length_map, row.eight]
    have hkey : tldKey ((row.cells.map strip).headD []) = row.tld := by
      obtain ⟨first, cells, hcells⟩ := List.exists_cons_of_ne_nil row.cells_ne_nil
      simp [Row.tld, hcells]
    have hnew : row.tld ∉ seen.map Prod.fst := by
      intro hmem
      exact (List.nodup_append.mp h).2.2 _ hmem _ (by simp) rfl
    rw [List.foldl_cons, if_pos hlen, hkey, setRow_of_new _ _ _ hnew, ih]
    · simp
    · simpa using h

/-- The dict of the rows when the loop over the network files begins. -/
def itemsOf (t : Table) : List (Str × List Str) := t.rows.map fun r => (r.tld, r.cells.map strip)

/-- The loop over the network files of a run. -/
def monitored (t : Table) (env : MonitorEnv) (files : List (Str × NetworkFile)) : Monitoring :=
  files.foldl (monitorFile env.pingHost) ⟨env.uptimeState, itemsOf t⟩

/-- What a monitor run writes once the status cells are known, up to the rewriting of
the file. -/
theorem monitor_of_badges (t : Table) (env : MonitorEnv) (files : List (Str × NetworkFile))
    (henv : env.networks = some files) (badges : Str → Option Badge)
    (hbadges : (monitored t env files).tableRows = (itemsOf t).map (badged badges)) :
    monitorNetworks env (some t.text) =
      match rewriteTable (t.header ++ t.separator :: if t.endsWithNewline then [[]] else [])
        (((sortRows t.rows).map (rewritten badges)).map Row.line) with
      | (text, .completed) => ⟨some text, some (monitored t env files).uptimeState, .completed⟩
      | (text, outcome) => ⟨some text, none, outcome⟩ := by
  have hcollected := collected_rows t.rows [] (by simpa using t.tlds_distinct)
  rw [List.nil_append] at hcollected
  have hitem : ∀ r : Row, badged badges (r.tld, r.cells.map strip) =
      (r.tld, cellsWith r (badges r.tld)) := by
    intro r
    cases hb : badges r.tld <;> simp [badged, cellsWith, hb]
  have hline : ∀ r : Row, rowText (cellsWith r (badges r.tld)) = (rewritten badges r).line :=
    fun r => (paddedRow_line _ _ _).symm
  unfold monitored itemsOf at hbadges
  simp only [monitorNetworks, henv, Table.scan_text, hcollected, hbadges, monitored, itemsOf,
    List.map_map, Function.comp_def, hitem, sortByTld_map, hline]

/-- Every run has its status cells. -/
theorem monitor_eq (t : Table) (env : MonitorEnv) (files : List (Str × NetworkFile))
    (henv : env.networks = some files) :
    ∃ badges, monitorNetworks env (some t.text) =
      match rewriteTable (t.header ++ t.separator :: if t.endsWithNewline then [[]] else [])
        (((sortRows t.rows).map (rewritten badges)).map Row.line) with
      | (text, .completed) => ⟨some text, some (monitored t env files).uptimeState, .completed⟩
      | (text, outcome) => ⟨some text, none, outcome⟩ := by
  obtain ⟨badges, hbadges⟩ := monitorFiles_badged env.pingHost files
    ⟨env.uptimeState, itemsOf t⟩ (itemsOf t) (fun _ => none) (by simp [itemsOf, badged])
  exact ⟨badges, monitor_of_badges t env files henv badges hbadges⟩

theorem rewritten_distinct (t : Table) (badges : Str → Option Badge) :
    (((sortRows t.rows).map (rewritten badges)).map Row.tld).Nodup := by
  simp only [List.map_map, Function.comp_def, rewritten_tld]
  exact ((sortRows_perm t.rows).map Row.tld).nodup_iff.mpr t.tlds_distinct

/-- A monitor run completes and leaves header and separator, and the rows with at most
their status cells changed. -/
def MonitorLossless (t : Table) (env : MonitorEnv) : Prop :=
  ∃ (t' : Table) (f : Row → Row), (monitorNetworks env (some t.text)).atlas = some t'.text ∧
    (monitorNetworks env (some t.text)).outcome = .completed ∧
    t'.header = t.header ∧ t'.separator = t.separator ∧
    (∀ r, SameButStatus r (f r)) ∧ t'.rows.Perm (t.rows.map f)

theorem monitorLossless_of_bare (t : Table) (env : MonitorEnv)
    (hsep : t.separator = separatorPrefix) : MonitorLossless t env := by
  cases henv : env.networks with
  | none =>
    have hsame : monitorNetworks env (some t.text) = ⟨some t.text, none, .completed⟩ := by
      simp [monitorNetworks, henv]
    rw [MonitorLossless, hsame]
    exact ⟨t, id, rfl, rfl, rfl, rfl, fun _ => rfl, by simp⟩
  | some files =>
    obtain ⟨badges, heq⟩ := monitor_eq t env files henv
    rw [t.rewriteTable_of_bare hsep _ _ (rewritten_distinct t badges)] at heq
    rw [MonitorLossless, heq]
    exact ⟨t.withRows _ (rewritten_distinct t badges), rewritten badges, rfl, rfl, rfl, rfl,
      rewritten_same badges, (sortRows_perm t.rows).map _⟩

/-- A monitor run that finds a networks directory empties the file of any other table. -/
theorem monitor_of_not_bare (t : Table) (env : MonitorEnv) (files : List (Str × NetworkFile))
    (henv : env.networks = some files) (hsep : t.separator ≠ separatorPrefix) :
    monitorNetworks env (some t.text) = ⟨some [], none, .valueError⟩ := by
  obtain ⟨badges, heq⟩ := monitor_eq t env files henv
  rw [heq, t.rewriteTable_of_not_bare hsep]

/-- Both scripts lose nothing exactly if the separator line is the bare `| :---`. -/
theorem rewrites_lossless_iff (t : Table) (reg : Registration) (env : MonitorEnv) :
    (UpdateLossless t reg ∧ MonitorLossless t env) ↔ t.separator = separatorPrefix := by
  rw [updateLossless_iff]
  exact ⟨And.left, fun hsep => ⟨hsep, monitorLossless_of_bare t env hsep⟩⟩

/-- A table with the repository's own separator, one cell per column. -/
def repositoryTable : Table where
  header := ["## Registered Networks", "",
    ("| TLD Suffix | Network ID | Network Type | Status | Description | Local Bind IP ".toList ++
      "| Website | Repository |".toList)]
  separator := "| :--- | :--- | :--- | :--- | :--- | :--- | :--- | :--- |"
  rows :=
    [{ cells := [" `kin` ", " kinetic ", " Public ", " 🟢 Active ", " First ", " 127.0.0.1 ",
        " N/A ", " N/A "]
       eight := rfl
       cells_clean := by decide
       not_separator := by decide }]
  endsWithNewline := true
  header_lines := by decide
  separator_line := by decide
  tlds_distinct := by decide

def devRegistration : Registration :=
  ⟨"dev", "devnet", "Dev", "Second", "127.0.0.2", "https://host", "", by simp⟩

def quietMonitor : MonitorEnv := ⟨some [], fun _ => none, fun _ _ => false⟩

/-- With the repository's own separator both scripts leave an empty file. -/
theorem repository_table_emptied :
    devRegistration.update (some repositoryTable.text) = (some [], .valueError) ∧
      monitorNetworks quietMonitor (some repositoryTable.text) = ⟨some [], none, .valueError⟩ ∧
      ¬ (UpdateLossless repositoryTable devRegistration ∧
        MonitorLossless repositoryTable quietMonitor) := by
  have hsep : repositoryTable.separator ≠ separatorPrefix := by decide
  refine ⟨update_of_not_bare _ _ hsep, monitor_of_not_bare _ _ [] rfl hsep, ?_⟩
  rintro ⟨hupdate, -⟩
  exact hsep ((updateLossless_iff _ _).mp hupdate)

end KineticAtlas.AtlasScripts
