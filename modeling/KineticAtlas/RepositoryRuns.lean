import KineticAtlas.AtlasRows
import KineticAtlas.RegistryHistory
import KineticAtlas.RegistrationServing

/-!
The repository of networks under its two scripts (main of validate_registration.py and of
monitor_networks.py) in any order: the networks directory, ATLAS.md, index.json and the
saved counters. They show one and the same registry along every history of runs if the table
has the bare separator, and stop to do so with the first run that has any effect if not. A
form that comes from an issue never has one.
-/
namespace KineticAtlas.RepositoryRuns

open Library Library.Texts Library.Runs AtlasTable AtlasScripts RegistrationBot RegistryHistory
open RegistrationRuns (Submission)
open RegistrationServing (tldFile)
open IssueForm (Data)

/-- The order in which a directory is listed. -/
structure Listing where
  order : List (Str × BotConfig) → List (Str × BotConfig)
  perm : ∀ files, (order files).Perm files

/-- The files of the repository that the scripts read and write. -/
structure Checkout where
  networks : List (Str × BotConfig)
  atlas : Option Str
  index : Option (List BotConfig)
  uptimeState : Option (Str → Option ℕ)

def writeFile (files : List (Str × BotConfig)) (name : Str) (config : BotConfig) :
    List (Str × BotConfig) :=
  files.filter (fun file => file.1 ≠ name) ++ [(name, config)]

/-- The networks of index.json, by the names of their files. -/
def allNetworks (listing : Listing) (files : List (Str × BotConfig)) : List BotConfig :=
  ((sortByTld (listing.order files)).filter fun file => ".json".toList <:+ file.1).map Prod.snd

/-- A run of the bot. It writes index.json last, if ATLAS.md could be rewritten. -/
def processIssue (s : Checkout) (listing : Listing) (i : Submission) : Checkout :=
  match main i.env i.data with
  | .error _ => s
  | .ok config =>
    let networks := writeFile s.networks (tldFile config.tld) config
    let update := updateAtlasMd s.atlas config.tld
      (sanitizeMarkdown (textOf i.data .networkId))
      (sanitizeMarkdown ((i.data .networkType).getD "Public".toList))
      (sanitizeMarkdown (textOf i.data .desc)) (sanitizeMarkdown (textOf i.data .localBindIp))
      (sanitizeMarkdown (textOf i.data .url)) (sanitizeMarkdown (textOf i.data .repo)) activeBadge
    match update.2 with
    | .completed =>
      { s with networks := networks, atlas := update.1
               index := some (allNetworks listing networks) }
    | _ => { s with networks := networks, atlas := update.1 }

/-- A file of the directory as the monitor reads it. -/
def networkFile (file : Str × BotConfig) : Str × NetworkFile :=
  (file.1, .config (some file.2.seedDomain) (file.2.bootstrapNodes.map some))

def monitorRun (s : Checkout) (listing : Listing) (pingHost : Str → Str → Bool) : Checkout :=
  let run := monitorNetworks ⟨some ((listing.order s.networks).map networkFile),
    s.uptimeState.getD fun _ => none, pingHost⟩ s.atlas
  { s with atlas := run.atlas, uptimeState := run.savedState.or s.uptimeState }

inductive Script
  | registration (listing : Listing) (i : Submission)
  | monitoring (listing : Listing) (pingHost : Str → Str → Bool)

def scripts (t : Table) : Machine Checkout Script where
  init := ⟨[], some t.text, none, none⟩
  step s
    | .registration listing i => some (processIssue s listing i)
    | .monitoring listing pingHost => some (monitorRun s listing pingHost)

def answersOf (pingHost : Str → Str → Bool) (config : BotConfig) : Bool :=
  isLive pingHost (config.bootstrapNodes.map some)

/-- A refused form is no event. -/
def eventOf : Script → Option Event
  | .registration _ i =>
    match main i.env i.data with
    | .error _ => none
    | .ok config => some (.accepted i.data config)
  | .monitoring _ pingHost => some (.probed (answersOf pingHost))

def registryOf (runs : List Script) : Networks := history (runs.filterMap eventOf)

/-- Rows of TLDs that are not registered are those of the table at the start. -/
def shownCells (t : Table) (networks : Networks) (tld : Str) : Option (List Str) :=
  (networks tld).elim ((itemsOf t).lookup tld) fun n => some n.cells

structure ShowsTable (t : Table) (networks : Networks) (t' : Table) : Prop where
  header : t'.header = t.header
  separator : t'.separator = t.separator
  sorted : (t.rows.Pairwise fun a b => a.tld ≤ b.tld) → t'.rows.Pairwise fun a b => a.tld ≤ b.tld
  rows : ∀ tld, (itemsOf t').lookup tld = shownCells t networks tld

/-- There is one file for each registered network, under the name of its TLD. -/
structure ShowsFiles (networks : Networks) (files : List (Str × BotConfig)) : Prop where
  passed : ∀ tld n, networks tld = some n → Passed n.form n.config ∧ n.config.tld = tld
  names_distinct : (files.map Prod.fst).Nodup
  mem_iff : ∀ name config, (name, config) ∈ files ↔
    ∃ tld n, networks tld = some n ∧ name = tldFile tld ∧ config = n.config

/-- The index lists the registered networks, by TLD. -/
structure ShowsIndex (networks : Networks) (index : List BotConfig) : Prop where
  sorted : index.Pairwise fun a b => a.tld < b.tld
  mem_iff : ∀ config, config ∈ index ↔ ∃ tld n, networks tld = some n ∧ config = n.config

/-- All that the repository holds is that of one registry. -/
structure Shows (t : Table) (networks : Networks) (s : Checkout) : Prop where
  files : ShowsFiles networks s.networks
  table : ∃ t' : Table, s.atlas = some t'.text ∧ ShowsTable t networks t'
  unindexed : s.index = none → ∀ tld, networks tld = none
  index : ∀ index, s.index = some index → ShowsIndex networks index
  counters : ∀ tld, (s.uptimeState.getD fun _ => none) tld = (networks tld).bind Network.counter

section Tables

variable {t t' : Table} {networks : Networks} {form : Data} {config : BotConfig} {n : Network}

theorem itemsOf_consistent (t : Table) : FirstWins.Consistent (itemsOf t) := by
  intro tld cells cells' hc hc'
  obtain ⟨a, ha, heq⟩ := List.mem_map.mp hc
  obtain ⟨b, hb, heq'⟩ := List.mem_map.mp hc'
  have hab : a = b := List.inj_on_of_nodup_map t.tlds_distinct ha hb
    ((Prod.mk.inj heq).1.trans (Prod.mk.inj heq').1.symm)
  rw [← (Prod.mk.inj heq).2, ← (Prod.mk.inj heq').2, hab]

def registrationOf (h : Passed form config) : Registration where
  tld := config.tld
  networkId := textOf form .networkId
  networkType := (form .networkType).getD "Public".toList
  desc := textOf form .desc
  localBindIp := textOf form .localBindIp
  url := textOf form .url
  repo := textOf form .repo
  tld_alphanumeric :=
    ⟨h.tld_nonempty, fun c hc => of_decide_eq_true (h.tld_alphanumeric c hc)⟩

theorem lookup_filter_ne {V : Type} (items : List (Str × V)) (key tld : Str) :
    (items.filter fun item => item.1 ≠ key).lookup tld =
      if tld = key then none else items.lookup tld := by
  induction items with
  | nil => simp
  | cons item rest ih =>
    obtain ⟨name, value⟩ := item
    by_cases hkey : name = key
    · subst hkey
      rw [List.filter_cons_of_neg (by simp), ih, List.lookup_cons]
      by_cases htld : tld = name
      · simp [htld]
      · have hbeq : (tld == name) = false := beq_false_of_ne htld
        simp [htld, hbeq]
    · rw [List.filter_cons_of_pos (by simpa using hkey), List.lookup_cons, List.lookup_cons, ih]
      by_cases htld : tld = name
      · subst htld
        simp [hkey]
      · have hbeq : (tld == name) = false := beq_false_of_ne htld
        simp only [hbeq]

theorem row_cells (reg : Registration) : reg.row.cells.map strip = reg.cells := by
  have hstripped : reg.cells.map strip = reg.cells :=
    AtlasRows.rowCells_stripped (by decide) _ _ _ _ _ _
  rw [Registration.row, paddedRow_stripped, hstripped]

/-- The row of a registration takes the place of the row of its TLD. -/
theorem rowsAfter_lookup (t : Table) (reg : Registration) (tld : Str) :
    ((rowsAfter t reg).map fun r => (r.tld, r.cells.map strip)).lookup tld =
      if tld = reg.tld then some reg.cells else (itemsOf t).lookup tld := by
  have hsplit : (rowsAfter t reg).map (fun r => (r.tld, r.cells.map strip)) =
      (itemsOf t).filter (fun item => item.1 ≠ reg.tld) ++ [(reg.tld, reg.cells)] := by
    simp [rowsAfter, itemsOf, List.filter_map, Function.comp_def, reg.row_tld, row_cells]
  rw [hsplit, List.lookup_append, lookup_filter_ne]
  by_cases htld : tld = reg.tld
  · simp [htld]
  · have hbeq : (tld == reg.tld) = false := beq_false_of_ne htld
    rw [if_neg htld, if_neg htld, List.lookup_cons, hbeq, List.lookup_nil, Option.or_none]

/-- A registration completes and shows its network as active. -/
theorem update_shows (hsep : t.separator = separatorPrefix) (h : ShowsTable t networks t')
    (hpassed : Passed form config)
    (hn : n.config = config ∧ n.form = form ∧ n.probedSince = false) :
    ∃ t'' : Table, (registrationOf hpassed).update (some t'.text) =
        (some t''.text, .completed) ∧
      ShowsTable t (Function.update networks config.tld (some n)) t'' := by
  obtain ⟨hconfig, hform, hprobed⟩ := hn
  have hdistinct := rowsAfter_distinct t' (registrationOf hpassed)
  refine ⟨t'.withRows _ hdistinct, ?_, h.header, h.separator, fun _ => ?_, fun tld => ?_⟩
  · rw [update_eq, t'.rewriteTable_of_bare (h.separator.trans hsep) _ _ hdistinct]
  · exact List.pairwise_insertionSort (fun a b : Row => a.tld ≤ b.tld) _
  · have hperm := (sortRows_perm (rowsAfter t' (registrationOf hpassed))).symm.map
      fun r : Row => (r.tld, r.cells.map strip)
    have hlookup := (itemsOf_consistent (t'.withRows _ hdistinct)).lookup_perm hperm tld
    rw [← hlookup, rowsAfter_lookup, h.rows tld]
    have hstatus : n.status = activeBadge := by simp [Network.status, Network.Down, hprobed]
    have hcells : n.cells = (registrationOf hpassed).cells := by
      rw [Network.cells, hconfig, hform, hstatus]
      rfl
    have hown : (registrationOf hpassed).tld = config.tld := rfl
    rw [hown]
    by_cases htld : tld = config.tld
    · subst htld
      rw [if_pos rfl, shownCells, Function.update_self, Option.elim_some, hcells]
    · rw [if_neg htld, shownCells, shownCells, Function.update_of_ne htld]

end Tables

section Monitor

variable (pingHost : Str → Str → Bool) {files : List (Str × BotConfig)} {s : Monitoring}

def nextCount (pingHost : Str → Str → Bool) (count : Option ℕ) (config : BotConfig) : ℕ :=
  if answersOf pingHost config then 0 else count.getD 0 + 1

/-- A file as the bot leaves it: under the name of its TLD, with a seed and with nodes. -/
def AsWritten (file : Str × BotConfig) : Prop :=
  file.1 = tldFile file.2.tld ∧ file.2.seedDomain ≠ [] ∧ file.2.bootstrapNodes ≠ []

theorem setStatus_lookup (rows : List (Str × List Str)) (key badge tld : Str) :
    (setStatus rows key badge).lookup tld =
      if tld = key then (rows.lookup tld).map fun parts => parts.set 3 badge
      else rows.lookup tld := by
  induction rows with
  | nil => simp [setStatus]
  | cons row rest ih =>
    obtain ⟨name, parts⟩ := row
    have hcons : setStatus ((name, parts) :: rest) key badge =
        (name, if name = key then parts.set 3 badge else parts) :: setStatus rest key badge := by
      by_cases hkey : name = key <;> simp [setStatus, hkey]
    rw [hcons, List.lookup_cons, List.lookup_cons, ih]
    by_cases htld : tld = name
    · subst htld
      by_cases hkey : tld = key <;> simp [hkey]
    · have hbeq : (tld == name) = false := beq_false_of_ne htld
      simp only [hbeq]

/-- One round of the monitor counts a network and sets its cell. -/
theorem monitorFile_written (s : Monitoring) {file : Str × BotConfig} (h : AsWritten file) :
    let count := nextCount pingHost (s.uptimeState file.2.tld) file.2
    monitorFile pingHost s (networkFile file) =
      ⟨Function.update s.uptimeState file.2.tld (some count),
        setStatus s.tableRows file.2.tld (UptimeRule.badgeFor count).text⟩ := by
  obtain ⟨name, config⟩ := file
  obtain ⟨hname, hseed, hnodes⟩ := h
  dsimp only at hname hseed hnodes ⊢
  subst hname
  have hjson : ".json".toList <:+ tldFile config.tld := List.suffix_append _ _
  have hstem : (tldFile config.tld).take ((tldFile config.tld).length - 5) = config.tld := by
    simp [tldFile]
  have hkept : ¬ ((some config.seedDomain).getD [] = [] ∨ config.bootstrapNodes.map some = []) := by
    simpa using ⟨hseed, hnodes⟩
  unfold monitorFile networkFile
  simp only [if_pos hjson, hstem, if_neg hkept]
  by_cases hlive : isLive pingHost (config.bootstrapNodes.map some) = true
  · have hcount : nextCount pingHost (s.uptimeState config.tld) config = 0 := if_pos hlive
    rw [if_pos hlive, hcount]
    rfl
  · have hcount : nextCount pingHost (s.uptimeState config.tld) config =
        (s.uptimeState config.tld).getD 0 + 1 := if_neg hlive
    rw [if_neg hlive, hcount]
    unfold UptimeRule.badgeFor
    split <;> rfl

/-- TLDs without a file are left alone. -/
theorem monitored_other (hwritten : ∀ file ∈ files, AsWritten file) {tld : Str}
    (htld : ∀ file ∈ files, file.2.tld ≠ tld) :
    ((files.map networkFile).foldl (monitorFile pingHost) s).uptimeState tld =
        s.uptimeState tld ∧
      ((files.map networkFile).foldl (monitorFile pingHost) s).tableRows.lookup tld =
        s.tableRows.lookup tld := by
  induction files generalizing s with
  | nil => exact ⟨rfl, rfl⟩
  | cons file rest ih =>
    have hne : tld ≠ file.2.tld := (htld file List.mem_cons_self).symm
    rw [List.map_cons, List.foldl_cons,
      monitorFile_written pingHost s (hwritten file List.mem_cons_self)]
    obtain ⟨hcount, hrow⟩ := ih (s := ⟨_, _⟩)
      (fun f hf => hwritten f (List.mem_cons_of_mem file hf))
      (fun f hf => htld f (List.mem_cons_of_mem file hf))
    rw [hcount, hrow, setStatus_lookup, if_neg hne]
    exact ⟨Function.update_of_ne hne _ _, rfl⟩

/-- Every file counts once, whatever the order. -/
theorem monitored_own (hwritten : ∀ file ∈ files, AsWritten file)
    (hdistinct : (files.map fun file => file.2.tld).Nodup) {file : Str × BotConfig}
    (hfile : file ∈ files) :
    let count := nextCount pingHost (s.uptimeState file.2.tld) file.2
    ((files.map networkFile).foldl (monitorFile pingHost) s).uptimeState file.2.tld =
        some count ∧
      ((files.map networkFile).foldl (monitorFile pingHost) s).tableRows.lookup file.2.tld =
        (s.tableRows.lookup file.2.tld).map fun parts =>
          parts.set 3 (UptimeRule.badgeFor count).text := by
  intro count
  induction files generalizing s with
  | nil => exact absurd hfile List.not_mem_nil
  | cons first rest ih =>
    have hrest : ∀ f ∈ rest, AsWritten f := fun f hf =>
      hwritten f (List.mem_cons_of_mem first hf)
    rw [List.map_cons, List.nodup_cons] at hdistinct
    rw [List.map_cons, List.foldl_cons,
      monitorFile_written pingHost s (hwritten first List.mem_cons_self)]
    rcases List.mem_cons.mp hfile with rfl | hmem
    · have hother : ∀ f ∈ rest, f.2.tld ≠ file.2.tld := fun f hf heq =>
        hdistinct.1 (List.mem_map.mpr ⟨f, hf, heq⟩)
      obtain ⟨hcount, hrow⟩ := monitored_other pingHost (s := ⟨_, _⟩) hrest hother
      rw [hcount, hrow, setStatus_lookup, if_pos rfl]
      exact ⟨Function.update_self _ _ _, rfl⟩
    · have hne : file.2.tld ≠ first.2.tld := fun heq =>
        hdistinct.1 (List.mem_map.mpr ⟨file, hmem, heq⟩)
      have hsame : ∀ count', Function.update s.uptimeState first.2.tld count' file.2.tld =
          s.uptimeState file.2.tld := fun _ => Function.update_of_ne hne _ _
      obtain ⟨hcount, hrow⟩ := ih (s := ⟨_, _⟩) hrest hdistinct.2 hmem
      rw [hcount, hrow, setStatus_lookup, if_neg hne]
      simp only [hsame]
      exact ⟨rfl, rfl⟩

end Monitor

/-- A monitor run rewrites the rows as its loop has left them. -/
theorem monitor_rewrites (t : Table) (hsep : t.separator = separatorPrefix) (env : MonitorEnv)
    (files : List (Str × NetworkFile)) (henv : env.networks = some files) :
    ∃ t' : Table, monitorNetworks env (some t.text) =
        ⟨some t'.text, some (monitored t env files).uptimeState, .completed⟩ ∧
      t'.header = t.header ∧ t'.separator = t.separator ∧
      (t'.rows.Pairwise fun a b => a.tld ≤ b.tld) ∧
      ∀ tld, (itemsOf t').lookup tld = (monitored t env files).tableRows.lookup tld := by
  obtain ⟨badges, hbadges⟩ := monitorFiles_badged env.pingHost files
    ⟨env.uptimeState, itemsOf t⟩ (itemsOf t) (fun _ => none) (by simp [itemsOf, badged])
  have hdistinct := rewritten_distinct t badges
  have hrun := monitor_of_badges t env files henv badges hbadges
  rw [t.rewriteTable_of_bare hsep _ _ hdistinct] at hrun
  refine ⟨t.withRows _ hdistinct, hrun, rfl, rfl, ?_, fun tld => ?_⟩
  · refine List.pairwise_map.mpr ?_
    simp only [rewritten_tld]
    exact List.pairwise_insertionSort (fun a b : Row => a.tld ≤ b.tld) _
  · have hitem : ∀ r : Row, ((rewritten badges r).tld, (rewritten badges r).cells.map strip) =
        badged badges (r.tld, r.cells.map strip) := by
      intro r
      have hbadge : ∀ badge : Badge, strip badge.text = badge.text := fun badge => by
        cases badge <;> decide
      rw [rewritten_tld, rewritten, paddedRow_stripped]
      cases hb : badges r.tld with
      | none => simp [badged, hb, cellsWith, Function.comp_def, strip_strip]
      | some badge =>
        simp [badged, hb, cellsWith, List.map_set, Function.comp_def, strip_strip, hbadge]
    have hitems : itemsOf (t.withRows _ hdistinct) =
        (sortRows t.rows).map fun r => badged badges (r.tld, r.cells.map strip) := by
      rw [itemsOf, Table.withRows, List.map_map]
      exact List.map_congr_left fun r _ => hitem r
    have hperm : ((monitored t env files).tableRows).Perm (itemsOf (t.withRows _ hdistinct)) := by
      rw [hitems]
      have hrows : (monitored t env files).tableRows =
          t.rows.map fun r => badged badges (r.tld, r.cells.map strip) := by
        rw [monitored, hbadges, itemsOf, List.map_map]
        rfl
      rw [hrows]
      exact (sortRows_perm t.rows).symm.map _
    exact ((itemsOf_consistent _).lookup_perm hperm tld).symm

theorem tldFile_injective {a b : Str} (h : tldFile a = tldFile b) : a = b :=
  List.append_cancel_right h

/-- A dot comes before letters and digits, so that files are sorted as their TLDs are. -/
theorem tldFile_lt {a b : Str} (ha : ∀ c ∈ a, isAlphanumeric c = true)
    (hb : ∀ c ∈ b, isAlphanumeric c = true) (h : tldFile a < tldFile b) : a < b := by
  have hdot : ∀ c, isAlphanumeric c = true → ¬ (c < '.' ∨ c = '.') := by
    intro c hc hle
    rcases of_decide_eq_true hc with ⟨hlow, -⟩ | ⟨hlow, -⟩
    · rcases hle with hlt | rfl
      · exact absurd (lt_of_le_of_lt hlow hlt) (by decide)
      · exact absurd hlow (by decide)
    · rcases hle with hlt | rfl
      · exact absurd (lt_of_le_of_lt hlow hlt) (by decide)
      · exact absurd hlow (by decide)
  induction a generalizing b with
  | nil =>
    cases b with
    | nil => exact absurd h (lt_irrefl _)
    | cons d b => exact List.nil_lt_cons d b
  | cons c a ih =>
    cases b with
    | nil =>
      have hfirst : c :: tldFile a < '.' :: "json".toList := h
      rw [List.cons_lt_cons_iff] at hfirst
      have hc := hdot c (ha c List.mem_cons_self)
      exact absurd (hfirst.imp_right And.left) hc
    | cons d b =>
      have hboth : c :: tldFile a < d :: tldFile b := h
      rw [List.cons_lt_cons_iff] at hboth ⊢
      refine hboth.imp_right fun heq => ⟨heq.1, ?_⟩
      exact ih (fun c' hc' => ha c' (List.mem_cons_of_mem c hc'))
        (fun c' hc' => hb c' (List.mem_cons_of_mem d hc')) heq.2

theorem mem_writeFile {files : List (Str × BotConfig)} {name : Str} {config : BotConfig}
    (file : Str × BotConfig) : file ∈ writeFile files name config ↔
      (file ∈ files ∧ file.1 ≠ name) ∨ file = (name, config) := by
  simp [writeFile]

theorem writeFile_distinct {files : List (Str × BotConfig)} (name : Str) (config : BotConfig)
    (h : (files.map Prod.fst).Nodup) : ((writeFile files name config).map Prod.fst).Nodup := by
  rw [writeFile, List.map_append, List.nodup_append]
  refine ⟨h.sublist (List.filter_sublist.map _), List.nodup_singleton _, ?_⟩
  intro name' hname' last hlast heq
  obtain ⟨file, hfile, rfl⟩ := List.mem_map.mp hname'
  have hother : file.1 ≠ name := by simpa using (List.mem_filter.mp hfile).2
  exact hother (heq.trans (List.mem_singleton.mp hlast))

section Files

variable {networks : Networks} {files : List (Str × BotConfig)}

namespace ShowsFiles

theorem as_written (h : ShowsFiles networks files) {file : Str × BotConfig}
    (hfile : file ∈ files) : AsWritten file ∧ ∀ c ∈ file.2.tld, isAlphanumeric c = true := by
  obtain ⟨tld, n, hn, hname, hconfig⟩ := (h.mem_iff file.1 file.2).mp hfile
  obtain ⟨hpassed, rfl⟩ := h.passed tld n hn
  have hnodes : n.config.bootstrapNodes ≠ [] := by
    intro hnil
    have hthree := hpassed.three_nodes
    rw [hnil] at hthree
    cases hthree
  unfold AsWritten
  rw [hname, hconfig]
  exact ⟨⟨rfl, hpassed.seed_given, hnodes⟩, hpassed.tld_alphanumeric⟩

theorem tlds_distinct (h : ShowsFiles networks files) :
    (files.map fun file => file.2.tld).Nodup := by
  refine List.Nodup.of_map tldFile ?_
  rw [List.map_map]
  have hnames : files.map (tldFile ∘ fun file => file.2.tld) = files.map Prod.fst :=
    List.map_congr_left fun file hfile => (h.as_written hfile).1.1.symm
  rw [hnames]
  exact h.names_distinct

/-- The index of the files lists each network once, by TLD. -/
theorem allNetworks (h : ShowsFiles networks files) (listing : Listing) :
    ShowsIndex networks (allNetworks listing files) := by
  have hperm : (sortByTld (listing.order files)).Perm files :=
    (List.perm_insertionSort _ _).trans (listing.perm files)
  constructor
  · have hsorted : (sortByTld (listing.order files)).Pairwise fun a b => a.1 ≤ b.1 :=
      List.pairwise_insertionSort (fun a b : Str × BotConfig => a.1 ≤ b.1) _
    have hne : (sortByTld (listing.order files)).Pairwise fun a b => a.1 ≠ b.1 :=
      List.pairwise_map.mp ((hperm.map Prod.fst).nodup_iff.mpr h.names_distinct)
    refine List.pairwise_map.mpr (List.Pairwise.filter _ ?_)
    refine (hsorted.and hne).imp_of_mem fun {a b} ha hb hab => ?_
    obtain ⟨⟨haname, -⟩, hachars⟩ := h.as_written (hperm.mem_iff.mp ha)
    obtain ⟨⟨hbname, -⟩, hbchars⟩ := h.as_written (hperm.mem_iff.mp hb)
    have hlt := lt_of_le_of_ne hab.1 hab.2
    rw [haname, hbname] at hlt
    exact tldFile_lt hachars hbchars hlt
  · intro config
    constructor
    · intro hmem
      obtain ⟨file, hfile, rfl⟩ := List.mem_map.mp hmem
      obtain ⟨tld, n, hn, -, hconfig⟩ :=
        (h.mem_iff _ _).mp (hperm.mem_iff.mp (List.mem_filter.mp hfile).1)
      exact ⟨tld, n, hn, hconfig⟩
    · rintro ⟨tld, n, hn, rfl⟩
      have hfile : (tldFile tld, n.config) ∈ files := (h.mem_iff _ _).mpr ⟨tld, n, hn, rfl, rfl⟩
      have hjson : ".json".toList <:+ tldFile tld := List.suffix_append _ _
      exact List.mem_map.mpr ⟨(tldFile tld, n.config),
        List.mem_filter.mpr ⟨hperm.mem_iff.mpr hfile, decide_eq_true hjson⟩, rfl⟩

end ShowsFiles

theorem ShowsFiles.accepted (h : ShowsFiles networks files) {form : Data} {config : BotConfig}
    (hpassed : Passed form config) :
    ShowsFiles (after networks (.accepted form config))
      (writeFile files (tldFile config.tld) config) := by
  refine ⟨fun tld n hn => ?_, writeFile_distinct _ _ h.names_distinct, fun name c => ?_⟩
  · rcases after_accepted_iff.mp hn with ⟨-, hold⟩ | ⟨rfl, rfl⟩
    · exact h.passed tld n hold
    · exact ⟨hpassed, rfl⟩
  · rw [mem_writeFile, h.mem_iff]
    simp only [after_accepted_iff]
    constructor
    · rintro (⟨⟨tld, n, hn, rfl, rfl⟩, hne⟩ | heq)
      · exact ⟨tld, n, Or.inl ⟨fun htld => hne (congrArg tldFile htld), hn⟩, rfl, rfl⟩
      · obtain ⟨rfl, rfl⟩ := Prod.mk.inj heq
        exact ⟨c.tld, _, Or.inr ⟨rfl, rfl⟩, rfl, rfl⟩
    · rintro ⟨tld, n, ⟨hne, hn⟩ | ⟨rfl, rfl⟩, rfl, rfl⟩
      · exact Or.inl ⟨⟨tld, n, hn, rfl, rfl⟩, fun heq => hne (tldFile_injective heq)⟩
      · exact Or.inr rfl

/-- A probe changes no file of the directory and no network of the index. -/
theorem ShowsFiles.probed (h : ShowsFiles networks files) (answers : BotConfig → Bool) :
    ShowsFiles (after networks (.probed answers)) files := by
  refine ⟨fun tld n hn => ?_, h.names_distinct, fun name c => ?_⟩
  · obtain ⟨m, hm, rfl⟩ := after_probed_iff.mp hn
    exact h.passed tld m hm
  · rw [h.mem_iff]
    simp only [after_probed_iff]
    constructor
    · rintro ⟨tld, m, hm, hname, hconfig⟩
      exact ⟨tld, _, ⟨m, hm, rfl⟩, hname, hconfig⟩
    · rintro ⟨tld, _, ⟨m, hm, rfl⟩, hname, hconfig⟩
      exact ⟨tld, m, hm, hname, hconfig⟩

theorem ShowsIndex.probed {index : List BotConfig} (h : ShowsIndex networks index)
    (answers : BotConfig → Bool) : ShowsIndex (after networks (.probed answers)) index := by
  refine ⟨h.sorted, fun c => ?_⟩
  rw [h.mem_iff]
  simp only [after_probed_iff]
  constructor
  · rintro ⟨tld, m, hm, hconfig⟩
    exact ⟨tld, _, ⟨m, hm, rfl⟩, hconfig⟩
  · rintro ⟨tld, _, ⟨m, hm, rfl⟩, hconfig⟩
    exact ⟨tld, m, hm, hconfig⟩

end Files

variable {t : Table} {networks : Networks} {s : Checkout} {runs : List Script}

/-- An accepted form goes into all files at once. -/
theorem shows_registration (hsep : t.separator = separatorPrefix) (h : Shows t networks s)
    (listing : Listing) (i : Submission) {config : BotConfig}
    (hmain : main i.env i.data = .ok config) :
    Shows t (after networks (.accepted i.data config)) (processIssue s listing i) := by
  have hpassed := main_passed hmain
  obtain ⟨t', hatlas, htable⟩ := h.table
  obtain ⟨t'', hupdate, htable'⟩ := update_shows hsep htable hpassed
    (n := ⟨config, i.data, ((networks config.tld).map Network.probes).getD [], false⟩)
    ⟨rfl, rfl, rfl⟩
  have hrow : updateAtlasMd s.atlas config.tld (sanitizeMarkdown (textOf i.data .networkId))
      (sanitizeMarkdown ((i.data .networkType).getD "Public".toList))
      (sanitizeMarkdown (textOf i.data .desc)) (sanitizeMarkdown (textOf i.data .localBindIp))
      (sanitizeMarkdown (textOf i.data .url)) (sanitizeMarkdown (textOf i.data .repo))
      activeBadge = (some t''.text, .completed) := by
    rw [hatlas]
    exact hupdate
  have hfiles := h.files.accepted hpassed
  simp only [processIssue, hmain, hrow]
  refine ⟨hfiles, ⟨t'', rfl, htable'⟩, fun hnone => absurd hnone (Option.some_ne_none _),
    fun index hindex => ?_, fun tld => ?_⟩
  · obtain rfl := Option.some.inj hindex
    exact hfiles.allNetworks listing
  · show (s.uptimeState.getD fun _ => none) tld = _
    rw [h.counters tld]
    by_cases htld : tld = config.tld
    · subst htld
      rw [after, Function.update_self]
      cases networks config.tld <;> rfl
    · rw [after, Function.update_of_ne htld]

/-- A probe sets the status cell and nothing else. -/
theorem cells_probe (n : Network) (answers : BotConfig → Bool) :
    (n.probe answers).cells = n.cells.set 3
      (UptimeRule.badgeFor (if answers n.config then 0 else n.counter.getD 0 + 1)).text := by
  rw [Network.cells, status_probe]
  rfl

/-- The loop of a run over the files, on the counters and the rows of the repository. -/
def looped (s : Checkout) (t' : Table) (listing : Listing) (pingHost : Str → Str → Bool) :
    Monitoring :=
  ((listing.order s.networks).map networkFile).foldl (monitorFile pingHost)
    ⟨s.uptimeState.getD fun _ => none, itemsOf t'⟩

/-- What the loop makes of the counter and of the cells of a TLD. -/
theorem looped_shows (h : Shows t networks s) {t' : Table} (htable : ShowsTable t networks t')
    (listing : Listing) (pingHost : Str → Str → Bool) (tld : Str) :
    (looped s t' listing pingHost).uptimeState tld =
        (after networks (.probed (answersOf pingHost)) tld).bind Network.counter ∧
      (looped s t' listing pingHost).tableRows.lookup tld =
        shownCells t (after networks (.probed (answersOf pingHost))) tld := by
  have hperm := listing.perm s.networks
  have hwritten : ∀ file ∈ listing.order s.networks, AsWritten file := fun file hfile =>
    (h.files.as_written (hperm.mem_iff.mp hfile)).1
  cases hn : networks tld with
  | none =>
    have hother : ∀ file ∈ listing.order s.networks, file.2.tld ≠ tld := by
      rintro file hfile rfl
      obtain ⟨tld, n, hn', -, hconfig⟩ := (h.files.mem_iff _ _).mp (hperm.mem_iff.mp hfile)
      rw [hconfig, (h.files.passed tld n hn').2, hn'] at hn
      cases hn
    obtain ⟨hcount, hrow⟩ := monitored_other pingHost
      (s := ⟨s.uptimeState.getD fun _ => none, itemsOf t'⟩) hwritten hother
    have hafter : after networks (.probed (answersOf pingHost)) tld = none := by
      rw [after_probed, hn, Option.map_none]
    dsimp only at hcount hrow
    refine ⟨hcount.trans ?_, hrow.trans ?_⟩
    · rw [h.counters tld, hn, hafter]
    · rw [htable.rows tld, shownCells, shownCells, hn, hafter]
  | some n =>
    obtain ⟨-, rfl⟩ := h.files.passed tld n hn
    have hdistinct : ((listing.order s.networks).map fun file => file.2.tld).Nodup :=
      (hperm.map _).nodup_iff.mpr h.files.tlds_distinct
    have hfile : (tldFile n.config.tld, n.config) ∈ listing.order s.networks :=
      hperm.mem_iff.mpr ((h.files.mem_iff _ _).mpr ⟨_, n, hn, rfl, rfl⟩)
    obtain ⟨hcount, hrow⟩ := monitored_own pingHost
      (s := ⟨s.uptimeState.getD fun _ => none, itemsOf t'⟩) hwritten hdistinct hfile
    have hcounter : (s.uptimeState.getD fun _ => none) n.config.tld = n.counter := by
      rw [h.counters, hn]
      rfl
    have hafter : after networks (.probed (answersOf pingHost)) n.config.tld =
        some (n.probe (answersOf pingHost)) := by
      rw [after_probed, hn, Option.map_some]
    dsimp only at hcount hrow
    rw [hcounter] at hcount hrow
    refine ⟨hcount.trans ?_, hrow.trans ?_⟩
    · rw [hafter, Option.bind_some, counter_probe]
      rfl
    · rw [htable.rows, shownCells, shownCells, hn, hafter, Option.elim_some, Option.elim_some,
        Option.map_some, cells_probe]
      rfl

/-- A run of the monitor is a probe of all networks. -/
theorem shows_monitoring (hsep : t.separator = separatorPrefix) (h : Shows t networks s)
    (listing : Listing) (pingHost : Str → Str → Bool) :
    Shows t (after networks (.probed (answersOf pingHost))) (monitorRun s listing pingHost) := by
  obtain ⟨t', hatlas, htable⟩ := h.table
  obtain ⟨t'', hrun, hheader, hsep', hsorted, hrows⟩ := monitor_rewrites t'
    (htable.separator.trans hsep)
    ⟨some ((listing.order s.networks).map networkFile), s.uptimeState.getD fun _ => none, pingHost⟩
    _ rfl
  have hloop := looped_shows h htable listing pingHost
  have hafter : monitorRun s listing pingHost =
      { s with atlas := some t''.text
               uptimeState := some (looped s t' listing pingHost).uptimeState } := by
    simp only [monitorRun, hatlas, hrun]
    rfl
  rw [hafter]
  refine ⟨h.files.probed _, ⟨t'', rfl, hheader.trans htable.header,
    hsep'.trans htable.separator, fun _ => hsorted, fun tld => (hrows tld).trans (hloop tld).2⟩,
    fun hnone tld => ?_,
    fun index hindex => (h.index index hindex).probed _, fun tld => (hloop tld).1⟩
  rw [after_probed, h.unindexed hnone tld, Option.map_none]

theorem registryOf_snoc (runs : List Script) (i : Script) :
    registryOf (runs ++ [i]) =
      (eventOf i).elim (registryOf runs) fun e => after (registryOf runs) e := by
  rw [registryOf, List.filterMap_append]
  cases he : eventOf i with
  | none => simp [he, registryOf]
  | some e =>
    have hlast : [i].filterMap eventOf = [e] := by simp [he]
    rw [hlast, history_snoc]
    rfl

theorem shows_init (t : Table) : Shows t (registryOf []) (scripts t).init where
  files := by
    refine ⟨fun _ _ h => (by cases h), List.nodup_nil, fun name config => ?_⟩
    refine iff_of_false List.not_mem_nil ?_
    rintro ⟨tld, n, hn, -⟩
    cases hn
  table := ⟨t, rfl, rfl, rfl, id, fun _ => rfl⟩
  unindexed _ _ := rfl
  index _ h := by cases h
  counters _ := rfl

/-- A refused form leaves everything as it is. -/
theorem step_refused {i : Script} (h : eventOf i = none) (s : Checkout) :
    (scripts t).step s i = some s := by
  cases i with
  | registration listing i =>
    cases hmain : main i.env i.data with
    | error message =>
      show some (processIssue s listing i) = some s
      simp only [processIssue, hmain]
    | ok config => simp [eventOf, hmain] at h
  | monitoring listing pingHost => cases h

theorem shows_run (hsep : t.separator = separatorPrefix) {runs : List Script}
    (hrun : (scripts t).Run runs s) : Shows t (registryOf runs) s := by
  induction hrun with
  | nil => exact shows_init t
  | @snoc runs s s' i _ hstep ih =>
    rw [registryOf_snoc]
    cases he : eventOf i with
    | none =>
      rw [step_refused he s] at hstep
      exact Option.some.inj hstep ▸ ih
    | some e =>
      cases i with
      | registration listing i =>
        obtain rfl : processIssue s listing i = s' := Option.some.inj hstep
        cases hmain : main i.env i.data with
        | error message => simp [eventOf, hmain] at he
        | ok config =>
          simp only [eventOf, hmain, Option.some.injEq] at he
          exact he ▸ shows_registration hsep ih listing i hmain
      | monitoring listing pingHost =>
        obtain rfl : monitorRun s listing pingHost = s' := Option.some.inj hstep
        simp only [eventOf, Option.some.injEq] at he
        exact he ▸ shows_monitoring hsep ih listing pingHost

theorem text_ne_nil (t : Table) : t.text ≠ [] := by
  intro hnil
  have hlines := t.read_text
  rw [hnil] at hlines
  have hsep : t.separator ∈ t.lines := by simp [Table.lines]
  have hempty : t.separator = [] := by
    rw [← hlines] at hsep
    simpa [universalNewlines] using hsep
  have hpre := t.separator_line.2
  rw [hempty] at hpre
  exact absurd hpre (by decide)

/-- ATLAS.md is emptied, and the run ends there. -/
theorem step_emptied (hsep : t.separator ≠ separatorPrefix) {i : Script} {e : Event}
    (he : eventOf i = some e) :
    ∃ s, (scripts t).step (scripts t).init i = some s ∧ s.atlas = some [] := by
  cases i with
  | registration listing i =>
    cases hmain : main i.env i.data with
    | error message => simp [eventOf, hmain] at he
    | ok config =>
      refine ⟨_, rfl, ?_⟩
      have hrow : updateAtlasMd (some t.text) config.tld
          (sanitizeMarkdown (textOf i.data .networkId))
          (sanitizeMarkdown ((i.data .networkType).getD "Public".toList))
          (sanitizeMarkdown (textOf i.data .desc)) (sanitizeMarkdown (textOf i.data .localBindIp))
          (sanitizeMarkdown (textOf i.data .url)) (sanitizeMarkdown (textOf i.data .repo))
          activeBadge = (some [], .valueError) :=
        update_of_not_bare t (registrationOf (main_passed hmain)) hsep
      show (processIssue ⟨[], some t.text, none, none⟩ listing i).atlas = some []
      simp only [processIssue, hmain, hrow]
  | monitoring listing pingHost =>
    refine ⟨_, rfl, ?_⟩
    show (monitorNetworks _ (some t.text)).atlas = some []
    rw [monitor_of_not_bare t _ _ rfl hsep]

/-- Forms are processed and the monitor runs, in any order. The networks directory, ATLAS.md,
index.json and the saved counters show one registry after every run, in which each TLD has the
last form accepted for it and all probes since its first one, exactly if the separator is the
bare one, or nothing but refused forms has come in. -/
theorem repository_in_step_iff (t : Table) (runs : List Script) :
    (∀ past s, past <+: runs → (scripts t).Run past s → Shows t (registryOf past) s) ↔
      t.separator = separatorPrefix ∨ ∀ i ∈ runs, eventOf i = none := by
  constructor
  · intro hshows
    by_contra hnot
    rw [not_or] at hnot
    -- up to the first effect the repository is as it was, and there it is none
    have hidle : ∀ past, past <+: runs →
        (scripts t).Run past (scripts t).init ∧ ∀ i ∈ past, eventOf i = none := by
      intro past
      induction past using List.reverseRecOn with
      | nil => exact fun _ => ⟨Machine.Run.nil, fun _ hi => absurd hi List.not_mem_nil⟩
      | append_singleton past i ih =>
        intro hpre
        obtain ⟨hrun, hnone⟩ := ih ((List.prefix_append past [i]).trans hpre)
        cases he : eventOf i with
        | none =>
          refine ⟨hrun.snoc (step_refused he _), fun j hj => ?_⟩
          rcases List.mem_append.mp hj with hold | hlast
          · exact hnone j hold
          · exact List.mem_singleton.mp hlast ▸ he
        | some e =>
          obtain ⟨s, hstep, hempty⟩ := step_emptied hnot.1 he
          obtain ⟨t', htext, -⟩ := (hshows _ s hpre (hrun.snoc hstep)).table
          rw [hempty] at htext
          exact absurd (Option.some.inj htext).symm (text_ne_nil t')
    exact hnot.2 (hidle runs List.prefix_rfl).2
  · rintro (hsep | hrefused) past s hpre hrun
    · exact shows_run hsep hrun
    · have hnone : ∀ i ∈ past, eventOf i = none := fun i hi => hrefused i (hpre.subset hi)
      induction hrun with
      | nil => exact shows_init t
      | @snoc past s s' i _ hstep ih =>
        have he : eventOf i = none := hnone i (by simp)
        rw [step_refused he s] at hstep
        rw [registryOf_snoc, he, ← Option.some.inj hstep]
        exact ih ((List.prefix_append past [i]).trans hpre)
          fun j hj => hnone j (List.mem_append_left _ hj)

open IssueForm (Key parseIssueBody parseLine keyOf headerChain)

/-- A key that no phrase of the chain stands for is never filled in. -/
theorem parseIssueBody_unnamed {key : Key} (hkey : key ∉ headerChain.map Prod.snd) (body : Str) :
    parseIssueBody body key = none := by
  have hkeyOf : ∀ header, keyOf header ≠ some key := by
    intro header heq
    obtain ⟨entry, hfound, rfl⟩ := Option.map_eq_some_iff.mp heq
    exact hkey (List.mem_map_of_mem (List.mem_of_find?_eq_some hfound))
  have hflush : ∀ s : IssueForm.ParseState, s.data key = none → s.currentKey ≠ some key →
      IssueForm.flush s key = none := by
    intro s hdata hcurrent
    unfold IssueForm.flush
    cases hsome : s.currentKey with
    | none => exact hdata
    | some current =>
      have hne : key ≠ current := fun heq => hcurrent (heq ▸ hsome)
      exact (Function.update_of_ne hne _ _).trans hdata
  have hlines : ∀ (lines : List Str) (s : IssueForm.ParseState), s.data key = none →
      s.currentKey ≠ some key →
      IssueForm.flush (lines.foldl parseLine s) key = none := by
    intro lines
    induction lines with
    | nil => exact hflush
    | cons line rest ih =>
      intro s hdata hcurrent
      rw [List.foldl_cons]
      unfold parseLine
      split
      · exact ih _ (hflush s hdata hcurrent) (hkeyOf _)
      · split
        · exact ih _ hdata hcurrent
        · exact ih s hdata hcurrent
  exact hlines _ _ rfl (Option.some_ne_none key).symm

theorem main_of_issue (env : Surroundings) (body : Str) :
    ∃ message, main env (parseIssueBody body) = .error message := by
  have hversion : parseIssueBody body .version = none :=
    parseIssueBody_unnamed (by decide) body
  have hmissing : IssueForm.missingRequired (parseIssueBody body) = some .version := by
    simp [IssueForm.missingRequired, IssueForm.required, hversion]
  refine ⟨"Error: Missing required field '".toList ++ keyName .version ++ "'".toList, ?_⟩
  simp only [main, hmissing]

/-- All forms of the runs are bodies of issues. -/
def FromIssues (runs : List Script) : Prop :=
  ∀ listing i, .registration listing i ∈ runs → ∃ body, i.data = parseIssueBody body

/-- Nothing is ever registered through an issue, whatever its text: no file of a network and
no index is written. -/
theorem nothing_registered (hissues : FromIssues runs) (hrun : (scripts t).Run runs s) :
    s.networks = [] ∧ s.index = none ∧ ∀ tld, registryOf runs tld = none := by
  induction hrun with
  | nil => exact ⟨rfl, rfl, fun _ => rfl⟩
  | @snoc runs s s' i _ hstep ih =>
    obtain ⟨hnetworks, hindex, hnone⟩ := ih fun listing i hi =>
      hissues listing i (List.mem_append_left _ hi)
    rw [registryOf_snoc]
    cases i with
    | registration listing i =>
      obtain ⟨body, hbody⟩ :=
        hissues listing i (List.mem_append_right _ (List.mem_singleton.mpr rfl))
      obtain ⟨message, hmain⟩ := main_of_issue i.env body
      rw [← hbody] at hmain
      have he : eventOf (.registration listing i) = none := by simp only [eventOf, hmain]
      rw [step_refused he s] at hstep
      rw [he, ← Option.some.inj hstep]
      exact ⟨hnetworks, hindex, hnone⟩
    | monitoring listing pingHost =>
      obtain rfl : monitorRun s listing pingHost = s' := Option.some.inj hstep
      refine ⟨hnetworks, hindex, fun tld => ?_⟩
      show after (registryOf runs) (.probed (answersOf pingHost)) tld = none
      rw [after_probed, hnone tld, Option.map_none]

def fileOrder : Listing := ⟨id, fun files => List.Perm.refl files⟩

/-- An issue with a TLD, and a day of monitoring. -/
def issueRuns : List Script :=
  [.registration fileOrder ⟨quietSurroundings, parseIssueBody "### TLD Suffix\n\nkin"⟩,
    .monitoring fileOrder fun _ _ => true]

theorem nothing_registered_kin :
    ∃ s, (scripts UptimeRule.bareTable).Run issueRuns s ∧ s.networks = [] := by
  have hrun := (scripts UptimeRule.bareTable).run_get issueRuns rfl
  refine ⟨_, hrun, (nothing_registered (fun listing i hi => ?_) hrun).1⟩
  simp only [issueRuns, List.mem_cons, Script.registration.injEq, List.not_mem_nil, or_false,
    reduceCtorEq] at hi
  exact ⟨"### TLD Suffix\n\nkin".toList, congrArg Submission.data hi.2⟩

end KineticAtlas.RepositoryRuns
