import KineticAtlas.AtlasScripts
import KineticAtlas.Library.FirstWins
import KineticAtlas.Library.Runs
import Mathlib.Data.List.DropRight

/-!
Daily runs of monitor_networks.py one after another. The count of failures lives in one
file and the badge in another; both have to come through every run. The main result says
for which tables the seven-day rule holds along all histories: for those that survive a
run at all.
-/
namespace KineticAtlas.UptimeRule

open Library Library.Texts Library.Runs AtlasTable AtlasScripts

/-- A day on which the network is in the directory, with a seed and bootstrap nodes; the
other files, the order of the listing and the answers to pings are those of the day. -/
structure Day (tld : Str) where
  files : List (Str × NetworkFile)
  pingHost : (host port : Str) → Bool
  seed : Str
  nodes : List (Option Str)
  names_distinct : (files.map Prod.fst).Nodup
  listed : (tld ++ ".json".toList, NetworkFile.config (some seed) nodes) ∈ files
  seed_given : seed ≠ []
  nodes_given : nodes ≠ []

variable {tld : Str}

def Day.live (d : Day tld) : Bool := isLive d.pingHost d.nodes

/-- What is left from run to run: ATLAS.md and the saved counters. -/
structure Repository where
  atlas : Option Str
  uptimeState : Option (Str → Option ℕ)

/-- A run starts from empty counters when none were saved, and a run that fails leaves
the saved ones. -/
def dailyRun (s : Repository) (d : Day tld) : Option Repository :=
  let env : MonitorEnv := ⟨some d.files, s.uptimeState.getD fun _ => none, d.pingHost⟩
  let run := monitorNetworks env s.atlas
  some ⟨run.atlas, run.savedState.or s.uptimeState⟩

def daily (tld : Str) (t : Table) : Machine Repository (Day tld) where
  init := ⟨some t.text, none⟩
  step := dailyRun

/-- The status cell of a network as the monitor reads the file. -/
def statusOf (tld content : Str) : Option Str :=
  ((scan (fun rows _ parts =>
    if 8 ≤ parts.length then setRow rows (tldKey (parts.headD [])) parts else rows) []
      content).tableRows.lookup tld).bind fun parts => parts[3]?

/-- The failed runs at the end of a history. -/
def streak (days : List (Day tld)) : ℕ := (days.rtakeWhile fun d => !d.live).length

/-- The network was found dead in each of the last seven runs. -/
def DeadForSeven (days : List (Day tld)) : Prop :=
  ∃ before last, days = before ++ last ∧ last.length = 7 ∧ ∀ d ∈ last, d.live = false

/-- The badge follows the last seven runs and the saved counter is the streak. -/
structure Reports (days : List (Day tld)) (s : Repository) : Prop where
  badge : ∃ content, s.atlas = some content ∧
    ((DeadForSeven days ∧ statusOf tld content = some offlineBadge) ∨
      (¬ DeadForSeven days ∧ statusOf tld content = some activeBadge))
  counter : ∃ saved, s.uptimeState = some saved ∧ saved tld = some (streak days)

theorem streak_snoc (days : List (Day tld)) (d : Day tld) :
    streak (days ++ [d]) = if d.live then 0 else streak days + 1 := by
  unfold streak
  rw [List.rtakeWhile_concat]
  cases d.live <;> simp

theorem deadForSeven_iff (days : List (Day tld)) : DeadForSeven days ↔ 7 ≤ streak days := by
  constructor
  · rintro ⟨before, last, rfl, hseven, hdead⟩
    rw [streak, List.rtakeWhile, List.length_reverse, List.reverse_append,
      List.takeWhile_append_of_pos fun d hd => by simpa using hdead d (List.mem_reverse.mp hd),
      List.length_append, List.length_reverse, hseven]
    exact Nat.le_add_right 7 _
  · intro hseven
    have hall : ∀ d ∈ days.rtakeWhile fun d => !d.live, d.live = false := fun d hd => by
      simpa using List.mem_rtakeWhile_imp hd
    refine ⟨days.rdropWhile (fun d => !d.live) ++
        (days.rtakeWhile fun d => !d.live).take (streak days - 7),
      (days.rtakeWhile fun d => !d.live).drop (streak days - 7), ?_, ?_, ?_⟩
    · rw [List.append_assoc, List.take_append_drop, List.rdropWhile_append_rtakeWhile]
    · rw [List.length_drop]
      unfold streak at hseven ⊢
      omega
    · exact fun d hd => hall d (List.mem_of_mem_drop hd)

/-- In the loop over the files: the cell set so far for the network, and its counter. -/
def Tracks (tld : Str) (items : List (Str × List Str)) (s : Monitoring) (badge : Option Badge)
    (count : Option ℕ) : Prop :=
  ∃ badges, s.tableRows = items.map (badged badges) ∧ badges tld = badge ∧
    s.uptimeState tld = count

def badgeFor (failures : ℕ) : Badge := if 7 ≤ failures then .offline else .active

theorem json_stem {name : Str} (h : ".json".toList <:+ name) :
    name = name.take (name.length - 5) ++ ".json".toList := by
  obtain ⟨stem, rfl⟩ := h
  simp

/-- The files of other networks leave the cell and the counter alone. -/
theorem tracks_other {items : List (Str × List Str)} {s : Monitoring} {badge : Option Badge}
    {count : Option ℕ} (pingHost : Str → Str → Bool) (file : Str × NetworkFile)
    (hname : file.1 ≠ tld ++ ".json".toList) (h : Tracks tld items s badge count) :
    Tracks tld items (monitorFile pingHost s file) badge count := by
  obtain ⟨filename, content⟩ := file
  unfold monitorFile
  by_cases hjson : ".json".toList <:+ filename
  · have hstem : tld ≠ filename.take (filename.length - 5) := by
      rintro rfl
      exact hname (json_stem hjson)
    have hset : ∀ (b : Badge) (n : ℕ), Tracks tld items
        { uptimeState := Function.update s.uptimeState (filename.take (filename.length - 5)) (some n)
          tableRows := setStatus s.tableRows (filename.take (filename.length - 5)) b.text }
        badge count := by
      intro b n
      obtain ⟨badges, hrows, hbadge, hcount⟩ := h
      refine ⟨_, (congrArg (setStatus · _ _) hrows).trans (setStatus_badged badges items _ b),
        ?_, ?_⟩
      · rw [Function.update_of_ne hstem, hbadge]
      · exact (Function.update_of_ne hstem _ _).trans hcount
    rw [if_pos hjson]
    cases content with
    | broken => exact h
    | config seed nodes =>
      dsimp only
      split
      · exact h
      · split
        · exact hset .active 0
        · split
          · exact hset .offline _
          · exact hset .active _
  · rw [if_neg hjson]
    exact h

/-- The file of the network itself counts the day and sets the cell. -/
theorem tracks_own {items : List (Str × List Str)} {s : Monitoring} {badge : Option Badge}
    {count : Option ℕ} (d : Day tld) (h : Tracks tld items s badge count) :
    let failures := if d.live then 0 else count.getD 0 + 1
    Tracks tld items
      (monitorFile d.pingHost s (tld ++ ".json".toList, .config (some d.seed) d.nodes))
      (some (badgeFor failures)) (some failures) := by
  obtain ⟨badges, hrows, hbadge, hcount⟩ := h
  have hjson : ".json".toList <:+ tld ++ ".json".toList := List.suffix_append _ _
  have hstem : (tld ++ ".json".toList).take ((tld ++ ".json".toList).length - 5) = tld := by simp
  have hkept : ¬ ((some d.seed).getD [] = [] ∨ d.nodes = []) := by
    simpa [d.seed_given] using d.nodes_given
  have hset : ∀ b : Badge, setStatus s.tableRows tld b.text =
      items.map (badged (Function.update badges tld (some b))) := by
    intro b
    rw [hrows]
    exact setStatus_badged badges items tld b
  unfold monitorFile
  simp only [if_pos hjson, hstem, if_neg hkept]
  by_cases hlive : d.live = true
  · have hlive' : isLive d.pingHost d.nodes = true := hlive
    simp only [if_pos hlive, if_pos hlive']
    exact ⟨_, hset .active, Function.update_self _ _ _, Function.update_self _ _ _⟩
  · have hlive' : ¬ isLive d.pingHost d.nodes = true := hlive
    simp only [if_neg hlive, if_neg hlive', hcount, badgeFor]
    by_cases hseven : 7 ≤ count.getD 0 + 1
    · simp only [if_pos hseven]
      exact ⟨_, hset .offline, Function.update_self _ _ _, Function.update_self _ _ _⟩
    · simp only [if_neg hseven]
      exact ⟨_, hset .active, Function.update_self _ _ _, Function.update_self _ _ _⟩

/-- A run counts the day once, whatever else is in the directory. -/
theorem tracks_run {items : List (Str × List Str)} {s : Monitoring} {badge : Option Badge}
    {count : Option ℕ} (d : Day tld) (h : Tracks tld items s badge count) :
    let failures := if d.live then 0 else count.getD 0 + 1
    Tracks tld items (d.files.foldl (monitorFile d.pingHost) s) (some (badgeFor failures))
      (some failures) := by
  have hothers : ∀ (files : List (Str × NetworkFile)) (s : Monitoring) (badge : Option Badge)
      (count : Option ℕ), (∀ file ∈ files, file.1 ≠ tld ++ ".json".toList) →
      Tracks tld items s badge count →
      Tracks tld items (files.foldl (monitorFile d.pingHost) s) badge count := by
    intro files
    induction files with
    | nil => exact fun _ _ _ _ hs => hs
    | cons file rest ih =>
      intro s badge count hne hs
      exact ih _ _ _ (fun f hf => hne f (List.mem_cons_of_mem file hf))
        (tracks_other _ file (hne file List.mem_cons_self) hs)
  obtain ⟨before, after, hfiles⟩ := List.append_of_mem d.listed
  have hnames := d.names_distinct
  rw [hfiles, List.map_append, List.map_cons, List.nodup_append] at hnames
  obtain ⟨-, hafter, hbefore⟩ := hnames
  rw [hfiles, List.foldl_append, List.foldl_cons]
  apply hothers after
  · intro file hfile heq
    exact (List.nodup_cons.mp hafter).1 (List.mem_map.mpr ⟨file, hfile, heq⟩)
  · apply tracks_own d
    apply hothers before _ _ _ _ h
    intro file hfile heq
    exact hbefore _ (List.mem_map_of_mem hfile) _ List.mem_cons_self heq

theorem statusOf_row (t : Table) {r : Row} (hr : r ∈ t.rows) :
    statusOf r.tld t.text = (r.cells.map strip)[3]? := by
  have hitems := collected_rows t.rows [] (by simpa using t.tlds_distinct)
  rw [List.nil_append] at hitems
  have hconsistent : FirstWins.Consistent (itemsOf t) := by
    intro tld cells cells' hc hc'
    obtain ⟨a, ha, heq⟩ := List.mem_map.mp hc
    obtain ⟨b, hb, heq'⟩ := List.mem_map.mp hc'
    have hab : a = b := List.inj_on_of_nodup_map t.tlds_distinct ha hb
      ((Prod.mk.inj heq).1.trans (Prod.mk.inj heq').1.symm)
    rw [← (Prod.mk.inj heq).2, ← (Prod.mk.inj heq').2, hab]
  have hlookup : (itemsOf t).lookup r.tld = some (r.cells.map strip) :=
    (hconsistent.lookup_iff _ _).mpr (List.mem_map.mpr ⟨r, hr, rfl⟩)
  unfold itemsOf at hlookup
  simp only [statusOf, t.scan_text, hitems, hlookup, Option.bind_some]

theorem rewritten_status (badges : Str → Option Badge) (r : Row) {badge : Badge}
    (h : badges r.tld = some badge) :
    ((rewritten badges r).cells.map strip)[3]? = some badge.text := by
  have hstrip : strip badge.text = badge.text := by cases badge <;> decide
  have hlen : 3 < (r.cells.map strip).length := by
    rw [List.length_map, r.eight]
    decide
  rw [rewritten, paddedRow_stripped, h, cellsWith, List.map_set, hstrip,
    List.getElem?_set_self (by simpa using hlen)]

/-- A table with the bare separator comes through a run, with the day counted and shown. -/
theorem dailyRun_of_bare {s : Repository} {t : Table} (d : Day tld)
    (hatlas : s.atlas = some t.text) (hsep : t.separator = separatorPrefix)
    (hrow : ∃ r ∈ t.rows, r.tld = tld) :
    let failures := if d.live then 0 else ((s.uptimeState.getD fun _ => none) tld).getD 0 + 1
    ∃ (t' : Table) (saved : Str → Option ℕ),
      dailyRun s d = some ⟨some t'.text, some saved⟩ ∧ t'.separator = separatorPrefix ∧
      (∃ r ∈ t'.rows, r.tld = tld) ∧ statusOf tld t'.text = some (badgeFor failures).text ∧
      saved tld = some failures := by
  intro failures
  have hstart : Tracks tld (itemsOf t)
      ⟨s.uptimeState.getD fun _ => none, itemsOf t⟩ none
      ((s.uptimeState.getD fun _ => none) tld) :=
    ⟨fun _ => none, by simp [itemsOf, badged], rfl, rfl⟩
  obtain ⟨badges, hbadges, hbadge, hcount⟩ := tracks_run d hstart
  have hrun := monitor_of_badges t ⟨some d.files, s.uptimeState.getD fun _ => none, d.pingHost⟩
    d.files rfl badges hbadges
  rw [t.rewriteTable_of_bare hsep _ _ (rewritten_distinct t badges)] at hrun
  obtain ⟨r, hr, rfl⟩ := hrow
  have hmem : rewritten badges r ∈ (sortRows t.rows).map (rewritten badges) :=
    List.mem_map_of_mem ((sortRows_perm t.rows).mem_iff.mpr hr)
  refine ⟨t.withRows _ (rewritten_distinct t badges), _, ?_, hsep,
    ⟨_, hmem, rewritten_tld badges r⟩, ?_, hcount⟩
  · rw [dailyRun, hatlas, hrun]
    rfl
  · have hstatus := statusOf_row (t.withRows _ (rewritten_distinct t badges)) hmem
    rw [rewritten_tld] at hstatus
    rw [hstatus, rewritten_status badges r hbadge]

/-- Between two runs: the table is intact, and the counters to start from hold the streak. -/
structure Intact (days : List (Day tld)) (s : Repository) : Prop where
  table : ∃ t : Table, s.atlas = some t.text ∧ t.separator = separatorPrefix ∧
    ∃ r ∈ t.rows, r.tld = tld
  counted : ((s.uptimeState.getD fun _ => none) tld).getD 0 = streak days
  reported : days ≠ [] → Reports days s

theorem intact_step {days : List (Day tld)} {s s' : Repository} {d : Day tld}
    (h : Intact days s) (hstep : dailyRun s d = some s') : Intact (days ++ [d]) s' := by
  obtain ⟨t, hatlas, hsep, hrow⟩ := h.table
  obtain ⟨t', saved, hrun, hsep', hrow', hstatus, hcount⟩ := dailyRun_of_bare d hatlas hsep hrow
  rw [h.counted, ← streak_snoc] at hstatus hcount
  obtain rfl : ⟨some t'.text, some saved⟩ = s' := Option.some.inj (hrun.symm.trans hstep)
  refine ⟨⟨t', rfl, hsep', hrow'⟩, ?_, fun _ => ⟨⟨t'.text, rfl, ?_⟩, saved, rfl, hcount⟩⟩
  · rw [Option.getD_some, hcount, Option.getD_some]
  · rw [deadForSeven_iff]
    by_cases hseven : 7 ≤ streak (days ++ [d])
    · refine Or.inl ⟨hseven, ?_⟩
      rwa [badgeFor, if_pos hseven] at hstatus
    · refine Or.inr ⟨hseven, ?_⟩
      rwa [badgeFor, if_neg hseven] at hstatus

theorem intact_run {t : Table} (hsep : t.separator = separatorPrefix)
    (hrow : ∃ r ∈ t.rows, r.tld = tld) {days : List (Day tld)} {s : Repository}
    (h : (daily tld t).Run days s) : Intact days s :=
  h.invariant (P := Intact)
    ⟨⟨t, rfl, hsep, hrow⟩, rfl, fun hne => absurd rfl hne⟩
    fun _ _ _ _ _ hintact hstep => intact_step hintact hstep

/-- The seven-day rule holds after every run of a history exactly when the separator line
of the table is the bare one, or there is no run. -/
theorem seven_day_rule_iff (t : Table) (hrow : ∃ r ∈ t.rows, r.tld = tld)
    (days : List (Day tld)) :
    (∀ past s, past <+: days → past ≠ [] → (daily tld t).Run past s → Reports past s) ↔
      days = [] ∨ t.separator = separatorPrefix := by
  constructor
  · intro hreports
    by_contra hnot
    rw [not_or] at hnot
    obtain ⟨d, rest, rfl⟩ := List.exists_cons_of_ne_nil hnot.1
    have hfirst : (daily tld t).Run ([] ++ [d]) ⟨some [], none⟩ := by
      refine Machine.Run.nil.snoc ?_
      have hrun : ∀ uptimeState, monitorNetworks ⟨some d.files, uptimeState, d.pingHost⟩
          (some t.text) = ⟨some [], none, .valueError⟩ := fun uptimeState =>
        monitor_of_not_bare t ⟨some d.files, uptimeState, d.pingHost⟩ d.files rfl hnot.2
      show dailyRun ⟨some t.text, none⟩ d = _
      simp only [dailyRun, hrun, Option.or_none]
    obtain ⟨saved, hsaved, -⟩ :=
      (hreports [d] _ ⟨rest, rfl⟩ (List.cons_ne_nil d []) hfirst).counter
    cases hsaved
  · rintro (rfl | hsep) past s hpre hne hrun
    · exact absurd (List.prefix_nil.mp hpre) hne
    · exact (intact_run hsep hrow hrun).reported hne

def kinFile : NetworkFile := .config (some "seed.kin".toList) [some "/ip4/203.0.113.1/tcp/4001"]

/-- A day on which the network `kin` is the only one and does not answer. -/
def deadDay : Day "kin" where
  files := [("kin.json", kinFile)]
  pingHost _ _ := false
  seed := "seed.kin"
  nodes := [some "/ip4/203.0.113.1/tcp/4001"]
  names_distinct := List.nodup_singleton _
  listed := List.mem_singleton.mpr rfl
  seed_given := by decide
  nodes_given := List.cons_ne_nil _ _

def bareTable : Table := { repositoryTable with separator := separatorPrefix
                                                separator_line := by decide }

/-- The very first run empties the repository's table and saves no counter. -/
theorem first_run_reports_nothing :
    (daily "kin" repositoryTable).Run [deadDay] ⟨some [], none⟩ ∧
      ¬ Reports [deadDay] ⟨some [], none⟩ := by
  constructor
  · have hsep : repositoryTable.separator ≠ separatorPrefix := by decide
    refine Machine.Run.nil.snoc (i := deadDay) ?_
    show dailyRun ⟨some repositoryTable.text, none⟩ deadDay = _
    have hrun := monitor_of_not_bare repositoryTable
      ⟨some deadDay.files, fun _ => none, deadDay.pingHost⟩ deadDay.files rfl hsep
    simp only [dailyRun, Option.getD_none, hrun, Option.or_none]
  · rintro ⟨-, saved, hsaved, -⟩
    cases hsaved

theorem seven_day_rule_bare :
    bareTable.separator = separatorPrefix ∧
      ∀ past s, past <+: List.replicate 8 deadDay → past ≠ [] →
        (daily "kin" bareTable).Run past s → Reports past s :=
  ⟨rfl, (seven_day_rule_iff bareTable ⟨_, List.mem_singleton.mpr rfl, by decide⟩ _).mpr
    (Or.inr rfl)⟩

end KineticAtlas.UptimeRule
