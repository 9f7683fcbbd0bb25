import KineticAtlas.RegistryLoad
import KineticAtlas.ProxyHandler
import KineticAtlas.Library.Locks
import KineticAtlas.Library.Runs

/-!
Requests while the registry is reloaded (updater.rs, registry.rs, proxy.rs). The
updater loads the networks directory under the exclusive guard, one step at a time:
the check of the directory, the clearing, the listing, then entry by entry. Handlers
take a shared guard, look one TLD up and give the guard back. Other programs may
change the disk between any two steps. The steps of each load are noted with the disk
they met. Every lookup reads a registry that was left by a load whose noted steps are
those of a load from its check to its last entry, or the one the daemon started with.
-/
namespace KineticAtlas.HotReload

open Library.Texts Library.Runs Library.Files Library.Locks KineticAtlas.Types HostSplit
  Registry RegistryLoad ProxyHandler

/-- A handler's way through its critical section. -/
inductive HandlerPhase
  | outside
  | holding (req : HttpRequest) (cleanTld : Str)
  | lookedUp

/-- The updater between two steps of a reload. -/
inductive UpdaterPhase
  | away
  | entered
  | cleared
  | loading (names : List Str)

/-- A step of a load with the answers and the disk it met. -/
inductive LoadStep (F : Type)
  | check (fs : FileSystem F)
  | list (fs : FileSystem F) (disk : Disk F)
  | entry (fs : FileSystem F) (disk : Disk F)

/-- A lookup with what became of its request, and the number of loads finished by then. -/
structure Served where
  req : HttpRequest
  answers : Answers
  cleanTld : Str
  config : Option NetworkConfig
  handled : Handled
  loads : ℕ

/-- The shared registry and who uses it, with a record of the lookups, of the steps of the
load under way, and of those of each load that was finished. -/
structure HotState (F : Type) where
  lock : RwLock ℕ TldRegistry
  disk : Disk F
  handlers : ℕ → HandlerPhase
  updater : UpdaterPhase
  log : List Served
  steps : List (LoadStep F)
  loads : List (List (LoadStep F))

inductive Move (F : Type)
  | lockRead (id : ℕ) (req : HttpRequest)
  | lookup (id : ℕ) (answers : Answers)
  | dropRead (id : ℕ)
  | lockWrite
  | check (fs : FileSystem F)
  | list (fs : FileSystem F)
  | entry (fs : FileSystem F)
  | dropWrite
  | outside (disk : Disk F)

def LoadStep.move {F : Type} : LoadStep F → Move F
  | .check fs => .check fs
  | .list fs _ => .list fs
  | .entry fs _ => .entry fs

/-- A step of a load between the taking of the guard and its return. -/
def Move.isLoadStep {F : Type} : Move F → Bool
  | .check _ => true
  | .list _ => true
  | .entry _ => true
  | _ => false

/-- The step of a load that a move makes on the disk it meets. -/
def Move.stepOn {F : Type} (disk : Disk F) : Move F → Option (LoadStep F)
  | .check fs => some (.check fs)
  | .list fs => some (.list fs disk)
  | .entry fs => some (.entry fs disk)
  | _ => none

/-- The key a request is looked up under, if it gets that far. -/
def lookupKey (req : HttpRequest) : Except AtlasError Str := do
  let fullDomain ← fullDomainOf req.headers
  tldOf fullDomain

variable {Reveal F : Type} [DecidableEq F]

def hotStep (lib : Libraries Reveal) (json : Json) (globalConfig : AtlasConfig)
    (s : HotState F) : Move F → Option (HotState F)
  | .lockRead id req =>
    match s.handlers id, lookupKey req with
    | .outside, .ok cleanTld =>
      (s.lock.read id).map fun lock =>
        { s with
          lock := lock
          handlers := Function.update s.handlers id (.holding req cleanTld) }
    | _, _ => none
  | .lookup id answers =>
    match s.handlers id with
    | .holding req cleanTld =>
      some { s with
        handlers := Function.update s.handlers id .lookedUp
        log := s.log ++ [⟨req, answers, cleanTld, s.lock.value.getConfig cleanTld,
          handleProxyRequest lib globalConfig s.lock.value answers req,
          s.lock.history.length - 1⟩] }
    | _ => none
  | .dropRead id =>
    match s.handlers id with
    | .lookedUp =>
      some { s with
        lock := s.lock.dropRead id
        handlers := Function.update s.handlers id .outside }
    | _ => none
  | .lockWrite =>
    match s.updater with
    | .away => s.lock.write.map fun lock => { s with lock := lock, updater := .entered }
    | _ => none
  | .check fs =>
    match s.updater with
    | .entered =>
      if isMissing fs globalConfig.networksDir then
        some { s with updater := .loading [], steps := s.steps ++ [.check fs] }
      else
        some { s with
          lock := s.lock.store .new
          updater := .cleared
          steps := s.steps ++ [.check fs] }
    | _ => none
  | .list fs =>
    match s.updater with
    | .cleared =>
      some { s with
        updater := .loading (listed fs globalConfig.networksDir s.disk)
        steps := s.steps ++ [.list fs s.disk] }
    | _ => none
  | .entry fs =>
    match s.updater with
    | .loading (name :: rest) =>
      let loaded :=
        loadEntry fs json globalConfig globalConfig.networksDir ⟨s.lock.value, s.disk⟩ name
      some { s with
        lock := s.lock.store loaded.registry
        disk := loaded.disk
        updater := .loading rest
        steps := s.steps ++ [.entry fs s.disk] }
    | _ => none
  | .dropWrite =>
    match s.updater with
    | .loading [] =>
      some { s with
        lock := s.lock.dropWrite
        updater := .away
        steps := []
        loads := s.loads ++ [s.steps] }
    | _ => none
  | .outside disk => some { s with disk := disk }

/-- The daemon once the registry is shared. -/
def hotReload (lib : Libraries Reveal) (json : Json) (globalConfig : AtlasConfig)
    (first : TldRegistry) (disk : Disk F) : Machine (HotState F) (Move F) where
  init := ⟨.new first, disk, fun _ => .outside, .away, [], [], []⟩
  step := hotStep lib json globalConfig

/-- An entry of the listing with what the load finds when it gets there. -/
structure Visit (F : Type) where
  name : Str
  fs : FileSystem F
  disk : Disk F

def visitEntry (json : Json) (globalConfig : AtlasConfig) (dir : Str) (registry : TldRegistry)
    (visit : Visit F) : TldRegistry :=
  (loadEntry visit.fs json globalConfig dir ⟨registry, visit.disk⟩ visit.name).registry

def Visit.step (visit : Visit F) : LoadStep F := .entry visit.fs visit.disk

/-- The steps are those of a load from its first check to its last entry, on a disk that may
change meanwhile, and this is what it makes of the registry. -/
inductive CompleteLoad (json : Json) (globalConfig : AtlasConfig) (dir : Str) :
    TldRegistry → List (LoadStep F) → TldRegistry → Prop
  | missing (fs : FileSystem F) (registry : TldRegistry) :
      isMissing fs dir = true → CompleteLoad json globalConfig dir registry [.check fs] registry
  | loaded (fs fs' : FileSystem F) (disk : Disk F) (visits : List (Visit F))
      (registry : TldRegistry) :
      isMissing fs dir = false → visits.map Visit.name = listed fs' dir disk →
      CompleteLoad json globalConfig dir registry
        (.check fs :: .list fs' disk :: visits.map Visit.step)
        (visits.foldl (visitEntry json globalConfig dir) .new)

/-- The steps of a load that has some names left. -/
inductive Underway (json : Json) (globalConfig : AtlasConfig) (dir : Str) :
    TldRegistry → List (LoadStep F) → TldRegistry → List Str → Prop
  | missing (fs : FileSystem F) (registry : TldRegistry) :
      isMissing fs dir = true → Underway json globalConfig dir registry [.check fs] registry []
  | loading (fs fs' : FileSystem F) (disk : Disk F) (visits : List (Visit F))
      (registry : TldRegistry) (rest : List Str) :
      isMissing fs dir = false → visits.map Visit.name ++ rest = listed fs' dir disk →
      Underway json globalConfig dir registry
        (.check fs :: .list fs' disk :: visits.map Visit.step)
        (visits.foldl (visitEntry json globalConfig dir) .new) rest

variable {lib : Libraries Reveal} {json : Json} {globalConfig : AtlasConfig} {dir : Str}
  {old value : TldRegistry} {steps : List (LoadStep F)}

theorem Underway.visit {name : Str} {rest : List Str}
    (h : Underway json globalConfig dir old steps value (name :: rest)) (fs : FileSystem F)
    (disk : Disk F) :
    Underway json globalConfig dir old (steps ++ [.entry fs disk])
      (loadEntry fs json globalConfig dir ⟨value, disk⟩ name).registry rest := by
  cases h with
  | loading fs₀ fs' disk₀ visits _ _ hfound hnames =>
    have hvisits : (visits ++ [(⟨name, fs, disk⟩ : Visit F)]).map Visit.name ++ rest =
        listed fs' dir disk₀ := by
      simpa using hnames
    have hvisited : Underway json globalConfig dir old _
        ((visits ++ [(⟨name, fs, disk⟩ : Visit F)]).foldl (visitEntry json globalConfig dir) .new)
        rest :=
      .loading fs₀ fs' disk₀ _ old rest hfound hvisits
    simpa [visitEntry, Visit.step] using hvisited

theorem Underway.complete (h : Underway json globalConfig dir old steps value []) :
    CompleteLoad json globalConfig dir old steps value := by
  cases h with
  | missing fs _ hmissing => exact .missing fs _ hmissing
  | loading fs fs' disk visits _ _ hfound hnames =>
    exact .loaded fs fs' disk visits _ hfound (by simpa using hnames)

/-- What the steps can do. -/
inductive HotStep (lib : Libraries Reveal) (json : Json) (globalConfig : AtlasConfig)
    (s : HotState F) : Move F → HotState F → Prop
  | lockRead (id : ℕ) (req : HttpRequest) (cleanTld : Str) (lock : RwLock ℕ TldRegistry) :
      lookupKey req = .ok cleanTld → s.lock.read id = some lock →
      HotStep lib json globalConfig s (.lockRead id req)
        { s with
          lock := lock
          handlers := Function.update s.handlers id (.holding req cleanTld) }
  | lookup (id : ℕ) (req : HttpRequest) (cleanTld : Str) (answers : Answers) :
      s.handlers id = .holding req cleanTld →
      HotStep lib json globalConfig s (.lookup id answers)
        { s with
          handlers := Function.update s.handlers id .lookedUp
          log := s.log ++ [⟨req, answers, cleanTld, s.lock.value.getConfig cleanTld,
            handleProxyRequest lib globalConfig s.lock.value answers req,
            s.lock.history.length - 1⟩] }
  | dropRead (id : ℕ) :
      HotStep lib json globalConfig s (.dropRead id)
        { s with
          lock := s.lock.dropRead id
          handlers := Function.update s.handlers id .outside }
  | lockWrite (lock : RwLock ℕ TldRegistry) :
      s.updater = .away → s.lock.write = some lock →
      HotStep lib json globalConfig s .lockWrite { s with lock := lock, updater := .entered }
  | missing (fs : FileSystem F) :
      s.updater = .entered → isMissing fs globalConfig.networksDir = true →
      HotStep lib json globalConfig s (.check fs)
        { s with updater := .loading [], steps := s.steps ++ [.check fs] }
  | clear (fs : FileSystem F) :
      s.updater = .entered → isMissing fs globalConfig.networksDir = false →
      HotStep lib json globalConfig s (.check fs)
        { s with
          lock := s.lock.store .new
          updater := .cleared
          steps := s.steps ++ [.check fs] }
  | list (fs : FileSystem F) :
      s.updater = .cleared →
      HotStep lib json globalConfig s (.list fs)
        { s with
          updater := .loading (listed fs globalConfig.networksDir s.disk)
          steps := s.steps ++ [.list fs s.disk] }
  | entry (fs : FileSystem F) (name : Str) (rest : List Str) (loaded : Loading F) :
      s.updater = .loading (name :: rest) →
      loadEntry fs json globalConfig globalConfig.networksDir ⟨s.lock.value, s.disk⟩ name =
        loaded →
      HotStep lib json globalConfig s (.entry fs)
        { s with
          lock := s.lock.store loaded.registry
          disk := loaded.disk
          updater := .loading rest
          steps := s.steps ++ [.entry fs s.disk] }
  | dropWrite :
      s.updater = .loading [] →
      HotStep lib json globalConfig s .dropWrite
        { s with
          lock := s.lock.dropWrite
          updater := .away
          steps := []
          loads := s.loads ++ [s.steps] }
  | outside (disk : Disk F) :
      HotStep lib json globalConfig s (.outside disk) { s with disk := disk }

theorem hot_step {s s' : HotState F} {move : Move F}
    (h : hotStep lib json globalConfig s move = some s') :
    HotStep lib json globalConfig s move s' := by
  cases move with
  | lockRead id req =>
    simp only [hotStep] at h
    split at h
    · rename_i cleanTld _ hkey
      obtain ⟨lock, hread, rfl⟩ := Option.map_eq_some_iff.mp h
      exact .lockRead id req cleanTld lock hkey hread
    · cases h
  | lookup id answers =>
    simp only [hotStep] at h
    split at h
    · rename_i req cleanTld hholding
      cases h
      exact .lookup id req cleanTld answers hholding
    · cases h
  | dropRead id =>
    simp only [hotStep] at h
    split at h
    · cases h
      exact .dropRead id
    · cases h
  | lockWrite =>
    simp only [hotStep] at h
    split at h
    · rename_i haway
      obtain ⟨lock, hwrite, rfl⟩ := Option.map_eq_some_iff.mp h
      exact .lockWrite lock haway hwrite
    · cases h
  | check fs =>
    simp only [hotStep] at h
    split at h
    · rename_i hentered
      split at h
      · rename_i hmissing
        cases h
        exact .missing fs hentered hmissing
      · rename_i hfound
        cases h
        exact .clear fs hentered (by simpa using hfound)
    · cases h
  | list fs =>
    simp only [hotStep] at h
    split at h
    · rename_i hcleared
      cases h
      exact .list fs hcleared
    · cases h
  | entry fs =>
    simp only [hotStep] at h
    split at h
    · rename_i name rest hloading
      cases h
      exact .entry fs name rest _ hloading rfl
    · cases h
  | dropWrite =>
    simp only [hotStep] at h
    split at h
    · rename_i hloading
      cases h
      exact .dropWrite hloading
    · cases h
  | outside disk =>
    cases h
    exact .outside disk

/-- Where the updater is tells what the lock holds and which steps were made. -/
def Progress (json : Json) (globalConfig : AtlasConfig) (lock : RwLock ℕ TldRegistry)
    (steps : List (LoadStep F)) : UpdaterPhase → Prop
  | .away => lock.writing = false ∧ steps = []
  | .entered => lock.writing = true ∧ lock.settled? = some lock.value ∧ steps = []
  | .cleared =>
    lock.writing = true ∧ lock.value = .new ∧
      ∃ old fs, lock.settled? = some old ∧ isMissing fs globalConfig.networksDir = false ∧
        steps = [.check fs]
  | .loading rest =>
    lock.writing = true ∧ ∃ old, lock.settled? = some old ∧
      Underway json globalConfig globalConfig.networksDir old steps lock.value rest

/-- The second registry is what the load of that number has made of the first. -/
def LoadedBy (json : Json) (globalConfig : AtlasConfig) (loads : List (List (LoadStep F))) (n : ℕ)
    (old new : TldRegistry) : Prop :=
  ∃ steps, loads[n]? = some steps ∧
    CompleteLoad json globalConfig globalConfig.networksDir old steps new

/-- The lookup read the registry left by the loads counted in it. -/
def Faithful (lib : Libraries Reveal) (globalConfig : AtlasConfig)
    (lock : RwLock ℕ TldRegistry) (served : Served) : Prop :=
  lookupKey served.req = .ok served.cleanTld ∧
    ∃ registry, lock.history[served.loads]? = some registry ∧
      served.config = registry.getConfig served.cleanTld ∧
      served.handled = handleProxyRequest lib globalConfig registry served.answers served.req

/-- What holds in every state reached. -/
structure Tracked (lib : Libraries Reveal) (json : Json) (globalConfig : AtlasConfig)
    (s : HotState F) : Prop where
  sound : s.lock.Sound
  counted : s.lock.history.length = s.loads.length + 1
  evolves : s.lock.Evolves (LoadedBy json globalConfig s.loads)
  progress : Progress json globalConfig s.lock s.steps s.updater
  guarded : ∀ id, s.handlers id ≠ .outside → id ∈ s.lock.readers
  keyed : ∀ id req cleanTld, s.handlers id = .holding req cleanTld →
    lookupKey req = .ok cleanTld
  served : ∀ served ∈ s.log, Faithful lib globalConfig s.lock served

variable {s s' : HotState F} {lock lock' : RwLock ℕ TldRegistry}

/-- Shared guards come and go without the updater noticing. -/
theorem Progress.readers {phase : UpdaterPhase} (h : Progress json globalConfig lock steps phase)
    (readers : Finset ℕ) :
    Progress json globalConfig { lock with readers := readers } steps phase := by
  cases phase <;> exact h

theorem LoadedBy.snoc {loads : List (List (LoadStep F))} {n : ℕ} {old new : TldRegistry}
    (h : LoadedBy json globalConfig loads n old new) (steps : List (LoadStep F)) :
    LoadedBy json globalConfig (loads ++ [steps]) n old new := by
  obtain ⟨made, hmade, hload⟩ := h
  refine ⟨made, ?_, hload⟩
  rw [List.getElem?_append_left (List.getElem?_eq_some_iff.mp hmade).1, hmade]

theorem Faithful.dropWrite {served : Served} (h : Faithful lib globalConfig lock served) :
    Faithful lib globalConfig lock.dropWrite served := by
  obtain ⟨hkey, registry, hhistory, hread⟩ := h
  have hlt : served.loads < lock.history.length := (List.getElem?_eq_some_iff.mp hhistory).1
  refine ⟨hkey, registry, ?_, hread⟩
  rw [RwLock.dropWrite, List.getElem?_append_left hlt, hhistory]

theorem tracked_init (first : TldRegistry) (disk : Disk F) :
    Tracked lib json globalConfig (hotReload lib json globalConfig first disk).init where
  sound := RwLock.sound_new first
  counted := rfl
  evolves := RwLock.evolves_new first
  progress := ⟨rfl, rfl⟩
  guarded _ h := absurd rfl h
  keyed _ _ _ h := nomatch h
  served _ h := nomatch h

theorem Tracked.lockRead (h : Tracked lib json globalConfig s) {id : ℕ} {req : HttpRequest}
    {cleanTld : Str} (hkey : lookupKey req = .ok cleanTld) (hread : s.lock.read id = some lock) :
    Tracked lib json globalConfig
      { s with
        lock := lock
        handlers := Function.update s.handlers id (.holding req cleanTld) } := by
  have hsound := h.sound.read hread
  obtain ⟨-, -, rfl⟩ := RwLock.read_some hread
  refine ⟨hsound, h.counted, h.evolves, h.progress.readers _, fun other hother => ?_,
    fun other req' cleanTld' hother => ?_, h.served⟩
  · by_cases hid : other = id
    · simp [hid]
    · have hmem : other ∈ s.lock.readers := by
        apply h.guarded
        simpa [Function.update_of_ne hid] using hother
      simp [hmem]
  · by_cases hid : other = id
    · subst other
      obtain ⟨rfl, rfl⟩ : req = req' ∧ cleanTld = cleanTld' := by simpa using hother
      exact hkey
    · exact h.keyed other req' cleanTld' (by simpa [Function.update_of_ne hid] using hother)

/-- The registry looked up in is the settled one, since the guard is held. -/
theorem Tracked.lookup (h : Tracked lib json globalConfig s) {id : ℕ} {req : HttpRequest}
    {cleanTld : Str} (answers : Answers) (hholding : s.handlers id = .holding req cleanTld) :
    Tracked lib json globalConfig
      { s with
        handlers := Function.update s.handlers id .lookedUp
        log := s.log ++ [⟨req, answers, cleanTld, s.lock.value.getConfig cleanTld,
          handleProxyRequest lib globalConfig s.lock.value answers req,
          s.lock.history.length - 1⟩] } := by
  have hmem : id ∈ s.lock.readers := h.guarded id (by simp [hholding])
  have hsettled := RwLock.settled_index (h.sound.reader_sees hmem)
  refine ⟨h.sound, h.counted, h.evolves, h.progress, fun other hother => ?_,
    fun other req' cleanTld' hother => ?_, fun served hserved => ?_⟩
  · by_cases hid : other = id
    · exact hid ▸ hmem
    · exact h.guarded other (by simpa [Function.update_of_ne hid] using hother)
  · by_cases hid : other = id
    · simp [hid] at hother
    · exact h.keyed other req' cleanTld' (by simpa [Function.update_of_ne hid] using hother)
  · rcases List.mem_append.mp hserved with hbefore | hnow
    · exact h.served served hbefore
    · obtain rfl := List.mem_singleton.mp hnow
      exact ⟨h.keyed id req cleanTld hholding, s.lock.value, hsettled, rfl, rfl⟩

theorem Tracked.dropRead (h : Tracked lib json globalConfig s) (id : ℕ) :
    Tracked lib json globalConfig
      { s with
        lock := s.lock.dropRead id
        handlers := Function.update s.handlers id .outside } := by
  refine ⟨h.sound.dropRead id, h.counted, h.evolves, h.progress.readers _, fun other hother => ?_,
    fun other req cleanTld hother => ?_, h.served⟩
  · by_cases hid : other = id
    · simp [hid] at hother
    · have hmem : other ∈ s.lock.readers := by
        apply h.guarded
        simpa [Function.update_of_ne hid] using hother
      simp [RwLock.dropRead, hid, hmem]
  · by_cases hid : other = id
    · simp [hid] at hother
    · exact h.keyed other req cleanTld (by simpa [Function.update_of_ne hid] using hother)

/-- What a step of the updater has to keep while it loads. -/
theorem Tracked.updater (h : Tracked lib json globalConfig s) {phase : UpdaterPhase}
    {disk : Disk F} (hsound : lock.Sound) (hprogress : Progress json globalConfig lock steps phase)
    (hhistory : lock.history = s.lock.history) (hreaders : lock.readers = s.lock.readers) :
    Tracked lib json globalConfig
      { s with lock := lock, disk := disk, updater := phase, steps := steps } where
  sound := hsound
  counted := hhistory ▸ h.counted
  evolves := by
    rw [RwLock.Evolves, hhistory]
    exact h.evolves
  progress := hprogress
  guarded id hid := hreaders ▸ h.guarded id hid
  keyed := h.keyed
  served served hmem := by
    obtain ⟨hkey, registry, hread, hrest⟩ := h.served served hmem
    exact ⟨hkey, registry, hhistory ▸ hread, hrest⟩

/-- The guard is given back after the last step of a load. -/
theorem Tracked.dropWrite (h : Tracked lib json globalConfig s)
    (hloading : s.updater = .loading []) :
    Tracked lib json globalConfig
      { s with
        lock := s.lock.dropWrite
        updater := .away
        steps := []
        loads := s.loads ++ [s.steps] } := by
  have hprogress := h.progress
  rw [hloading] at hprogress
  obtain ⟨hwriting, old, hsettled, hunderway⟩ := hprogress
  have hlast : LoadedBy json globalConfig (s.loads ++ [s.steps]) (s.lock.history.length - 1) old
      s.lock.value := by
    refine ⟨s.steps, ?_, hunderway.complete⟩
    rw [h.counted, Nat.add_sub_cancel, List.getElem?_concat_length]
  refine ⟨h.sound.dropWrite hwriting, ?_, ?_, ⟨rfl, rfl⟩, h.guarded, h.keyed, fun served hmem =>
    (h.served served hmem).dropWrite⟩
  · rw [RwLock.dropWrite, List.length_append, List.length_append, h.counted]
    rfl
  · exact h.evolves.dropWrite (fun _ _ _ hloaded => hloaded.snoc s.steps) hsettled hlast

theorem tracked_step {move : Move F} (h : Tracked lib json globalConfig s)
    (hstep : HotStep lib json globalConfig s move s') : Tracked lib json globalConfig s' := by
  have hprogress := h.progress
  cases hstep with
  | lockRead id req cleanTld lock hkey hread => exact h.lockRead hkey hread
  | lookup id req cleanTld answers hholding => exact h.lookup answers hholding
  | dropRead id => exact h.dropRead id
  | lockWrite lock haway hwrite =>
    have hsound := RwLock.sound_of_write hwrite
    obtain ⟨hfree, hnone, rfl⟩ := RwLock.write_some hwrite
    rw [haway] at hprogress
    exact h.updater hsound ⟨rfl, h.sound.settled hfree, hprogress.2⟩ rfl rfl
  | missing fs hentered hmissing =>
    rw [hentered] at hprogress
    obtain ⟨hwriting, hsettled, hsteps⟩ := hprogress
    rw [hsteps]
    exact h.updater h.sound ⟨hwriting, _, hsettled, .missing fs _ hmissing⟩ rfl rfl
  | clear fs hentered hfound =>
    rw [hentered] at hprogress
    obtain ⟨hwriting, hsettled, hsteps⟩ := hprogress
    rw [hsteps]
    exact h.updater (h.sound.store hwriting _) ⟨hwriting, rfl, _, fs, hsettled, hfound, rfl⟩ rfl rfl
  | list fs hcleared =>
    rw [hcleared] at hprogress
    obtain ⟨hwriting, hvalue, old, fs₀, hsettled, hfound, hsteps⟩ := hprogress
    have hunderway : Underway json globalConfig globalConfig.networksDir old
        (s.steps ++ [.list fs s.disk]) .new (listed fs globalConfig.networksDir s.disk) := by
      rw [hsteps]
      exact .loading fs₀ fs s.disk [] old _ hfound (List.nil_append _)
    exact h.updater h.sound ⟨hwriting, old, hsettled, hvalue ▸ hunderway⟩ rfl rfl
  | entry fs name rest loaded hloading hloaded =>
    rw [hloading] at hprogress
    obtain ⟨hwriting, old, hsettled, hunderway⟩ := hprogress
    have hvisited := hunderway.visit fs s.disk
    rw [hloaded] at hvisited
    exact h.updater (h.sound.store hwriting _) ⟨hwriting, old, hsettled, hvisited⟩ rfl rfl
  | dropWrite hloading => exact h.dropWrite hloading
  | outside disk => exact h.updater h.sound hprogress rfl rfl

theorem tracked_run {first : TldRegistry} {disk : Disk F} {moves : List (Move F)}
    (hrun : (hotReload lib json globalConfig first disk).Run moves s) :
    Tracked lib json globalConfig s := by
  refine Machine.Run.invariant (P := fun _ s => Tracked lib json globalConfig s)
    (tracked_init first disk) ?_ hrun
  intro _ s _ s' _ ih hstep
  exact tracked_step ih (hot_step hstep)

theorem history_step {move : Move F} (hstep : HotStep lib json globalConfig s move s') :
    s.lock.history <+: s'.lock.history := by
  cases hstep with
  | lockRead id req cleanTld lock hkey hread =>
    obtain ⟨-, -, rfl⟩ := RwLock.read_some hread
    exact List.prefix_rfl
  | lockWrite lock _ hwrite =>
    obtain ⟨-, -, rfl⟩ := RwLock.write_some hwrite
    exact List.prefix_rfl
  | dropWrite hloading => exact List.prefix_append _ _
  | lookup | dropRead | missing | clear | list | entry | outside => exact List.prefix_rfl

/-- The history begins with the registry of the start. -/
theorem started_run {first : TldRegistry} {disk : Disk F} {moves : List (Move F)}
    (hrun : (hotReload lib json globalConfig first disk).Run moves s) :
    [first] <+: s.lock.history := by
  refine Machine.Run.invariant (P := fun _ s => [first] <+: s.lock.history)
    List.prefix_rfl ?_ hrun
  intro _ s _ s' _ ih hstep
  exact ih.trans (history_step (hot_step hstep))

/-- The moves of a load with the answers of one file system, entry by entry. -/
def loadMoves (fs : FileSystem F) (globalConfig : AtlasConfig) (disk : Disk F) : List (Move F) :=
  if isMissing fs globalConfig.networksDir then [.check fs]
  else .check fs :: .list fs ::
    (listed fs globalConfig.networksDir disk).map fun _ => .entry fs

theorem entries_undisturbed (fs : FileSystem F) (names : List Str)
    (hloading : s.updater = .loading names) :
    ∃ steps, (names.map fun _ => Move.entry fs).foldlM (hotStep lib json globalConfig) s =
      let loaded := names.foldl (loadEntry fs json globalConfig globalConfig.networksDir)
        ⟨s.lock.value, s.disk⟩
      some { s with
        lock := s.lock.store loaded.registry
        disk := loaded.disk
        updater := .loading []
        steps := steps } := by
  induction names generalizing s with
  | nil =>
    refine ⟨s.steps, ?_⟩
    rw [← hloading]
    rfl
  | cons name rest ih =>
    simp only [List.map_cons, List.foldlM_cons, hotStep, hloading, Option.bind_eq_bind,
      Option.bind_some]
    obtain ⟨steps, hrest⟩ := ih (s := { s with
      lock := s.lock.store (loadEntry fs json globalConfig globalConfig.networksDir
        ⟨s.lock.value, s.disk⟩ name).registry
      disk := (loadEntry fs json globalConfig globalConfig.networksDir
        ⟨s.lock.value, s.disk⟩ name).disk
      updater := .loading rest
      steps := s.steps ++ [.entry fs s.disk] }) rfl
    exact ⟨steps, hrest⟩

/-- The steps of the updater, one after another, are the load as one function. -/
theorem load_undisturbed (fs : FileSystem F) (hentered : s.updater = .entered) :
    ∃ steps, (loadMoves fs globalConfig s.disk).foldlM (hotStep lib json globalConfig) s =
      let loaded := loadFromDir fs json globalConfig.networksDir globalConfig
        ⟨s.lock.value, s.disk⟩
      some { s with
        lock := s.lock.store loaded.registry
        disk := loaded.disk
        updater := .loading []
        steps := steps } := by
  by_cases hmissing : isMissing fs globalConfig.networksDir = true
  · rw [loadMoves, if_pos hmissing, loadFromDir_missing hmissing]
    exact ⟨s.steps ++ [.check fs], by simp [hotStep, hentered, hmissing, RwLock.store]⟩
  · rw [loadMoves, if_neg hmissing, loadFromDir_found (by simpa using hmissing)]
    simp only [List.foldlM_cons, hotStep, hentered, hmissing, Option.bind_eq_bind,
      Option.bind_some, if_false, Bool.false_eq_true]
    exact entries_undisturbed fs _ rfl

theorem noted_step {move : Move F} (hstep : HotStep lib json globalConfig s move s') :
    s'.loads.flatten ++ s'.steps =
      s.loads.flatten ++ s.steps ++ (move.stepOn s.disk).toList := by
  cases hstep with
  | missing | clear | list | entry => exact (List.append_assoc _ _ _).symm
  | dropWrite =>
    rw [List.flatten_append, List.flatten_singleton]
    rfl
  | lockRead | lookup | dropRead | lockWrite | outside => exact (List.append_nil _).symm

omit [DecidableEq F] in
theorem map_move_stepOn (disk : Disk F) (move : Move F) :
    (move.stepOn disk).toList.map LoadStep.move = [move].filter Move.isLoadStep := by
  cases move <;> rfl

/-- Every step of a load that a run makes is noted, in its turn, and nothing else is. -/
theorem noted_run {first : TldRegistry} {disk : Disk F} {moves : List (Move F)}
    (hrun : (hotReload lib json globalConfig first disk).Run moves s) :
    (s.loads.flatten ++ s.steps).map LoadStep.move = moves.filter Move.isLoadStep := by
  refine Machine.Run.invariant (P := fun moves s =>
    (s.loads.flatten ++ s.steps).map LoadStep.move = moves.filter Move.isLoadStep) rfl ?_ hrun
  intro moves s move s' _ ih hstep
  rw [noted_step (hot_step hstep), List.map_append, ih, map_move_stepOn, List.filter_append]

/-- A step is noted with the disk that it has met. -/
theorem noted_disk {first : TldRegistry} {disk : Disk F} {moves earlier : List (Move F)}
    (hrun : (hotReload lib json globalConfig first disk).Run moves s) {move : Move F}
    {t : HotState F} (hturn : earlier ++ [move] <+: moves)
    (ht : (hotReload lib json globalConfig first disk).Run earlier t) {step : LoadStep F}
    (hstep : move.stepOn t.disk = some step) :
    (s.loads.flatten ++ s.steps)[(earlier.filter Move.isLoadStep).length]? = some step := by
  revert hturn
  refine Machine.Run.invariant (P := fun moves s => earlier ++ [move] <+: moves →
    (s.loads.flatten ++ s.steps)[(earlier.filter Move.isLoadStep).length]? = some step)
    (fun hnil => by simp at hnil) ?_ hrun
  intro moves s last s' hbefore ih hlast hturn
  rw [noted_step (hot_step hlast)]
  rcases List.prefix_concat_iff.mp hturn with heq | hshort
  · obtain ⟨rfl, hmove⟩ := List.append_inj' heq rfl
    obtain rfl : move = last := by simpa using hmove
    obtain rfl := hbefore.unique ht
    rw [← noted_run hbefore, List.length_map, List.getElem?_append_right (Nat.le_refl _),
      Nat.sub_self, hstep]
    rfl
  · have hnoted := ih hshort
    rw [List.getElem?_append_left (List.getElem?_eq_some_iff.mp hnoted).1, hnoted]

variable {registry : TldRegistry} {answers : Answers} {req : HttpRequest} {cleanTld : Str}

theorem verifyRecord_not_blacklisted {networkId : Str} {dhtBytes : Bytes} {e : AtlasError}
    (h : verifyRecord lib networkId dhtBytes = .error e) : e ≠ .tldBlacklisted := by
  unfold verifyRecord at h
  split at h
  · cases h
    exact nofun
  · split at h
    · cases h
      exact nofun
    · split at h
      · cases h
        exact nofun
      · cases h

theorem recordsOf_not_blacklisted {zone : DnsZone} {subdomain : Str} {e : AtlasError}
    (h : recordsOf zone subdomain = .error e) : e ≠ .tldBlacklisted := by
  unfold recordsOf at h
  split at h
  · cases h
  · split at h
    · split at h
      · cases h
      · cases h
        exact nofun
    · cases h
      exact nofun

theorem targetsOf_not_blacklisted {zone : DnsZone} {subdomain : Str} {e : AtlasError}
    (h : targetsOf zone subdomain = .error e) : e ≠ .tldBlacklisted := by
  unfold targetsOf at h
  split at h
  · rename_i hrecords
    cases h
    exact recordsOf_not_blacklisted hrecords
  · split at h
    · cases h
      exact nofun
    · cases h

theorem readBody_not_blacklisted {body : Option Bytes} {e : AtlasError}
    (h : readBody body = .error e) : e ≠ .tldBlacklisted := by
  unfold readBody at h
  split at h
  · split at h
    · cases h
    · cases h
      exact nofun
  · cases h
    exact nofun

/-- A request that gets as far as a swarm is not turned down as blacklisted. -/
theorem routed_not_blacklisted {r : Route} (hroute : route registry req = .ok r) :
    (handleProxyRequest lib globalConfig registry answers req).result ≠
      .error .tldBlacklisted := by
  intro hresult
  cases hswarm : answers.swarm with
  | false => simp [handleProxyRequest, hroute, hswarm] at hresult
  | true =>
    cases hrecord : answers.record with
    | sendFailed => simp [handleProxyRequest, hroute, hswarm, hrecord] at hresult
    | dropped => simp [handleProxyRequest, hroute, hswarm, hrecord, notInDht] at hresult
    | answered value =>
      cases value with
      | none => simp [handleProxyRequest, hroute, hswarm, hrecord, notInDht] at hresult
      | some dhtBytes =>
        cases hzone : verifyRecord lib r.config.networkId dhtBytes with
        | error e =>
          have heq : e = .tldBlacklisted := by
            simpa [handleProxyRequest, hroute, hswarm, hrecord, hzone, bind, Except.bind]
              using hresult
          exact verifyRecord_not_blacklisted hzone heq
        | ok zone =>
          cases htargets : targetsOf zone r.subdomain with
          | error e =>
            have heq : e = .tldBlacklisted := by
              simpa [handleProxyRequest, hroute, hswarm, hrecord, hzone, htargets, bind,
                Except.bind] using hresult
            exact targetsOf_not_blacklisted htargets heq
          | ok targets =>
            cases hbody : readBody req.body with
            | error e =>
              have heq : e = .tldBlacklisted := by
                simpa [handleProxyRequest, hroute, hswarm, hrecord, hzone, htargets, hbody, bind,
                  Except.bind] using hresult
              exact readBody_not_blacklisted hbody heq
            | ok body =>
              simp only [handleProxyRequest, hroute, hswarm, hrecord, hzone, htargets, hbody,
                bind, Except.bind, pure, Except.pure, if_true] at hresult
              exact absurd (failover_error hresult) (by simp)

/-- A request with a key is answered as blacklisted exactly when the registry it read
has nothing under the key. -/
theorem blacklisted_iff (hkey : lookupKey req = .ok cleanTld) :
    (handleProxyRequest lib globalConfig registry answers req).result = .error .tldBlacklisted ↔
      registry.getConfig cleanTld = none := by
  obtain ⟨fullDomain, hdomain, htld⟩ : ∃ fullDomain,
      fullDomainOf req.headers = .ok fullDomain ∧ tldOf fullDomain = .ok cleanTld := by
    cases hdomain : fullDomainOf req.headers with
    | error e => simp [lookupKey, hdomain, bind, Except.bind] at hkey
    | ok fullDomain =>
      exact ⟨fullDomain, rfl, by simpa [lookupKey, hdomain, bind, Except.bind] using hkey⟩
  constructor
  · intro hresult
    cases hroute : route registry req with
    | ok r => exact absurd hresult (routed_not_blacklisted hroute)
    | error e =>
      obtain rfl : e = .tldBlacklisted := by simpa [handleProxyRequest, hroute] using hresult
      by_contra hfound
      obtain ⟨config, hconfig⟩ := Option.ne_none_iff_exists'.mp hfound
      cases hsplit : extractBaseDomainAndSubdomain fullDomain cleanTld <;>
        simp [route, hdomain, htld, hconfig, hsplit, bind, Except.bind] at hroute
  · intro hnone
    have hroute : route registry req = .error .tldBlacklisted := by
      simp [route, hdomain, htld, hnone, bind, Except.bind]
    simp [handleProxyRequest, hroute]

/-- However requests and the steps of reloads are interleaved, the registries of the
history are the first one and what one load after another made of it, each with the steps
that the run has made for it, on the disks it met, from the check to the last entry of the
listing. Each lookup reads the registry that was there after as many loads as had been
finished, and a TLD that is in it both before and after a load is not answered as
blacklisted around that load. -/
theorem hot_reload_atomic {first : TldRegistry} {disk : Disk F} {moves : List (Move F)}
    (hrun : (hotReload lib json globalConfig first disk).Run moves s) :
    (((s.loads.flatten ++ s.steps).map LoadStep.move = moves.filter Move.isLoadStep ∧
        ∀ earlier move t, earlier ++ [move] <+: moves →
          (hotReload lib json globalConfig first disk).Run earlier t →
          ∀ step, move.stepOn t.disk = some step →
            (s.loads.flatten ++ s.steps)[(earlier.filter Move.isLoadStep).length]? =
              some step) ∧
      [first] <+: s.lock.history ∧ s.lock.history.length = s.loads.length + 1 ∧
      ∀ n old new, s.lock.history[n]? = some old → s.lock.history[n + 1]? = some new →
        ∃ steps, s.loads[n]? = some steps ∧
          CompleteLoad json globalConfig globalConfig.networksDir old steps new) ∧
    (∀ served ∈ s.log, ∃ registry, s.lock.history[served.loads]? = some registry ∧
      served.config = registry.getConfig served.cleanTld ∧
      served.handled = handleProxyRequest lib globalConfig registry served.answers served.req ∧
      (served.handled.result = .error .tldBlacklisted ↔ served.config = none)) ∧
    ∀ n old new, s.lock.history[n]? = some old → s.lock.history[n + 1]? = some new →
      ∀ tld, old.getConfig tld ≠ none → new.getConfig tld ≠ none →
        ∀ served ∈ s.log, served.cleanTld = tld → served.loads = n ∨ served.loads = n + 1 →
          served.handled.result ≠ .error .tldBlacklisted := by
  have htracked := tracked_run hrun
  refine ⟨⟨⟨noted_run hrun, fun _ _ _ hturn ht _ hstep => noted_disk hrun hturn ht hstep⟩,
    started_run hrun, htracked.counted, htracked.evolves⟩,
    fun served hserved => ?_, ?_⟩
  · obtain ⟨hkey, registry, hhistory, hconfig, hhandled⟩ := htracked.served served hserved
    refine ⟨registry, hhistory, hconfig, hhandled, ?_⟩
    rw [hhandled, hconfig]
    exact blacklisted_iff hkey
  · rintro n old new hold hnew tld hinOld hinNew served hserved rfl hloads hresult
    obtain ⟨hkey, registry, hhistory, -, hhandled⟩ := htracked.served served hserved
    rw [hhandled, blacklisted_iff hkey] at hresult
    rcases hloads with rfl | hnext
    · obtain rfl : registry = old := Option.some.inj (hhistory.symm.trans hold)
      exact hinOld hresult
    · rw [hnext, hnew] at hhistory
      obtain rfl : new = registry := Option.some.inj hhistory
      exact hinNew hresult

/-- The daemon with the registry of one network file, as it was at the start. -/
def kinReload : Machine (HotState Str) (Move Str) :=
  hotReload sampleLibraries (jsonOf [("main", "kin")]) openConfig
    (loadNetworks "networks" ["kin.json"] [("main", "kin")] kinDisk) kinDisk

/-- A reload between two requests for the network. -/
def kinMoves : List (Move Str) :=
  [.lockRead 0 (requestFor "a.kin"), .lookup 0 revealAnswered, .dropRead 0, .lockWrite,
    .check (directory "networks" ["kin.json"]), .list (directory "networks" ["kin.json"]),
    .entry (directory "networks" ["kin.json"]), .dropWrite, .lockRead 0 (requestFor "b.kin"),
    .lookup 0 revealAnswered]

theorem kinMoves_run : (kinReload.exec kinMoves).isSome = true := by decide +kernel

theorem hot_reload_atomic_kin :
    ((kinReload.exec kinMoves).get kinMoves_run).log.map (fun served => served.loads) = [0, 1] ∧
    ∀ served ∈ ((kinReload.exec kinMoves).get kinMoves_run).log, ∃ registry,
      ((kinReload.exec kinMoves).get kinMoves_run).lock.history[served.loads]? = some registry ∧
      served.config = registry.getConfig served.cleanTld ∧
      served.handled =
        handleProxyRequest sampleLibraries openConfig registry served.answers served.req ∧
      (served.handled.result = .error .tldBlacklisted ↔ served.config = none) :=
  ⟨by decide +kernel, (hot_reload_atomic (kinReload.run_get kinMoves kinMoves_run)).2.1⟩

end KineticAtlas.HotReload
