import KineticAtlas.Provenance
import KineticAtlas.RequestOrigins
import KineticAtlas.NodeBootstrap

/-!
The daemon as a whole: the disk, the updater and the shared registry on one side, the tasks of
the requests, the manager and the nodes on the other. They meet where a handler looks its TLD
up. However the two sides are interleaved, all content that a client is answered with, and
every node that is started, goes back to a network whose bytes can be trusted; a node is
started for one request, with what the DNS gave for the network of that request.
-/
namespace KineticAtlas.WholeDaemon

open Library Library.Texts Library.Runs Library.Files KineticAtlas.Types HostSplit Registry
  RegistryLoad HotReload Provenance SwarmManager SwarmLifetime HandlerTask RequestSystem
  RequestChannels RequestOrigins DaemonConfig
open ProxyHandler (HttpRequest HttpResponse Answers route Route Verifies)
open NodeBootstrap (discovered Sourced)
open Library.Json (Value)
open Updater (oneSignature syncedConfig signedRound)

variable {F Reveal Key : Type}

structure WholeState (F : Type) where
  daemon : DaemonState F
  requests : System

/-- A lookup hands its request on as a task; a request without a key is turned down before it
would read the registry. -/
inductive WholeInput (F : Type)
  | daemon (input : Input F)
  | lookup (id : ℕ)
  | malformed (req : HttpRequest)
  | request (action : SystemAction)

/-- A handler that is handed on as a task is not answered in one go. -/
def noAnswers : Answers := ⟨false, .sendFailed, fun _ => .error [], fun _ => .sendFailed⟩

def isLookup : Input F → Bool
  | .hot (.lookup _ _) => true
  | _ => false

def isAccept : SystemAction → Bool
  | .accept _ _ => true
  | _ => false

/-- What an input is to the one side. -/
def daemonInput : WholeInput F → Option (Input F)
  | .daemon input => some input
  | .lookup id => some (.hot (.lookup id noAnswers))
  | .malformed _ => none
  | .request _ => none

variable [DecidableEq F]

def wholeStep (lib : ProxyHandler.Libraries Reveal) (keys : Updater.Libraries Key)
    (json : Registry.Json) (config : AtlasConfig) (parsePeerId : Str → Option PeerId)
    (s : WholeState F) : WholeInput F → Option (WholeState F)
  | .daemon input =>
    if isLookup input then none
    else (daemonStep lib keys json config s.daemon input).map fun daemon =>
      { s with daemon := daemon }
  | .lookup id =>
    match s.daemon.hot.handlers id with
    | .holding req _ => do
      let daemon ← daemonStep lib keys json config s.daemon (.hot (.lookup id noAnswers))
      let requests ← systemStep lib config parsePeerId s.requests
        (.accept s.daemon.hot.lock.value req)
      pure ⟨daemon, requests⟩
    | _ => none
  | .malformed req =>
    match lookupKey req with
    | .error _ =>
      (systemStep lib config parsePeerId s.requests (.accept .new req)).map fun requests =>
        { s with requests := requests }
    | .ok _ => none
  | .request action =>
    if isAccept action then none
    else (systemStep lib config parsePeerId s.requests action).map fun requests =>
      { s with requests := requests }

def wholeDaemon (lib : ProxyHandler.Libraries Reveal) (keys : Updater.Libraries Key)
    (json : Registry.Json) (config : AtlasConfig) (loaded : Loading F)
    (parsePeerId : Str → Option PeerId) : Machine (WholeState F) (WholeInput F) where
  init := ⟨(daemon lib keys json config loaded).init, (system lib config parsePeerId).init⟩
  step := wholeStep lib keys json config parsePeerId

variable {lib : ProxyHandler.Libraries Reveal} {keys : Updater.Libraries Key}
  {json : Registry.Json} {config : AtlasConfig} {loaded : Loading F}
  {parsePeerId : Str → Option PeerId} {globalConfig : AtlasConfig}
  {inputs : List (WholeInput F)} {s s' : WholeState F} {r r' : System}
  {actions : List SystemAction}

/-- The requests in the order in which they were accepted, each with its registry. -/
def accepts (actions : List SystemAction) : List (TldRegistry × HttpRequest) :=
  actions.filterMap fun action =>
    match action with
    | .accept registry req => some (registry, req)
    | _ => none

theorem accepts_snoc {action : SystemAction} (h : isAccept action = false) :
    accepts (actions ++ [action]) = accepts actions := by
  cases action with
  | accept => cases h
  | _ => simp [accepts]

theorem accepts_mem {registry : TldRegistry} {req : HttpRequest} {c : ℕ}
    (h : (accepts actions)[c]? = some (registry, req)) : .accept registry req ∈ actions := by
  obtain ⟨action, haction, hsome⟩ := List.mem_filterMap.mp (List.mem_of_getElem? h)
  cases action <;> cases hsome
  exact haction

theorem accepts_later {x : TldRegistry × HttpRequest} {c : ℕ} (h : (accepts actions)[c]? = some x)
    (action : SystemAction) : (accepts (actions ++ [action]))[c]? = some x := by
  have hsplit : accepts (actions ++ [action]) = accepts actions ++ accepts [action] :=
    List.filterMap_append ..
  rw [hsplit, List.getElem?_append_left (List.getElem?_eq_some_iff.mp h).1]
  exact h

/-- A task is the request of its number, with its registry. -/
structure FromAccepted (actions : List SystemAction) (r : System) : Prop where
  counted : r.accepted = (accepts actions).length
  tasks : ∀ c t, r.tasks c = some t → (accepts actions)[c]? = some (t.registry, t.req)
  finished : ∀ f ∈ r.finished, (accepts actions)[f.c]? = some (f.registry, f.req)

theorem FromAccepted.snoc (h : FromAccepted actions r) (action : SystemAction)
    (hother : isAccept action = false) : FromAccepted (actions ++ [action]) r := by
  constructor <;> rw [accepts_snoc hother]
  exacts [h.counted, h.tasks, h.finished]

/-- A task that goes on is still the same request. -/
theorem FromAccepted.advance (h : FromAccepted actions r) {c : ℕ} {t : TaskState}
    (ht : r.tasks c = some t) (w : World) (q : Question) (next : AnswerTo (slotOf q) → Task)
    (a : AnswerTo (slotOf q)) :
    FromAccepted actions (setTask { r with world := w } c (some (t.advance q next a))) := by
  refine ⟨h.counted, fun c' t' ht' => ?_, h.finished⟩
  by_cases hc : c' = c
  · subst c'
    obtain rfl : t.advance q next a = t' := by simpa [RequestSystem.setTask] using ht'
    exact h.tasks c t ht
  · exact h.tasks c' t' (by simpa [RequestSystem.setTask, hc] using ht')

theorem FromAccepted.dropTask (h : FromAccepted actions r) (c : ℕ) (w : World) :
    FromAccepted actions (setTask { r with world := w } c none) := by
  refine ⟨h.counted, fun c' t ht => ?_, h.finished⟩
  by_cases hc : c' = c
  · simp [RequestSystem.setTask, hc] at ht
  · exact h.tasks c' t (by simpa [RequestSystem.setTask, hc] using ht)

theorem FromAccepted.returned (h : FromAccepted actions r) (evs : List Event) {w : World} :
    FromAccepted actions { r with world := w, tasks := evs.foldl returned r.tasks } := by
  refine ⟨h.counted, ?_, h.finished⟩
  refine List.foldlRecOn evs RequestSystem.returned (motive := fun tasks => ∀ c t,
    tasks c = some t → (accepts actions)[c]? = some (t.registry, t.req)) h.tasks ?_
  intro tasks htasks ev _ c' t ht
  cases ev with
  | returned c tld config sender =>
    by_cases hc : c' = c
    · subst c'
      obtain ⟨t', ht', rfl⟩ : ∃ t', tasks c = some t' ∧ t'.answerSwarm sender.isSome = t := by
        simpa [RequestSystem.returned] using ht
      have hsame : (t'.answerSwarm sender.isSome).registry = t'.registry ∧
          (t'.answerSwarm sender.isSome).req = t'.req := by
        unfold TaskState.answerSwarm
        split <;> exact ⟨rfl, rfl⟩
      rw [hsame.1, hsame.2]
      exact htasks c t' ht'
    · exact htasks c' t (by simpa [RequestSystem.returned, hc] using ht)
  | spawned | collected => exact htasks c' t ht

theorem accepted_step {action : SystemAction} (h : FromAccepted actions r)
    (hstep : SystemStep lib globalConfig parsePeerId r action r') :
    FromAccepted (actions ++ [action]) r' := by
  cases hstep with
  | accepted registry req =>
    have hnew : accepts (actions ++ [.accept registry req]) =
        accepts actions ++ [(registry, req)] := by simp [accepts]
    refine ⟨?_, fun c t ht => ?_, fun f hf => accepts_later (h.finished f hf) _⟩
    · rw [hnew, List.length_append, List.length_singleton, ← h.counted]
      rfl
    · by_cases hc : c = r.accepted
      · subst c
        obtain rfl : (⟨registry, req, HandlerTask.handler lib globalConfig registry req, []⟩ :
            TaskState) = t := by simpa [RequestSystem.setTask] using ht
        rw [hnew, h.counted, List.getElem?_concat_length]
      · exact accepts_later (h.tasks c t (by simpa [RequestSystem.setTask, hc] using ht)) _
  | called c =>
    have hmore := h.snoc (.call c) rfl
    exact ⟨hmore.counted, hmore.tasks, hmore.finished⟩
  | sent c =>
    have hmore := h.snoc (.send c) rfl
    exact ⟨hmore.counted, hmore.tasks, hmore.finished⟩
  | node n input =>
    have hmore := h.snoc (.node n input) rfl
    exact ⟨hmore.counted, hmore.tasks, hmore.finished⟩
  | managed a m evs => exact (h.snoc _ rfl).returned evs
  | unsent c t _ q next _ a w ht => exact (h.snoc _ rfl).advance ht w q next a
  | answered c t _ _ _ q next a w ht => exact (h.snoc _ rfl).advance ht w q next a
  | unanswered c t q next a w ht => exact (h.snoc _ rfl).advance ht w q next a
  | gateway c t reply q next a ht => exact (h.snoc _ rfl).advance ht r.world q next a
  | finished c t outcome ht =>
    have hmore := (h.snoc (.finish c) rfl).dropTask c
      ((worldStep parsePeerId r.world (.done c)).getD r.world)
    refine ⟨hmore.counted, hmore.tasks, fun f hf => ?_⟩
    rcases List.mem_append.mp hf with hold | hlast
    · exact hmore.finished f hold
    · obtain rfl := List.mem_singleton.mp hlast
      exact (h.snoc _ rfl).tasks c t ht
  | cancelled c => exact (h.snoc _ rfl).dropTask c _

theorem accepted_run (hrun : (system lib globalConfig parsePeerId).Run actions r) :
    FromAccepted actions r := by
  refine Machine.Run.invariant (P := FromAccepted) ?_ ?_ hrun
  · exact ⟨rfl, fun c t ht => (by cases ht), fun f hf => absurd hf List.not_mem_nil⟩
  · exact fun _ _ _ _ _ h hstep => accepted_step h (system_step hstep)

/-- The request of that number asks for a swarm of the network, under the TLD it looked up. -/
def AskedFor (actions : List SystemAction) (c : ℕ) (tld : Str) (network : NetworkConfig) : Prop :=
  ∃ registry req route', (accepts actions)[c]? = some (registry, req) ∧
    route registry req = .ok route' ∧ tld = route'.cleanTld ∧ network = route'.config

theorem AskedFor.snoc {c : ℕ} {tld : Str} {network : NetworkConfig}
    (h : AskedFor actions c tld network) (action : SystemAction) :
    AskedFor (actions ++ [action]) c tld network := by
  obtain ⟨registry, req, route', haccept, hroute⟩ := h
  exact ⟨registry, req, route', accepts_later haccept action, hroute⟩

/-- The manager runs on its own. Each of its calls is that of an accepted request, and what a
call is resolved to comes from outside. -/
structure Managed (actions : List SystemAction) (m : ManagerState) (is : List Action)
    (h : History) : Prop where
  run : manager.Run is h
  state : h.state = m
  called : ∀ c tld network, .call c tld network ∈ is → AskedFor actions c tld network
  resolved : ∀ c found, .resolve c found ∈ is → .manager (.resolve c found) ∈ actions

theorem Managed.next {m m' : ManagerState} {is : List Action} {h : History} {a : Action}
    {evs : List Event} (hm : Managed actions m is h) (hstep : managerStep m a = some (m', evs))
    (hcall : ∀ c tld network, a = .call c tld network → AskedFor actions c tld network)
    (hresolve : ∀ c found, a = .resolve c found → .manager (.resolve c found) ∈ actions) :
    ∃ is' h', Managed actions m' is' h' := by
  have hstep' : manager.step h a = some ⟨m', h.log ++ evs⟩ := by
    simp [manager, hm.state, hstep]
  refine ⟨is ++ [a], _, hm.run.snoc hstep', rfl, fun c tld network hmem => ?_,
    fun c found hmem => ?_⟩
  · rcases List.mem_append.mp hmem with hold | hlast
    · exact hm.called c tld network hold
    · exact hcall c tld network (List.mem_singleton.mp hlast).symm
  · rcases List.mem_append.mp hmem with hold | hlast
    · exact hm.resolved c found hold
    · exact hresolve c found (List.mem_singleton.mp hlast).symm

theorem managed_run (hrun : (system lib globalConfig parsePeerId).Run actions r) :
    ∃ is h, Managed actions r.world.manager is h := by
  refine Machine.Run.invariant (P := fun actions r =>
    ∃ is h, Managed actions r.world.manager is h) ?_ ?_ hrun
  · exact ⟨[], manager.init, .nil, rfl, fun c tld network h => absurd h List.not_mem_nil,
      fun c found h => absurd h List.not_mem_nil⟩
  intro actions r action r' hrun ⟨is, h, hold⟩ hstep
  have hm : Managed (actions ++ [action]) r.world.manager is h :=
    ⟨hold.run, hold.state, fun c tld network hc => (hold.called c tld network hc).snoc action,
      fun c found hc => List.mem_append_left _ (hold.resolved c found hc)⟩
  have hkeep : r'.world.manager = r.world.manager →
      ∃ is h, Managed (actions ++ [action]) r'.world.manager is h :=
    fun hsame => ⟨is, h, hsame ▸ hm⟩
  cases system_step hstep with
  | accepted | gateway => exact hkeep rfl
  | called c t tld network next w ht hrest hw =>
    obtain ⟨hfree, hw⟩ := Option.ite_none_left_eq_some.mp hw
    obtain ⟨⟨m, evs⟩, hcalled, rfl⟩ := Option.map_eq_some_iff.mp hw
    show ∃ is h, Managed (actions ++ [.call c]) (evs.foldl applyEvent _).manager is h
    rw [manager_foldl]
    refine hm.next hcalled (fun c' tld' network' ha => ?_) fun _ _ ha => by cases ha
    obtain ⟨rfl, rfl, rfl⟩ := Action.call.inj ha
    obtain ⟨route', hroute, hown⟩ := own_question ((faithful_run hrun).tasks c t ht) hrest
    exact AskedFor.snoc ⟨t.registry, t.req, route', (accepted_run hrun).tasks c t ht, hroute,
      hown⟩ _
  | managed a m evs hown hmanaged =>
    show ∃ is h, Managed (actions ++ [.manager a]) (evs.foldl applyEvent _).manager is h
    rw [manager_foldl]
    refine hm.next hmanaged (fun c tld network ha => ?_) fun c found ha => by simp [ha]
    subst a
    cases hown
  | sent c t handler q next act cmd w loop _ hhandler _ hact hcmd hloop hw =>
    obtain ⟨stage, -, rfl⟩ := world_send hhandler hact hcmd hloop hw
    exact hkeep rfl
  | unsent c t handler q next act a w _ hhandler _ hended _ =>
    exact (handler_running hrun hhandler hended).elim
  | answered c t handler rx reply q next a w _ _ _ _ _ _ hw =>
    exact hkeep (atHandler_answered hw).manager
  | unanswered c t q next a w _ _ _ hw => exact hkeep (atHandler_unanswered hw).manager
  | finished c t outcome _ _ => exact hkeep atHandler_done.manager
  | cancelled c =>
    show ∃ is h, Managed (actions ++ [.cancel c]) (worldWithout parsePeerId r.world c).manager is h
    rw [manager_without]
    cases hcall : r.world.manager.calls c with
    | none =>
      have hsame : setCall r.world.manager c none = r.world.manager := by
        simp [setCall, ← hcall]
      rw [hsame]
      exact ⟨is, h, hm⟩
    | some call =>
      have habandon : managerStep r.world.manager (.abandon c) =
          some (setCall r.world.manager c none, []) := by
        simp [managerStep, hcall]
      exact hm.next habandon (fun _ _ _ ha => by cases ha) fun _ _ ha => by cases ha
  | node n input w hw =>
    exact hkeep (world_node hw).2

/-- What an input can do to the whole. -/
inductive WholeStep (lib : ProxyHandler.Libraries Reveal) (keys : Updater.Libraries Key)
    (json : Registry.Json) (config : AtlasConfig) (parsePeerId : Str → Option PeerId)
    (s : WholeState F) : WholeInput F → WholeState F → Prop
  | daemon (input : Input F) (daemon : DaemonState F) :
      daemonStep lib keys json config s.daemon input = some daemon →
      WholeStep lib keys json config parsePeerId s (.daemon input) { s with daemon := daemon }
  | lookup (id : ℕ) (req : HttpRequest) (cleanTld : Str) (daemon : DaemonState F)
      (requests : System) :
      s.daemon.hot.handlers id = .holding req cleanTld →
      daemonStep lib keys json config s.daemon (.hot (.lookup id noAnswers)) = some daemon →
      systemStep lib config parsePeerId s.requests (.accept s.daemon.hot.lock.value req) =
        some requests →
      WholeStep lib keys json config parsePeerId s (.lookup id) ⟨daemon, requests⟩
  | malformed (req : HttpRequest) (e : AtlasError) (requests : System) :
      lookupKey req = .error e →
      systemStep lib config parsePeerId s.requests (.accept .new req) = some requests →
      WholeStep lib keys json config parsePeerId s (.malformed req)
        { s with requests := requests }
  | request (action : SystemAction) (requests : System) :
      isAccept action = false →
      systemStep lib config parsePeerId s.requests action = some requests →
      WholeStep lib keys json config parsePeerId s (.request action)
        { s with requests := requests }

theorem whole_step {input : WholeInput F}
    (h : wholeStep lib keys json config parsePeerId s input = some s') :
    WholeStep lib keys json config parsePeerId s input s' := by
  cases input with
  | daemon input =>
    simp only [wholeStep] at h
    split at h
    · cases h
    · obtain ⟨daemon, hdaemon, rfl⟩ := Option.map_eq_some_iff.mp h
      exact .daemon input daemon hdaemon
  | lookup id =>
    simp only [wholeStep] at h
    split at h
    · rename_i req cleanTld hholding
      obtain ⟨daemon, hdaemon, h⟩ := Option.bind_eq_some_iff.mp h
      obtain ⟨requests, hrequests, hs'⟩ := Option.bind_eq_some_iff.mp h
      obtain rfl := Option.some.inj hs'
      exact .lookup id req cleanTld daemon requests hholding hdaemon hrequests
    · cases h
  | malformed req =>
    simp only [wholeStep] at h
    split at h
    · rename_i e hkey
      obtain ⟨requests, hrequests, rfl⟩ := Option.map_eq_some_iff.mp h
      exact .malformed req e requests hkey hrequests
    · cases h
  | request action =>
    simp only [wholeStep] at h
    split at h
    · cases h
    · rename_i haccept
      obtain ⟨requests, hrequests, rfl⟩ := Option.map_eq_some_iff.mp h
      exact .request action requests (by simpa using haccept) hrequests

/-- The disk, the updater and the registry do not notice what becomes of the requests. -/
theorem daemon_run
    (hrun : (wholeDaemon lib keys json config loaded parsePeerId).Run inputs s) :
    (daemon lib keys json config loaded).Run (inputs.filterMap daemonInput) s.daemon := by
  refine Machine.Run.invariant (P := fun inputs s =>
    (daemon lib keys json config loaded).Run (inputs.filterMap daemonInput) s.daemon) .nil ?_ hrun
  intro inputs s input s' _ ih hstep
  rw [List.filterMap_append]
  cases whole_step hstep with
  | daemon input daemon hdaemon => exact ih.snoc hdaemon
  | lookup id req cleanTld daemon requests _ hdaemon _ => exact ih.snoc hdaemon
  | malformed | request =>
    show (daemon lib keys json config loaded).Run (inputs.filterMap daemonInput ++ []) s.daemon
    rw [List.append_nil]
    exact ih

theorem history_daemonStep {d d' : DaemonState F} {input : Input F}
    (h : daemonStep lib keys json config d input = some d') :
    ∀ registry ∈ d.hot.lock.history, registry ∈ d'.hot.lock.history := by
  cases daemon_step h with
  | hot move hot fetched _ hhot => exact (history_step (hot_step hhot)).subset
  | fetch | foreign => exact fun _ hmem => hmem

/-- A registry that the daemon has shared, unless the request has no key for it. -/
def Shared (d : DaemonState F) (registry : TldRegistry) (req : HttpRequest) : Prop :=
  registry ∈ d.hot.lock.history ∨ ∃ e, lookupKey req = .error e

/-- While a handler holds its guard it sees a registry that was left by a load. -/
theorem shared_of_holding {d : DaemonState F} {is : List (Input F)} {id : ℕ} {req : HttpRequest}
    {cleanTld : Str} (hrun : (daemon lib keys json config loaded).Run is d)
    (hholding : d.hot.handlers id = .holding req cleanTld) :
    Shared d d.hot.lock.value req := by
  obtain ⟨moves, hmoves⟩ := hot_run hrun
  have htracked := tracked_run hmoves
  have hreader : id ∈ d.hot.lock.readers := htracked.guarded id (by simp [hholding])
  have hsettled := Locks.RwLock.settled_index (htracked.sound.reader_sees hreader)
  exact Or.inl (List.mem_of_getElem? hsettled)

theorem run_next {action : SystemAction} (hrun : (system lib config parsePeerId).Run actions r)
    (hstep : systemStep lib config parsePeerId r action = some r') :
    (system lib config parsePeerId).Run (actions ++ [action]) r' :=
  hrun.snoc hstep

/-- The requests run on their own, each with a registry that was shared. -/
structure OnTheirOwn (lib : ProxyHandler.Libraries Reveal) (config : AtlasConfig)
    (parsePeerId : Str → Option PeerId) (inputs : List (WholeInput F)) (s : WholeState F)
    (actions : List SystemAction) : Prop where
  run : (system lib config parsePeerId).Run actions s.requests
  shared : ∀ registry req, .accept registry req ∈ actions → Shared s.daemon registry req
  others : ∀ action ∈ actions, isAccept action = false → .request action ∈ inputs

theorem requests_run
    (hrun : (wholeDaemon lib keys json config loaded parsePeerId).Run inputs s) :
    ∃ actions, OnTheirOwn lib config parsePeerId inputs s actions := by
  refine Machine.Run.invariant (P := fun inputs s =>
    ∃ actions, OnTheirOwn lib config parsePeerId inputs s actions) ?_ ?_ hrun
  · exact ⟨[], .nil, fun _ _ h => absurd h List.not_mem_nil, fun _ h => absurd h List.not_mem_nil⟩
  intro inputs s input s' hrun ⟨actions, hactions, hshared, hothers⟩ hstep
  have hlater : ∀ action ∈ actions, isAccept action = false →
      .request action ∈ inputs ++ [input] :=
    fun action hmem hother => List.mem_append_left _ (hothers action hmem hother)
  have haccept : ∀ registry req, ∀ action ∈ actions ++ [.accept registry req],
      isAccept action = false → .request action ∈ inputs ++ [input] := by
    intro registry req action hmem hother
    rcases List.mem_append.mp hmem with hold | hlast
    · exact hlater action hold hother
    · rw [List.mem_singleton.mp hlast] at hother
      cases hother
  cases whole_step hstep with
  | daemon input daemon hdaemon =>
    exact ⟨actions, hactions, fun registry req hmem =>
      (hshared registry req hmem).imp_left (history_daemonStep hdaemon registry), hlater⟩
  | lookup id req cleanTld daemon requests hholding hdaemon hrequests =>
    refine ⟨actions ++ [.accept s.daemon.hot.lock.value req], run_next hactions hrequests,
      fun registry req' hmem => ?_, haccept _ _⟩
    refine Or.imp_left (history_daemonStep hdaemon registry) ?_
    rcases List.mem_append.mp hmem with hold | hlast
    · exact hshared registry req' hold
    · obtain ⟨rfl, rfl⟩ := SystemAction.accept.inj (List.mem_singleton.mp hlast)
      exact shared_of_holding (daemon_run hrun) hholding
  | malformed req e requests hkey hrequests =>
    refine ⟨actions ++ [.accept .new req], run_next hactions hrequests,
      fun registry req' hmem => ?_, haccept _ _⟩
    rcases List.mem_append.mp hmem with hold | hlast
    · exact hshared registry req' hold
    · obtain ⟨rfl, rfl⟩ := SystemAction.accept.inj (List.mem_singleton.mp hlast)
      exact Or.inr ⟨e, hkey⟩
  | request action requests hother hrequests =>
    refine ⟨actions ++ [action], run_next hactions hrequests, fun registry req hmem => ?_,
      fun action' hmem hother' => ?_⟩
    · rcases List.mem_append.mp hmem with hold | hlast
      · exact hshared registry req hold
      · rw [← List.mem_singleton.mp hlast] at hother
        cases hother
    · rcases List.mem_append.mp hmem with hold | hlast
      · exact hlater action' hold hother'
      · rw [List.mem_singleton.mp hlast]
        exact List.mem_append_right _ (List.mem_singleton.mpr rfl)

/-- A network that passed the lists, for the TLD that its requests have, and was read from
bytes that can be trusted. -/
structure TrustedNetwork (keys : Updater.Libraries Key) (json : Registry.Json)
    (config : AtlasConfig) (disk : Disk F) (inputs : List (Input F)) (cleanTld : Str)
    (network : NetworkConfig) : Prop where
  keyed : cleanTld = '.' :: trimStartDots network.tld
  admitted : isExcluded config (trimStartDots network.tld) = false
  read : ∃ bytes, networkOf json bytes = some network ∧ Trusted keys config disk inputs bytes

variable {serde : SerdeJson} {fs loadFs : FileSystem F} {disk : Disk F}

/-- Whatever an accepted request asks a swarm for can be trusted. -/
theorem trusted_of_asked (hdefault : WritesOut serde (toJson (defaultConfig fs)))
    (hwrites : ∀ tld proxyPort proxyIp, WritesOut serde (announcement tld proxyPort proxyIp))
    (hstart : start fs loadFs serde disk = .ok (config, loaded))
    {is : List (Input F)} {d : DaemonState F}
    (hrun : (daemon lib keys (registryJson serde) config loaded).Run is d)
    {registry : TldRegistry} {req : HttpRequest} {route' : Route}
    (hshared : Shared d registry req) (hroute : route registry req = .ok route') :
    TrustedNetwork keys (registryJson serde) config disk is route'.cleanTld route'.config := by
  obtain ⟨hdomain, htld, hconfig, -⟩ := ProxyHandler.route_parts hroute
  have hkey : lookupKey req = .ok route'.cleanTld := by
    simpa [lookupKey, hdomain, bind, Except.bind] using htld
  have hmem : registry ∈ d.hot.lock.history := by
    refine hshared.resolve_right ?_
    rintro ⟨e, he⟩
    cases hkey.symm.trans he
  have hsilent := silent_of_writesOut hwrites
  obtain ⟨hfirst, hdisk⟩ := start_sourced keys hdefault hsilent hstart
  obtain ⟨hadmitted, hbytes⟩ := (sourced_run hsilent hfirst hdisk hrun).history registry hmem
  obtain ⟨hkeyed, hexcluded⟩ := hadmitted _ _ hconfig
  obtain ⟨bytes, htrusted, hread⟩ := hbytes _ _ hconfig
  refine ⟨hkeyed, hexcluded, bytes, hread, ?_⟩
  exact htrusted.resolve_right fun hnone => by simp [hread] at hnone

/-- The node was started for the request of that number: with the id of the network it asked
for, the addresses of that network, and what the DNS gave to its own call. -/
structure StartedFor (actions : List SystemAction) (node : Node) (c : ℕ)
    (network : NetworkConfig) (resolved : List Str) : Prop where
  asked : AskedFor actions c node.tld network
  resolve : .manager (.resolve c resolved) ∈ actions
  networkId : node.networkId = network.networkId
  bootstrapNodes : node.bootstrapNodes = network.bootstrapNodes ++ discovered network resolved

/-- However the requests, the updater, other programs, the collector and the nodes are
interleaved: a client is answered with content only after a record has verified for a trusted
network of its TLD, found by its own query for its own base domain on a node of that TLD; and
every node is started for a request, with the id and the addresses of the trusted network that
the request has looked up, and with what the DNS gave to the call of that request. -/
theorem content_and_nodes_trusted (hdefault : WritesOut serde (toJson (defaultConfig fs)))
    (hwrites : ∀ tld proxyPort proxyIp, WritesOut serde (announcement tld proxyPort proxyIp))
    (hstart : start fs loadFs serde disk = .ok (config, loaded))
    (hrun : (wholeDaemon lib keys (registryJson serde) config loaded parsePeerId).Run inputs s) :
    (∀ f ∈ s.requests.finished, ∀ response, f.outcome = .ok response →
      ∃ route' record, route f.registry f.req = .ok route' ∧
        TrustedNetwork keys (registryJson serde) config disk (inputs.filterMap daemonInput)
          route'.cleanTld route'.config ∧
        Verifies lib route'.config.networkId record ∧
        RecordOrigin s.requests f.c route'.cleanTld route'.baseDomain (some record)) ∧
    ∃ actions, OnTheirOwn lib config parsePeerId inputs s actions ∧
      ∀ node ∈ s.requests.world.manager.nodes, ∃ c network resolved,
        StartedFor actions node c network resolved ∧
        .request (.manager (.resolve c resolved)) ∈ inputs ∧
        TrustedNetwork keys (registryJson serde) config disk (inputs.filterMap daemonInput)
          node.tld network := by
  obtain ⟨actions, hown⟩ := requests_run hrun
  have hdaemon := daemon_run hrun
  constructor
  · intro f hf response hresponse
    obtain ⟨route', record, hroute, hverifies, horigin⟩ :=
      content_from_own_record hown.run f hf response hresponse
    refine ⟨route', record, hroute, ?_, hverifies, horigin⟩
    exact trusted_of_asked hdefault hwrites hstart hdaemon
      (hown.shared _ _ (accepts_mem ((accepted_run hown.run).finished f hf))) hroute
  · refine ⟨actions, hown, fun node hnode => ?_⟩
    obtain ⟨is, h, hmanaged⟩ := managed_run hown.run
    obtain ⟨c, network, resolved, hcall, hresolve, hid, hnodes⟩ :=
      (NodeBootstrap.sourced_run hmanaged.run).nodes node (hmanaged.state ▸ hnode)
    have hasked := hmanaged.called c node.tld network hcall
    have houtside := hmanaged.resolved c resolved hresolve
    refine ⟨c, network, resolved, ⟨hasked, houtside, hid, hnodes⟩,
      hown.others _ houtside rfl, ?_⟩
    obtain ⟨registry, req, route', haccept, hroute, htld, rfl⟩ := hasked
    rw [htld]
    exact trusted_of_asked hdefault hwrites hstart hdaemon
      (hown.shared _ _ (accepts_mem haccept)) hroute

/-- The libraries of the sample request, for the network that is fetched. -/
def mainLibraries : ProxyHandler.Libraries Bytes :=
  { ProxyHandler.sampleLibraries with
    verifySignature := fun _ networkId =>
      if networkId = "main".toList then .ok () else .error "signature mismatch" }

def servedWhole : Machine (WholeState Str) (WholeInput Str) :=
  wholeDaemon mainLibraries oneSignature (registryJson sampleSerde) syncedConfig syncedLoading
    fun _ => none

/-- A fetch with its reload, then a request for what was fetched. -/
def servedInputs : List (WholeInput Str) :=
  ([.fetch signedRound.fs signedRound.server, .hot .lockWrite, .hot (.check kinListing),
    .hot (.list kinListing), .hot (.entry kinListing), .hot (.entry kinListing), .hot .dropWrite,
    .hot (.lockRead 0 (ProxyHandler.requestFor "a.kin"))] : List (Input Str)).map .daemon ++
  .lookup 0 :: .daemon (.hot (.dropRead 0)) ::
  ([.call 0, .manager (.firstLock 0), .manager (.resolve 0 []), .manager (.secondLock 0 true),
    .send 0, .node 0 (.recv ⟨7, false, 0⟩),
    .node 0 (.event (.outboundQueryProgressed 7 (.foundRecord ProxyHandler.revealOfA))),
    .answered 0, .gateway 0 (.ok ⟨200, [], ProxyHandler.ascii "hello"⟩), .finish 0] :
      List SystemAction).map .request

theorem servedInputs_run : (servedWhole.exec servedInputs).isSome = true := by decide +kernel

def served : WholeState Str := (servedWhole.exec servedInputs).get servedInputs_run

theorem content_and_nodes_trusted_served :
    (∃ f ∈ served.requests.finished, ∃ route' record, route f.registry f.req = .ok route' ∧
      TrustedNetwork oneSignature (registryJson sampleSerde) syncedConfig syncedDisk
        (servedInputs.filterMap daemonInput) route'.cleanTld route'.config ∧
      Verifies mainLibraries route'.config.networkId record ∧
      RecordOrigin served.requests f.c route'.cleanTld route'.baseDomain (some record)) ∧
    ∃ actions c network resolved, StartedFor actions ⟨".kin", "main", []⟩ c network resolved ∧
      TrustedNetwork oneSignature (registryJson sampleSerde) syncedConfig syncedDisk
        (servedInputs.filterMap daemonInput) ".kin" network := by
  have hrun : (wholeDaemon mainLibraries oneSignature (registryJson sampleSerde) syncedConfig
      syncedLoading fun _ => none).Run servedInputs served :=
    servedWhole.run_get servedInputs servedInputs_run
  obtain ⟨hcontent, actions, -, hnodes⟩ := content_and_nodes_trusted sampleSerde_default
    sampleSerde_announcement syncedStart_ok hrun
  have hfinished : served.requests.finished.map (fun f => f.outcome.isOk) = [true] := by
    decide +kernel
  have hnode : (⟨".kin", "main", []⟩ : Node) ∈ served.requests.world.manager.nodes := by
    decide +kernel
  constructor
  · obtain ⟨f, hf, hok⟩ := List.map_eq_singleton_iff.mp hfinished
    have hmem : f ∈ served.requests.finished := hf ▸ List.mem_singleton.mpr rfl
    cases houtcome : f.outcome with
    | error e => simp [houtcome, Except.isOk, Except.toBool] at hok
    | ok response => exact ⟨f, hmem, hcontent f hmem response houtcome⟩
  · obtain ⟨c, network, resolved, hstarted, -, htrusted⟩ := hnodes _ hnode
    exact ⟨actions, c, network, resolved, hstarted, htrusted⟩

end KineticAtlas.WholeDaemon
