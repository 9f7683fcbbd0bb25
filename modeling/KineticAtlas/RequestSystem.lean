import KineticAtlas.HandlerTask
import KineticAtlas.SwarmLifetime

/-!
All requests of the daemon at once (proxy.rs, swarm_manager.rs, network.rs). The handlers
of any number of requests run as tasks in the world of swarms: they wait for the manager,
for the replies of nodes and for gateways, and may be abandoned by their clients at any of
these points. However they are interleaved with each other and with the nodes, every
request that is answered is answered as the handler would as one function, and no command
has failed to reach its node.
-/
namespace KineticAtlas.RequestSystem

open Library.Texts Library.Runs Library.Dialogues KineticAtlas.Types Registry NodeLoop
  SwarmManager SwarmLifetime HandlerTask
open ProxyHandler (HttpRequest HttpResponse Libraries ChannelAnswer Answers handleProxyRequest
  route Route)
open NodeAccounting (respOf)

/-- A request under way: what is left of its handler and what it has been answered so far. -/
structure TaskState where
  registry : TldRegistry
  req : HttpRequest
  rest : Task
  trace : Trace

/-- A request that has been answered. -/
structure Finished where
  c : ℕ
  registry : TldRegistry
  req : HttpRequest
  trace : Trace
  outcome : Outcome

/-- A command with its handler and the channel it was put into. -/
structure Sent where
  c : ℕ
  channel : ℕ
  command : NetworkCommand ℕ

/-- A command with the node that has taken it and the ids of the calls it made for it. -/
structure Taken where
  node : ℕ
  command : NetworkCommand ℕ
  answers : Libp2pAnswers

/-- The world with the tasks in it, numbered as accepted, and a record of what went through
the nodes. -/
structure System where
  world : World
  tasks : ℕ → Option TaskState
  accepted : ℕ
  finished : List Finished
  sent : List Sent
  taken : List Taken
  events : List (ℕ × SwarmEvent)

/-- The client of `cancel` has gone, so that its task is dropped. -/
inductive SystemAction
  | accept (registry : TldRegistry) (req : HttpRequest)
  | call (c : ℕ)
  | manager (a : Action)
  | send (c : ℕ)
  | answered (c : ℕ)
  | unanswered (c : ℕ)
  | gateway (c : ℕ) (reply : Except Str HttpResponse)
  | finish (c : ℕ)
  | cancel (c : ℕ)
  | node (n : ℕ) (input : NodeInput)

def TaskState.advance (t : TaskState) (q : Question) (next : AnswerTo (slotOf q) → Task)
    (a : AnswerTo (slotOf q)) : TaskState :=
  { t with rest := next a, trace := t.trace ++ [⟨q, a⟩] }

def TaskState.answerSwarm (t : TaskState) (connected : Bool) : TaskState :=
  match t.rest with
  | .ask (.swarm tld config) next => t.advance (.swarm tld config) next connected
  | _ => t

/-- A call that returns goes on in its task. -/
def returned (tasks : ℕ → Option TaskState) : Event → ℕ → Option TaskState
  | .returned c _ _ sender =>
    Function.update tasks c ((tasks c).map fun t => t.answerSwarm sender.isSome)
  | _ => tasks

def commandOf : Question → Option (ℕ → NetworkCommand ℕ)
  | .record domain => some (.getRecord domain)
  | .peer _ peerId request => some (.sendProxyRequest peerId request)
  | _ => none

def sendAction (c : ℕ) : Question → Option WorldAction
  | .record domain => some (.getRecord c domain)
  | .peer _ peerId request => some (.sendProxyRequest c peerId request)
  | _ => none

def notSent : (q : Question) → Option (AnswerTo (slotOf q))
  | .record _ => some (.sendFailed : ChannelAnswer Bytes)
  | .peer _ _ _ => some (.sendFailed : ChannelAnswer ProxyResponse)
  | .swarm _ _ => none
  | .gateway _ _ _ _ _ => none

def notAnswered : (q : Question) → Option (AnswerTo (slotOf q))
  | .record _ => some (.dropped : ChannelAnswer Bytes)
  | .peer _ _ _ => some (.dropped : ChannelAnswer ProxyResponse)
  | .swarm _ _ => none
  | .gateway _ _ _ _ _ => none

def replyTo : (q : Question) → Reply ℕ → Option (AnswerTo (slotOf q))
  | .record _, .record _ value => some (.answered value : ChannelAnswer Bytes)
  | .peer _ _ _, .proxy _ response => some (.answered response : ChannelAnswer ProxyResponse)
  | _, _ => none

def gatewayReply (reply : Except Str HttpResponse) :
    (q : Question) → Option (AnswerTo (slotOf q))
  | .gateway _ _ _ _ _ => some reply
  | .record _ => none
  | .peer _ _ _ => none
  | .swarm _ _ => none

/-- A task at a question goes on with an answer that there may be. -/
def TaskState.answer (t : TaskState) (a : (q : Question) → Option (AnswerTo (slotOf q))) :
    Option TaskState :=
  match t.rest with
  | .ask q next => (a q).map (t.advance q next)
  | .done _ => none

def TaskState.question (t : TaskState) : Option Question :=
  match t.rest with
  | .ask q _ => some q
  | .done _ => none

def setTask (s : System) (c : ℕ) (t : Option TaskState) : System :=
  { s with tasks := Function.update s.tasks c t }

/-- What waits in a channel is taken in order. -/
def takenBy (w : World) (n : ℕ) : NodeInput → List Taken
  | .recv answers => (w.queues n).head?.toList.map fun cmd => ⟨n, cmd, answers⟩
  | .event _ => []

def eventsOf (n : ℕ) : NodeInput → List (ℕ × SwarmEvent)
  | .recv _ => []
  | .event event => [(n, event)]

/-- The calls of the manager go on by themselves; they are entered and left by tasks. -/
def isOwn : Action → Bool
  | .call _ _ _ => false
  | .abandon _ => false
  | _ => true

variable {Reveal : Type}

/-- A send succeeds while the node's loop runs and its channel has room. -/
def sendStep (parsePeerId : Str → Option PeerId) (s : System) (c : ℕ) (t : TaskState)
    (h : Handler) : Option System := do
  let q ← t.question
  let act ← sendAction c q
  let cmd ← commandOf q
  let w ← worldStep parsePeerId s.world act
  match s.world.loops h.channel with
  | some _ =>
    pure { s with
      world := w
      sent := s.sent ++ [⟨c, h.channel, cmd s.world.oneshots⟩] }
  | none =>
    let t ← t.answer notSent
    pure (setTask { s with world := w } c t)

def systemStep (lib : Libraries Reveal) (globalConfig : AtlasConfig)
    (parsePeerId : Str → Option PeerId) (s : System) : SystemAction → Option System
  | .accept registry req =>
    let t := ⟨registry, req, handler lib globalConfig registry req, []⟩
    some (setTask { s with accepted := s.accepted + 1 } s.accepted (some t))
  | .call c => do
    let t ← s.tasks c
    match t.question with
    | some (.swarm tld config) =>
      let w ← worldStep parsePeerId s.world (.manager (.call c tld config))
      pure { s with world := w }
    | _ => none
  | .manager a =>
    if isOwn a then
      (managerStep s.world.manager a).map fun next =>
        { s with
          world := next.2.foldl applyEvent { s.world with manager := next.1 }
          tasks := next.2.foldl returned s.tasks }
    else none
  | .send c => do
    let t ← s.tasks c
    let h ← s.world.handlers c
    sendStep parsePeerId s c t h
  | .answered c => do
    let t ← s.tasks c
    let h ← s.world.handlers c
    let rx ← h.stage.awaits
    let reply ← s.world.replies.find? fun reply => respOf reply = rx
    let t' ← t.answer fun q => replyTo q reply
    let w ← worldStep parsePeerId s.world (.answered c)
    pure (setTask { s with world := w } c t')
  | .unanswered c => do
    let t ← s.tasks c
    let t' ← t.answer notAnswered
    let w ← worldStep parsePeerId s.world (.unanswered c)
    pure (setTask { s with world := w } c t')
  | .gateway c reply => do
    let t ← s.tasks c
    let t' ← t.answer (gatewayReply reply)
    pure (setTask s c t')
  | .finish c => do
    let t ← s.tasks c
    match t.rest with
    | .done outcome =>
      let w := (worldStep parsePeerId s.world (.done c)).getD s.world
      pure (setTask
        { s with
          world := w
          finished := s.finished ++ [⟨c, t.registry, t.req, t.trace, outcome⟩] } c none)
    | _ => none
  | .cancel c => do
    let _ ← s.tasks c
    let w := (worldStep parsePeerId s.world (.manager (.abandon c))).getD s.world
    let w := (worldStep parsePeerId w (.done c)).getD w
    pure (setTask { s with world := w } c none)
  | .node n input =>
    (worldStep parsePeerId s.world (.node n input)).map fun w =>
      { s with
        world := w
        taken := s.taken ++ takenBy s.world n input
        events := s.events ++ eventsOf n input }

def system (lib : Libraries Reveal) (globalConfig : AtlasConfig)
    (parsePeerId : Str → Option PeerId) : Machine System SystemAction where
  init := ⟨(world parsePeerId).init, fun _ => none, 0, [], [], [], []⟩
  step := systemStep lib globalConfig parsePeerId

variable {lib : Libraries Reveal} {globalConfig : AtlasConfig}
  {parsePeerId : Str → Option PeerId} {s s' : System} {actions : List SystemAction}

/-- The world once a handler and its call are gone. -/
def worldWithout (parsePeerId : Str → Option PeerId) (w : World) (c : ℕ) : World :=
  let w := (worldStep parsePeerId w (.manager (.abandon c))).getD w
  (worldStep parsePeerId w (.done c)).getD w

/-- What the steps can do. -/
inductive SystemStep (lib : Libraries Reveal) (globalConfig : AtlasConfig)
    (parsePeerId : Str → Option PeerId) (s : System) : SystemAction → System → Prop
  | accepted (registry : TldRegistry) (req : HttpRequest) :
      SystemStep lib globalConfig parsePeerId s (.accept registry req)
        (setTask { s with accepted := s.accepted + 1 } s.accepted
          (some ⟨registry, req, handler lib globalConfig registry req, []⟩))
  | called (c : ℕ) (t : TaskState) (tld : Str) (config : NetworkConfig)
      (next : Bool → Task) (w : World) :
      s.tasks c = some t → t.rest = .ask (.swarm tld config) next →
      worldStep parsePeerId s.world (.manager (.call c tld config)) = some w →
      SystemStep lib globalConfig parsePeerId s (.call c) { s with world := w }
  | managed (a : Action) (m : ManagerState) (evs : List Event) :
      isOwn a = true → managerStep s.world.manager a = some (m, evs) →
      SystemStep lib globalConfig parsePeerId s (.manager a)
        { s with
          world := evs.foldl applyEvent { s.world with manager := m }
          tasks := evs.foldl returned s.tasks }
  | sent (c : ℕ) (t : TaskState) (h : Handler) (q : Question)
      (next : AnswerTo (slotOf q) → Task) (act : WorldAction) (cmd : ℕ → NetworkCommand ℕ)
      (w : World) (loop : NodeState ℕ) :
      s.tasks c = some t → s.world.handlers c = some h → t.rest = .ask q next →
      sendAction c q = some act → commandOf q = some cmd →
      s.world.loops h.channel = some loop → worldStep parsePeerId s.world act = some w →
      SystemStep lib globalConfig parsePeerId s (.send c)
        { s with
          world := w
          sent := s.sent ++ [⟨c, h.channel, cmd s.world.oneshots⟩] }
  | unsent (c : ℕ) (t : TaskState) (h : Handler) (q : Question)
      (next : AnswerTo (slotOf q) → Task) (act : WorldAction) (a : AnswerTo (slotOf q))
      (w : World) :
      s.tasks c = some t → s.world.handlers c = some h → t.rest = .ask q next →
      s.world.loops h.channel = none → worldStep parsePeerId s.world act = some w →
      SystemStep lib globalConfig parsePeerId s (.send c)
        (setTask { s with world := w } c (some (t.advance q next a)))
  | answered (c : ℕ) (t : TaskState) (h : Handler) (rx : ℕ) (reply : Reply ℕ) (q : Question)
      (next : AnswerTo (slotOf q) → Task) (a : AnswerTo (slotOf q)) (w : World) :
      s.tasks c = some t → s.world.handlers c = some h → h.stage.awaits = some rx →
      (s.world.replies.find? fun reply => respOf reply = rx) = some reply →
      t.rest = .ask q next → replyTo q reply = some a →
      worldStep parsePeerId s.world (.answered c) = some w →
      SystemStep lib globalConfig parsePeerId s (.answered c)
        (setTask { s with world := w } c (some (t.advance q next a)))
  | unanswered (c : ℕ) (t : TaskState) (q : Question) (next : AnswerTo (slotOf q) → Task)
      (a : AnswerTo (slotOf q)) (w : World) :
      s.tasks c = some t → t.rest = .ask q next → notAnswered q = some a →
      worldStep parsePeerId s.world (.unanswered c) = some w →
      SystemStep lib globalConfig parsePeerId s (.unanswered c)
        (setTask { s with world := w } c (some (t.advance q next a)))
  | gateway (c : ℕ) (t : TaskState) (reply : Except Str HttpResponse) (q : Question)
      (next : AnswerTo (slotOf q) → Task) (a : AnswerTo (slotOf q)) :
      s.tasks c = some t → t.rest = .ask q next → gatewayReply reply q = some a →
      SystemStep lib globalConfig parsePeerId s (.gateway c reply)
        (setTask s c (some (t.advance q next a)))
  | finished (c : ℕ) (t : TaskState) (outcome : Outcome) :
      s.tasks c = some t → t.rest = .done outcome →
      SystemStep lib globalConfig parsePeerId s (.finish c)
        (setTask
          { s with
            world := (worldStep parsePeerId s.world (.done c)).getD s.world
            finished := s.finished ++ [⟨c, t.registry, t.req, t.trace, outcome⟩] } c none)
  | cancelled (c : ℕ) :
      SystemStep lib globalConfig parsePeerId s (.cancel c)
        (setTask { s with world := worldWithout parsePeerId s.world c } c none)
  | node (n : ℕ) (input : NodeInput) (w : World) :
      worldStep parsePeerId s.world (.node n input) = some w →
      SystemStep lib globalConfig parsePeerId s (.node n input)
        { s with
          world := w
          taken := s.taken ++ takenBy s.world n input
          events := s.events ++ eventsOf n input }

theorem answer_some {t t' : TaskState} {a : (q : Question) → Option (AnswerTo (slotOf q))}
    (h : t.answer a = some t') :
    ∃ q next v, t.rest = .ask q next ∧ a q = some v ∧ t' = t.advance q next v := by
  unfold TaskState.answer at h
  split at h
  · rename_i q next hrest
    obtain ⟨v, hv, rfl⟩ := Option.map_eq_some_iff.mp h
    exact ⟨q, next, v, hrest, hv, rfl⟩
  · cases h

theorem question_some {t : TaskState} {q : Question} (h : t.question = some q) :
    ∃ next, t.rest = .ask q next := by
  unfold TaskState.question at h
  split at h
  · rename_i q' next hrest
    obtain rfl := Option.some.inj h
    exact ⟨next, hrest⟩
  · cases h

theorem step_of_send {c : ℕ} {t : TaskState} {h : Handler} (ht : s.tasks c = some t)
    (hh : s.world.handlers c = some h) (hstep : sendStep parsePeerId s c t h = some s') :
    SystemStep lib globalConfig parsePeerId s (.send c) s' := by
  obtain ⟨q, hq, hstep⟩ := Option.bind_eq_some_iff.mp hstep
  obtain ⟨act, hact, hstep⟩ := Option.bind_eq_some_iff.mp hstep
  obtain ⟨cmd, hcmd, hstep⟩ := Option.bind_eq_some_iff.mp hstep
  obtain ⟨w, hw, hstep⟩ := Option.bind_eq_some_iff.mp hstep
  obtain ⟨next, hrest⟩ := question_some hq
  split at hstep
  · rename_i loop hloop
    obtain rfl := Option.some.inj hstep
    exact .sent c t h q next act cmd w loop ht hh hrest hact hcmd hloop hw
  · rename_i hloop
    obtain ⟨t', ht', hs'⟩ := Option.bind_eq_some_iff.mp hstep
    obtain rfl := Option.some.inj hs'
    obtain ⟨q', next', a, hrest', -, rfl⟩ := answer_some ht'
    exact .unsent c t h q' next' act a w ht hh hrest' hloop hw

theorem system_step {action : SystemAction}
    (h : systemStep lib globalConfig parsePeerId s action = some s') :
    SystemStep lib globalConfig parsePeerId s action s' := by
  cases action with
  | accept registry req =>
    obtain rfl := Option.some.inj h
    exact .accepted registry req
  | call c =>
    obtain ⟨t, ht, h⟩ := Option.bind_eq_some_iff.mp h
    split at h
    · rename_i tld config hquestion
      obtain ⟨w, hw, hs'⟩ := Option.bind_eq_some_iff.mp h
      obtain rfl := Option.some.inj hs'
      obtain ⟨next, hrest⟩ := question_some hquestion
      exact .called c t tld config next w ht hrest hw
    · cases h
  | manager a =>
    simp only [systemStep] at h
    split at h
    · rename_i hown
      obtain ⟨⟨m, evs⟩, hm, rfl⟩ := Option.map_eq_some_iff.mp h
      exact .managed a m evs hown hm
    · cases h
  | send c =>
    obtain ⟨t, ht, h⟩ := Option.bind_eq_some_iff.mp h
    obtain ⟨hh, hhandler, h⟩ := Option.bind_eq_some_iff.mp h
    exact step_of_send ht hhandler h
  | answered c =>
    obtain ⟨t, ht, h⟩ := Option.bind_eq_some_iff.mp h
    obtain ⟨hh, hhandler, h⟩ := Option.bind_eq_some_iff.mp h
    obtain ⟨rx, hrx, h⟩ := Option.bind_eq_some_iff.mp h
    obtain ⟨reply, hreply, h⟩ := Option.bind_eq_some_iff.mp h
    obtain ⟨t', ht', h⟩ := Option.bind_eq_some_iff.mp h
    obtain ⟨w, hw, hs'⟩ := Option.bind_eq_some_iff.mp h
    obtain rfl := Option.some.inj hs'
    obtain ⟨q, next, a, hrest, ha, rfl⟩ := answer_some ht'
    exact .answered c t hh rx reply q next a w ht hhandler hrx hreply hrest ha hw
  | unanswered c =>
    obtain ⟨t, ht, h⟩ := Option.bind_eq_some_iff.mp h
    obtain ⟨t', ht', h⟩ := Option.bind_eq_some_iff.mp h
    obtain ⟨w, hw, hs'⟩ := Option.bind_eq_some_iff.mp h
    obtain rfl := Option.some.inj hs'
    obtain ⟨q, next, a, hrest, ha, rfl⟩ := answer_some ht'
    exact .unanswered c t q next a w ht hrest ha hw
  | gateway c reply =>
    obtain ⟨t, ht, h⟩ := Option.bind_eq_some_iff.mp h
    obtain ⟨t', ht', hs'⟩ := Option.bind_eq_some_iff.mp h
    obtain rfl := Option.some.inj hs'
    obtain ⟨q, next, a, hrest, ha, rfl⟩ := answer_some ht'
    exact .gateway c t reply q next a ht hrest ha
  | finish c =>
    obtain ⟨t, ht, h⟩ := Option.bind_eq_some_iff.mp h
    split at h
    · rename_i outcome hrest
      obtain rfl := Option.some.inj h
      exact .finished c t outcome ht hrest
    · cases h
  | cancel c =>
    obtain ⟨t, -, h⟩ := Option.bind_eq_some_iff.mp h
    obtain rfl := Option.some.inj h
    exact .cancelled c
  | node n input =>
    obtain ⟨w, hw, rfl⟩ := Option.map_eq_some_iff.mp h
    exact .node n input w hw

theorem worldStep_own {a : Action} {m : ManagerState} {evs : List Event} {w : World}
    (hown : isOwn a = true) (hm : managerStep w.manager a = some (m, evs)) :
    worldStep parsePeerId w (.manager a) = some (evs.foldl applyEvent { w with manager := m }) := by
  have hfree : inUse w a = false := by
    cases a with
    | call c tld config => cases hown
    | firstLock | resolve | secondLock | abandon | tick | advance => rfl
  rw [worldStep, hfree, hm]
  rfl

theorem run_step {is : List WorldAction} {w w' : World} {a : WorldAction}
    (hrun : (world parsePeerId).Run is w) (h : worldStep parsePeerId w a = some w') :
    ∃ is', (world parsePeerId).Run is' w' :=
  ⟨is ++ [a], hrun.snoc h⟩

/-- A step that may not be possible leads on in any case. -/
theorem run_getD {is : List WorldAction} {w : World} (hrun : (world parsePeerId).Run is w)
    (a : WorldAction) :
    ∃ is', (world parsePeerId).Run is' ((worldStep parsePeerId w a).getD w) := by
  cases hstep : worldStep parsePeerId w a with
  | none => exact ⟨is, hrun⟩
  | some w' => exact run_step hrun hstep

/-- The tasks move in the world of handlers, managers and nodes. -/
theorem world_run (hrun : (system lib globalConfig parsePeerId).Run actions s) :
    ∃ is, (world parsePeerId).Run is s.world := by
  refine Machine.Run.invariant (P := fun _ s => ∃ is, (world parsePeerId).Run is s.world)
    ⟨[], .nil⟩ ?_ hrun
  rintro _ s action s' - ⟨is, his⟩ hstep
  cases system_step hstep with
  | accepted => exact ⟨is, his⟩
  | called c t tld config next w _ _ hw => exact run_step his hw
  | managed a m evs hown hm => exact run_step his (worldStep_own hown hm)
  | sent c t h q next act cmd w loop _ _ _ _ _ _ hw => exact run_step his hw
  | unsent c t h q next act a w _ _ _ _ hw => exact run_step his hw
  | answered c t h rx reply q next a w _ _ _ _ _ _ hw => exact run_step his hw
  | unanswered c t q next a w _ _ _ hw => exact run_step his hw
  | gateway => exact ⟨is, his⟩
  | finished c t outcome _ _ => exact run_getD his (.done c)
  | cancelled c =>
    obtain ⟨is', his'⟩ := run_getD his (.manager (.abandon c))
    exact run_getD his' (.done c)
  | node n input w hw => exact run_step his hw

theorem returned_none {evs : List Event} {tasks : ℕ → Option TaskState} {c : ℕ}
    (h : tasks c = none) : evs.foldl returned tasks c = none := by
  refine List.foldlRecOn evs returned (motive := fun tasks => tasks c = none) h ?_
  intro tasks hnone ev _
  cases ev with
  | returned c' tld config sender =>
    by_cases hc : c = c'
    · subst c'
      simp [returned, hnone]
    · simp [returned, hc, hnone]
  | spawned | collected => exact hnone

theorem numbered_step {action : SystemAction} (h : ∀ c, s.accepted ≤ c → s.tasks c = none)
    (hstep : SystemStep lib globalConfig parsePeerId s action s') :
    ∀ c, s'.accepted ≤ c → s'.tasks c = none := by
  -- a task that moves has its number already
  have hset : ∀ c t next, s.tasks c = some t → ∀ c', s.accepted ≤ c' →
      Function.update s.tasks c next c' = none := by
    intro c t next ht c' hc'
    have hne : c' ≠ c := by
      rintro rfl
      rw [h c' hc'] at ht
      cases ht
    rw [Function.update_of_ne hne]
    exact h c' hc'
  cases hstep with
  | accepted registry req =>
    intro c hc
    have hle : s.accepted + 1 ≤ c := hc
    have hne : c ≠ s.accepted := by omega
    simpa [setTask, hne] using h c (by omega)
  | called | sent | node => exact h
  | managed => exact fun c hc => returned_none (h c hc)
  | unsent c t _ _ _ _ _ _ ht => exact hset c t _ ht
  | answered c t _ _ _ _ _ _ _ ht => exact hset c t _ ht
  | unanswered c t _ _ _ _ ht => exact hset c t _ ht
  | gateway c t _ _ _ _ ht => exact hset c t _ ht
  | finished c t _ ht => exact hset c t _ ht
  | cancelled c =>
    intro c' hc'
    by_cases hne : c' = c
    · simp [setTask, hne]
    · simpa [setTask, hne] using h c' hc'

theorem numbered_run (hrun : (system lib globalConfig parsePeerId).Run actions s) :
    ∀ c, s.accepted ≤ c → s.tasks c = none := by
  refine Machine.Run.invariant (P := fun _ s => ∀ c, s.accepted ≤ c → s.tasks c = none)
    (fun _ _ => rfl) ?_ hrun
  intro _ s action s' _ h hstep
  exact numbered_step h (system_step hstep)

/-- The answer is another than that a command could not be sent. -/
def Delivered (e : Exchange slotOf AnswerTo) : Prop := notSent e.question ≠ some e.answer

def Played (lib : Libraries Reveal) (globalConfig : AtlasConfig) (registry : TldRegistry)
    (req : HttpRequest) (trace : Trace) (rest : Task) : Prop :=
  (handler lib globalConfig registry req).Plays trace rest ∧ ∀ e ∈ trace, Delivered e

theorem Played.snoc {registry : TldRegistry} {req : HttpRequest} {trace : Trace} {q : Question}
    {next : AnswerTo (slotOf q) → Task} {a : AnswerTo (slotOf q)}
    (h : Played lib globalConfig registry req trace (.ask q next)) (ha : notSent q ≠ some a) :
    Played lib globalConfig registry req (trace ++ [⟨q, a⟩]) (next a) := by
  refine ⟨.snoc a h.1, fun e he => ?_⟩
  rcases List.mem_append.mp he with hold | hlast
  · exact h.2 e hold
  · exact (List.mem_singleton.mp hlast) ▸ ha

def TaskState.Played (lib : Libraries Reveal) (globalConfig : AtlasConfig) (t : TaskState) :
    Prop :=
  RequestSystem.Played lib globalConfig t.registry t.req t.trace t.rest

theorem TaskState.Played.advance {t : TaskState} {q : Question}
    {next : AnswerTo (slotOf q) → Task} {a : AnswerTo (slotOf q)}
    (h : t.Played lib globalConfig) (hrest : t.rest = .ask q next) (ha : notSent q ≠ some a) :
    (t.advance q next a).Played lib globalConfig := by
  have hplayed : RequestSystem.Played lib globalConfig t.registry t.req t.trace (.ask q next) :=
    hrest ▸ h
  exact hplayed.snoc ha

theorem notSent_of_replyTo {q : Question} {reply : Reply ℕ} {a : AnswerTo (slotOf q)}
    (h : replyTo q reply = some a) : notSent q ≠ some a := by
  unfold replyTo at h
  split at h
  · obtain rfl := Option.some.inj h
    intro hfail
    cases hfail
  · obtain rfl := Option.some.inj h
    intro hfail
    cases hfail
  · cases h

theorem notSent_of_notAnswered {q : Question} {a : AnswerTo (slotOf q)}
    (h : notAnswered q = some a) : notSent q ≠ some a := by
  cases q with
  | record domain =>
    obtain rfl := Option.some.inj h
    intro hfail
    cases hfail
  | peer i peerId request =>
    obtain rfl := Option.some.inj h
    intro hfail
    cases hfail
  | swarm | gateway => cases h

theorem notSent_of_gatewayReply {q : Question} {reply : Except Str HttpResponse}
    {a : AnswerTo (slotOf q)} (h : gatewayReply reply q = some a) : notSent q ≠ some a := by
  cases q with
  | gateway => simp [notSent]
  | record | peer | swarm => cases h

structure Faithful (lib : Libraries Reveal) (globalConfig : AtlasConfig) (s : System) : Prop where
  tasks : ∀ c t, s.tasks c = some t → t.Played lib globalConfig
  finished : ∀ f ∈ s.finished,
    Played lib globalConfig f.registry f.req f.trace (.done f.outcome)

theorem tasks_update {P : TaskState → Prop} {tasks : ℕ → Option TaskState} {c : ℕ}
    {next : Option TaskState} (h : ∀ c t, tasks c = some t → P t)
    (hnext : ∀ t, next = some t → P t) :
    ∀ c' t, Function.update tasks c next c' = some t → P t := by
  intro c' t ht
  by_cases hc : c' = c
  · subst c'
    exact hnext t (by simpa using ht)
  · exact h c' t (by simpa [hc] using ht)

theorem Faithful.setTask (h : Faithful lib globalConfig s) (c : ℕ) {w : World} {t : TaskState}
    (ht : t.Played lib globalConfig) :
    Faithful lib globalConfig (setTask { s with world := w } c (some t)) := by
  refine ⟨tasks_update h.tasks fun t' ht' => ?_, h.finished⟩
  exact (Option.some.inj ht') ▸ ht

theorem played_answerSwarm {t : TaskState} (connected : Bool) (ht : t.Played lib globalConfig) :
    (t.answerSwarm connected).Played lib globalConfig := by
  unfold TaskState.answerSwarm
  split
  · rename_i tld config next hrest
    exact ht.advance hrest (by simp [notSent])
  · exact ht

theorem played_returned {evs : List Event} {tasks : ℕ → Option TaskState}
    (h : ∀ c t, tasks c = some t → t.Played lib globalConfig) :
    ∀ c t, evs.foldl returned tasks c = some t → t.Played lib globalConfig := by
  refine List.foldlRecOn evs returned
    (motive := fun tasks => ∀ c t, tasks c = some t → t.Played lib globalConfig) h ?_
  intro tasks htasks ev _
  cases ev with
  | returned c tld config sender =>
    refine tasks_update htasks fun t ht => ?_
    obtain ⟨t', ht', rfl⟩ := Option.map_eq_some_iff.mp ht
    exact played_answerSwarm _ (htasks c t' ht')
  | spawned | collected => exact htasks

theorem faithful_step {action : SystemAction}
    (hrun : (system lib globalConfig parsePeerId).Run actions s) (h : Faithful lib globalConfig s)
    (hstep : SystemStep lib globalConfig parsePeerId s action s') :
    Faithful lib globalConfig s' := by
  cases hstep with
  | accepted registry req =>
    refine ⟨tasks_update h.tasks fun t ht => ?_, h.finished⟩
    obtain rfl := Option.some.inj ht
    exact ⟨.nil, by simp⟩
  | called | sent | node => exact ⟨h.tasks, h.finished⟩
  | managed a m evs _ _ => exact ⟨played_returned h.tasks, h.finished⟩
  | unsent c t hc q next act a w ht hhandler _ hended _ =>
    -- the handler has a sender, so its node runs
    obtain ⟨is, his⟩ := world_run hrun
    obtain ⟨loop, hloop⟩ := (owned_run his).loop_running hhandler
    rw [hloop] at hended
    cases hended
  | answered c t _ rx reply q next a w ht _ _ _ hrest ha _ =>
    exact h.setTask c ((h.tasks c t ht).advance hrest (notSent_of_replyTo ha))
  | unanswered c t q next a w ht hrest ha _ =>
    exact h.setTask c ((h.tasks c t ht).advance hrest (notSent_of_notAnswered ha))
  | gateway c t reply q next a ht hrest ha =>
    exact h.setTask c ((h.tasks c t ht).advance hrest (notSent_of_gatewayReply ha))
  | finished c t outcome ht hrest =>
    refine ⟨tasks_update h.tasks fun t ht => (by cases ht), fun f hf => ?_⟩
    rcases List.mem_append.mp hf with hold | hlast
    · exact h.finished f hold
    · obtain rfl := List.mem_singleton.mp hlast
      have hplayed := h.tasks c t ht
      rw [TaskState.Played, hrest] at hplayed
      exact hplayed
  | cancelled c => exact ⟨tasks_update h.tasks fun t ht => (by cases ht), h.finished⟩

theorem faithful_run (hrun : (system lib globalConfig parsePeerId).Run actions s) :
    Faithful lib globalConfig s := by
  refine Machine.Run.invariant (P := fun _ s => Faithful lib globalConfig s) ?_ ?_ hrun
  · refine ⟨fun c t ht => ?_, fun f hf => absurd hf List.not_mem_nil⟩
    cases ht
  · intro _ s action s' hrun h hstep
    exact faithful_step hrun h (system_step hstep)

theorem record_delivered {trace : Trace} {oracle : ∀ s, AnswerTo s}
    (hdelivered : ∀ e ∈ trace, Delivered e) (hagrees : Agrees oracle trace)
    (hunasked : ∀ s ∉ slots trace, oracle s = unasked s) :
    (answersOf oracle).record ≠ .sendFailed := by
  by_cases hasked : Slot.record ∈ slots trace
  · obtain ⟨⟨q, a⟩, he, hq⟩ := List.mem_map.mp hasked
    cases q with
    | record domain =>
      have hne := hdelivered _ he
      intro hfail
      exact hne (congrArg some (hfail.symm.trans (hagrees _ he)))
    | swarm | gateway | peer => cases hq
  · intro hfail
    cases (hunasked _ hasked).symm.trans hfail

theorem peer_delivered {trace : Trace} {oracle : ∀ s, AnswerTo s}
    (hdelivered : ∀ e ∈ trace, Delivered e) (hagrees : Agrees oracle trace)
    (hunasked : ∀ s ∉ slots trace, oracle s = unasked s) (i : ℕ) :
    (answersOf oracle).peer i ≠ .sendFailed := by
  by_cases hasked : Slot.peer i ∈ slots trace
  · obtain ⟨⟨q, a⟩, he, hq⟩ := List.mem_map.mp hasked
    cases q with
    | peer j peerId request =>
      obtain rfl : j = i := Slot.peer.inj hq
      have hne := hdelivered _ he
      intro hfail
      exact hne (congrArg some (hfail.symm.trans (hagrees _ he)))
    | swarm | gateway | record => cases hq
  · intro hfail
    cases (hunasked _ hasked).symm.trans hfail

/-- However the requests are interleaved with each other, with the manager and with the
nodes, each one answered has done and returned what the handler does as one function on
the answers it was given; no command of it has failed to be sent. -/
theorem answered_as_handled (hrun : (system lib globalConfig parsePeerId).Run actions s) :
    ∀ f ∈ s.finished, ∃ oracle, Agrees oracle f.trace ∧
      handleProxyRequest lib globalConfig f.registry (answersOf oracle) f.req =
        ⟨f.trace.flatMap effectsOf, f.outcome⟩ ∧
      (answersOf oracle).record ≠ .sendFailed ∧ ∀ i, (answersOf oracle).peer i ≠ .sendFailed := by
  intro f hf
  obtain ⟨hplays, hdelivered⟩ := (faithful_run hrun).finished f hf
  obtain ⟨oracle, hagrees, hunasked, hhandled⟩ := handled_of_plays hplays
  exact ⟨oracle, hagrees, hhandled, record_delivered hdelivered hagrees hunasked,
    peer_delivered hdelivered hagrees hunasked⟩

/-- Two requests that meet at one node; the answers come in the other order. -/
def twoRequests : List SystemAction :=
  [.accept ProxyHandler.kinRegistry (ProxyHandler.requestFor "a.kin"),
    .accept ProxyHandler.kinRegistry (ProxyHandler.requestFor "b.kin"), .call 0, .call 1,
    .manager (.firstLock 0), .manager (.firstLock 1), .manager (.resolve 1 []),
    .manager (.resolve 0 []), .manager (.secondLock 1 true), .manager (.secondLock 0 true),
    .send 0, .send 1, .node 0 (.recv ⟨7, false, 0⟩), .node 0 (.recv ⟨8, false, 0⟩),
    .node 0 (.event (.outboundQueryProgressed 8 .other)), .answered 1, .finish 1,
    .node 0 (.event (.outboundQueryProgressed 7 (.foundRecord ProxyHandler.revealOfA))),
    .answered 0, .gateway 0 (.ok ⟨200, [], ProxyHandler.ascii "hello"⟩), .finish 0]

theorem answered_as_handled_two :
    ∃ s, (system ProxyHandler.sampleLibraries ProxyHandler.globalDefaults fun _ => none).Run
        twoRequests s ∧ s.finished.map Finished.c = [1, 0] ∧
      ∀ f ∈ s.finished, ∃ oracle, Agrees oracle f.trace ∧
        handleProxyRequest ProxyHandler.sampleLibraries ProxyHandler.globalDefaults f.registry
          (answersOf oracle) f.req = ⟨f.trace.flatMap effectsOf, f.outcome⟩ ∧
        (answersOf oracle).record ≠ .sendFailed ∧
          ∀ i, (answersOf oracle).peer i ≠ .sendFailed := by
  have hrun := (system ProxyHandler.sampleLibraries ProxyHandler.globalDefaults
    fun _ => none).run_get twoRequests (by decide +kernel)
  exact ⟨_, hrun, by decide +kernel, answered_as_handled hrun⟩

end KineticAtlas.RequestSystem
