import KineticAtlas.RequestStages
import Mathlib.Logic.Relation
import Mathlib.Data.Finset.Lattice.Fold

/-!
No request gets stuck (proxy.rs, swarm_manager.rs, network.rs). From every state that the
daemon can reach, each request under way can be brought to its answer by its own steps and
those of the nodes alone: no other request has to move, no lock has to be given back and no
channel to be emptied by anybody but its node.
-/
namespace KineticAtlas.RequestProgress

open Library.Texts Library.Runs Library.Dialogues KineticAtlas.Types Registry NodeLoop
  SwarmManager SwarmLifetime HandlerTask RequestSystem RequestChannels RequestOrigins
  RequestStages
open ProxyHandler (HttpRequest HttpResponse Libraries ChannelAnswer)
open NodeAccounting (respOf)

/-- What comes from outside: the addresses of the DNS tree, whether a node can be set up, what
a query finds and a peer responds, by their channels, and what gateways answer. -/
structure Outside where
  resolved : List Str
  newOk : Bool
  record : ℕ → QueryResult
  response : ℕ → Option ProxyResponse
  gateway : ℕ → Except Str HttpResponse

/-- The responder of the answer that a handler waits for is nowhere any more. -/
def Lost (w : World) (c : ℕ) : Prop :=
  ∃ handler rx, w.handlers c = some handler ∧ handler.stage.awaits = some rx ∧
    ¬ AtNode w handler.channel rx ∧ ∀ reply ∈ w.replies, respOf reply ≠ rx

/-- libp2p gives no id again that is in use. -/
structure Fresh (loop : NodeState ℕ) (answers : Libp2pAnswers) : Prop where
  query : loop.pendingQueries answers.queryId = none
  request : loop.pendingRequests answers.requestId = none

def settled (id : ℕ) : Option ProxyResponse → SwarmEvent
  | some response => .response id response
  | none => .outboundFailure id

/-- The steps of one request, of its call of the manager, and of the nodes. -/
inductive Serves (outside : Outside) (c : ℕ) (s : System) : SystemAction → Prop
  | call : Serves outside c s (.call c)
  | firstLock : Serves outside c s (.manager (.firstLock c))
  | resolve : Serves outside c s (.manager (.resolve c outside.resolved))
  | secondLock : Serves outside c s (.manager (.secondLock c outside.newOk))
  | send : Serves outside c s (.send c)
  | answered : Serves outside c s (.answered c)
  | unanswered : Lost s.world c → Serves outside c s (.unanswered c)
  | gateway (i : ℕ) : Serves outside c s (.gateway c (outside.gateway i))
  | finish : Serves outside c s (.finish c)
  | recv (n : ℕ) (loop : NodeState ℕ) (answers : Libp2pAnswers) :
      s.world.loops n = some loop → Fresh loop answers →
      Serves outside c s (.node n (.recv answers))
  | queried (n : ℕ) (loop : NodeState ℕ) (id rx : ℕ) :
      s.world.loops n = some loop → loop.pendingQueries id = some rx →
      Serves outside c s (.node n (.event (.outboundQueryProgressed id (outside.record rx))))
  | settled (n : ℕ) (loop : NodeState ℕ) (id rx : ℕ) :
      s.world.loops n = some loop → loop.pendingRequests id = some rx →
      Serves outside c s (.node n (.event (settled id (outside.response rx))))

variable {Reveal : Type}

def Served (lib : Libraries Reveal) (globalConfig : AtlasConfig)
    (parsePeerId : Str → Option PeerId) (outside : Outside) (c : ℕ) (s s' : System) : Prop :=
  ∃ action, Serves outside c s action ∧ systemStep lib globalConfig parsePeerId s action = some s'

/-- Steps that serve one request lead from a state to another. -/
abbrev Leads (lib : Libraries Reveal) (globalConfig : AtlasConfig)
    (parsePeerId : Str → Option PeerId) (outside : Outside) (c : ℕ) : System → System → Prop :=
  Relation.ReflTransGen (Served lib globalConfig parsePeerId outside c)

def Reachable (lib : Libraries Reveal) (globalConfig : AtlasConfig)
    (parsePeerId : Str → Option PeerId) (s : System) : Prop :=
  ∃ actions, (system lib globalConfig parsePeerId).Run actions s

variable {lib : Libraries Reveal} {globalConfig : AtlasConfig}
  {parsePeerId : Str → Option PeerId} {outside : Outside} {c n : ℕ} {s s' : System} {w w' : World}
  {t : TaskState} {handler : Handler} {loop : NodeState ℕ} {q : Question}
  {next : AnswerTo (slotOf q) → Task}

theorem run_of_leads {actions : List SystemAction}
    (hrun : (system lib globalConfig parsePeerId).Run actions s)
    (h : Leads lib globalConfig parsePeerId outside c s s') :
    ∃ more, (system lib globalConfig parsePeerId).Run (actions ++ more) s' := by
  induction h with
  | refl => exact ⟨[], by simpa using hrun⟩
  | tail _ hlast ih =>
    obtain ⟨more, hmore⟩ := ih
    obtain ⟨action, -, hstep⟩ := hlast
    exact ⟨more ++ [action], by rw [← List.append_assoc]; exact hmore.snoc hstep⟩

theorem Reachable.leads (h : Reachable lib globalConfig parsePeerId s)
    (hleads : Leads lib globalConfig parsePeerId outside c s s') :
    Reachable lib globalConfig parsePeerId s' := by
  obtain ⟨actions, hrun⟩ := h
  obtain ⟨more, hmore⟩ := run_of_leads hrun hleads
  exact ⟨_, hmore⟩

theorem exists_fresh (h : Wired s) (hloop : s.world.loops n = some loop) :
    ∃ answers, Fresh loop answers := by
  obtain ⟨query, hquery⟩ := Infinite.exists_notMem_finset
    (s.taken.map fun x => x.answers.queryId).toFinset
  obtain ⟨request, hrequest⟩ := Infinite.exists_notMem_finset
    (s.taken.map fun x => x.answers.requestId).toFinset
  refine ⟨⟨query, false, request⟩, ?_, ?_⟩
  · refine Option.eq_none_iff_forall_ne_some.mpr fun rx hpending => hquery ?_
    obtain ⟨domain, answers, htook, rfl⟩ := h.queries n loop query rx hloop hpending
    exact List.mem_toFinset.mpr (List.mem_map.mpr ⟨_, htook, rfl⟩)
  · refine Option.eq_none_iff_forall_ne_some.mpr fun rx hpending => hrequest ?_
    obtain ⟨peerId, request, answers, htook, rfl⟩ :=
      h.requests n loop request rx hloop hpending
    exact List.mem_toFinset.mpr (List.mem_map.mpr ⟨_, htook, rfl⟩)

/-- The tasks and their handlers have not moved. -/
structure Same (s s' : System) : Prop where
  tasks : s'.tasks = s.tasks
  handlers : s'.world.handlers = s.world.handlers

variable (lib globalConfig outside) in
theorem node_served {input : NodeInput} (hserves : Serves outside c s (.node n input))
    (hstep : worldStep parsePeerId s.world (.node n input) = some w) :
    ∃ s', Served lib globalConfig parsePeerId outside c s s' ∧ Same s s' ∧ s'.world = w := by
  let s' : System :=
    { s with
      world := w
      taken := s.taken ++ takenBy s.world n input
      events := s.events ++ eventsOf n input }
  refine ⟨s', ⟨_, hserves, ?_⟩, ⟨rfl, (world_node hstep).1⟩, rfl⟩
  rw [systemStep, hstep]
  rfl

variable (outside) in
theorem drain (hreach : Reachable lib globalConfig parsePeerId s)
    (hloop : s.world.loops n = some loop) :
    ∃ s', Leads lib globalConfig parsePeerId outside c s s' ∧ Same s s' ∧
      s'.world.queues n = [] := by
  generalize hqueue : s.world.queues n = queue
  induction queue generalizing s loop with
  | nil => exact ⟨s, .refl, ⟨rfl, rfl⟩, hqueue⟩
  | cons cmd rest ih =>
    obtain ⟨actions, hrun⟩ := hreach
    obtain ⟨answers, hfresh⟩ := exists_fresh (wired_run hrun) hloop
    have hstep : worldStep parsePeerId s.world (.node n (.recv answers)) = some
        (afterTurn s.world n rest (some (handleCommand parsePeerId loop answers cmd))) := by
      simp only [worldStep, hloop, Option.bind_some, nodeStep, recv, hqueue, Option.map_some,
        loopTurn]
    obtain ⟨s₁, hserved, hsame, hworld⟩ :=
      node_served lib globalConfig outside (.recv (c := c) n loop answers hloop hfresh) hstep
    have hleads : Leads lib globalConfig parsePeerId outside c s s₁ := .single hserved
    have hreach₁ : Reachable lib globalConfig parsePeerId s₁ :=
      Reachable.leads ⟨actions, hrun⟩ hleads
    have hloop₁ : s₁.world.loops n = some (handleCommand parsePeerId loop answers cmd).state := by
      simp [hworld, afterTurn]
    obtain ⟨s₂, hlater, hsame₂, hempty⟩ := ih hreach₁ hloop₁ (by simp [hworld, afterTurn])
    exact ⟨s₂, hleads.trans hlater,
      ⟨hsame₂.tasks.trans hsame.tasks, hsame₂.handlers.trans hsame.handlers⟩, hempty⟩

/-- A reply for the channel of a command is of the kind of the command. -/
theorem replyTo_some (hwired : Wired s) (hundialled : Undialled s.world)
    {cmd : ℕ → NetworkCommand ℕ} {rx : ℕ} {reply : Reply ℕ} (hcmd : commandOf q = some cmd)
    (hsent : ⟨c, n, cmd rx⟩ ∈ s.sent) (hreply : reply ∈ s.world.replies)
    (hrx : respOf reply = rx) : ∃ a, replyTo q reply = some a := by
  have hcommand : ∀ n' command answers, ⟨n', command, answers⟩ ∈ s.taken →
      commandRx command = rx → cmd rx = command := by
    intro n' command answers htook hsame
    obtain ⟨c', hsent'⟩ := hwired.taken _ htook
    have hunique := hwired.unique hsent hsent' ((commandRx_commandOf hcmd rx).trans hsame.symm)
    exact congrArg Sent.command hunique
  have hcaused := hwired.replies reply hreply
  cases reply with
  | record rx' value =>
    obtain ⟨n', domain', answers, result, htook, -⟩ := hcaused
    have hkind := hcommand _ _ _ htook hrx
    cases q with
    | record domain => exact ⟨_, rfl⟩
    | peer i peerId request =>
      obtain rfl := Option.some.inj hcmd
      cases hkind
    | swarm | gateway => cases hcmd
  | proxy rx' response =>
    obtain ⟨n', peerId', request', answers, htook, -⟩ := hcaused
    have hkind := hcommand _ _ _ htook hrx
    cases q with
    | peer i peerId request => exact ⟨_, rfl⟩
    | record domain =>
      obtain rfl := Option.some.inj hcmd
      cases hkind
    | swarm | gateway => cases hcmd
  | peer rx' ip => exact absurd (hundialled.replies _ hreply) (by simp [isPeer])

theorem receive_some (c : ℕ) (handler : Handler) {stage : Stage} {rx : ℕ} {reply : Reply ℕ}
    (hrx : stage.awaits = some rx)
    (hreply : (w.replies.find? fun reply => respOf reply = rx) = some reply) :
    ∃ w', receive w c handler stage = some w' := by
  cases stage with
  | connected | routing => cases hrx
  | awaitingRecord rx' | awaitingResponse rx' =>
    obtain rfl := Option.some.inj hrx
    rw [receive, hreply]
    exact ⟨_, rfl⟩

theorem answer_ask {t : TaskState} (hrest : t.rest = .ask q next)
    (a : (q : Question) → Option (AnswerTo (slotOf q))) :
    t.answer a = (a q).map (t.advance q next) := by
  rw [TaskState.answer, hrest]

variable (outside) in
/-- What the handler of a task waits for has come. -/
theorem received (hreach : Reachable lib globalConfig parsePeerId s)
    {cmd : ℕ → NetworkCommand ℕ} {rx : ℕ} {reply : Reply ℕ} (ht : s.tasks c = some t)
    (hrest : t.rest = .ask q next) (hcmd : commandOf q = some cmd)
    (hc : s.world.handlers c = some handler) (hrx : handler.stage.awaits = some rx)
    (hmem : reply ∈ s.world.replies) (hreply : respOf reply = rx) :
    ∃ s' a, Served lib globalConfig parsePeerId outside c s s' ∧
      s'.tasks c = some (t.advance q next a) := by
  obtain ⟨actions, hrun⟩ := hreach
  obtain ⟨is, his⟩ := world_run hrun
  obtain ⟨reply', hfind⟩ : ∃ reply',
      (s.world.replies.find? fun reply => respOf reply = rx) = some reply' :=
    Option.isSome_iff_exists.mp (List.find?_isSome.mpr ⟨reply, hmem, decide_eq_true hreply⟩)
  have hmem' := List.mem_of_find?_eq_some hfind
  have hrx' : respOf reply' = rx := by simpa using List.find?_some hfind
  obtain ⟨t', r, ht', -, -, hfits⟩ := (attached_run hrun c).handler handler hc
  obtain rfl : t = t' := Option.some.inj (ht.symm.trans ht')
  obtain ⟨q', next', cmd', hrest', hcmd', hsent⟩ := hfits rx hrx
  obtain rfl := ask_inj (hrest.symm.trans hrest')
  obtain rfl := Option.some.inj (hcmd.symm.trans hcmd')
  obtain ⟨a, ha⟩ := replyTo_some (wired_run hrun) (undialled_run his) hcmd hsent hmem' hrx'
  obtain ⟨w, hw⟩ := receive_some c handler hrx hfind
  have hworld : worldStep parsePeerId s.world (.answered c) = some w := by
    rw [worldStep, hc]
    exact hw
  refine ⟨setTask { s with world := w } c (some (t.advance q next a)), a, ⟨_, .answered, ?_⟩,
    by simp [setTask]⟩
  simp only [systemStep, ht, hc, hrx, hfind, answer_ask hrest, ha, hworld, Option.bind_eq_bind,
    Option.bind_some, Option.map_some]
  rfl

variable (lib globalConfig parsePeerId outside) in
/-- Without a reply anywhere the responder has been dropped. -/
theorem not_received {cmd : ℕ → NetworkCommand ℕ} (ht : s.tasks c = some t)
    (hrest : t.rest = .ask q next) (hcmd : commandOf q = some cmd) (hlost : Lost s.world c) :
    ∃ s' a, Served lib globalConfig parsePeerId outside c s s' ∧
      s'.tasks c = some (t.advance q next a) := by
  obtain ⟨a, ha⟩ : ∃ a, notAnswered q = some a := by
    cases q with
    | record | peer => exact ⟨_, rfl⟩
    | swarm | gateway => cases hcmd
  obtain ⟨w, hw⟩ : ∃ w, worldStep parsePeerId s.world (.unanswered c) = some w := by
    obtain ⟨handler, rx, hc, hrx, -⟩ := hlost
    simp only [worldStep, hc, Option.bind_some]
    cases hstage : handler.stage with
    | connected | routing =>
      rw [hstage] at hrx
      cases hrx
    | awaitingRecord | awaitingResponse => exact ⟨_, rfl⟩
  refine ⟨setTask { s with world := w } c (some (t.advance q next a)), a,
    ⟨_, .unanswered hlost, ?_⟩, by simp [setTask]⟩
  simp only [systemStep, ht, answer_ask hrest, ha, hw, Option.bind_eq_bind, Option.bind_some,
    Option.map_some]
  rfl

variable (lib globalConfig parsePeerId outside) in
/-- The node settles what its loop has a responder for. -/
theorem settled_served (hundialled : Undialled s.world) {rx : ℕ}
    (hloop : s.world.loops n = some loop) (hwaits : Waits loop rx) :
    ∃ s', Served lib globalConfig parsePeerId outside c s s' ∧ Same s s' ∧
      ∃ reply ∈ s'.world.replies, respOf reply = rx := by
  have hevent : ∀ event, worldStep parsePeerId s.world (.node n (.event event)) =
      some (afterTurn s.world n (s.world.queues n) (some (handleEvent loop event))) := by
    intro event
    simp only [worldStep, hloop, Option.bind_some, nodeStep, loopTurn]
  rcases hwaits with ⟨id, hpending⟩ | ⟨peerId, hpending⟩ | ⟨id, hpending⟩
  · obtain ⟨s', hserved, hsame, hworld⟩ :=
      node_served lib globalConfig outside (.queried (c := c) n loop id rx hloop hpending)
        (hevent _)
    refine ⟨s', hserved, hsame, .record rx (outside.record rx).value, ?_, rfl⟩
    rw [hworld]
    simp [afterTurn, handleEvent, hpending]
  · rw [hundialled.dials n loop hloop peerId] at hpending
    cases hpending
  · obtain ⟨s', hserved, hsame, hworld⟩ :=
      node_served lib globalConfig outside (.settled (c := c) n loop id rx hloop hpending)
        (hevent _)
    refine ⟨s', hserved, hsame, .proxy rx (outside.response rx), ?_, rfl⟩
    rw [hworld]
    cases hresponse : outside.response rx with
    | none => simp [afterTurn, handleEvent, settled, hpending]
    | some response => simp [afterTurn, handleEvent, settled, hpending]

variable (outside) in
theorem awaited_answered (hreach : Reachable lib globalConfig parsePeerId s)
    {cmd : ℕ → NetworkCommand ℕ} {rx : ℕ} (ht : s.tasks c = some t)
    (hrest : t.rest = .ask q next) (hcmd : commandOf q = some cmd)
    (hc : s.world.handlers c = some handler) (hrx : handler.stage.awaits = some rx) :
    ∃ s' a, Leads lib globalConfig parsePeerId outside c s s' ∧
      s'.tasks c = some (t.advance q next a) := by
  obtain ⟨actions, hrun⟩ := hreach
  obtain ⟨loop, hloop⟩ := Option.ne_none_iff_exists'.mp (handler_running hrun hc)
  obtain ⟨s₁, hdrained, hsame, hempty⟩ := drain outside (c := c) ⟨actions, hrun⟩ hloop
  have hreach₁ : Reachable lib globalConfig parsePeerId s₁ :=
    Reachable.leads ⟨actions, hrun⟩ hdrained
  have ht₁ : s₁.tasks c = some t := by rw [hsame.tasks, ht]
  have hc₁ : s₁.world.handlers c = some handler := by rw [hsame.handlers, hc]
  by_cases hreply : ∃ reply ∈ s₁.world.replies, respOf reply = rx
  · obtain ⟨reply, hmem, hrespOf⟩ := hreply
    obtain ⟨s₂, a, hserved, hnext⟩ :=
      received outside hreach₁ ht₁ hrest hcmd hc₁ hrx hmem hrespOf
    exact ⟨s₂, a, hdrained.tail hserved, hnext⟩
  · by_cases hat : AtNode s₁.world handler.channel rx
    · rcases hat with hqueued | ⟨loop₁, hloop₁, hwaits⟩
      · rw [hempty] at hqueued
        exact absurd hqueued List.not_mem_nil
      · obtain ⟨actions₁, hrun₁⟩ := hreach₁
        obtain ⟨is, his⟩ := world_run hrun₁
        obtain ⟨s₂, hserved, hsame₂, reply, hmem, hrespOf⟩ :=
          settled_served lib globalConfig parsePeerId outside (c := c) (undialled_run his) hloop₁
            hwaits
        have hleads := hdrained.tail hserved
        obtain ⟨s₃, a, hserved₃, hnext⟩ :=
          received outside (Reachable.leads ⟨actions, hrun⟩ hleads)
            (by rw [hsame₂.tasks, ht₁]) hrest hcmd (by rw [hsame₂.handlers, hc₁]) hrx hmem hrespOf
        exact ⟨s₃, a, hleads.tail hserved₃, hnext⟩
    · have hlost : Lost s₁.world c := by
        refine ⟨handler, rx, hc₁, hrx, hat, fun reply hmem hrespOf => hreply ?_⟩
        exact ⟨reply, hmem, hrespOf⟩
      obtain ⟨s₂, a, hserved, hnext⟩ :=
        not_received lib globalConfig parsePeerId outside ht₁ hrest hcmd hlost
      exact ⟨s₂, a, hdrained.tail hserved, hnext⟩

variable (outside) in
/-- Into an empty channel a command is sent at once. -/
theorem command_sent (hreach : Reachable lib globalConfig parsePeerId s) (ht : s.tasks c = some t)
    (hrest : t.rest = .ask q next) (hc : s.world.handlers c = some handler)
    (hrx : handler.stage.awaits = none) {cmd : ℕ → NetworkCommand ℕ}
    (hcmd : commandOf q = some cmd) (hempty : s.world.queues handler.channel = []) :
    ∃ s' stage, Served lib globalConfig parsePeerId outside c s s' ∧ s'.tasks = s.tasks ∧
      s'.world.handlers c = some ⟨handler.channel, stage⟩ ∧
      stage.awaits = some s.world.oneshots := by
  obtain ⟨actions, hrun⟩ := hreach
  obtain ⟨loop, hloop⟩ := Option.ne_none_iff_exists'.mp (handler_running hrun hc)
  have hstands := allStand_run hrun c t ht
  rw [hrest, stageOf_some hc] at hstands
  have hroom : (s.world.queues handler.channel).length < channelCapacity := by
    rw [hempty]
    decide
  obtain ⟨act, stage, hact, hstage, hworld⟩ : ∃ act stage, sendAction c q = some act ∧
      Stage.awaits stage = some s.world.oneshots ∧
      worldStep parsePeerId s.world act =
        some (afterSend s.world c handler (cmd s.world.oneshots) stage) := by
    cases q with
    | record domain =>
      obtain rfl := Option.some.inj hcmd
      obtain ⟨hstage | ⟨rx, hstage⟩, -⟩ := stands_record hstands
      · refine ⟨_, .awaitingRecord s.world.oneshots, rfl, rfl, ?_⟩
        simp only [worldStep, hc, Option.some.inj hstage, if_true, send, hloop, if_pos hroom]
      · rw [Option.some.inj hstage] at hrx
        cases hrx
    | peer i peerId request =>
      obtain rfl := Option.some.inj hcmd
      obtain ⟨hstage | ⟨rx, hstage⟩, -⟩ := stands_peer hstands
      · refine ⟨_, .awaitingResponse s.world.oneshots, rfl, rfl, ?_⟩
        simp only [worldStep, hc, Option.some.inj hstage, if_true, send, hloop, if_pos hroom]
      · rw [Option.some.inj hstage] at hrx
        cases hrx
    | swarm | gateway => cases hcmd
  let s' : System :=
    { s with
      world := afterSend s.world c handler (cmd s.world.oneshots) stage
      sent := s.sent ++ [⟨c, handler.channel, cmd s.world.oneshots⟩] }
  refine ⟨s', stage, ⟨_, .send, ?_⟩, rfl, by simp [s', afterSend, enter], hstage⟩
  have hquestion : t.question = some q := by rw [TaskState.question, hrest]
  simp only [systemStep, ht, hc, sendStep, hquestion, hact, hcmd, hworld, hloop,
    Option.bind_eq_bind, Option.bind_some]
  rfl

variable (outside) in
theorem command_answered (hreach : Reachable lib globalConfig parsePeerId s)
    {cmd : ℕ → NetworkCommand ℕ} (ht : s.tasks c = some t) (hrest : t.rest = .ask q next)
    (hcmd : commandOf q = some cmd) :
    ∃ s' a, Leads lib globalConfig parsePeerId outside c s s' ∧
      s'.tasks c = some (t.advance q next a) := by
  obtain ⟨actions, hrun⟩ := hreach
  have hstands := allStand_run hrun c t ht
  rw [hrest] at hstands
  obtain ⟨handler, hc⟩ : ∃ handler, s.world.handlers c = some handler := by
    have hsome : ∃ stage, stageOf s.world c = some stage := by
      cases q with
      | record domain =>
        obtain ⟨hstage | ⟨rx, hstage⟩, -⟩ := stands_record hstands
        · exact ⟨_, hstage⟩
        · exact ⟨_, hstage⟩
      | peer i peerId request =>
        obtain ⟨hstage | ⟨rx, hstage⟩, -⟩ := stands_peer hstands
        · exact ⟨_, hstage⟩
        · exact ⟨_, hstage⟩
      | swarm | gateway => cases hcmd
    obtain ⟨stage, hstage⟩ := hsome
    obtain ⟨handler, hc, -⟩ := Option.map_eq_some_iff.mp hstage
    exact ⟨handler, hc⟩
  cases hrx : handler.stage.awaits with
  | some rx => exact awaited_answered outside ⟨actions, hrun⟩ ht hrest hcmd hc hrx
  | none =>
    obtain ⟨loop, hloop⟩ := Option.ne_none_iff_exists'.mp (handler_running hrun hc)
    obtain ⟨s₁, hdrained, hsame, hempty⟩ :=
      drain outside (c := c) ⟨actions, hrun⟩ hloop
    have ht₁ : s₁.tasks c = some t := by rw [hsame.tasks, ht]
    obtain ⟨s₂, stage, hserved, htasks, hc₂, hawaits⟩ :=
      command_sent outside (Reachable.leads ⟨actions, hrun⟩ hdrained) ht₁ hrest
        (by rw [hsame.handlers, hc]) hrx hcmd hempty
    have hleads := hdrained.tail hserved
    obtain ⟨s₃, a, hlater, hnext⟩ :=
      awaited_answered outside (Reachable.leads ⟨actions, hrun⟩ hleads)
        (by rw [htasks, ht₁]) hrest hcmd hc₂ hawaits
    exact ⟨s₃, a, hleads.trans hlater, hnext⟩

variable (lib globalConfig parsePeerId outside) in
theorem managed_served {a : Action} {m : ManagerState} {evs : List Event}
    (hserves : Serves outside c s (.manager a)) (hown : isOwn a = true)
    (hm : managerStep s.world.manager a = some (m, evs)) :
    Served lib globalConfig parsePeerId outside c s (afterManager s m evs) := by
  refine ⟨_, hserves, ?_⟩
  simp only [systemStep, hown, if_true, hm, Option.map_some]
  rfl

theorem calls_setCall (s : System) (c : ℕ) (call : Call) :
    (afterManager s (setCall s.world.manager c (some call)) []).world.manager.calls c =
      some call := by
  simp [afterManager, setCall]

section

variable {tld : Str} {config : NetworkConfig}
  {afterwards : AnswerTo (slotOf (.swarm tld config)) → Task}
  (ht : s.tasks c = some t) (hrest : t.rest = .ask (.swarm tld config) afterwards)
include ht hrest

/-- The task that has made the call goes on when it returns. -/
theorem returned_task {m : ManagerState} {evs : List Event} {sender : Option ℕ}
    (hevs : evs = [.returned c tld config sender] ∨
      ∃ tld' n, evs = [.spawned tld' n, .returned c tld config sender]) :
    (afterManager s m evs).tasks c =
      some (t.advance (.swarm tld config) afterwards sender.isSome) := by
  have hadvanced : t.answerSwarm sender.isSome =
      t.advance (.swarm tld config) afterwards sender.isSome := by
    rw [TaskState.answerSwarm, hrest]
  rcases hevs with rfl | ⟨tld', n, rfl⟩
  · simp [afterManager, returned, ht, hadvanced]
  · simp [afterManager, returned, ht, hadvanced]

variable (lib globalConfig parsePeerId outside) in
theorem resolved_returns {configClone : NetworkConfig}
    (hcall : s.world.manager.calls c = some ⟨tld, config, .resolved configClone⟩) :
    ∃ s' connected, Served lib globalConfig parsePeerId outside c s s' ∧
      s'.tasks c = some (t.advance (.swarm tld config) afterwards connected) := by
  obtain ⟨m, evs, sender, hm, hevs⟩ : ∃ m evs sender,
      managerStep s.world.manager (.secondLock c outside.newOk) = some (m, evs) ∧
        (evs = [.returned c tld config sender] ∨
          ∃ tld' n, evs = [.spawned tld' n, .returned c tld config sender]) := by
    simp only [managerStep, hcall, spawnOrReuse]
    cases hs : s.world.manager.swarms tld with
    | some handle =>
      simp only [lookupSwarm, hs, Option.map_some]
      exact ⟨_, _, _, rfl, Or.inl rfl⟩
    | none =>
      simp only [lookupSwarm, hs, Option.map_none]
      cases outside.newOk with
      | true => exact ⟨_, _, _, rfl, Or.inr ⟨_, _, rfl⟩⟩
      | false => exact ⟨_, _, _, rfl, Or.inl rfl⟩
  exact ⟨_, _, managed_served lib globalConfig parsePeerId outside .secondLock rfl hm,
    returned_task ht hrest hevs⟩

variable (lib globalConfig parsePeerId outside) in
theorem resolving_returns
    (hcall : s.world.manager.calls c = some ⟨tld, config, .resolving⟩) :
    ∃ s' connected, Leads lib globalConfig parsePeerId outside c s s' ∧
      s'.tasks c = some (t.advance (.swarm tld config) afterwards connected) := by
  let resolved : Call := ⟨tld, config, .resolved (withResolved config outside.resolved)⟩
  have hm : managerStep s.world.manager (.resolve c outside.resolved) =
      some (setCall s.world.manager c (some resolved), []) := by
    simp only [managerStep, hcall]
    rfl
  have hserved := managed_served lib globalConfig parsePeerId outside .resolve rfl hm
  have ht₁ : (afterManager s (setCall s.world.manager c (some resolved)) []).tasks c = some t := ht
  obtain ⟨s', connected, hlater, hnext⟩ := resolved_returns lib globalConfig parsePeerId outside
    ht₁ hrest (calls_setCall s c resolved)
  exact ⟨s', connected, .tail (.single hserved) hlater, hnext⟩

variable (lib globalConfig parsePeerId outside) in
theorem entered_returns (hcall : s.world.manager.calls c = some ⟨tld, config, .entered⟩) :
    ∃ s' connected, Leads lib globalConfig parsePeerId outside c s s' ∧
      s'.tasks c = some (t.advance (.swarm tld config) afterwards connected) := by
  cases hs : s.world.manager.swarms tld with
  | some handle =>
    have hm : ∃ m, managerStep s.world.manager (.firstLock c) =
        some (m, [.returned c tld config (some handle.tx)]) := by
      simp only [managerStep, hcall, lookupSwarm, hs, Option.map_some]
      exact ⟨_, rfl⟩
    obtain ⟨m, hm⟩ := hm
    exact ⟨_, _, .single (managed_served lib globalConfig parsePeerId outside .firstLock rfl hm),
      returned_task ht hrest (Or.inl rfl)⟩
  | none =>
    have hm : managerStep s.world.manager (.firstLock c) =
        some (setCall s.world.manager c (some ⟨tld, config, .resolving⟩), []) := by
      simp only [managerStep, hcall, lookupSwarm, hs, Option.map_none]
    have hserved := managed_served lib globalConfig parsePeerId outside .firstLock rfl hm
    have ht₁ : (afterManager s (setCall s.world.manager c (some ⟨tld, config, .resolving⟩))
        []).tasks c = some t := ht
    obtain ⟨s', connected, hlater, hnext⟩ := resolving_returns lib globalConfig parsePeerId outside
      ht₁ hrest (calls_setCall s c ⟨tld, config, .resolving⟩)
    exact ⟨s', connected, .head hserved hlater, hnext⟩

variable (outside) in
theorem swarm_answered (hreach : Reachable lib globalConfig parsePeerId s) :
    ∃ s' connected, Leads lib globalConfig parsePeerId outside c s s' ∧
      s'.tasks c = some (t.advance (.swarm tld config) afterwards connected) := by
  obtain ⟨actions, hrun⟩ := hreach
  cases hcall : s.world.manager.calls c with
  | some call =>
    obtain ⟨t', next', ht', hrest'⟩ := (attached_run hrun c).call call hcall
    obtain rfl : t = t' := Option.some.inj (ht.symm.trans ht')
    obtain ⟨tld', config', phase⟩ := call
    obtain ⟨rfl, rfl⟩ : tld = tld' ∧ config = config' := by
      simpa using ask_inj (hrest.symm.trans hrest')
    cases phase with
    | entered => exact entered_returns lib globalConfig parsePeerId outside ht hrest hcall
    | resolving => exact resolving_returns lib globalConfig parsePeerId outside ht hrest hcall
    | resolved configClone =>
      obtain ⟨s', connected, hserved, hnext⟩ :=
        resolved_returns lib globalConfig parsePeerId outside ht hrest hcall
      exact ⟨s', connected, .single hserved, hnext⟩
  | none =>
    have hstands := allStand_run hrun c t ht
    rw [hrest] at hstands
    have hfree : s.world.handlers c = none := by
      simpa [stageOf] using (stands_swarm hstands).1
    have hserved : Served lib globalConfig parsePeerId outside c s
        (afterManager s (setCall s.world.manager c (some ⟨tld, config, .entered⟩)) []) := by
      refine ⟨_, .call, ?_⟩
      have hquestion : t.question = some (.swarm tld config) := by
        rw [TaskState.question, hrest]
      simp only [systemStep, ht, hquestion, worldStep, inUse, hfree, managerStep, hcall,
        Option.bind_eq_bind, Option.bind_some, Option.isSome_none, Bool.false_eq_true, if_false,
        Option.map_some, List.foldl_nil]
      rfl
    have ht₁ : (afterManager s (setCall s.world.manager c (some ⟨tld, config, .entered⟩))
        []).tasks c = some t := ht
    obtain ⟨s', connected, hlater, hnext⟩ := entered_returns lib globalConfig parsePeerId outside
      ht₁ hrest (calls_setCall s c ⟨tld, config, .entered⟩)
    exact ⟨s', connected, .head hserved hlater, hnext⟩

end

variable (lib globalConfig parsePeerId outside) in
theorem gateway_answered {i : ℕ} {method url : Str} {headers : List (Str × Str)} {body : Bytes}
    {next : AnswerTo (slotOf (.gateway i method url headers body)) → Task}
    (ht : s.tasks c = some t) (hrest : t.rest = .ask (.gateway i method url headers body) next) :
    ∃ s', Served lib globalConfig parsePeerId outside c s s' ∧
      s'.tasks c = some (t.advance _ next (outside.gateway i)) := by
  refine ⟨setTask s c (some (t.advance _ next (outside.gateway i))), ⟨_, .gateway i, ?_⟩,
    by simp [setTask]⟩
  simp only [systemStep, ht, answer_ask hrest, gatewayReply, Option.bind_eq_bind,
    Option.bind_some]
  rfl

variable (outside) in
theorem question_answered (hreach : Reachable lib globalConfig parsePeerId s)
    (ht : s.tasks c = some t) (hrest : t.rest = .ask q next) :
    ∃ s' a, Leads lib globalConfig parsePeerId outside c s s' ∧
      s'.tasks c = some (t.advance q next a) := by
  cases q with
  | swarm tld config => exact swarm_answered outside ht hrest hreach
  | record domain => exact command_answered outside hreach ht hrest rfl
  | peer i peerId request => exact command_answered outside hreach ht hrest rfl
  | gateway i method url headers body =>
    obtain ⟨s', hserved, hnext⟩ :=
      gateway_answered lib globalConfig parsePeerId outside ht hrest
    exact ⟨s', _, .single hserved, hnext⟩

/-- The request of the task is answered, with what the task has been answered so far at the
beginning. -/
def AnsweredAs (s : System) (c : ℕ) (t : TaskState) : Prop :=
  ∃ f ∈ s.finished, f.c = c ∧ f.registry = t.registry ∧ f.req = t.req ∧ t.trace <+: f.trace

variable (outside) in
/-- The induction is on what the task still has to ask. -/
theorem task_finishes (rest : Task) (hreach : Reachable lib globalConfig parsePeerId s)
    (ht : s.tasks c = some t) (hrest : t.rest = rest) :
    ∃ s', Leads lib globalConfig parsePeerId outside c s s' ∧ AnsweredAs s' c t := by
  induction rest generalizing s t with
  | done outcome =>
    let f : Finished := ⟨c, t.registry, t.req, t.trace, outcome⟩
    let s' : System := setTask
      { s with
        world := (worldStep parsePeerId s.world (.done c)).getD s.world
        finished := s.finished ++ [f] } c none
    have hserved : Served lib globalConfig parsePeerId outside c s s' := by
      refine ⟨_, .finish, ?_⟩
      simp only [systemStep, ht, hrest, Option.bind_eq_bind, Option.bind_some]
      rfl
    have hf : f ∈ s.finished ++ [f] := List.mem_append_right _ List.mem_cons_self
    exact ⟨s', .single hserved, f, hf, rfl, rfl, rfl, List.prefix_rfl⟩
  | ask q next ih =>
    obtain ⟨s₁, a, hleads, hnext⟩ := question_answered outside hreach ht hrest
    obtain ⟨s₂, hlater, f, hf, hfc, hregistry, hreq, htrace⟩ :=
      ih a (hreach.leads hleads) hnext rfl
    exact ⟨s₂, hleads.trans hlater, f, hf, hfc, hregistry, hreq,
      (List.prefix_append _ _).trans htrace⟩

/-- The manager returns to nobody but the caller whose step it is. -/
theorem returns_own {a : Action} {m m' : ManagerState} {evs : List Event}
    {tasks : ℕ → Option TaskState} (hserves : Serves outside c s (.manager a))
    (hm : managerStep m a = some (m', evs)) {c' : ℕ} (hc : c' ≠ c) :
    evs.foldl returned tasks c' = tasks c' := by
  cases hserves with
  | firstLock =>
    simp only [managerStep] at hm
    split at hm
    · split at hm
      · simp only [Option.some.injEq, Prod.mk.injEq] at hm
        obtain ⟨-, rfl⟩ := hm
        simp [returned, hc]
      · simp only [Option.some.injEq, Prod.mk.injEq] at hm
        obtain ⟨-, rfl⟩ := hm
        rfl
    · cases hm
  | resolve =>
    simp only [managerStep] at hm
    split at hm
    · simp only [Option.some.injEq, Prod.mk.injEq] at hm
      obtain ⟨-, rfl⟩ := hm
      rfl
    · cases hm
  | secondLock =>
    simp only [managerStep] at hm
    split at hm
    · simp only [Option.some.injEq, spawnOrReuse] at hm
      split at hm
      · obtain ⟨-, rfl⟩ := Prod.mk.inj hm
        simp [returned, hc]
      · split at hm
        · obtain ⟨-, rfl⟩ := Prod.mk.inj hm
          simp [returned, hc]
        · obtain ⟨-, rfl⟩ := Prod.mk.inj hm
          simp [returned, hc]
    · cases hm

theorem others_served (h : Served lib globalConfig parsePeerId outside c s s') {c' : ℕ}
    (hc : c' ≠ c) : s'.tasks c' = s.tasks c' := by
  have hset : ∀ (s : System) t, (setTask s c t).tasks c' = s.tasks c' := by
    intro s t
    simp [setTask, hc]
  obtain ⟨action, hserves, hstep⟩ := h
  cases action with
  | accept | cancel => cases hserves
  | manager a =>
    obtain ⟨-, hstep⟩ := Option.ite_none_right_eq_some.mp hstep
    obtain ⟨⟨m, evs⟩, hm, rfl⟩ := Option.map_eq_some_iff.mp hstep
    exact returns_own hserves hm hc
  | node n input =>
    obtain ⟨w, -, rfl⟩ := Option.map_eq_some_iff.mp hstep
    rfl
  | call =>
    obtain ⟨t, -, hstep⟩ := Option.bind_eq_some_iff.mp hstep
    split at hstep
    · obtain ⟨w, -, hs'⟩ := Option.bind_eq_some_iff.mp hstep
      obtain rfl := Option.some.inj hs'
      rfl
    · cases hstep
  | send =>
    cases hserves
    obtain ⟨t, -, hstep⟩ := Option.bind_eq_some_iff.mp hstep
    obtain ⟨handler, -, hstep⟩ := Option.bind_eq_some_iff.mp hstep
    obtain ⟨q, -, hstep⟩ := Option.bind_eq_some_iff.mp hstep
    obtain ⟨act, -, hstep⟩ := Option.bind_eq_some_iff.mp hstep
    obtain ⟨cmd, -, hstep⟩ := Option.bind_eq_some_iff.mp hstep
    obtain ⟨w, -, hstep⟩ := Option.bind_eq_some_iff.mp hstep
    split at hstep
    · obtain rfl := Option.some.inj hstep
      rfl
    · obtain ⟨t', -, hs'⟩ := Option.bind_eq_some_iff.mp hstep
      obtain rfl := Option.some.inj hs'
      exact hset _ _
  | answered =>
    cases hserves
    obtain ⟨t, -, hstep⟩ := Option.bind_eq_some_iff.mp hstep
    obtain ⟨handler, -, hstep⟩ := Option.bind_eq_some_iff.mp hstep
    obtain ⟨rx, -, hstep⟩ := Option.bind_eq_some_iff.mp hstep
    obtain ⟨reply, -, hstep⟩ := Option.bind_eq_some_iff.mp hstep
    obtain ⟨t', -, hstep⟩ := Option.bind_eq_some_iff.mp hstep
    obtain ⟨w, -, hs'⟩ := Option.bind_eq_some_iff.mp hstep
    obtain rfl := Option.some.inj hs'
    exact hset _ _
  | unanswered =>
    cases hserves
    obtain ⟨t, -, hstep⟩ := Option.bind_eq_some_iff.mp hstep
    obtain ⟨t', -, hstep⟩ := Option.bind_eq_some_iff.mp hstep
    obtain ⟨w, -, hs'⟩ := Option.bind_eq_some_iff.mp hstep
    obtain rfl := Option.some.inj hs'
    exact hset _ _
  | gateway =>
    cases hserves
    obtain ⟨t, -, hstep⟩ := Option.bind_eq_some_iff.mp hstep
    obtain ⟨t', -, hs'⟩ := Option.bind_eq_some_iff.mp hstep
    obtain rfl := Option.some.inj hs'
    exact hset _ _
  | finish =>
    cases hserves
    obtain ⟨t, -, hstep⟩ := Option.bind_eq_some_iff.mp hstep
    split at hstep
    · obtain rfl := Option.some.inj hstep
      exact hset _ _
    · cases hstep

theorem others_left (h : Leads lib globalConfig parsePeerId outside c s s') {c' : ℕ}
    (hc : c' ≠ c) : s'.tasks c' = s.tasks c' := by
  induction h with
  | refl => rfl
  | tail _ hlast ih => exact (others_served hlast hc).trans ih

/-- From every state that can be reached, and whatever comes from outside, each request under
way can be answered by steps that serve it alone; no other request moves meanwhile. -/
theorem answerable_alone {actions : List SystemAction}
    (hrun : (system lib globalConfig parsePeerId).Run actions s) (outside : Outside)
    (ht : s.tasks c = some t) :
    ∃ s', Leads lib globalConfig parsePeerId outside c s s' ∧
      (∃ more, (system lib globalConfig parsePeerId).Run (actions ++ more) s') ∧
      AnsweredAs s' c t ∧ ∀ c', c' ≠ c → s'.tasks c' = s.tasks c' := by
  obtain ⟨s', hleads, hanswered⟩ := task_finishes outside t.rest ⟨actions, hrun⟩ ht rfl
  exact ⟨s', hleads, run_of_leads hrun hleads, hanswered, fun c' hc => others_left hleads hc⟩

/-- Two requests wait for their records at one node; the second is answered alone. -/
def bothWaiting : List SystemAction := twoRequests.take 12

def nothingFound : Outside := ⟨[], true, fun _ => .other, fun _ => none, fun _ => .error "down"⟩

theorem answerable_alone_second :
    ∃ s t, (system ProxyHandler.sampleLibraries ProxyHandler.globalDefaults fun _ => none).Run
        bothWaiting s ∧ s.tasks 1 = some t ∧
      ∃ s', Leads ProxyHandler.sampleLibraries ProxyHandler.globalDefaults (fun _ => none)
          nothingFound 1 s s' ∧
        (∃ more, (system ProxyHandler.sampleLibraries ProxyHandler.globalDefaults
          fun _ => none).Run (bothWaiting ++ more) s') ∧
        AnsweredAs s' 1 t ∧ ∀ c', c' ≠ 1 → s'.tasks c' = s.tasks c' := by
  have hsome : (((system ProxyHandler.sampleLibraries ProxyHandler.globalDefaults
      fun _ => none).exec bothWaiting).bind fun s => s.tasks 1).isSome := by decide +kernel
  obtain ⟨t, htask⟩ := Option.isSome_iff_exists.mp hsome
  obtain ⟨s, hexec, ht⟩ := Option.bind_eq_some_iff.mp htask
  have hrun := (Machine.run_iff_exec _ _ _).mpr hexec
  exact ⟨s, t, hrun, ht, answerable_alone hrun nothingFound ht⟩

end KineticAtlas.RequestProgress
