import KineticAtlas.RequestOrigins

/-!
Where a handler stands and what its task still has to ask (proxy.rs). A task asks for its
swarm, then for its record, and then gateways and peers; its handler has a sender from the
answer to the first question on, and waits for a channel only while its task waits for the
same command. Nobody sends a lookup of a peer, so no node ever dials for one.
-/
namespace KineticAtlas.RequestStages

open Library.Texts Library.Runs Library.Dialogues KineticAtlas.Types Registry NodeLoop
  SwarmManager SwarmLifetime HandlerTask RequestSystem RequestChannels RequestOrigins
open ProxyHandler (HttpRequest HttpResponse Libraries ChannelAnswer Forward route)
open NodeAccounting (respOf)

/-- Only gateways and peers are asked, and a peer's response is the end. -/
def Forwards : Task → Prop
  | .done _ => True
  | .ask (.gateway _ _ _ _ _) next => ∀ a, Forwards (next a)
  | .ask (.peer _ _ _) next =>
    (∀ res, ∃ outcome, next (ChannelAnswer.answered (some res)) = .done outcome) ∧
      ∀ a, Forwards (next a)
  | .ask (.swarm _ _) _ => False
  | .ask (.record _) _ => False

/-- The record is asked for; without one the task ends. -/
def AtRecord : Task → Prop
  | .ask (.record _) next =>
    (∀ bytes, Forwards (next (ChannelAnswer.answered (some bytes)))) ∧
      (∃ outcome, next (ChannelAnswer.answered none) = .done outcome) ∧
      ∃ outcome, next ChannelAnswer.dropped = .done outcome
  | _ => False

/-- The swarm is asked for; without one the task ends. -/
def AtSwarm : Task → Prop
  | .ask (.swarm _ _) next => AtRecord (next true) ∧ ∃ outcome, next false = .done outcome
  | _ => False

variable {Reveal : Type} {lib : Libraries Reveal} {globalConfig : AtlasConfig}
  {parsePeerId : Str → Option PeerId} {registry : TldRegistry} {req : HttpRequest}
  {gateway : Str} {fwd : Forward}

theorem forwards_failoverTask (i : ℕ) (targets : List DnsRecord) :
    Forwards (failoverTask lib gateway fwd i targets) := by
  induction targets generalizing i with
  | nil => trivial
  | cons target rest ih =>
    cases target with
    | ipfs cid =>
      intro answer
      cases (answer : Except Str HttpResponse) with
      | ok res => trivial
      | error e => exact ih (i + 1)
    | peerId peerStr =>
      cases hp : lib.parsePeerId peerStr with
      | none => simpa only [failoverTask, hp] using ih (i + 1)
      | some peerId =>
        simp only [failoverTask, hp]
        refine ⟨fun res => ⟨_, rfl⟩, fun answer => ?_⟩
        cases (answer : ChannelAnswer ProxyResponse) with
        | sendFailed => exact ih (i + 1)
        | dropped => exact ih (i + 1)
        | answered value =>
          cases value with
          | none => exact ih (i + 1)
          | some res => trivial
    | a | aaaa | cname | txt | kid | other => exact ih (i + 1)

variable (lib globalConfig registry req) in
theorem handler_atSwarm : AtSwarm (handler lib globalConfig registry req) ∨
    ∃ outcome, handler lib globalConfig registry req = .done outcome := by
  cases hroute : route registry req with
  | error e =>
    refine Or.inr ⟨.error e, ?_⟩
    simp only [handler, hroute]
  | ok r =>
    simp only [handler, hroute]
    refine Or.inl ⟨⟨fun bytes => ?_, ⟨_, rfl⟩, ⟨_, rfl⟩⟩, ⟨_, rfl⟩⟩
    show Forwards (afterRecord lib globalConfig r req bytes)
    unfold afterRecord
    split
    · trivial
    · split
      · trivial
      · split
        · trivial
        · exact forwards_failoverTask 0 _

inductive Stands : Option Stage → Task → Prop
  | done (stage : Option Stage) (outcome : Outcome) : Stands stage (.done outcome)
  | swarm {rest : Task} (hrest : AtSwarm rest) : Stands none rest
  | connected {rest : Task} (hrest : AtRecord rest) : Stands (some .connected) rest
  | awaitingRecord {rest : Task} (rx : ℕ) (hrest : AtRecord rest) :
      Stands (some (.awaitingRecord rx)) rest
  | routing {rest : Task} (hrest : Forwards rest) : Stands (some .routing) rest
  | awaitingResponse (rx i : ℕ) (peerId : PeerId) (request : ProxyRequest)
      (next : AnswerTo (slotOf (.peer i peerId request)) → Task)
      (hrest : Forwards (.ask (.peer i peerId request) next)) :
      Stands (some (.awaitingResponse rx)) (.ask (.peer i peerId request) next)

def stageOf (w : World) (c : ℕ) : Option Stage := (w.handlers c).map Handler.stage

def AllStand (s : System) : Prop :=
  ∀ c t, s.tasks c = some t → Stands (stageOf s.world c) t.rest

variable {s s' : System} {w w' : World} {c c' : ℕ} {t : TaskState} {handler : Handler}
  {actions : List SystemAction}

theorem stands_swarm {stage : Option Stage} {tld : Str} {config : NetworkConfig}
    {next : AnswerTo (slotOf (.swarm tld config)) → Task}
    (h : Stands stage (.ask (.swarm tld config) next)) :
    stage = none ∧ AtRecord (next true) ∧ ∃ outcome, next false = .done outcome := by
  cases h with
  | swarm hrest => exact ⟨rfl, hrest⟩
  | connected hrest => exact hrest.elim
  | awaitingRecord rx hrest => exact hrest.elim
  | routing hrest => exact hrest.elim

theorem stands_gateway {stage : Option Stage} {i : ℕ} {method url : Str}
    {headers : List (Str × Str)} {body : Bytes}
    {next : AnswerTo (slotOf (.gateway i method url headers body)) → Task}
    (h : Stands stage (.ask (.gateway i method url headers body) next)) :
    stage = some .routing ∧ ∀ a, Forwards (next a) := by
  cases h with
  | swarm hrest => exact hrest.elim
  | connected hrest => exact hrest.elim
  | awaitingRecord rx hrest => exact hrest.elim
  | routing hrest => exact ⟨rfl, hrest⟩

theorem stands_record {stage : Option Stage} {domain : Str}
    {next : AnswerTo (slotOf (.record domain)) → Task}
    (h : Stands stage (.ask (.record domain) next)) :
    (stage = some .connected ∨ ∃ rx, stage = some (.awaitingRecord rx)) ∧
      AtRecord (.ask (.record domain) next) := by
  cases h with
  | swarm hrest => exact hrest.elim
  | connected hrest => exact ⟨Or.inl rfl, hrest⟩
  | awaitingRecord rx hrest => exact ⟨Or.inr ⟨rx, rfl⟩, hrest⟩
  | routing hrest => exact hrest.elim

theorem stands_peer {stage : Option Stage} {i : ℕ} {peerId : PeerId} {request : ProxyRequest}
    {next : AnswerTo (slotOf (.peer i peerId request)) → Task}
    (h : Stands stage (.ask (.peer i peerId request) next)) :
    (stage = some .routing ∨ ∃ rx, stage = some (.awaitingResponse rx)) ∧
      Forwards (.ask (.peer i peerId request) next) := by
  cases h with
  | swarm hrest => exact hrest.elim
  | connected hrest => exact hrest.elim
  | awaitingRecord rx hrest => exact hrest.elim
  | routing hrest => exact ⟨Or.inl rfl, hrest⟩
  | awaitingResponse rx _ _ _ _ hrest => exact ⟨Or.inr ⟨rx, rfl⟩, hrest⟩

/-- All that moves is one request. -/
theorem AllStand.moved (h : AllStand s) (c : ℕ) (htasks : ∀ c', c' ≠ c → s'.tasks c' = s.tasks c')
    (hhandlers : ∀ c', c' ≠ c → s'.world.handlers c' = s.world.handlers c')
    (hc : ∀ t, s'.tasks c = some t → Stands (stageOf s'.world c) t.rest) : AllStand s' := by
  intro c' t ht
  by_cases heq : c' = c
  · subst c'
    exact hc t ht
  · rw [stageOf, hhandlers c' heq]
    exact h c' t (htasks c' heq ▸ ht)

theorem AllStand.unmoved (h : AllStand s) (htasks : s'.tasks = s.tasks)
    (hhandlers : s'.world.handlers = s.world.handlers) : AllStand s' := by
  intro c t ht
  rw [stageOf, hhandlers]
  exact h c t (htasks ▸ ht)

theorem stageOf_enter {stage : Stage} : stageOf (enter w c handler stage) c = some stage := by
  simp [stageOf, enter]

theorem stageOf_leave : stageOf (leave w c handler) c = none := by
  simp [stageOf, leave]

theorem stageOf_some (hc : w.handlers c = some handler) : stageOf w c = some handler.stage := by
  rw [stageOf, hc, Option.map_some]

/-- A sender of a swarm is given to the task that has asked for it. -/
theorem AllStand.connected (h : AllStand s) (hattached : Attached s c) {call : Call}
    (hcall : s.world.manager.calls c = some call) (connected : Bool)
    (htasks : s'.tasks = Function.update s.tasks c
      ((s.tasks c).map fun t => t.answerSwarm connected))
    (hothers : ∀ c', c' ≠ c → s'.world.handlers c' = s.world.handlers c')
    (hstage : connected = true → stageOf s'.world c = some .connected) : AllStand s' := by
  obtain ⟨t, next, ht, hrest⟩ := hattached.call call hcall
  refine h.moved c (fun c' hc' => by simp [htasks, hc']) hothers fun t' ht' => ?_
  have hadvanced : t.advance (.swarm call.tld call.config) next connected = t' := by
    simpa [htasks, ht, TaskState.answerSwarm, hrest] using ht'
  have hstands := h c t ht
  rw [hrest] at hstands
  obtain ⟨-, hrecord, outcome, hnone⟩ := stands_swarm hstands
  rw [← hadvanced]
  cases connected with
  | true =>
    rw [hstage rfl]
    exact .connected hrecord
  | false =>
    show Stands _ (next false)
    rw [hnone]
    exact .done _ _

theorem AllStand.managed (h : AllStand s) (hattached : ∀ c, Attached s c) {a : Action}
    {m : ManagerState} {evs : List Event} (hown : isOwn a = true)
    (hstep : Step s.world.manager a m evs) : AllStand (afterManager s m evs) := by
  cases hstep with
  | call c' tld config _ => cases hown
  | abandon c' call _ => cases hown
  | hit a c call handle hcall _ =>
    refine h.connected (hattached c) hcall true rfl (fun c' hc' => ?_) fun _ => ?_
    · simp [afterManager, applyEvent, hc']
    · simp [stageOf, afterManager, applyEvent]
  | spawn c tld config configClone hcall _ =>
    refine h.connected (hattached c) hcall true rfl (fun c' hc' => ?_) fun _ => ?_
    · simp [afterManager, applyEvent, hc']
    · simp [stageOf, afterManager, applyEvent]
  | newFailed c call hcall =>
    exact h.connected (hattached c) hcall false rfl (fun c' hc' => rfl)
      fun hfalse => absurd hfalse Bool.false_ne_true
  | miss | resolve | tick | advance => exact h.unmoved rfl rfl

/-- A command is sent from the place before the one where its handler waits. -/
theorem stands_sent {q : Question} {next : AnswerTo (slotOf q) → Task} {act : WorldAction}
    {cmd : ℕ → NetworkCommand ℕ} {loop : NodeState ℕ} (h : Stands (stageOf w c) (.ask q next))
    (hc : w.handlers c = some handler) (hact : sendAction c q = some act)
    (hcmd : commandOf q = some cmd) (hloop : w.loops handler.channel = some loop)
    (hw : worldStep parsePeerId w act = some w') : Stands (stageOf w' c) (.ask q next) := by
  cases q with
  | record domain =>
    obtain rfl := Option.some.inj hact
    obtain rfl := Option.some.inj hcmd
    simp only [worldStep, hc, Option.ite_none_right_eq_some, send, hloop,
      Option.some.injEq] at hw
    obtain ⟨-, -, rfl⟩ := hw
    rw [afterSend, stageOf_enter]
    exact .awaitingRecord _ (stands_record h).2
  | peer i peerId request =>
    obtain rfl := Option.some.inj hact
    obtain rfl := Option.some.inj hcmd
    simp only [worldStep, hc, Option.ite_none_right_eq_some, send, hloop,
      Option.some.injEq] at hw
    obtain ⟨-, -, rfl⟩ := hw
    rw [afterSend, stageOf_enter]
    exact .awaitingResponse _ _ _ _ _ (stands_peer h).2
  | swarm | gateway => cases hact

theorem stands_answered {q : Question} {next : AnswerTo (slotOf q) → Task} {rx : ℕ}
    {reply : Reply ℕ} {a : AnswerTo (slotOf q)} (h : Stands (stageOf w c) (.ask q next))
    (hc : w.handlers c = some handler) (hrx : handler.stage.awaits = some rx)
    (hreply : (w.replies.find? fun reply => respOf reply = rx) = some reply)
    (ha : replyTo q reply = some a)
    (hw : worldStep parsePeerId w (.answered c) = some w') : Stands (stageOf w' c) (next a) := by
  have hreceive : receive w c handler handler.stage = some w' := by
    simpa only [worldStep, hc, Option.bind_some] using hw
  rw [stageOf_some hc] at h
  cases q with
  | record domain =>
    obtain ⟨hstage | ⟨rx', hstage⟩, hforwards, ⟨outcome, hnone⟩, -⟩ := stands_record h
    · rw [Option.some.inj hstage] at hrx
      cases hrx
    · rw [Option.some.inj hstage] at hrx hreceive
      obtain rfl := Option.some.inj hrx
      simp only [receive, hreply, Option.map_some, Option.some.injEq] at hreceive
      cases reply with
      | record rx value =>
        obtain rfl := Option.some.inj ha
        cases value with
        | none =>
          rw [← hreceive, stageOf_leave, hnone]
          exact .done _ _
        | some bytes =>
          rw [← hreceive, stageOf_enter]
          exact .routing (hforwards bytes)
      | peer | proxy => cases ha
  | peer i peerId request =>
    obtain ⟨hstage | ⟨rx', hstage⟩, hdone, hforwards⟩ := stands_peer h
    · rw [Option.some.inj hstage] at hrx
      cases hrx
    · rw [Option.some.inj hstage] at hrx hreceive
      obtain rfl := Option.some.inj hrx
      simp only [receive, hreply, Option.map_some, Option.some.injEq] at hreceive
      cases reply with
      | proxy rx response =>
        obtain rfl := Option.some.inj ha
        cases response with
        | none =>
          rw [← hreceive, stageOf_enter]
          exact .routing (hforwards _)
        | some res =>
          obtain ⟨outcome, hres⟩ := hdone res
          rw [← hreceive, stageOf_leave, hres]
          exact .done _ _
      | record | peer => cases ha
  | swarm | gateway => cases reply <;> cases ha

theorem stands_unanswered {q : Question} {next : AnswerTo (slotOf q) → Task}
    {a : AnswerTo (slotOf q)} (h : Stands (stageOf w c) (.ask q next))
    (ha : notAnswered q = some a)
    (hw : worldStep parsePeerId w (.unanswered c) = some w') : Stands (stageOf w' c) (next a) := by
  obtain ⟨handler, hc, hreceive⟩ := Option.bind_eq_some_iff.mp hw
  rw [stageOf_some hc] at h
  cases q with
  | record domain =>
    obtain rfl := Option.some.inj ha
    obtain ⟨hstage | ⟨rx, hstage⟩, -, -, outcome, hdropped⟩ := stands_record h
    · rw [Option.some.inj hstage] at hreceive
      cases hreceive
    · rw [Option.some.inj hstage] at hreceive
      rw [← Option.some.inj hreceive, stageOf_leave, hdropped]
      exact .done _ _
  | peer i peerId request =>
    obtain rfl := Option.some.inj ha
    obtain ⟨hstage | ⟨rx, hstage⟩, -, hforwards⟩ := stands_peer h
    · rw [Option.some.inj hstage] at hreceive
      cases hreceive
    · rw [Option.some.inj hstage] at hreceive
      rw [← Option.some.inj hreceive, stageOf_enter]
      exact .routing (hforwards _)
  | swarm | gateway => cases ha

theorem allStand_step {action : SystemAction}
    (hrun : (system lib globalConfig parsePeerId).Run actions s) (h : AllStand s)
    (hstep : SystemStep lib globalConfig parsePeerId s action s') : AllStand s' := by
  have hattached := attached_run hrun
  cases hstep with
  | accepted registry req =>
    refine h.moved s.accepted (fun c hc => by simp [setTask, hc]) (fun c _ => rfl) fun t ht => ?_
    have hfree : s.world.handlers s.accepted = none := by
      refine Option.eq_none_iff_forall_ne_some.mpr fun handler hhandler => ?_
      obtain ⟨t, -, ht, -⟩ := (hattached _).handler handler hhandler
      rw [numbered_run hrun s.accepted (Nat.le_refl _)] at ht
      cases ht
    obtain rfl : ⟨registry, req, handler lib globalConfig registry req, []⟩ = t := by
      simpa [setTask] using ht
    have hstage : stageOf s.world s.accepted = none := by rw [stageOf, hfree, Option.map_none]
    show Stands (stageOf s.world s.accepted) _
    rw [hstage]
    rcases handler_atSwarm lib globalConfig registry req with hswarm | ⟨outcome, hdone⟩
    · exact .swarm hswarm
    · simp only [hdone]
      exact .done _ _
  | called c t tld config next w _ _ hw =>
    obtain ⟨-, hw⟩ := Option.ite_none_left_eq_some.mp hw
    obtain ⟨⟨m, evs⟩, hm, rfl⟩ := Option.map_eq_some_iff.mp hw
    cases hcalls : s.world.manager.calls c with
    | none =>
      simp only [managerStep, hcalls, Option.some.injEq, Prod.mk.injEq] at hm
      obtain ⟨-, rfl⟩ := hm
      exact h.unmoved rfl rfl
    | some call => simp [managerStep, hcalls] at hm
  | managed a m evs hown hm => exact h.managed hattached hown (step_of_managerStep hm)
  | sent c t handler q next act cmd w loop ht hc hrest hact hcmd hloop hw =>
    obtain ⟨stage, -, hafter⟩ := world_send hc hact hcmd hloop hw
    refine h.moved c (fun c' _ => rfl) (fun c' hc' => ?_) fun t' ht' => ?_
    · show w.handlers c' = s.world.handlers c'
      rw [hafter]
      simp [afterSend, enter, hc']
    · obtain rfl : t = t' := Option.some.inj (ht.symm.trans ht')
      have hstands := h c t ht
      rw [hrest] at hstands ⊢
      exact stands_sent hstands hc hact hcmd hloop hw
  | unsent c t handler q next act a w _ hc _ hended _ =>
    exact (handler_running hrun hc hended).elim
  | answered c t handler rx reply q next a w ht hc hrx hreply hrest ha hw =>
    refine h.moved c (fun c' hc' => by simp [setTask, hc']) (atHandler_answered hw).others
      fun t' ht' => ?_
    obtain rfl : t.advance q next a = t' := by simpa [setTask] using ht'
    exact stands_answered (hrest ▸ h c t ht) hc hrx hreply ha hw
  | unanswered c t q next a w ht hrest ha hw =>
    refine h.moved c (fun c' hc' => by simp [setTask, hc']) (atHandler_unanswered hw).others
      fun t' ht' => ?_
    obtain rfl : t.advance q next a = t' := by simpa [setTask] using ht'
    exact stands_unanswered (hrest ▸ h c t ht) ha hw
  | gateway c t reply q next a ht hrest ha =>
    refine h.moved c (fun c' hc' => by simp [setTask, hc']) (fun c' _ => rfl) fun t' ht' => ?_
    obtain rfl : t.advance q next a = t' := by simpa [setTask] using ht'
    have hstands := h c t ht
    rw [hrest] at hstands
    cases q with
    | gateway i method url headers body =>
      obtain ⟨hstage, hforwards⟩ := stands_gateway hstands
      show Stands (stageOf s.world c) (next a)
      rw [hstage]
      exact .routing (hforwards a)
    | swarm | record | peer => cases ha
  | finished c t outcome _ _ =>
    refine h.moved c (fun c' hc' => by simp [setTask, hc']) atHandler_done.others
      fun t' ht' => ?_
    simp [setTask] at ht'
  | cancelled c =>
    refine h.moved c (fun c' hc' => by simp [setTask, hc']) (fun c' hc' => handlers_without hc')
      fun t' ht' => ?_
    simp [setTask] at ht'
  | node n input w hw => exact h.unmoved rfl (world_node hw).1

theorem allStand_run (hrun : (system lib globalConfig parsePeerId).Run actions s) :
    AllStand s := by
  refine Machine.Run.invariant (P := fun _ s => AllStand s) ?_ ?_ hrun
  · intro c t ht
    cases ht
  · intro _ s action s' hrun h hstep
    exact allStand_step hrun h (system_step hstep)

def isLookup : NetworkCommand ℕ → Bool
  | .lookupPeer _ _ => true
  | _ => false

def isPeer : Reply ℕ → Bool
  | .peer _ _ => true
  | _ => false

structure Undialled (w : World) : Prop where
  queued : ∀ n, ∀ cmd ∈ w.queues n, isLookup cmd = false
  dials : ∀ n loop, w.loops n = some loop → ∀ peerId, loop.pendingDials peerId = none
  replies : ∀ reply ∈ w.replies, isPeer reply = false

theorem Undialled.same (h : Undialled w) (hqueues : w'.queues = w.queues)
    (hloops : w'.loops = w.loops) (hreplies : w'.replies = w.replies) : Undialled w' := by
  refine ⟨?_, ?_, ?_⟩
  · rw [hqueues]
    exact h.queued
  · rw [hloops]
    exact h.dials
  · rw [hreplies]
    exact h.replies

theorem Undialled.applyEvent (h : Undialled w) (ev : Event) : Undialled (applyEvent w ev) := by
  cases ev with
  | collected evicted => exact h.same rfl rfl rfl
  | returned c tld config sender => cases sender <;> exact h.same rfl rfl rfl
  | spawned tld n =>
    refine ⟨fun m cmd hcmd => ?_, fun m loop hloop => ?_, h.replies⟩
    · by_cases hm : m = n
      · subst m
        simp [SwarmLifetime.applyEvent] at hcmd
      · exact h.queued m cmd (by simpa [SwarmLifetime.applyEvent, hm] using hcmd)
    · rcases loops_spawned hloop with hold | rfl
      · exact h.dials m loop hold
      · exact fun _ => rfl

theorem Undialled.sent (h : Undialled w) {cmd : NetworkCommand ℕ} (stage : Stage)
    (hcmd : isLookup cmd = false) : Undialled (afterSend w c handler cmd stage) := by
  refine ⟨fun n queued hqueued => ?_, h.dials, h.replies⟩
  by_cases hn : n = handler.channel
  · subst n
    have hmem : queued ∈ w.queues handler.channel ++ [cmd] := by
      simpa [afterSend, enter] using hqueued
    rcases List.mem_append.mp hmem with hold | hnew
    · exact h.queued _ queued hold
    · rw [List.mem_singleton.mp hnew]
      exact hcmd
  · exact h.queued n queued (by simpa [afterSend, enter, hn] using hqueued)

theorem undialled_send {cmd : ℕ → NetworkCommand ℕ} {stage : ℕ → Stage} {failed : World → World}
    (h : Undialled w) (hcmd : ∀ rx, isLookup (cmd rx) = false)
    (hfailed : ∀ w, Undialled w → Undialled (failed w))
    (hsend : send w c handler cmd stage failed = some w') : Undialled w' := by
  unfold send at hsend
  split at hsend
  · obtain rfl := Option.some.inj hsend
    exact hfailed _ (h.same rfl rfl rfl)
  · obtain ⟨-, hsent⟩ := Option.ite_none_right_eq_some.mp hsend
    obtain rfl := Option.some.inj hsent
    exact h.sent _ (hcmd _)

theorem Undialled.turned (h : Undialled w) {n : ℕ} {rest : List (NetworkCommand ℕ)}
    {turn : Turn ℕ} (hrest : ∀ cmd ∈ rest, isLookup cmd = false)
    (hdials : ∀ peerId, turn.state.pendingDials peerId = none)
    (hreply : ∀ reply, turn.reply = some reply → isPeer reply = false) :
    Undialled (afterTurn w n rest (some turn)) := by
  refine ⟨fun m cmd hcmd => ?_, fun m loop hloop => ?_, fun reply hmem => ?_⟩
  · by_cases hm : m = n
    · subst m
      exact hrest cmd (by simpa [afterTurn] using hcmd)
    · exact h.queued m cmd (by simpa [afterTurn, hm] using hcmd)
  · by_cases hm : m = n
    · subst m
      obtain rfl : turn.state = loop := by simpa [afterTurn] using hloop
      exact hdials
    · exact h.dials m loop (by simpa [afterTurn, hm] using hloop)
  · have hmem : reply ∈ w.replies ++ turn.reply.toList := hmem
    rcases List.mem_append.mp hmem with hold | hnew
    · exact h.replies reply hold
    · exact hreply reply (by simpa using hnew)

/-- Without dials to settle, an event answers a query or a request. -/
theorem undialled_event {loop : NodeState ℕ} (hdials : ∀ peerId, loop.pendingDials peerId = none)
    (event : SwarmEvent) :
    (∀ peerId, (handleEvent loop event).state.pendingDials peerId = none) ∧
      ∀ reply, (handleEvent loop event).reply = some reply → isPeer reply = false := by
  cases event with
  | outboundQueryProgressed id result =>
    cases hq : loop.pendingQueries id with
    | none => simpa [handleEvent, hq] using hdials
    | some rx => simpa [handleEvent, hq, isPeer] using hdials
  | response id res =>
    cases hr : loop.pendingRequests id with
    | none => simpa [handleEvent, hr] using hdials
    | some rx => simpa [handleEvent, hr, isPeer] using hdials
  | outboundFailure id =>
    cases hr : loop.pendingRequests id with
    | none => simpa [handleEvent, hr] using hdials
    | some rx => simpa [handleEvent, hr, isPeer] using hdials
  | connectionEstablished peerId remoteAddress =>
    simpa [handleEvent, hdials peerId] using hdials
  | outgoingConnectionError peer =>
    cases peer with
    | none => simpa [handleEvent] using hdials
    | some peerId => simpa [handleEvent, hdials peerId] using hdials
  | request | identify | other => simpa [handleEvent] using hdials

variable (parsePeerId) in
theorem undialled_command {loop : NodeState ℕ} {cmd : NetworkCommand ℕ}
    (hdials : ∀ peerId, loop.pendingDials peerId = none) (answers : Libp2pAnswers)
    (hcmd : isLookup cmd = false) :
    (∀ peerId, (handleCommand parsePeerId loop answers cmd).state.pendingDials peerId = none) ∧
      (handleCommand parsePeerId loop answers cmd).reply = none := by
  cases cmd with
  | getRecord domain resp => exact ⟨hdials, rfl⟩
  | sendProxyRequest peerId request resp => exact ⟨hdials, rfl⟩
  | lookupPeer peerIdStr resp => cases hcmd

theorem undialled_node (h : Undialled w) {n : ℕ} {loop : NodeState ℕ} {input : NodeInput}
    (hloop : w.loops n = some loop) (hstep : nodeStep parsePeerId w n loop input = some w') :
    Undialled w' := by
  cases input with
  | event event =>
    obtain rfl := Option.some.inj hstep
    obtain ⟨hdials, hreply⟩ := undialled_event (h.dials n loop hloop) event
    exact h.turned (h.queued n) hdials hreply
  | recv answers =>
    obtain ⟨⟨next, rest⟩, hrecv, rfl⟩ := Option.map_eq_some_iff.mp hstep
    cases hqueue : w.queues n with
    | nil =>
      simp only [recv, hqueue, Option.ite_none_right_eq_some, Option.some.injEq,
        Prod.mk.injEq] at hrecv
      obtain ⟨-, rfl, rfl⟩ := hrecv
      refine ⟨fun m cmd hcmd => ?_, fun m loop' hloop' => ?_, h.replies⟩
      · by_cases hm : m = n
        · subst m
          simp [loopTurn, afterTurn] at hcmd
        · exact h.queued m cmd (by simpa [loopTurn, afterTurn, hm] using hcmd)
      · by_cases hm : m = n
        · subst m
          simp [loopTurn, afterTurn] at hloop'
        · exact h.dials m loop' (by simpa [loopTurn, afterTurn, hm] using hloop')
    | cons first others =>
      simp only [recv, hqueue, Option.some.injEq, Prod.mk.injEq] at hrecv
      obtain ⟨rfl, rfl⟩ := hrecv
      have hall : ∀ cmd ∈ first :: others, isLookup cmd = false := hqueue ▸ h.queued n
      obtain ⟨hdials, hnone⟩ := undialled_command parsePeerId (h.dials n loop hloop) answers
        (hall first List.mem_cons_self)
      refine h.turned (fun cmd hcmd => hall cmd (List.mem_cons_of_mem _ hcmd)) hdials ?_
      intro reply hreply
      rw [hnone] at hreply
      cases hreply

theorem receive_same {stage : Stage} (hstep : receive w c handler stage = some w') :
    w'.queues = w.queues ∧ w'.loops = w.loops ∧ w'.replies = w.replies := by
  cases stage with
  | connected | routing => cases hstep
  | awaitingRecord rx | awaitingResponse rx =>
    obtain ⟨reply, -, rfl⟩ := Option.map_eq_some_iff.mp hstep
    split <;> exact ⟨rfl, rfl, rfl⟩

theorem receiveError_same {stage : Stage} (hstep : receiveError w c handler stage = some w') :
    w'.queues = w.queues ∧ w'.loops = w.loops ∧ w'.replies = w.replies := by
  cases stage with
  | connected | routing => cases hstep
  | awaitingRecord rx | awaitingResponse rx =>
    obtain rfl := Option.some.inj hstep
    exact ⟨rfl, rfl, rfl⟩

theorem undialled_step (h : Undialled w) {a : WorldAction}
    (hstep : worldStep parsePeerId w a = some w') : Undialled w' := by
  cases a with
  | manager a =>
    obtain ⟨-, hstep⟩ := Option.ite_none_left_eq_some.mp hstep
    obtain ⟨⟨m, evs⟩, -, rfl⟩ := Option.map_eq_some_iff.mp hstep
    have hmanager : Undialled { w with manager := m } := h.same rfl rfl rfl
    exact List.foldlRecOn evs _ (motive := Undialled) hmanager fun w' h ev _ => h.applyEvent ev
  | getRecord c domain =>
    cases hc : w.handlers c with
    | none => simp [worldStep, hc] at hstep
    | some handler =>
      simp only [worldStep, hc, Option.ite_none_right_eq_some] at hstep
      refine undialled_send h (fun _ => rfl) (fun w' hw' => ?_) hstep.2
      exact hw'.same rfl rfl rfl
  | sendProxyRequest c peerId request =>
    cases hc : w.handlers c with
    | none => simp [worldStep, hc] at hstep
    | some handler =>
      simp only [worldStep, hc, Option.ite_none_right_eq_some] at hstep
      exact undialled_send h (fun _ => rfl) (fun _ hw' => hw') hstep.2
  | answered c =>
    obtain ⟨handler, -, hreceive⟩ := Option.bind_eq_some_iff.mp hstep
    obtain ⟨hqueues, hloops, hreplies⟩ := receive_same hreceive
    exact h.same hqueues hloops hreplies
  | unanswered c =>
    obtain ⟨handler, -, hreceive⟩ := Option.bind_eq_some_iff.mp hstep
    obtain ⟨hqueues, hloops, hreplies⟩ := receiveError_same hreceive
    exact h.same hqueues hloops hreplies
  | done c =>
    obtain ⟨handler, -, rfl⟩ := Option.map_eq_some_iff.mp hstep
    exact h.same rfl rfl rfl
  | node n input =>
    obtain ⟨loop, hloop, hnode⟩ := Option.bind_eq_some_iff.mp hstep
    exact undialled_node h hloop hnode

theorem undialled_run {is : List WorldAction} (hrun : (world parsePeerId).Run is w) :
    Undialled w := by
  refine Machine.Run.invariant (P := fun _ w => Undialled w) ?_ ?_ hrun
  · refine ⟨fun n cmd hcmd => absurd hcmd List.not_mem_nil, fun n loop hloop => ?_,
      fun reply hreply => absurd hreply List.not_mem_nil⟩
    cases hloop
  · intro _ w a w' _ h hstep
    exact undialled_step h hstep

end KineticAtlas.RequestStages
