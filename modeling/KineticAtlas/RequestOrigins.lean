import KineticAtlas.RequestChannels
import KineticAtlas.Library.UrlPaths

/-!
Where the answers of requests come from (proxy.rs, swarm_manager.rs, network.rs). A handler
has a sender of a node of its own TLD and waits for what its task has asked, so whatever a
request is answered with was an answer to its own command, on a node of its own TLD; and a
node is asked only for names below its TLD.
-/
namespace KineticAtlas.RequestOrigins

open Library.Texts Library.Runs Library.Dialogues KineticAtlas.Types Registry NodeLoop
  SwarmManager SwarmLifetime HandlerTask RequestSystem RequestChannels
open ProxyHandler (HttpRequest HttpResponse Libraries ChannelAnswer handleProxyRequest route
  Route Verifies)
open NodeAccounting (respOf)

variable {parsePeerId : Str → Option PeerId} {s s' : System} {w w' : World} {c : ℕ}
  {handler : Handler} {Reveal : Type} {lib : Libraries Reveal} {globalConfig : AtlasConfig}
  {actions : List SystemAction}

def OfTld (m : ManagerState) (n : ℕ) (tld : Str) : Prop :=
  ∃ node, m.nodes[n]? = some node ∧ node.tld = tld

/-- The command that a handler waits for is the question of its task. -/
def Fits (sent : List Sent) (c : ℕ) (handler : Handler) (t : TaskState) : Prop :=
  ∀ rx, handler.stage.awaits = some rx → ∃ q next cmd, t.rest = .ask q next ∧
    commandOf q = some cmd ∧ ⟨c, handler.channel, cmd rx⟩ ∈ sent

structure Attached (s : System) (c : ℕ) : Prop where
  call : ∀ call, s.world.manager.calls c = some call →
    ∃ t next, s.tasks c = some t ∧ t.rest = .ask (.swarm call.tld call.config) next
  handler : ∀ handler, s.world.handlers c = some handler →
    ∃ t r, s.tasks c = some t ∧ route t.registry t.req = .ok r ∧
      OfTld s.world.manager handler.channel r.cleanTld ∧ Fits s.sent c handler t

theorem attached_of_none (hcall : s.world.manager.calls c = none)
    (hhandler : s.world.handlers c = none) : Attached s c := by
  refine ⟨fun call hsome => ?_, fun handler hsome => ?_⟩
  · rw [hcall] at hsome
    cases hsome
  · rw [hhandler] at hsome
    cases hsome

theorem OfTld.mono {m m' : ManagerState} {n : ℕ} {tld : Str} (h : OfTld m n tld)
    (hnodes : m.nodes <+: m'.nodes) : OfTld m' n tld := by
  obtain ⟨node, hnode, htld⟩ := h
  obtain ⟨more, hmore⟩ := hnodes
  have hlt := (List.getElem?_eq_some_iff.mp hnode).choose
  exact ⟨node, by rw [← hmore, List.getElem?_append_left hlt, hnode], htld⟩

/-- The task and the handler have not moved. -/
theorem Attached.keep (h : Attached s c) (htask : s'.tasks c = s.tasks c)
    (hcall : ∀ call', s'.world.manager.calls c = some call' → ∃ call,
      s.world.manager.calls c = some call ∧ call.tld = call'.tld ∧ call.config = call'.config)
    (hhandler : s'.world.handlers c = s.world.handlers c)
    (hnodes : s.world.manager.nodes <+: s'.world.manager.nodes)
    (hsent : ∀ x ∈ s.sent, x ∈ s'.sent) : Attached s' c := by
  refine ⟨fun call' hcall' => ?_, fun handler hc => ?_⟩
  · obtain ⟨call, hbefore, htld, hconfig⟩ := hcall call' hcall'
    obtain ⟨t, next, ht, hrest⟩ := h.call call hbefore
    exact ⟨t, next, htask.trans ht, htld ▸ hconfig ▸ hrest⟩
  · obtain ⟨t, r, ht, hroute, htld, hfits⟩ := h.handler handler (hhandler ▸ hc)
    refine ⟨t, r, htask.trans ht, hroute, htld.mono hnodes, fun rx hrx => ?_⟩
    obtain ⟨q, next, cmd, hrest, hcmd, hmem⟩ := hfits rx hrx
    exact ⟨q, next, cmd, hrest, hcmd, hsent _ hmem⟩

theorem ask_inj {q q' : Question} {next : AnswerTo (slotOf q) → Task}
    {next' : AnswerTo (slotOf q') → Task}
    (h : (Dialogue.ask q next : Task) = .ask q' next') : q = q' := by
  injection h

/-- A task that asks for anything else than a swarm has no call. -/
theorem Attached.no_call (h : Attached s c) {t : TaskState} (ht : s.tasks c = some t)
    (hrest : ∀ tld config next, t.rest ≠ .ask (.swarm tld config) next) :
    s.world.manager.calls c = none := by
  refine Option.eq_none_iff_forall_ne_some.mpr fun call hcall => ?_
  obtain ⟨t', next, ht', hrest'⟩ := h.call call hcall
  obtain rfl : t = t' := Option.some.inj (ht.symm.trans ht')
  exact hrest _ _ _ hrest'

/-- What a task asks, it asks for its own route. -/
theorem own_question {t : TaskState} {q : Question} {next : AnswerTo (slotOf q) → Task}
    (h : t.Played lib globalConfig) (hrest : t.rest = .ask q next) :
    ∃ r, route t.registry t.req = .ok r ∧ OwnQuestion r t.req q := by
  have hplays := h.1
  rw [hrest] at hplays
  obtain ⟨r, hroute⟩ := route_of_asking hplays (Or.inr ⟨q, next, rfl⟩)
  exact ⟨r, hroute, (Dialogue.asked_of_plays hplays (asks_handler hroute)).2.1⟩

/-- The call of a task has returned. -/
theorem Attached.returned (h : Attached s c) (connected : Bool)
    (hplayed : ∀ t, s.tasks c = some t → t.Played lib globalConfig) {call : Call}
    (hcall : s.world.manager.calls c = some call)
    (htask : s'.tasks c = (s.tasks c).map fun t => t.answerSwarm connected)
    (hdone : s'.world.manager.calls c = none)
    (hhandler : ∀ handler, s'.world.handlers c = some handler →
      handler.stage.awaits = none ∧ OfTld s'.world.manager handler.channel call.tld) :
    Attached s' c := by
  refine ⟨fun call' hcall' => ?_, fun handler hc => ?_⟩
  · rw [hdone] at hcall'
    cases hcall'
  · obtain ⟨t, next, ht, hrest⟩ := h.call call hcall
    obtain ⟨r, hroute, htld, -⟩ := own_question (hplayed t ht) hrest
    obtain ⟨hawaits, hnode⟩ := hhandler handler hc
    have ht' : s'.tasks c = some (t.advance (.swarm call.tld call.config) next connected) := by
      rw [htask, ht, Option.map_some, TaskState.answerSwarm, hrest]
    refine ⟨_, r, ht', hroute, htld ▸ hnode, fun rx hrx => ?_⟩
    rw [hawaits] at hrx
    cases hrx

/-- The state after a step of the manager and its events. -/
def afterManager (s : System) (m : ManagerState) (evs : List Event) : System :=
  { s with
    world := evs.foldl applyEvent { s.world with manager := m }
    tasks := evs.foldl returned s.tasks }

theorem attached_managed (howned : Owned s.world) (h : ∀ c, Attached s c)
    (hplayed : ∀ c t, s.tasks c = some t → t.Played lib globalConfig) {a : Action}
    {m : ManagerState} {evs : List Event} (hown : isOwn a = true)
    (hstep : Step s.world.manager a m evs) (c : ℕ) : Attached (afterManager s m evs) c := by
  cases hstep with
  | call c' tld config _ => cases hown
  | abandon c' call _ => cases hown
  | hit a c' call handle hcall hhit =>
    by_cases hc : c = c'
    · subst c'
      refine (h c).returned true (hplayed c) hcall ?_ ?_ fun handler hc => ?_
      · simp [afterManager, RequestSystem.returned]
      · simp [afterManager, applyEvent, setCall]
      · obtain rfl : ⟨handle.tx, .connected⟩ = handler := by
          simpa [afterManager, applyEvent] using hc
        exact ⟨rfl, howned.entries call.tld handle hhit⟩
    · refine (h c).keep ?_ (fun call' hcall' => ⟨call', ?_, rfl, rfl⟩) ?_ List.prefix_rfl
        fun x hx => hx
      · simp [afterManager, RequestSystem.returned, hc]
      · simpa [afterManager, applyEvent, setCall, hc] using hcall'
      · simp [afterManager, applyEvent, hc]
  | miss c' tld config hcall _ =>
    refine (h c).keep rfl (fun call' hcall' => ?_) rfl List.prefix_rfl fun x hx => hx
    by_cases hc : c = c'
    · subst c'
      obtain rfl : ⟨tld, config, .resolving⟩ = call' := by
        simpa [afterManager, setCall] using hcall'
      exact ⟨_, hcall, rfl, rfl⟩
    · exact ⟨call', by simpa [afterManager, setCall, hc] using hcall', rfl, rfl⟩
  | resolve c' tld config resolved hcall =>
    refine (h c).keep rfl (fun call' hcall' => ?_) rfl List.prefix_rfl fun x hx => hx
    by_cases hc : c = c'
    · subst c'
      obtain rfl : ⟨tld, config, .resolved (withResolved config resolved)⟩ = call' := by
        simpa [afterManager, setCall] using hcall'
      exact ⟨_, hcall, rfl, rfl⟩
    · exact ⟨call', by simpa [afterManager, setCall, hc] using hcall', rfl, rfl⟩
  | spawn c' tld config configClone hcall _ =>
    by_cases hc : c = c'
    · subst c'
      refine (h c).returned true (hplayed c) hcall ?_ ?_ fun handler hc => ?_
      · simp [afterManager, RequestSystem.returned]
      · simp [afterManager, applyEvent, setCall]
      · obtain rfl : ⟨s.world.manager.nodes.length, .connected⟩ = handler := by
          simpa [afterManager, applyEvent] using hc
        exact ⟨rfl, ⟨tld, configClone.networkId, configClone.bootstrapNodes⟩,
          by simp [afterManager, applyEvent, setCall], rfl⟩
    · refine (h c).keep ?_ (fun call' hcall' => ⟨call', ?_, rfl, rfl⟩) ?_
        (List.prefix_append _ _) fun x hx => hx
      · simp [afterManager, RequestSystem.returned, hc]
      · simpa [afterManager, applyEvent, setCall, hc] using hcall'
      · simp [afterManager, applyEvent, hc]
  | newFailed c' call hcall =>
    by_cases hc : c = c'
    · subst c'
      refine (h c).returned false (hplayed c) hcall ?_ ?_ fun handler hc => ?_
      · simp [afterManager, RequestSystem.returned]
      · simp [afterManager, applyEvent, setCall]
      · have hnone := howned.not_handled hcall
        have hsome : s.world.handlers c = some handler := hc
        rw [hnone] at hsome
        cases hsome
    · refine (h c).keep ?_ (fun call' hcall' => ⟨call', ?_, rfl, rfl⟩) rfl List.prefix_rfl
        fun x hx => hx
      · simp [afterManager, RequestSystem.returned, hc]
      · simpa [afterManager, applyEvent, setCall, hc] using hcall'
  | tick | advance =>
    exact (h c).keep rfl (fun call' hcall' => ⟨call', hcall', rfl, rfl⟩) rfl List.prefix_rfl
      fun x hx => hx

/-- A step of one handler and its task leaves all others as they are. -/
theorem Attached.others {c' : ℕ} (h : Attached s c') (hc : c' ≠ c) (hw : AtHandler c s.world w)
    (t : Option TaskState) : Attached (setTask { s with world := w } c t) c' := by
  refine h.keep (by simp [setTask, hc]) (fun call hcall => ⟨call, ?_, rfl, rfl⟩)
    (hw.others c' hc) ?_ fun x hx => hx
  · exact hw.manager ▸ hcall
  · exact hw.manager ▸ List.prefix_rfl

/-- A task that is answered by anything else than its call goes on with its handler. -/
theorem Attached.answered (h : Attached s c) (hw : AtHandler c s.world w) {t : TaskState}
    {q : Question} {next : AnswerTo (slotOf q) → Task} (a : AnswerTo (slotOf q))
    (ht : s.tasks c = some t) (hrest : t.rest = .ask q next)
    (hq : ∀ tld config, q ≠ .swarm tld config) :
    Attached (setTask { s with world := w } c (some (t.advance q next a))) c := by
  have hcall := h.no_call ht fun tld config next' hrest' =>
    hq tld config (ask_inj (hrest.symm.trans hrest'))
  refine ⟨fun call hcall' => ?_, fun handler hc => ?_⟩
  · have hsome : w.manager.calls c = some call := hcall'
    rw [hw.manager, hcall] at hsome
    cases hsome
  · obtain ⟨hawaits, handler', hc', hchannel⟩ := hw.channel handler hc
    obtain ⟨t', r, ht', hroute, htld, -⟩ := h.handler handler' hc'
    obtain rfl : t = t' := Option.some.inj (ht.symm.trans ht')
    refine ⟨t.advance q next a, r, by simp [setTask], hroute, ?_, fun rx hrx => ?_⟩
    · have hnode : OfTld w.manager handler.channel r.cleanTld := by
        rw [hw.manager, ← hchannel]
        exact htld
      exact hnode
    · rw [hawaits] at hrx
      cases hrx

theorem not_swarm_of_replyTo {q : Question} {reply : Reply ℕ} {a : AnswerTo (slotOf q)}
    (h : replyTo q reply = some a) (tld : Str) (config : NetworkConfig) :
    q ≠ .swarm tld config := by
  rintro rfl
  cases reply <;> cases h

theorem not_swarm_of_notAnswered {q : Question} {a : AnswerTo (slotOf q)}
    (h : notAnswered q = some a) (tld : Str) (config : NetworkConfig) :
    q ≠ .swarm tld config := by
  rintro rfl
  cases h

/-- A task that asks a gateway waits for nothing from its node. -/
theorem Attached.gateway (h : Attached s c) {t : TaskState} {q : Question}
    {next : AnswerTo (slotOf q) → Task} {reply : Except Str HttpResponse}
    {a : AnswerTo (slotOf q)} (ht : s.tasks c = some t) (hrest : t.rest = .ask q next)
    (ha : gatewayReply reply q = some a) :
    Attached (setTask s c (some (t.advance q next a))) c := by
  have hcall := h.no_call ht fun tld config next' hrest' => by
    obtain rfl := ask_inj (hrest.symm.trans hrest')
    cases ha
  refine ⟨fun call hcall' => ?_, fun handler hc => ?_⟩
  · rw [show s.world.manager.calls c = some call from hcall'] at hcall
    cases hcall
  · obtain ⟨t', r, ht', hroute, htld, hfits⟩ := h.handler handler hc
    obtain rfl : t = t' := Option.some.inj (ht.symm.trans ht')
    refine ⟨t.advance q next a, r, by simp [setTask], hroute, htld, fun rx hrx => ?_⟩
    obtain ⟨q', next', cmd, hrest', hcmd, -⟩ := hfits rx hrx
    obtain rfl := ask_inj (hrest.symm.trans hrest')
    cases q with
    | gateway => cases hcmd
    | swarm | record | peer => cases ha

theorem attached_step {action : SystemAction}
    (hrun : (system lib globalConfig parsePeerId).Run actions s) (h : ∀ c, Attached s c)
    (hstep : SystemStep lib globalConfig parsePeerId s action s') (c : ℕ) :
    Attached s' c := by
  have hplayed := (faithful_run hrun).tasks
  cases hstep with
  | accepted registry req =>
    by_cases hc : c = s.accepted
    · subst c
      have htask := numbered_run hrun s.accepted (Nat.le_refl _)
      refine attached_of_none (Option.eq_none_iff_forall_ne_some.mpr fun call hcall => ?_)
        (Option.eq_none_iff_forall_ne_some.mpr fun handler hhandler => ?_)
      · obtain ⟨t, -, ht, -⟩ := (h _).call call hcall
        rw [htask] at ht
        cases ht
      · obtain ⟨t, -, ht, -⟩ := (h _).handler handler hhandler
        rw [htask] at ht
        cases ht
    · exact (h c).keep (by simp [setTask, hc]) (fun call hcall => ⟨call, hcall, rfl, rfl⟩) rfl
        List.prefix_rfl fun x hx => hx
  | called c' t tld config next w ht hrest hw =>
    obtain ⟨hfree, hw⟩ := Option.ite_none_left_eq_some.mp hw
    obtain ⟨⟨m, evs⟩, hm, rfl⟩ := Option.map_eq_some_iff.mp hw
    obtain ⟨rfl, rfl⟩ : setCall s.world.manager c' (some ⟨tld, config, .entered⟩) = m ∧
        [] = evs := by
      cases hc' : s.world.manager.calls c' with
      | none => simpa [managerStep, hc'] using hm
      | some call => simp [managerStep, hc'] at hm
    by_cases hc : c = c'
    · subst c'
      refine ⟨fun call hcall => ?_, fun handler hh => ?_⟩
      · obtain rfl : ⟨tld, config, .entered⟩ = call := by simpa [setCall] using hcall
        exact ⟨t, next, ht, hrest⟩
      · have hsome : s.world.handlers c = some handler := hh
        simp [inUse, hsome] at hfree
    · refine (h c).keep rfl (fun call hcall => ⟨call, ?_, rfl, rfl⟩) rfl List.prefix_rfl
        fun x hx => hx
      simpa [setCall, hc] using hcall
  | managed a m evs hown hm =>
    obtain ⟨is, his⟩ := world_run hrun
    exact attached_managed (owned_run his) h hplayed hown (step_of_managerStep hm) c
  | sent c' t handler q next act cmd w loop ht hhandler hrest hact hcmd hloop hw =>
    obtain ⟨stage, hstage, rfl⟩ := world_send hhandler hact hcmd hloop hw
    by_cases hc : c = c'
    · subst c'
      refine ⟨(h c).call, fun handler' hh => ?_⟩
      obtain rfl : ⟨handler.channel, stage⟩ = handler' := by
        simpa [afterSend, enter] using hh
      obtain ⟨t', r, ht', hroute, htld, -⟩ := (h c).handler handler hhandler
      obtain rfl : t = t' := Option.some.inj (ht.symm.trans ht')
      refine ⟨t, r, ht, hroute, htld, fun rx hrx => ⟨q, next, cmd, hrest, hcmd, ?_⟩⟩
      obtain rfl := Option.some.inj (hstage.symm.trans hrx)
      simp
    · exact (h c).keep rfl (fun call hcall => ⟨call, hcall, rfl, rfl⟩)
        (by simp [afterSend, enter, hc]) List.prefix_rfl fun x hx => List.mem_append_left _ hx
  | unsent c' t handler q next act a w _ hhandler _ hended _ =>
    exact (handler_running hrun hhandler hended).elim
  | answered c' t handler rx reply q next a w ht _ _ _ hrest ha hw =>
    have hat := atHandler_answered hw
    by_cases hc : c = c'
    · subst c'
      exact (h c).answered hat a ht hrest (not_swarm_of_replyTo ha)
    · exact (h c).others hc hat _
  | unanswered c' t q next a w ht hrest ha hw =>
    have hat := atHandler_unanswered hw
    by_cases hc : c = c'
    · subst c'
      exact (h c).answered hat a ht hrest (not_swarm_of_notAnswered ha)
    · exact (h c).others hc hat _
  | gateway c' t reply q next a ht hrest ha =>
    by_cases hc : c = c'
    · subst c'
      exact (h c).gateway ht hrest ha
    · exact (h c).keep (by simp [setTask, hc]) (fun call hcall => ⟨call, hcall, rfl, rfl⟩) rfl
        List.prefix_rfl fun x hx => hx
  | finished c' t outcome ht hrest =>
    have hat : AtHandler c' s.world
        ((worldStep parsePeerId s.world (.done c')).getD s.world) := atHandler_done
    by_cases hc : c = c'
    · subst c'
      have hcall := (h c).no_call ht fun tld config next hrest' => by
        rw [hrest] at hrest'
        cases hrest'
      exact attached_of_none (hat.manager ▸ hcall) handlers_done
    · have hother := (h c).others hc hat none
      exact ⟨hother.call, hother.handler⟩
  | cancelled c' =>
    by_cases hc : c = c'
    · subst c'
      refine attached_of_none ?_ handlers_done
      simp [setTask, manager_without, setCall]
    · refine (h c).keep (by simp [setTask, hc]) (fun call hcall => ⟨call, ?_, rfl, rfl⟩)
        (handlers_without hc) ?_ fun x hx => hx
      · simpa [setTask, manager_without, setCall, hc] using hcall
      · simp [setTask, manager_without, setCall]
  | node n input w hw =>
    obtain ⟨hhandlers, hmanager⟩ := world_node hw
    refine (h c).keep rfl (fun call hcall => ⟨call, hmanager ▸ hcall, rfl, rfl⟩) ?_ ?_
      fun x hx => hx
    · exact congrFun hhandlers c
    · exact hmanager ▸ List.prefix_rfl

theorem attached_run (hrun : (system lib globalConfig parsePeerId).Run actions s) :
    ∀ c, Attached s c := by
  refine Machine.Run.invariant (P := fun _ s => ∀ c, Attached s c) ?_ ?_ hrun
  · exact fun c => attached_of_none rfl rfl
  · intro _ s action s' hrun h hstep
    exact attached_step hrun h (system_step hstep)

structure Grows (s s' : System) : Prop where
  nodes : s.world.manager.nodes <+: s'.world.manager.nodes
  sent : ∀ x ∈ s.sent, x ∈ s'.sent
  taken : ∀ x ∈ s.taken, x ∈ s'.taken
  events : ∀ x ∈ s.events, x ∈ s'.events

theorem grows_of_nodes (hnodes : s.world.manager.nodes <+: s'.world.manager.nodes)
    (hsent : s'.sent = s.sent) (htaken : s'.taken = s.taken) (hevents : s'.events = s.events) :
    Grows s s' :=
  ⟨hnodes, fun _ hx => hsent ▸ hx, fun _ hx => htaken ▸ hx, fun _ hx => hevents ▸ hx⟩

theorem manager_foldl (evs : List Event) : (evs.foldl applyEvent w).manager = w.manager := by
  refine List.foldlRecOn evs applyEvent (motive := fun w' => w'.manager = w.manager) rfl ?_
  intro w' h ev _
  cases ev with
  | spawned | collected => exact h
  | returned c tld config sender => cases sender <;> exact h

theorem grows_step {action : SystemAction}
    (hrun : (system lib globalConfig parsePeerId).Run actions s)
    (hstep : SystemStep lib globalConfig parsePeerId s action s') : Grows s s' := by
  cases hstep with
  | accepted | gateway => exact grows_of_nodes List.prefix_rfl rfl rfl rfl
  | called c t tld config next w _ _ hw =>
    obtain ⟨-, hw⟩ := Option.ite_none_left_eq_some.mp hw
    obtain ⟨⟨m, evs⟩, hm, rfl⟩ := Option.map_eq_some_iff.mp hw
    refine grows_of_nodes ?_ rfl rfl rfl
    rw [manager_foldl]
    exact nodes_step (step_of_managerStep hm)
  | managed a m evs _ hm =>
    refine grows_of_nodes ?_ rfl rfl rfl
    rw [manager_foldl]
    exact nodes_step (step_of_managerStep hm)
  | sent c t handler q next act cmd w loop _ hhandler _ hact hcmd hloop hw =>
    obtain ⟨stage, -, rfl⟩ := world_send hhandler hact hcmd hloop hw
    exact ⟨List.prefix_rfl, fun x hx => List.mem_append_left _ hx, fun x hx => hx,
      fun x hx => hx⟩
  | unsent c t handler q next act a w _ hhandler _ hended _ =>
    exact (handler_running hrun hhandler hended).elim
  | answered c t handler rx reply q next a w _ _ _ _ _ _ hw =>
    exact grows_of_nodes ((atHandler_answered hw).manager ▸ List.prefix_rfl) rfl rfl rfl
  | unanswered c t q next a w _ _ _ hw =>
    exact grows_of_nodes ((atHandler_unanswered hw).manager ▸ List.prefix_rfl) rfl rfl rfl
  | finished c t outcome _ _ =>
    exact grows_of_nodes (atHandler_done.manager ▸ List.prefix_rfl) rfl rfl rfl
  | cancelled c =>
    refine grows_of_nodes ?_ rfl rfl rfl
    simp [setTask, manager_without, setCall]
  | node n input w hw =>
    exact ⟨(world_node hw).2 ▸ List.prefix_rfl, fun x hx => hx,
      fun x hx => List.mem_append_left _ hx, fun x hx => List.mem_append_left _ hx⟩

/-- What a request was answered for the record of a name: its own command was taken by a
node of the TLD, and the answer to the query made for it there is the one. -/
def RecordOrigin (s : System) (c : ℕ) (tld domain : Str) (value : Option Bytes) : Prop :=
  ∃ n rx answers result, OfTld s.world.manager n tld ∧ ⟨c, n, .getRecord domain rx⟩ ∈ s.sent ∧
    ⟨n, .getRecord domain rx, answers⟩ ∈ s.taken ∧
    (n, .outboundQueryProgressed answers.queryId result) ∈ s.events ∧ value = result.value

def PeerOrigin (s : System) (c : ℕ) (tld : Str) (peerId : PeerId) (request : ProxyRequest)
    (response : Option ProxyResponse) : Prop :=
  ∃ n rx answers, OfTld s.world.manager n tld ∧
    ⟨c, n, .sendProxyRequest peerId request rx⟩ ∈ s.sent ∧
    ⟨n, .sendProxyRequest peerId request rx, answers⟩ ∈ s.taken ∧
    ((∃ res, response = some res ∧ (n, .response answers.requestId res) ∈ s.events) ∨
      response = none ∧ (n, .outboundFailure answers.requestId) ∈ s.events)

def Origin (s : System) (c : ℕ) (tld : Str) : Exchange slotOf AnswerTo → Prop
  | ⟨.record domain, answer⟩ =>
    ∀ value, answer = ChannelAnswer.answered value → RecordOrigin s c tld domain value
  | ⟨.peer _ peerId request, answer⟩ =>
    ∀ response, answer = ChannelAnswer.answered response →
      PeerOrigin s c tld peerId request response
  | ⟨.swarm _ _, _⟩ => True
  | ⟨.gateway _ _ _ _ _, _⟩ => True

theorem Origin.mono {tld : Str} {e : Exchange slotOf AnswerTo} (h : Origin s c tld e)
    (hgrows : Grows s s') : Origin s' c tld e := by
  obtain ⟨q, answer⟩ := e
  cases q with
  | record domain =>
    intro value hvalue
    obtain ⟨n, rx, answers, result, htld, hsent, htook, hevent, hresult⟩ := h value hvalue
    exact ⟨n, rx, answers, result, htld.mono hgrows.nodes, hgrows.sent _ hsent,
      hgrows.taken _ htook, hgrows.events _ hevent, hresult⟩
  | peer i peerId request =>
    intro response hresponse
    obtain ⟨n, rx, answers, htld, hsent, htook, hcause⟩ := h response hresponse
    refine ⟨n, rx, answers, htld.mono hgrows.nodes, hgrows.sent _ hsent,
      hgrows.taken _ htook, ?_⟩
    rcases hcause with ⟨res, hres, hevent⟩ | ⟨hres, hevent⟩
    · exact Or.inl ⟨res, hres, hgrows.events _ hevent⟩
    · exact Or.inr ⟨hres, hgrows.events _ hevent⟩
  | swarm | gateway => trivial

/-- A reply for the channel of a command sent answers that command. -/
theorem origin_of_reply (h : Wired s) {tld : Str} {n rx : ℕ} {q : Question} {reply : Reply ℕ}
    {cmd : ℕ → NetworkCommand ℕ} {a : AnswerTo (slotOf q)} (htld : OfTld s.world.manager n tld)
    (hcmd : commandOf q = some cmd) (hsent : ⟨c, n, cmd rx⟩ ∈ s.sent)
    (hreply : reply ∈ s.world.replies) (hrx : respOf reply = rx) (ha : replyTo q reply = some a) :
    Origin s c tld ⟨q, a⟩ := by
  cases q with
  | record domain =>
    obtain rfl := Option.some.inj hcmd
    cases reply with
    | record rx' value =>
      obtain rfl : rx' = rx := hrx
      obtain rfl := Option.some.inj ha
      obtain ⟨n', domain', answers, result, htook, hevent, hvalue⟩ := h.replies _ hreply
      obtain ⟨c', hsent'⟩ := h.taken _ htook
      have hsame := h.unique hsent hsent' rfl
      simp only [Sent.mk.injEq, NetworkCommand.getRecord.injEq, and_true] at hsame
      obtain ⟨rfl, rfl, rfl⟩ := hsame
      intro value' hvalue'
      obtain rfl := ChannelAnswer.answered.inj hvalue'
      exact ⟨n, rx', answers, result, htld, hsent, htook, hevent, hvalue⟩
    | peer | proxy => cases ha
  | peer i peerId request =>
    obtain rfl := Option.some.inj hcmd
    cases reply with
    | proxy rx' response =>
      obtain rfl : rx' = rx := hrx
      obtain rfl := Option.some.inj ha
      obtain ⟨n', peerId', request', answers, htook, hcause⟩ := h.replies _ hreply
      obtain ⟨c', hsent'⟩ := h.taken _ htook
      have hsame := h.unique hsent hsent' rfl
      simp only [Sent.mk.injEq, NetworkCommand.sendProxyRequest.injEq, and_true] at hsame
      obtain ⟨rfl, rfl, rfl, rfl⟩ := hsame
      intro response' hresponse'
      obtain rfl := ChannelAnswer.answered.inj hresponse'
      exact ⟨n, rx', answers, htld, hsent, htook, hcause⟩
    | record | peer => cases ha
  | swarm | gateway => cases hcmd

def TracedBy (s : System) (c : ℕ) (registry : TldRegistry) (req : HttpRequest) (trace : Trace) :
    Prop :=
  ∀ r, route registry req = .ok r → ∀ e ∈ trace, Origin s c r.cleanTld e

structure Traced (s : System) : Prop where
  tasks : ∀ c t, s.tasks c = some t → TracedBy s c t.registry t.req t.trace
  finished : ∀ f ∈ s.finished, TracedBy s f.c f.registry f.req f.trace

theorem TracedBy.mono {registry : TldRegistry} {req : HttpRequest} {trace : Trace}
    (h : TracedBy s c registry req trace) (hgrows : Grows s s') :
    TracedBy s' c registry req trace :=
  fun r hroute e he => (h r hroute e he).mono hgrows

theorem TracedBy.advance {t : TaskState} (h : TracedBy s c t.registry t.req t.trace)
    {q : Question} {next : AnswerTo (slotOf q) → Task} {a : AnswerTo (slotOf q)}
    (hnew : ∀ r, route t.registry t.req = .ok r → Origin s c r.cleanTld ⟨q, a⟩) :
    TracedBy s c (t.advance q next a).registry (t.advance q next a).req
      (t.advance q next a).trace := by
  intro r hroute e he
  rcases List.mem_append.mp he with hold | hlast
  · exact h r hroute e hold
  · exact (List.mem_singleton.mp hlast) ▸ hnew r hroute

theorem tracedBy_answerSwarm {t : TaskState} (connected : Bool)
    (h : TracedBy s c t.registry t.req t.trace) :
    TracedBy s c (t.answerSwarm connected).registry (t.answerSwarm connected).req
      (t.answerSwarm connected).trace := by
  unfold TaskState.answerSwarm
  split
  · exact h.advance fun _ _ => trivial
  · exact h

theorem traced_returned {evs : List Event} {tasks : ℕ → Option TaskState}
    (h : ∀ c t, tasks c = some t → TracedBy s c t.registry t.req t.trace) :
    ∀ c t, evs.foldl returned tasks c = some t → TracedBy s c t.registry t.req t.trace := by
  refine List.foldlRecOn evs returned
    (motive := fun tasks => ∀ c t, tasks c = some t → TracedBy s c t.registry t.req t.trace) h ?_
  intro tasks htasks ev _
  cases ev with
  | returned c tld config sender =>
    intro c' t ht
    by_cases hc : c' = c
    · subst c'
      simp only [returned, Function.update_self] at ht
      obtain ⟨t', ht', rfl⟩ := Option.map_eq_some_iff.mp ht
      exact tracedBy_answerSwarm _ (htasks c t' ht')
    · exact htasks c' t (by simpa [returned, hc] using ht)
  | spawned | collected => exact htasks

/-- The tasks are as before but for one, which has been answered once more. -/
theorem Traced.advance (h : Traced s) (hgrows : Grows s s') {t : TaskState} {q : Question}
    {next : AnswerTo (slotOf q) → Task} {a : AnswerTo (slotOf q)} (ht : s.tasks c = some t)
    (htasks : s'.tasks = Function.update s.tasks c (some (t.advance q next a)))
    (hfinished : s'.finished = s.finished)
    (hnew : ∀ r, route t.registry t.req = .ok r → Origin s c r.cleanTld ⟨q, a⟩) :
    Traced s' := by
  refine ⟨fun c' t' ht' => ?_, fun f hf => (h.finished f (hfinished ▸ hf)).mono hgrows⟩
  rw [htasks] at ht'
  by_cases hc : c' = c
  · subst c'
    obtain rfl : t.advance q next a = t' := by simpa using ht'
    exact ((h.tasks c t ht).advance hnew).mono hgrows
  · exact (h.tasks c' t' (by simpa [hc] using ht')).mono hgrows

theorem Traced.keep (h : Traced s) (hgrows : Grows s s')
    (htasks : ∀ c t, s'.tasks c = some t → s.tasks c = some t)
    (hfinished : s'.finished = s.finished) : Traced s' :=
  ⟨fun c t ht => (h.tasks c t (htasks c t ht)).mono hgrows,
    fun f hf => (h.finished f (hfinished ▸ hf)).mono hgrows⟩

theorem traced_step {action : SystemAction}
    (hrun : (system lib globalConfig parsePeerId).Run actions s) (h : Traced s)
    (hstep : SystemStep lib globalConfig parsePeerId s action s') : Traced s' := by
  have hgrows := grows_step hrun hstep
  have hgone : ∀ c c' t, Function.update s.tasks c none c' = some t → s.tasks c' = some t := by
    intro c c' t ht
    by_cases hc : c' = c
    · simp [hc] at ht
    · simpa [hc] using ht
  cases hstep with
  | accepted registry req =>
    refine ⟨fun c t ht => ?_, fun f hf => (h.finished f hf).mono hgrows⟩
    by_cases hc : c = s.accepted
    · obtain rfl : ⟨registry, req, handler lib globalConfig registry req, []⟩ = t := by
        simpa [setTask, hc] using ht
      exact fun r _ e he => absurd he List.not_mem_nil
    · exact (h.tasks c t (by simpa [setTask, hc] using ht)).mono hgrows
  | called | sent | node => exact h.keep hgrows (fun _ _ ht => ht) rfl
  | managed a m evs _ _ =>
    exact ⟨fun c t ht => (traced_returned h.tasks c t ht).mono hgrows,
      fun f hf => (h.finished f hf).mono hgrows⟩
  | unsent c t handler q next act a w _ hhandler _ hended _ =>
    exact (handler_running hrun hhandler hended).elim
  | answered c t handler rx reply q next a w ht hhandler hrx hreply hrest ha _ =>
    refine h.advance hgrows ht rfl rfl fun r hroute => ?_
    obtain ⟨t', r', ht', hroute', htld, hfits⟩ := (attached_run hrun c).handler handler hhandler
    obtain rfl : t = t' := Option.some.inj (ht.symm.trans ht')
    obtain rfl : r = r' := Except.ok.inj (hroute.symm.trans hroute')
    obtain ⟨q', next', cmd, hrest', hcmd, hsent⟩ := hfits rx hrx
    obtain rfl := ask_inj (hrest.symm.trans hrest')
    exact origin_of_reply (wired_run hrun) htld hcmd hsent (List.mem_of_find?_eq_some hreply)
      (by simpa using List.find?_some hreply) ha
  | unanswered c t q next a w ht _ ha _ =>
    refine h.advance hgrows ht rfl rfl fun r _ => ?_
    cases q with
    | record domain =>
      obtain rfl := Option.some.inj ha
      intro value hvalue
      cases hvalue
    | peer i peerId request =>
      obtain rfl := Option.some.inj ha
      intro response hresponse
      cases hresponse
    | swarm | gateway => cases ha
  | gateway c t reply q next a ht _ ha =>
    refine h.advance hgrows ht rfl rfl fun r _ => ?_
    cases q with
    | gateway => trivial
    | swarm | record | peer => cases ha
  | finished c t outcome ht _ =>
    refine ⟨fun c' t' ht' => (h.tasks c' t' (hgone c c' t' ht')).mono hgrows, fun f hf => ?_⟩
    rcases List.mem_append.mp hf with hold | hlast
    · exact (h.finished f hold).mono hgrows
    · obtain rfl := List.mem_singleton.mp hlast
      exact (h.tasks c t ht).mono hgrows
  | cancelled c => exact h.keep hgrows (hgone c) rfl

theorem traced_run (hrun : (system lib globalConfig parsePeerId).Run actions s) : Traced s := by
  refine Machine.Run.invariant (P := fun _ s => Traced s) ?_ ?_ hrun
  · refine ⟨fun c t ht => ?_, fun f hf => absurd hf List.not_mem_nil⟩
    cases ht
  · intro _ s action s' hrun h hstep
    exact traced_step hrun h (system_step hstep)

/-- Whatever a request has been answered through a oneshot channel, for a record or by a
peer, was the answer to its own command, made for its own name and request by a node that
was spawned for its TLD, under the id which that command was given there. -/
theorem answers_own (hrun : (system lib globalConfig parsePeerId).Run actions s) :
    ∀ f ∈ s.finished, ∀ r, route f.registry f.req = .ok r →
      (∀ domain value, ⟨.record domain, ChannelAnswer.answered value⟩ ∈ f.trace →
        domain = r.baseDomain ∧ RecordOrigin s f.c r.cleanTld domain value) ∧
      ∀ i peerId request response,
        ⟨.peer i peerId request, ChannelAnswer.answered response⟩ ∈ f.trace →
          (∃ body, f.req.body = some body ∧ request = forwarded f.req body) ∧
            PeerOrigin s f.c r.cleanTld peerId request response := by
  intro f hf r hroute
  have hplays := ((faithful_run hrun).finished f hf).1
  have hown := (Dialogue.asked_of_plays hplays (asks_handler hroute)).1
  have horigin := (traced_run hrun).finished f hf r hroute
  refine ⟨fun domain value he => ?_, fun i peerId request response he => ?_⟩
  · exact ⟨hown _ he, horigin _ he value rfl⟩
  · exact ⟨hown _ he, horigin _ he response rfl⟩

/-- The record of one request and the lack of one of the other each come from the query for
their own name. -/
theorem answers_own_two :
    ∃ s, (system ProxyHandler.sampleLibraries ProxyHandler.globalDefaults fun _ => none).Run
        twoRequests s ∧ RecordOrigin s 0 ".kin" "a.kin" (some ProxyHandler.revealOfA) ∧
      RecordOrigin s 1 ".kin" "b.kin" none := by
  have hrun := (system ProxyHandler.sampleLibraries ProxyHandler.globalDefaults
    fun _ => none).run_get twoRequests (by decide +kernel)
  have hown := answers_own hrun
  obtain ⟨-, hzero⟩ := (hown _ (List.mem_of_getElem? (i := 1) rfl) _ rfl).1 _ _
    (List.mem_of_getElem? (i := 1) rfl)
  obtain ⟨-, hone⟩ := (hown _ (List.mem_of_getElem? (i := 0) rfl) _ rfl).1 _ _
    (List.mem_of_getElem? (i := 1) rfl)
  exact ⟨_, hrun, hzero, hone⟩

theorem record_of_content {registry : TldRegistry} {req : HttpRequest}
    {answers : ProxyHandler.Answers} {response : HttpResponse}
    (h : (handleProxyRequest lib globalConfig registry answers req).result = .ok response) :
    ∃ r bytes, route registry req = .ok r ∧ answers.record = .answered (some bytes) ∧
      Verifies lib r.config.networkId bytes := by
  cases hroute : route registry req with
  | error e => simp [ProxyHandler.handled_of_route_error hroute] at h
  | ok r =>
    simp only [handleProxyRequest, hroute] at h
    split at h
    · split at h
      · cases h
      · rename_i hswarm _ bytes hrecord
        have hresolved : ProxyHandler.Resolved
            (handleProxyRequest lib globalConfig registry answers req) := by
          intro e he
          simp only [handleProxyRequest, hroute, hswarm, hrecord] at he
          cases he.symm.trans h
        exact ⟨r, bytes, rfl, hrecord,
          (ProxyHandler.resolved_iff_verifies hroute hswarm hrecord).mp hresolved⟩
      · cases h
    · cases h

/-- A request is answered with content only after a record has verified for its network that
was found by its own query, for its own base domain, on a node of its own TLD, whatever
other requests were under way. -/
theorem content_from_own_record (hrun : (system lib globalConfig parsePeerId).Run actions s) :
    ∀ f ∈ s.finished, ∀ response, f.outcome = .ok response →
      ∃ r bytes, route f.registry f.req = .ok r ∧ Verifies lib r.config.networkId bytes ∧
        RecordOrigin s f.c r.cleanTld r.baseDomain (some bytes) := by
  intro f hf response hresponse
  obtain ⟨hplays, -⟩ := (faithful_run hrun).finished f hf
  obtain ⟨oracle, hagrees, hunasked, hhandled⟩ := handled_of_plays hplays
  have hresult : (handleProxyRequest lib globalConfig f.registry (answersOf oracle)
      f.req).result = .ok response := by rw [hhandled, hresponse]
  obtain ⟨r, bytes, hroute, hrecord, hverifies⟩ := record_of_content hresult
  refine ⟨r, bytes, hroute, hverifies, ?_⟩
  have hasked : Slot.record ∈ slots f.trace := by
    by_contra hnot
    cases (hunasked _ hnot).symm.trans hrecord
  obtain ⟨⟨q, a⟩, he, hq⟩ := List.mem_map.mp hasked
  have hown := (Dialogue.asked_of_plays hplays (asks_handler hroute)).1 _ he
  cases q with
  | record domain =>
    obtain rfl : domain = r.baseDomain := hown
    exact (traced_run hrun).finished f hf r hroute _ he (some bytes)
      ((hagrees _ he).symm.trans hrecord)
  | swarm | gateway | peer => cases hq

theorem content_from_own_record_hello :
    ∃ s, (system ProxyHandler.sampleLibraries ProxyHandler.globalDefaults fun _ => none).Run
        twoRequests s ∧ ∃ f ∈ s.finished, f.outcome = .ok ⟨200, [], ProxyHandler.ascii "hello"⟩ ∧
      ∃ r bytes, route f.registry f.req = .ok r ∧
        Verifies ProxyHandler.sampleLibraries r.config.networkId bytes ∧
          RecordOrigin s f.c r.cleanTld r.baseDomain (some bytes) := by
  have hrun := (system ProxyHandler.sampleLibraries ProxyHandler.globalDefaults
    fun _ => none).run_get twoRequests (by decide +kernel)
  exact ⟨_, hrun, _, List.mem_of_getElem? (i := 1) rfl, rfl,
    content_from_own_record hrun _ (List.mem_of_getElem? (i := 1) rfl) _ rfl⟩

theorem label_of_extract {fullDomain cleanTld baseDomain subdomain : Str}
    (h : HostSplit.extractBaseDomainAndSubdomain fullDomain cleanTld =
      some (baseDomain, subdomain)) : ∃ label, '.' ∉ label ∧ baseDomain = label ++ cleanTld := by
  unfold HostSplit.extractBaseDomainAndSubdomain at h
  simp only at h
  split at h
  · cases h
  · cases h
  · rename_i first rest _ hparts
    obtain ⟨rfl, -⟩ := Prod.mk.inj (Option.some.inj h)
    have hmem : (first :: rest).getLast (List.cons_ne_nil first rest) ∈
        (trimEndMatches cleanTld fullDomain).splitOn '.' := by
      rw [hparts]
      exact List.getLast_mem _
    exact ⟨_, Library.UrlPaths.notMem_of_mem_splitOn hmem, rfl⟩

/-- The name is one label below the TLD of the node it is sent to. -/
def Isolated (s : System) (x : Sent) : Prop :=
  ∀ domain rx, x.command = .getRecord domain rx →
    ∃ tld label, OfTld s.world.manager x.channel tld ∧ '.' ∉ label ∧ domain = label ++ tld

theorem Isolated.mono {x : Sent} (h : Isolated s x) (hgrows : Grows s s') : Isolated s' x := by
  intro domain rx hx
  obtain ⟨tld, label, htld, hlabel⟩ := h domain rx hx
  exact ⟨tld, label, htld.mono hgrows.nodes, hlabel⟩

theorem isolated_run (hrun : (system lib globalConfig parsePeerId).Run actions s) :
    ∀ x ∈ s.sent, Isolated s x := by
  refine Machine.Run.invariant (P := fun _ s => ∀ x ∈ s.sent, Isolated s x)
    (by simp [system]) ?_ hrun
  intro _ s action s' hrun h hstep
  have hstep := system_step hstep
  have hgrows := grows_step hrun hstep
  have hkeep : s'.sent = s.sent → ∀ x ∈ s'.sent, Isolated s' x :=
    fun hsent x hx => (h x (hsent ▸ hx)).mono hgrows
  cases hstep with
  | sent c t handler q next act cmd w loop ht hhandler hrest _ hcmd _ _ =>
    intro x hx
    rcases List.mem_append.mp hx with hold | hlast
    · exact (h x hold).mono hgrows
    · obtain rfl := List.mem_singleton.mp hlast
      refine Isolated.mono ?_ hgrows
      intro domain rx hx
      obtain ⟨t', r, ht', hroute, htld, -⟩ := (attached_run hrun c).handler handler hhandler
      obtain rfl : t = t' := Option.some.inj (ht.symm.trans ht')
      obtain ⟨r', hroute', hown⟩ := own_question ((faithful_run hrun).tasks c t ht) hrest
      obtain rfl : r = r' := Except.ok.inj (hroute.symm.trans hroute')
      cases q with
      | record domain' =>
        obtain rfl := Option.some.inj hcmd
        obtain ⟨rfl, -⟩ := NetworkCommand.getRecord.inj hx
        obtain ⟨label, hdot, hlabel⟩ :=
          label_of_extract (ProxyHandler.route_parts hroute).2.2.2
        exact ⟨r.cleanTld, label, htld, hdot, (show _ = _ from hown).trans hlabel⟩
      | peer i peerId request =>
        obtain rfl := Option.some.inj hcmd
        cases hx
      | swarm | gateway => cases hcmd
  | accepted | called | managed | unsent | answered | unanswered | gateway | finished
  | cancelled | node => exact hkeep rfl

/-- In every run each query of a node is for the TLD that the node was spawned for with one
label in front of it, which is empty for a host such as a..kin; no name of another TLD is ever
looked up on it. -/
theorem queries_isolated (hrun : (system lib globalConfig parsePeerId).Run actions s) :
    ∀ x ∈ s.taken, ∀ domain rx, x.command = .getRecord domain rx →
      ∃ node label, s.world.manager.nodes[x.node]? = some node ∧ '.' ∉ label ∧
        domain = label ++ node.tld := by
  intro x hx domain rx hdomain
  obtain ⟨c, hsent⟩ := (wired_run hrun).taken x hx
  obtain ⟨tld, label, ⟨node, hnode, rfl⟩, hdot, hlabel⟩ :=
    isolated_run hrun _ hsent domain rx hdomain
  exact ⟨node, label, hnode, hdot, hlabel⟩

theorem queries_isolated_two :
    ∃ s, (system ProxyHandler.sampleLibraries ProxyHandler.globalDefaults fun _ => none).Run
        twoRequests s ∧ ∃ x ∈ s.taken, x.command = .getRecord "b.kin" 1 ∧
      ∃ node label, s.world.manager.nodes[x.node]? = some node ∧ '.' ∉ label ∧
        "b.kin".toList = label ++ node.tld := by
  have hrun := (system ProxyHandler.sampleLibraries ProxyHandler.globalDefaults
    fun _ => none).run_get twoRequests (by decide +kernel)
  exact ⟨_, hrun, _, List.mem_of_getElem? (i := 1) rfl, rfl,
    queries_isolated hrun _ (List.mem_of_getElem? (i := 1) rfl) _ _ rfl⟩

end KineticAtlas.RequestOrigins
