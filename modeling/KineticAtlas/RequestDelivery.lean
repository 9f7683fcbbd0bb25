import KineticAtlas.RequestStages

/-!
No command is lost, doubled or overtaken on its way (proxy.rs, network.rs). What handlers
have sent to a node is what the node has taken, in the same order, and what still waits in
its channel; and a request has sent one command for each question of its task that is one.
-/
namespace KineticAtlas.RequestDelivery

open Library.Texts Library.Runs Library.Dialogues KineticAtlas.Types Registry NodeLoop
  SwarmManager SwarmLifetime HandlerTask RequestSystem RequestChannels RequestOrigins
  RequestStages
open ProxyHandler (HttpRequest HttpResponse Libraries)

def takenOf (s : System) (n : ℕ) : List (NetworkCommand ℕ) :=
  (s.taken.filter fun x => x.node = n).map Taken.command

def sentTo (s : System) (n : ℕ) : List (NetworkCommand ℕ) :=
  (s.sent.filter fun x => x.channel = n).map Sent.command

structure InOrder (s : System) : Prop where
  delivered : ∀ n, takenOf s n ++ s.world.queues n = sentTo s n
  spawned : ∀ x ∈ s.sent, x.channel < s.world.manager.nodes.length

variable {Reveal : Type} {lib : Libraries Reveal} {globalConfig : AtlasConfig}
  {parsePeerId : Str → Option PeerId} {s s' : System} {w w' : World} {c c' n : ℕ}
  {handler : Handler} {actions : List SystemAction}

theorem InOrder.keep (h : InOrder s) (hqueues : s'.world.queues = s.world.queues)
    (hnodes : s.world.manager.nodes <+: s'.world.manager.nodes) (hsent : s'.sent = s.sent)
    (htaken : s'.taken = s.taken) : InOrder s' := by
  refine ⟨fun n => ?_, fun x hx => ?_⟩
  · rw [takenOf, sentTo, htaken, hqueues, hsent]
    exact h.delivered n
  · rw [hsent] at hx
    exact lt_of_lt_of_le (h.spawned x hx) hnodes.length_le

/-- Nothing has been sent to a node that is not there yet. -/
theorem InOrder.unused (h : InOrder s) : s.world.queues s.world.manager.nodes.length = [] := by
  have hnone : sentTo s s.world.manager.nodes.length = [] := by
    rw [sentTo, List.map_eq_nil_iff, List.filter_eq_nil_iff]
    intro x hx
    have hlt := h.spawned x hx
    rw [decide_eq_true_eq]
    omega
  have hboth := h.delivered s.world.manager.nodes.length
  rw [hnone] at hboth
  exact (List.append_eq_nil_iff.mp hboth).2

theorem queues_done : ((worldStep parsePeerId w (.done c)).getD w).queues = w.queues := by
  cases hc : w.handlers c with
  | none => simp [worldStep, hc]
  | some handler => simp [worldStep, hc, leave]

theorem queues_without : (worldWithout parsePeerId w c).queues = w.queues := by
  unfold worldWithout
  rw [queues_done, world_abandon]

theorem queues_managed (h : InOrder s) {a : Action} {m : ManagerState} {evs : List Event}
    (hstep : Step s.world.manager a m evs) :
    (afterManager s m evs).world.queues = s.world.queues := by
  cases hstep with
  | spawn c tld config configClone _ _ =>
    exact Function.update_eq_self_iff.mpr h.unused.symm
  | call | hit | miss | resolve | newFailed | abandon | tick | advance => rfl

theorem InOrder.sent (h : InOrder s) {cmd : NetworkCommand ℕ} {stage : Stage}
    (hchannel : handler.channel < s.world.manager.nodes.length) :
    InOrder
      { s with
        world := afterSend s.world c handler cmd stage
        sent := s.sent ++ [⟨c, handler.channel, cmd⟩] } := by
  refine ⟨fun n => ?_, fun x hx => ?_⟩
  · have hbefore := h.delivered n
    by_cases hn : n = handler.channel
    · subst n
      simp only [takenOf, sentTo, afterSend, enter, Function.update_self, List.filter_append,
        List.map_append] at hbefore ⊢
      rw [← List.append_assoc, hbefore]
      simp
    · simp only [takenOf, sentTo, afterSend, enter, Function.update_of_ne hn,
        List.filter_append, List.map_append] at hbefore ⊢
      rw [hbefore]
      simp [Ne.symm hn]
  · rcases List.mem_append.mp hx with hold | hnew
    · exact h.spawned x hold
    · rw [List.mem_singleton.mp hnew]
      exact hchannel

theorem InOrder.node (h : InOrder s) {input : NodeInput}
    (hstep : worldStep parsePeerId s.world (.node n input) = some w) :
    InOrder
      { s with
        world := w
        taken := s.taken ++ takenBy s.world n input
        events := s.events ++ eventsOf n input } := by
  refine ⟨fun m => ?_, fun x hx => ?_⟩
  · have hbefore := h.delivered m
    obtain ⟨loop, -, hnode⟩ := Option.bind_eq_some_iff.mp hstep
    cases input with
    | event event =>
      obtain rfl := Option.some.inj hnode
      simpa [takenOf, sentTo, takenBy, afterTurn, loopTurn] using hbefore
    | recv answers =>
      obtain ⟨⟨next, rest⟩, hrecv, rfl⟩ := Option.map_eq_some_iff.mp hnode
      cases hqueue : s.world.queues n with
      | nil =>
        simp only [recv, hqueue, Option.ite_none_right_eq_some, Option.some.injEq,
          Prod.mk.injEq] at hrecv
        obtain ⟨-, rfl, rfl⟩ := hrecv
        by_cases hm : m = n
        · subst m
          simpa [takenOf, sentTo, takenBy, afterTurn, loopTurn, hqueue] using hbefore
        · simpa [takenOf, sentTo, takenBy, afterTurn, loopTurn, hqueue, hm] using hbefore
      | cons first others =>
        simp only [recv, hqueue, Option.some.injEq, Prod.mk.injEq] at hrecv
        obtain ⟨rfl, rfl⟩ := hrecv
        by_cases hm : m = n
        · subst m
          simpa [takenOf, sentTo, takenBy, afterTurn, loopTurn, hqueue] using hbefore
        · simpa [takenOf, sentTo, takenBy, afterTurn, loopTurn, hqueue, hm, Ne.symm hm]
            using hbefore
  · show x.channel < w.manager.nodes.length
    rw [(world_node hstep).2]
    exact h.spawned x hx

theorem inOrder_step {action : SystemAction}
    (hrun : (system lib globalConfig parsePeerId).Run actions s) (h : InOrder s)
    (hstep : SystemStep lib globalConfig parsePeerId s action s') : InOrder s' := by
  have hnodes := (grows_step hrun hstep).nodes
  cases hstep with
  | accepted | gateway => exact h.keep rfl hnodes rfl rfl
  | called c t tld config next w _ _ hw =>
    obtain ⟨-, hw⟩ := Option.ite_none_left_eq_some.mp hw
    obtain ⟨⟨m, evs⟩, hm, rfl⟩ := Option.map_eq_some_iff.mp hw
    exact h.keep (queues_managed h (step_of_managerStep hm)) hnodes rfl rfl
  | managed a m evs _ hm =>
    exact h.keep (queues_managed h (step_of_managerStep hm)) hnodes rfl rfl
  | sent c t handler q next act cmd w loop _ hc _ hact hcmd hloop hw =>
    obtain ⟨is, his⟩ := world_run hrun
    obtain ⟨stage, -, rfl⟩ := world_send hc hact hcmd hloop hw
    exact h.sent ((owned_run his).channels (.handler c) _ (by simp [holds, hc]))
  | unsent c t handler q next act a w _ hc _ hended _ =>
    exact (handler_running hrun hc hended).elim
  | answered c t handler rx reply q next a w _ _ _ _ _ _ hw =>
    obtain ⟨handler', -, hreceive⟩ := Option.bind_eq_some_iff.mp hw
    exact h.keep (receive_same hreceive).1 hnodes rfl rfl
  | unanswered c t q next a w _ _ _ hw =>
    obtain ⟨handler', -, hreceive⟩ := Option.bind_eq_some_iff.mp hw
    exact h.keep (receiveError_same hreceive).1 hnodes rfl rfl
  | finished c t outcome _ _ => exact h.keep queues_done hnodes rfl rfl
  | cancelled c => exact h.keep queues_without hnodes rfl rfl
  | node n input w hw => exact h.node hw

theorem inOrder_run (hrun : (system lib globalConfig parsePeerId).Run actions s) : InOrder s := by
  refine Machine.Run.invariant (P := fun _ s => InOrder s) ?_ ?_ hrun
  · exact ⟨fun n => rfl, fun x hx => absurd hx List.not_mem_nil⟩
  · intro _ s action s' hrun h hstep
    exact inOrder_step hrun h (system_step hstep)

/-- A list without repetitions in any class, and none across classes. -/
theorem nodup_of_classes {A : Type*} {xs : List A} (key value : A → ℕ)
    (hclass : ∀ n, ((xs.filter fun x => key x = n).map value).Nodup)
    (hacross : ∀ x ∈ xs, ∀ y ∈ xs, value x = value y → key x = key y) :
    (xs.map value).Nodup := by
  induction xs with
  | nil => exact List.nodup_nil
  | cons x rest ih =>
    refine List.nodup_cons.mpr ⟨fun hmem => ?_, ih (fun n => ?_) fun y hy z hz => ?_⟩
    · obtain ⟨y, hy, hvalue⟩ := List.mem_map.mp hmem
      have hkey := hacross y (List.mem_cons_of_mem _ hy) x List.mem_cons_self hvalue
      have hown := hclass (key x)
      rw [List.filter_cons_of_pos (by simp), List.map_cons, List.nodup_cons] at hown
      refine hown.1 (List.mem_map.mpr ⟨y, List.mem_filter.mpr ⟨hy, ?_⟩, hvalue⟩)
      exact decide_eq_true hkey
    · have hsub : ((rest.filter fun y => key y = n).map value).Sublist
          (((x :: rest).filter fun y => key y = n).map value) :=
        ((List.sublist_cons_self x rest).filter _).map value
      exact hsub.nodup (hclass n)
    · exact hacross y (List.mem_cons_of_mem _ hy) z (List.mem_cons_of_mem _ hz)

theorem sent_nodup (h : Wired s) : (s.sent.map fun x => commandRx x.command).Nodup := by
  refine List.nodup_iff_injective_getElem.mpr fun i j hij => Fin.ext ?_
  have hi := h.numbers i _ (List.getElem?_eq_getElem (by simpa using i.isLt))
  have hj := h.numbers j _ (List.getElem?_eq_getElem (by simpa using j.isLt))
  simp only [List.getElem_map] at hij
  rw [← hi, ← hj, hij]

theorem taken_nodup (hwired : Wired s) (h : InOrder s) :
    (s.taken.map fun x => commandRx x.command).Nodup := by
  refine nodup_of_classes Taken.node _ (fun n => ?_) fun x hx y hy hvalue => ?_
  · have hinturn : (takenOf s n).map commandRx <+: (sentTo s n).map commandRx := by
      rw [← h.delivered n, List.map_append]
      exact List.prefix_append _ _
    have hsent : ((sentTo s n).map commandRx).Sublist
        (s.sent.map fun x => commandRx x.command) := by
      rw [sentTo, List.map_map]
      exact List.filter_sublist.map _
    have hnodup := (hinturn.sublist.trans hsent).nodup (sent_nodup hwired)
    rwa [takenOf, List.map_map] at hnodup
  · obtain ⟨c, hsentx⟩ := hwired.taken x hx
    obtain ⟨c', hsenty⟩ := hwired.taken y hy
    exact congrArg Sent.channel (hwired.unique hsentx hsenty hvalue)

def sentBy (s : System) (c : ℕ) : List (NetworkCommand ℕ) :=
  (s.sent.filter fun x => x.c = c).map Sent.command

/-- The questions that have been answered by way of a node. -/
def asked (trace : Trace) : List Question :=
  (trace.map Exchange.question).filter fun q => (commandOf q).isSome

/-- The question that the task waits for on a channel. -/
def waiting (w : World) (c : ℕ) (t : TaskState) : List Question :=
  match stageOf w c with
  | some stage => if stage.awaits.isSome then t.question.toList else []
  | none => []

def Carries (cmd : NetworkCommand ℕ) (q : Question) : Prop :=
  ∃ make, commandOf q = some make ∧ cmd = make (commandRx cmd)

structure Matched (s : System) : Prop where
  tasks : ∀ c t, s.tasks c = some t →
    List.Forall₂ Carries (sentBy s c) (asked t.trace ++ waiting s.world c t)
  finished : ∀ f ∈ s.finished, List.Forall₂ Carries (sentBy s f.c) (asked f.trace)
  gone : ∀ f ∈ s.finished, s.tasks f.c = none ∧ f.c < s.accepted
  senders : ∀ x ∈ s.sent, x.c < s.accepted

theorem waiting_of_stage {t : TaskState} (stage : Stage) (hstage : stageOf w c = some stage)
    (hawaits : stage.awaits = none) : waiting w c t = [] := by
  rw [waiting, hstage]
  simp [hawaits]

theorem waiting_of_none {t : TaskState} (hstage : stageOf w c = none) : waiting w c t = [] := by
  rw [waiting, hstage]

theorem waiting_of_awaits {t : TaskState} {stage : Stage} {rx : ℕ} {q : Question}
    {next : AnswerTo (slotOf q) → Task} (hstage : stageOf w c = some stage)
    (hawaits : stage.awaits = some rx) (hrest : t.rest = .ask q next) :
    waiting w c t = [q] := by
  rw [waiting, hstage]
  simp [hawaits, TaskState.question, hrest]

theorem waiting_congr {t : TaskState} (h : w'.handlers c = w.handlers c) :
    waiting w' c t = waiting w c t := by
  rw [waiting, waiting, stageOf, stageOf, h]

theorem asked_snoc (trace : Trace) (q : Question) (a : AnswerTo (slotOf q)) :
    asked (trace ++ [⟨q, a⟩]) = asked trace ++ if (commandOf q).isSome then [q] else [] := by
  rw [asked, List.map_append, List.filter_append, ← asked]
  cases h : (commandOf q).isSome <;> simp [h]

theorem asked_advance (t : TaskState) (q : Question) (next : AnswerTo (slotOf q) → Task)
    (a : AnswerTo (slotOf q)) :
    asked (t.advance q next a).trace =
      asked t.trace ++ if (commandOf q).isSome then [q] else [] :=
  asked_snoc t.trace q a

theorem waiting_after (h : AtHandler c w w') (t : TaskState) : waiting w' c t = [] := by
  cases hc : w'.handlers c with
  | none => exact waiting_of_none (by rw [stageOf, hc, Option.map_none])
  | some handler => exact waiting_of_stage _ (stageOf_some hc) (h.channel handler hc).1

/-- All that moves is one request, and it sends nothing. -/
theorem Matched.moved (h : Matched s) (c : ℕ) (hsent : s'.sent = s.sent)
    (hfinished : s'.finished = s.finished) (haccepted : s.accepted ≤ s'.accepted)
    (htasks : ∀ c', c' ≠ c → s'.tasks c' = s.tasks c')
    (hhandlers : ∀ c', c' ≠ c → s'.world.handlers c' = s.world.handlers c')
    (hover : ∀ f ∈ s.finished, f.c = c → s'.tasks c = none)
    (hc : ∀ t, s'.tasks c = some t →
      List.Forall₂ Carries (sentBy s c) (asked t.trace ++ waiting s'.world c t)) : Matched s' := by
  have hsame : sentBy s' = sentBy s := by
    funext c'
    rw [sentBy, sentBy, hsent]
  refine ⟨fun c' t ht => ?_, fun f hf => ?_, fun f hf => ?_, fun x hx => ?_⟩
  · rw [hsame]
    by_cases heq : c' = c
    · subst c'
      exact hc t ht
    · rw [waiting_congr (hhandlers c' heq)]
      exact h.tasks c' t (htasks c' heq ▸ ht)
  · rw [hsame]
    exact h.finished f (hfinished ▸ hf)
  · have hold : f ∈ s.finished := hfinished ▸ hf
    obtain ⟨hnone, hlt⟩ := h.gone f hold
    refine ⟨?_, lt_of_lt_of_le hlt haccepted⟩
    by_cases heq : f.c = c
    · rw [heq]
      exact hover f hold heq
    · rw [htasks f.c heq, hnone]
  · exact lt_of_lt_of_le (h.senders x (hsent ▸ hx)) haccepted

/-- A request under way moves on, and it sends nothing. -/
theorem Matched.advanced (h : Matched s) {t t' : TaskState} (ht : s.tasks c = some t)
    (hsent : s'.sent = s.sent) (hfinished : s'.finished = s.finished)
    (haccepted : s'.accepted = s.accepted) (htasks : s'.tasks = Function.update s.tasks c (some t'))
    (hhandlers : ∀ c', c' ≠ c → s'.world.handlers c' = s.world.handlers c')
    (hasked : asked t'.trace ++ waiting s'.world c t' = asked t.trace ++ waiting s.world c t) :
    Matched s' := by
  refine h.moved c hsent hfinished (Nat.le_of_eq haccepted.symm)
    (fun c' hc' => by simp [htasks, hc']) hhandlers (fun f hf hfc => ?_) fun t'' ht'' => ?_
  · rw [hfc.symm, (h.gone f hf).1] at ht
    cases ht
  · obtain rfl : t' = t'' := by simpa [htasks] using ht''
    rw [hasked]
    exact h.tasks c t ht

theorem Matched.unmoved (h : Matched s) (hsent : s'.sent = s.sent)
    (hfinished : s'.finished = s.finished) (haccepted : s'.accepted = s.accepted)
    (htasks : s'.tasks = s.tasks) (hhandlers : s'.world.handlers = s.world.handlers) :
    Matched s' := by
  refine h.moved 0 hsent hfinished (Nat.le_of_eq haccepted.symm) (fun c _ => congrFun htasks c)
    (fun c _ => congrFun hhandlers c) (fun f hf hfc => ?_) fun t ht => ?_
  · rw [htasks, ← hfc]
    exact (h.gone f hf).1
  · rw [waiting_congr (congrFun hhandlers 0)]
    exact h.tasks 0 t (htasks ▸ ht)

theorem Matched.managed (h : Matched s) (hstand : AllStand s) (hattached : ∀ c, Attached s c)
    {a : Action} {m : ManagerState} {evs : List Event} (hown : isOwn a = true)
    (hstep : Step s.world.manager a m evs) : Matched (afterManager s m evs) := by
  -- a task whose call returns has sent nothing yet that it waits for
  have hreturned : ∀ (c : ℕ) (call : Call) (connected : Bool) (s' : System),
      s.world.manager.calls c = some call → s'.sent = s.sent → s'.finished = s.finished →
      s'.accepted = s.accepted →
      s'.tasks = Function.update s.tasks c ((s.tasks c).map fun t => t.answerSwarm connected) →
      (∀ c', c' ≠ c → s'.world.handlers c' = s.world.handlers c') →
      (∀ t, waiting s'.world c t = []) → Matched s' := by
    intro c call connected s' hcall hsent hfinished haccepted htasks hothers hwaiting
    obtain ⟨t, next, ht, hrest⟩ := (hattached c).call call hcall
    have hstands := hstand c t ht
    rw [hrest] at hstands
    have hbefore : waiting s.world c t = [] := waiting_of_none (stands_swarm hstands).1
    have hadvanced : t.answerSwarm connected =
        t.advance (.swarm call.tld call.config) next connected := by
      rw [TaskState.answerSwarm, hrest]
    refine h.advanced ht hsent hfinished haccepted
      (by rw [htasks, ht, Option.map_some, hadvanced]) hothers ?_
    have hasked := asked_advance t (.swarm call.tld call.config) next connected
    rw [hbefore, hwaiting, List.append_nil, List.append_nil]
    exact hasked.trans (by simp [commandOf])
  cases hstep with
  | call c' tld config _ => cases hown
  | abandon c' call _ => cases hown
  | hit a c call handle hcall _ =>
    refine hreturned c call true _ hcall rfl rfl rfl rfl (fun c' hc' => ?_) fun t => ?_
    · simp [afterManager, applyEvent, hc']
    · refine waiting_of_stage .connected ?_ rfl
      simp [stageOf, afterManager, applyEvent]
  | spawn c tld config configClone hcall _ =>
    refine hreturned c _ true _ hcall rfl rfl rfl rfl (fun c' hc' => ?_) fun t => ?_
    · simp [afterManager, applyEvent, hc']
    · refine waiting_of_stage .connected ?_ rfl
      simp [stageOf, afterManager, applyEvent]
  | newFailed c call hcall =>
    refine hreturned c call false _ hcall rfl rfl rfl rfl (fun c' hc' => rfl) fun t => ?_
    obtain ⟨t', next, ht', hrest'⟩ := (hattached c).call call hcall
    have hstands := hstand c t' ht'
    rw [hrest'] at hstands
    have hnone : stageOf s.world c = none := (stands_swarm hstands).1
    exact waiting_of_none hnone
  | miss | resolve | tick | advance => exact h.unmoved rfl rfl rfl rfl rfl

/-- A command is sent for the question that its handler now waits for. -/
theorem Matched.sent (h : Matched s) (hsenders : c < s.accepted) {t : TaskState} {q : Question}
    {next : AnswerTo (slotOf q) → Task} {make : ℕ → NetworkCommand ℕ} {stage : Stage}
    (ht : s.tasks c = some t) (hrest : t.rest = .ask q next) (hmake : commandOf q = some make)
    (hbefore : waiting s.world c t = []) (hstage : stage.awaits = some s.world.oneshots) :
    Matched
      { s with
        world := afterSend s.world c handler (make s.world.oneshots) stage
        sent := s.sent ++ [⟨c, handler.channel, make s.world.oneshots⟩] } := by
  refine ⟨fun c' t' ht' => ?_, fun f hf => ?_, h.gone, fun x hx => ?_⟩
  · by_cases hc : c' = c
    · subst c'
      obtain rfl : t = t' := Option.some.inj (ht.symm.trans ht')
      have hold := h.tasks c t ht
      rw [hbefore, List.append_nil] at hold
      have hnow : waiting (afterSend s.world c handler (make s.world.oneshots) stage) c t = [q] :=
        waiting_of_awaits stageOf_enter hstage hrest
      rw [hnow]
      have hsentBy : sentBy
          { s with
            world := afterSend s.world c handler (make s.world.oneshots) stage
            sent := s.sent ++ [⟨c, handler.channel, make s.world.oneshots⟩] } c =
          sentBy s c ++ [make s.world.oneshots] := by
        simp [sentBy]
      rw [hsentBy]
      refine List.rel_append hold (List.Forall₂.cons ⟨make, hmake, ?_⟩ List.Forall₂.nil)
      rw [commandRx_commandOf hmake]
    · have hother := h.tasks c' t' ht'
      have hsentBy : sentBy
          { s with
            world := afterSend s.world c handler (make s.world.oneshots) stage
            sent := s.sent ++ [⟨c, handler.channel, make s.world.oneshots⟩] } c' =
          sentBy s c' := by
        simp [sentBy, Ne.symm hc]
      rw [hsentBy, waiting_congr (w := s.world) (by simp [afterSend, enter, hc])]
      exact hother
  · have hne : f.c ≠ c := by
      rintro rfl
      rw [(h.gone f hf).1] at ht
      cases ht
    have hold := h.finished f hf
    simpa [sentBy, Ne.symm hne] using hold
  · rcases List.mem_append.mp hx with hold | hnew
    · exact h.senders x hold
    · rw [List.mem_singleton.mp hnew]
      exact hsenders

theorem ready_of_send {q : Question} {act : WorldAction} (hc : w.handlers c = some handler)
    (hact : sendAction c q = some act) (hw : worldStep parsePeerId w act = some w') :
    handler.stage.awaits = none := by
  cases q with
  | record domain =>
    obtain rfl := Option.some.inj hact
    simp only [worldStep, hc, Option.ite_none_right_eq_some] at hw
    rw [hw.1]
    rfl
  | peer i peerId request =>
    obtain rfl := Option.some.inj hact
    simp only [worldStep, hc, Option.ite_none_right_eq_some] at hw
    rw [hw.1]
    rfl
  | swarm | gateway => cases hact

theorem awaits_of_receiveError {stage : Stage} (h : receiveError w c handler stage = some w') :
    ∃ rx, stage.awaits = some rx := by
  cases stage with
  | connected | routing => cases h
  | awaitingRecord rx | awaitingResponse rx => exact ⟨rx, rfl⟩

theorem matched_step {action : SystemAction}
    (hrun : (system lib globalConfig parsePeerId).Run actions s) (h : Matched s)
    (hstep : SystemStep lib globalConfig parsePeerId s action s') : Matched s' := by
  have hattached := attached_run hrun
  have hstand := allStand_run hrun
  have hnumbered : ∀ c t, s.tasks c = some t → c < s.accepted := by
    intro c t ht
    by_contra hge
    rw [numbered_run hrun c (Nat.le_of_not_lt hge)] at ht
    cases ht
  cases hstep with
  | accepted registry req =>
    refine h.moved s.accepted rfl rfl (Nat.le_succ _) (fun c hc => by simp [setTask, hc])
      (fun c _ => rfl) (fun f hf hfc => ?_) fun t ht => ?_
    · have hlt := (h.gone f hf).2
      omega
    · have hnone : sentBy s s.accepted = [] := by
        rw [sentBy, List.map_eq_nil_iff, List.filter_eq_nil_iff]
        intro x hx
        have hlt := h.senders x hx
        rw [decide_eq_true_eq]
        omega
      have hfree : s.world.handlers s.accepted = none := by
        refine Option.eq_none_iff_forall_ne_some.mpr fun handler hhandler => ?_
        obtain ⟨t, -, ht, -⟩ := (hattached _).handler handler hhandler
        exact absurd (hnumbered _ _ ht) (lt_irrefl _)
      obtain rfl : ⟨registry, req, handler lib globalConfig registry req, []⟩ = t := by
        simpa [setTask] using ht
      have hwaiting : waiting s.world s.accepted
          ⟨registry, req, handler lib globalConfig registry req, []⟩ = [] :=
        waiting_of_none (by rw [stageOf, hfree, Option.map_none])
      rw [hnone]
      show List.Forall₂ Carries [] (asked [] ++ waiting s.world s.accepted _)
      rw [hwaiting]
      exact List.Forall₂.nil
  | called c t tld config next w _ _ hw =>
    obtain ⟨-, hw⟩ := Option.ite_none_left_eq_some.mp hw
    obtain ⟨⟨m, evs⟩, hm, rfl⟩ := Option.map_eq_some_iff.mp hw
    cases hcalls : s.world.manager.calls c with
    | none =>
      simp only [managerStep, hcalls, Option.some.injEq, Prod.mk.injEq] at hm
      obtain ⟨-, rfl⟩ := hm
      exact h.unmoved rfl rfl rfl rfl rfl
    | some call => simp [managerStep, hcalls] at hm
  | managed a m evs hown hm => exact h.managed hstand hattached hown (step_of_managerStep hm)
  | sent c t handler q next act cmd w loop ht hc hrest hact hcmd hloop hw =>
    have hready := waiting_of_stage (t := t) _ (stageOf_some hc) (ready_of_send hc hact hw)
    obtain ⟨stage, hstage, rfl⟩ := world_send hc hact hcmd hloop hw
    exact h.sent (hnumbered c t ht) ht hrest hcmd hready hstage
  | unsent c t handler q next act a w _ hc _ hended _ =>
    exact (handler_running hrun hc hended).elim
  | answered c t handler rx reply q next a w ht hc hrx hreply hrest ha hw =>
    have hcommand : (commandOf q).isSome := by
      cases q with
      | record | peer => rfl
      | swarm | gateway => cases reply <;> cases ha
    refine h.advanced ht rfl rfl rfl rfl (atHandler_answered hw).others ?_
    show asked (t.advance q next a).trace ++ waiting w c (t.advance q next a) = _
    rw [waiting_after (atHandler_answered hw), waiting_of_awaits (stageOf_some hc) hrx hrest,
      asked_advance, if_pos hcommand, List.append_nil]
  | unanswered c t q next a w ht hrest ha hw =>
    obtain ⟨handler, hc, hreceive⟩ := Option.bind_eq_some_iff.mp hw
    obtain ⟨rx, hrx⟩ := awaits_of_receiveError hreceive
    have hcommand : (commandOf q).isSome := by
      cases q with
      | record | peer => rfl
      | swarm | gateway => cases ha
    refine h.advanced ht rfl rfl rfl rfl (atHandler_unanswered hw).others ?_
    show asked (t.advance q next a).trace ++ waiting w c (t.advance q next a) = _
    rw [waiting_after (atHandler_unanswered hw), waiting_of_awaits (stageOf_some hc) hrx hrest,
      asked_advance, if_pos hcommand, List.append_nil]
  | gateway c t reply q next a ht hrest ha =>
    have hstands := hstand c t ht
    rw [hrest] at hstands
    cases q with
    | gateway i method url headers body =>
      obtain ⟨hstage, -⟩ := stands_gateway hstands
      have hnothing : ∀ t, waiting s.world c t = [] := fun t => waiting_of_stage _ hstage rfl
      refine h.advanced ht rfl rfl rfl rfl (fun c' _ => rfl) ?_
      show asked (t.advance _ next a).trace ++ waiting s.world c (t.advance _ next a) = _
      rw [hnothing, hnothing, asked_advance]
      simp [commandOf]
    | swarm | record | peer => cases ha
  | finished c t outcome ht hrest =>
    have hnothing : waiting s.world c t = [] := by
      unfold waiting TaskState.question
      rw [hrest]
      split
      · exact ite_self _
      · rfl
    have hfinished : ∀ f ∈ s.finished, f.c ≠ c := by
      rintro f hf rfl
      rw [(h.gone f hf).1] at ht
      cases ht
    refine ⟨fun c' t' ht' => ?_, fun f hf => ?_, fun f hf => ?_, h.senders⟩
    · by_cases hc : c' = c
      · subst c'
        simp [setTask] at ht'
      · have htask : s.tasks c' = some t' := by simpa [setTask, hc] using ht'
        have hsame : waiting ((worldStep parsePeerId s.world (.done c)).getD s.world) c' t' =
            waiting s.world c' t' := waiting_congr (atHandler_done.others c' hc)
        have hall := h.tasks c' t' htask
        rw [← hsame] at hall
        exact hall
    · rcases List.mem_append.mp hf with hold | hnew
      · exact h.finished f hold
      · obtain rfl := List.mem_singleton.mp hnew
        have hall := h.tasks c t ht
        rw [hnothing, List.append_nil] at hall
        exact hall
    · rcases List.mem_append.mp hf with hold | hnew
      · obtain ⟨hnone, hlt⟩ := h.gone f hold
        exact ⟨by simp [setTask, hfinished f hold, hnone], hlt⟩
      · obtain rfl := List.mem_singleton.mp hnew
        exact ⟨by simp [setTask], hnumbered c t ht⟩
  | cancelled c =>
    refine h.moved c rfl rfl (Nat.le_refl _) (fun c' hc' => by simp [setTask, hc'])
      (fun c' hc' => handlers_without hc') (fun f _ _ => by simp [setTask]) fun t' ht' => ?_
    simp [setTask] at ht'
  | node n input w hw => exact h.unmoved rfl rfl rfl rfl (world_node hw).1

theorem matched_run (hrun : (system lib globalConfig parsePeerId).Run actions s) : Matched s := by
  refine Machine.Run.invariant (P := fun _ s => Matched s) ?_ ?_ hrun
  · refine ⟨fun c t ht => ?_, fun f hf => absurd hf List.not_mem_nil,
      fun f hf => absurd hf List.not_mem_nil, fun x hx => absurd hx List.not_mem_nil⟩
    cases ht
  · intro _ s action s' hrun h hstep
    exact matched_step hrun h (system_step hstep)

/-- In every interleaving each node takes the commands sent to it in their order, none of them
lost or twice, and a request that is answered has sent exactly one for each question of its
task that a node was to answer, and no question twice. -/
theorem carried_out_once (hrun : (system lib globalConfig parsePeerId).Run actions s) :
    (∀ n, takenOf s n ++ s.world.queues n = sentTo s n) ∧
    (s.taken.map fun x => commandRx x.command).Nodup ∧
    ∀ f ∈ s.finished,
      List.Forall₂ Carries (sentBy s f.c) (asked f.trace) ∧ (slots f.trace).Nodup := by
  have hinOrder := inOrder_run hrun
  refine ⟨hinOrder.delivered, taken_nodup (wired_run hrun) hinOrder, fun f hf => ?_⟩
  refine ⟨(matched_run hrun).finished f hf, ?_⟩
  exact (Dialogue.asked_once ((faithful_run hrun).finished f hf).1 asksOnce_handler).1

theorem carried_out_once_two :
    ∃ s, (system ProxyHandler.sampleLibraries ProxyHandler.globalDefaults fun _ => none).Run
        twoRequests s ∧ (sentTo s 0).length = 2 ∧
      ((∀ n, takenOf s n ++ s.world.queues n = sentTo s n) ∧
        (s.taken.map fun x => commandRx x.command).Nodup ∧
        ∀ f ∈ s.finished,
          List.Forall₂ Carries (sentBy s f.c) (asked f.trace) ∧ (slots f.trace).Nodup) := by
  have hrun := (system ProxyHandler.sampleLibraries ProxyHandler.globalDefaults
    fun _ => none).run_get twoRequests (by decide +kernel)
  exact ⟨_, hrun, by decide +kernel, carried_out_once hrun⟩

end KineticAtlas.RequestDelivery
