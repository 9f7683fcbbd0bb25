import KineticAtlas.RequestSystem

/-!
The oneshot channels of requests (swarm_manager.rs, network.rs). They are numbered as the
commands they go with, and the maps of a node's loop hold only responders of commands that
the node has taken, so every reply was caused by an event on the node of its command, under
the id which libp2p gave to that command there.
-/
namespace KineticAtlas.RequestChannels

open Library.Texts Library.Runs KineticAtlas.Types NodeLoop SwarmManager SwarmLifetime
  HandlerTask RequestSystem
open ProxyHandler (Libraries)

variable {parsePeerId : Str → Option PeerId} {loop : NodeState ℕ} {answers : Libp2pAnswers}
  {cmd : NetworkCommand ℕ} {event : SwarmEvent} {id rx : ℕ}

theorem query_handleCommand
    (h : (handleCommand parsePeerId loop answers cmd).state.pendingQueries id = some rx) :
    loop.pendingQueries id = some rx ∨
      ∃ domain, cmd = .getRecord domain rx ∧ answers.queryId = id := by
  cases cmd with
  | getRecord domain resp =>
    by_cases hid : id = answers.queryId
    · subst id
      obtain rfl : resp = rx := by simpa [handleCommand] using h
      exact Or.inr ⟨domain, rfl, rfl⟩
    · exact Or.inl (by simpa [handleCommand, hid] using h)
  | lookupPeer peerIdStr resp =>
    refine Or.inl ?_
    simp only [handleCommand] at h
    split at h
    · split at h <;> exact h
    · exact h
  | sendProxyRequest peerId request resp => exact Or.inl h

theorem request_handleCommand
    (h : (handleCommand parsePeerId loop answers cmd).state.pendingRequests id = some rx) :
    loop.pendingRequests id = some rx ∨
      ∃ peerId request, cmd = .sendProxyRequest peerId request rx ∧ answers.requestId = id := by
  cases cmd with
  | getRecord domain resp => exact Or.inl h
  | lookupPeer peerIdStr resp =>
    refine Or.inl ?_
    simp only [handleCommand] at h
    split at h
    · split at h <;> exact h
    · exact h
  | sendProxyRequest peerId request resp =>
    by_cases hid : id = answers.requestId
    · subst id
      obtain rfl : resp = rx := by simpa [handleCommand] using h
      exact Or.inr ⟨peerId, request, rfl, rfl⟩
    · exact Or.inl (by simpa [handleCommand, hid] using h)

theorem query_handleEvent (h : (handleEvent loop event).state.pendingQueries id = some rx) :
    loop.pendingQueries id = some rx := by
  unfold handleEvent at h
  split at h
  case h_1 =>
    split at h
    · exact update_none h
    · exact h
  all_goals first | exact h | (split at h <;> exact h)

theorem request_handleEvent (h : (handleEvent loop event).state.pendingRequests id = some rx) :
    loop.pendingRequests id = some rx := by
  unfold handleEvent at h
  split at h
  case h_2 =>
    split at h
    · exact update_none h
    · exact h
  case h_4 =>
    split at h
    · exact update_none h
    · exact h
  all_goals first | exact h | (split at h <;> exact h)

/-- Commands are only ever answered at once when they are lookups of peers. -/
theorem reply_handleCommand {reply : Reply ℕ}
    (h : (handleCommand parsePeerId loop answers cmd).reply = some reply) :
    ∃ resp, reply = .peer resp none := by
  cases cmd with
  | getRecord domain resp => cases h
  | lookupPeer peerIdStr resp =>
    simp only [handleCommand] at h
    split at h
    · split at h
      · cases h
      · exact ⟨resp, (Option.some.inj h).symm⟩
    · exact ⟨resp, (Option.some.inj h).symm⟩
  | sendProxyRequest peerId request resp => cases h

/-- An event is passed on to the responder that waits under its id. -/
def Answers (loop : NodeState ℕ) (event : SwarmEvent) : Reply ℕ → Prop
  | .record rx value =>
    ∃ id result, event = .outboundQueryProgressed id result ∧
      loop.pendingQueries id = some rx ∧ value = result.value
  | .proxy rx response =>
    ∃ id, loop.pendingRequests id = some rx ∧
      ((∃ res, response = some res ∧ event = .response id res) ∨
        response = none ∧ event = .outboundFailure id)
  | .peer _ _ => True

theorem reply_handleEvent {reply : Reply ℕ} (h : (handleEvent loop event).reply = some reply) :
    Answers loop event reply := by
  cases event with
  | outboundQueryProgressed id result =>
    cases hq : loop.pendingQueries id with
    | none => simp [handleEvent, hq] at h
    | some rx =>
      obtain rfl : Reply.record rx result.value = reply := by simpa [handleEvent, hq] using h
      exact ⟨id, result, rfl, hq, rfl⟩
  | response id res =>
    cases hr : loop.pendingRequests id with
    | none => simp [handleEvent, hr] at h
    | some rx =>
      obtain rfl : Reply.proxy rx (some res) = reply := by simpa [handleEvent, hr] using h
      exact ⟨id, hr, Or.inl ⟨res, rfl, rfl⟩⟩
  | outboundFailure id =>
    cases hr : loop.pendingRequests id with
    | none => simp [handleEvent, hr] at h
    | some rx =>
      obtain rfl : Reply.proxy rx none = reply := by simpa [handleEvent, hr] using h
      exact ⟨id, hr, Or.inr ⟨rfl, rfl⟩⟩
  | connectionEstablished peerId remoteAddress =>
    cases hd : loop.pendingDials peerId with
    | none => simp [handleEvent, hd] at h
    | some rx =>
      obtain rfl : Reply.peer rx (remoteIp remoteAddress) = reply := by
        simpa [handleEvent, hd] using h
      trivial
  | outgoingConnectionError peer =>
    cases peer with
    | none => cases h
    | some peerId =>
      cases hd : loop.pendingDials peerId with
      | none => simp [handleEvent, hd] at h
      | some rx =>
        obtain rfl : Reply.peer rx none = reply := by simpa [handleEvent, hd] using h
        trivial
  | request | identify | other => cases h

/-- The reply was caused by an event on the node that took its command, under the id that
the node was given for it. -/
def Caused (s : System) : Reply ℕ → Prop
  | .record rx value =>
    ∃ n domain answers result, ⟨n, .getRecord domain rx, answers⟩ ∈ s.taken ∧
      (n, .outboundQueryProgressed answers.queryId result) ∈ s.events ∧ value = result.value
  | .proxy rx response =>
    ∃ n peerId request answers, ⟨n, .sendProxyRequest peerId request rx, answers⟩ ∈ s.taken ∧
      ((∃ res, response = some res ∧ (n, .response answers.requestId res) ∈ s.events) ∨
        response = none ∧ (n, .outboundFailure answers.requestId) ∈ s.events)
  | .peer _ _ => True

structure Wired (s : System) : Prop where
  numbered : s.sent.length = s.world.oneshots
  numbers : ∀ k x, s.sent[k]? = some x → commandRx x.command = k
  queued : ∀ n, ∀ cmd ∈ s.world.queues n, ∃ c, ⟨c, n, cmd⟩ ∈ s.sent
  taken : ∀ x ∈ s.taken, ∃ c, ⟨c, x.node, x.command⟩ ∈ s.sent
  queries : ∀ n loop id rx, s.world.loops n = some loop → loop.pendingQueries id = some rx →
    ∃ domain answers, ⟨n, .getRecord domain rx, answers⟩ ∈ s.taken ∧ answers.queryId = id
  requests : ∀ n loop id rx, s.world.loops n = some loop → loop.pendingRequests id = some rx →
    ∃ peerId request answers, ⟨n, .sendProxyRequest peerId request rx, answers⟩ ∈ s.taken ∧
      answers.requestId = id
  replies : ∀ reply ∈ s.world.replies, Caused s reply

variable {s s' : System} {w w' : World}

/-- A command is known by its channel. -/
theorem Wired.unique (h : Wired s) {x y : Sent} (hx : x ∈ s.sent) (hy : y ∈ s.sent)
    (hrx : commandRx x.command = commandRx y.command) : x = y := by
  obtain ⟨k, hk⟩ := List.mem_iff_getElem?.mp hx
  obtain ⟨m, hm⟩ := List.mem_iff_getElem?.mp hy
  have hnumber : k = m := (h.numbers k x hk).symm.trans (hrx.trans (h.numbers m y hm))
  rw [hnumber] at hk
  exact Option.some.inj (hk.symm.trans hm)

theorem Caused.mono {reply : Reply ℕ} (h : Caused s reply) (htaken : ∀ x ∈ s.taken, x ∈ s'.taken)
    (hevents : ∀ x ∈ s.events, x ∈ s'.events) : Caused s' reply := by
  cases reply with
  | record rx value =>
    obtain ⟨n, domain, answers, result, htook, hevent, hvalue⟩ := h
    exact ⟨n, domain, answers, result, htaken _ htook, hevents _ hevent, hvalue⟩
  | proxy rx response =>
    obtain ⟨n, peerId, request, answers, htook, hcause⟩ := h
    refine ⟨n, peerId, request, answers, htaken _ htook, ?_⟩
    rcases hcause with ⟨res, hres, hevent⟩ | ⟨hres, hevent⟩
    · exact Or.inl ⟨res, hres, hevents _ hevent⟩
    · exact Or.inr ⟨hres, hevents _ hevent⟩
  | peer rx ip => trivial

/-- Nothing is put into a channel, a loop or among the replies. -/
structure Quiet (w w' : World) : Prop where
  oneshots : w'.oneshots = w.oneshots
  replies : w'.replies = w.replies
  queues : ∀ n, ∀ cmd ∈ w'.queues n, cmd ∈ w.queues n
  queries : ∀ n loop' id rx, w'.loops n = some loop' → loop'.pendingQueries id = some rx →
    ∃ loop, w.loops n = some loop ∧ loop.pendingQueries id = some rx
  requests : ∀ n loop' id rx, w'.loops n = some loop' → loop'.pendingRequests id = some rx →
    ∃ loop, w.loops n = some loop ∧ loop.pendingRequests id = some rx

theorem quiet_of_eq (honeshots : w'.oneshots = w.oneshots) (hreplies : w'.replies = w.replies)
    (hqueues : w'.queues = w.queues) (hloops : w'.loops = w.loops) : Quiet w w' := by
  refine ⟨honeshots, hreplies, fun n cmd hcmd => hqueues ▸ hcmd, ?_, ?_⟩
  · exact fun n loop id rx hloop hid => ⟨loop, hloops ▸ hloop, hid⟩
  · exact fun n loop id rx hloop hid => ⟨loop, hloops ▸ hloop, hid⟩

theorem Quiet.trans {w'' : World} (h : Quiet w w') (h' : Quiet w' w'') : Quiet w w'' := by
  refine ⟨h'.oneshots.trans h.oneshots, h'.replies.trans h.replies,
    fun n cmd hcmd => h.queues n cmd (h'.queues n cmd hcmd), ?_, ?_⟩
  · intro n loop id rx hloop hid
    obtain ⟨loop', hloop', hid'⟩ := h'.queries n loop id rx hloop hid
    exact h.queries n loop' id rx hloop' hid'
  · intro n loop id rx hloop hid
    obtain ⟨loop', hloop', hid'⟩ := h'.requests n loop id rx hloop hid
    exact h.requests n loop' id rx hloop' hid'

theorem loops_spawned {tld : Str} {n m : ℕ} {loop : NodeState ℕ}
    (h : (applyEvent w (.spawned tld n)).loops m = some loop) :
    w.loops m = some loop ∨ loop = ⟨fun _ => none, fun _ => none, fun _ => none⟩ := by
  by_cases hm : m = n
  · subst m
    exact Or.inr (by simpa [applyEvent] using h.symm)
  · exact Or.inl (by simpa [applyEvent, hm] using h)

theorem quiet_applyEvent (w : World) (ev : Event) : Quiet w (applyEvent w ev) := by
  cases ev with
  | collected evicted => exact quiet_of_eq rfl rfl rfl rfl
  | returned c tld config sender => cases sender <;> exact quiet_of_eq rfl rfl rfl rfl
  | spawned tld n =>
    refine ⟨rfl, rfl, fun m cmd hcmd => ?_, fun m loop id rx hloop hid => ?_,
      fun m loop id rx hloop hid => ?_⟩
    · by_cases hm : m = n
      · subst m
        simp [applyEvent] at hcmd
      · simpa [applyEvent, hm] using hcmd
    · rcases loops_spawned hloop with hold | rfl
      · exact ⟨loop, hold, hid⟩
      · cases hid
    · rcases loops_spawned hloop with hold | rfl
      · exact ⟨loop, hold, hid⟩
      · cases hid

theorem quiet_managed (m : ManagerState) (evs : List Event) :
    Quiet w (evs.foldl applyEvent { w with manager := m }) := by
  refine List.foldlRecOn evs applyEvent (motive := fun w' => Quiet w w')
    (quiet_of_eq rfl rfl rfl rfl) ?_
  exact fun w' h ev _ => h.trans (quiet_applyEvent w' ev)

theorem Wired.quiet (h : Wired s) (hw : Quiet s.world s'.world) (hsent : s'.sent = s.sent)
    (htaken : s'.taken = s.taken) (hevents : s'.events = s.events) : Wired s' := by
  refine ⟨?_, ?_, ?_, ?_, ?_, ?_, ?_⟩
  · rw [hsent, hw.oneshots]
    exact h.numbered
  · rw [hsent]
    exact h.numbers
  · rw [hsent]
    exact fun n cmd hcmd => h.queued n cmd (hw.queues n cmd hcmd)
  · rw [hsent, htaken]
    exact h.taken
  · rw [htaken]
    intro n loop id rx hloop hid
    obtain ⟨loop', hloop', hid'⟩ := hw.queries n loop id rx hloop hid
    exact h.queries n loop' id rx hloop' hid'
  · rw [htaken]
    intro n loop id rx hloop hid
    obtain ⟨loop', hloop', hid'⟩ := hw.requests n loop id rx hloop hid
    exact h.requests n loop' id rx hloop' hid'
  · rw [hw.replies]
    intro reply hreply
    exact (h.replies reply hreply).mono (fun x hx => htaken ▸ hx) fun x hx => hevents ▸ hx

/-- A command sent goes with the next channel. -/
theorem Wired.sent (h : Wired s) {c : ℕ} {handler : Handler} {cmd : NetworkCommand ℕ}
    {stage : Stage} (hcmd : commandRx cmd = s.world.oneshots) :
    Wired
      { s with
        world := afterSend s.world c handler cmd stage
        sent := s.sent ++ [⟨c, handler.channel, cmd⟩] } := by
  refine ⟨?_, ?_, ?_, ?_, h.queries, h.requests, fun reply hreply => ?_⟩
  · simp [afterSend, enter, h.numbered]
  · intro k x hk
    rcases Nat.lt_or_ge k s.sent.length with hlt | hge
    · rw [List.getElem?_append_left hlt] at hk
      exact h.numbers k x hk
    · rw [List.getElem?_append_right hge, List.getElem?_singleton] at hk
      obtain ⟨hzero, hx⟩ := Option.ite_none_right_eq_some.mp hk
      rw [← Option.some.inj hx, hcmd, ← h.numbered]
      omega
  · intro n queued hqueued
    by_cases hn : n = handler.channel
    · subst n
      have hmem : queued ∈ s.world.queues handler.channel ++ [cmd] := by
        simpa [afterSend, enter] using hqueued
      rcases List.mem_append.mp hmem with hold | hnew
      · obtain ⟨c', hsent⟩ := h.queued _ queued hold
        exact ⟨c', List.mem_append_left _ hsent⟩
      · obtain rfl := List.mem_singleton.mp hnew
        exact ⟨c, by simp⟩
    · obtain ⟨c', hsent⟩ := h.queued n queued (by simpa [afterSend, enter, hn] using hqueued)
      exact ⟨c', List.mem_append_left _ hsent⟩
  · intro x hx
    obtain ⟨c', hsent⟩ := h.taken x hx
    exact ⟨c', List.mem_append_left _ hsent⟩
  · exact (h.replies reply hreply).mono (fun x hx => hx) fun x hx => hx

/-- What a turn of a node leaves of its channel, its loop and the replies. -/
theorem Wired.turned (h : Wired s) {n : ℕ} {rest : List (NetworkCommand ℕ)} {turn : Turn ℕ}
    {took : List Taken} {happened : List (ℕ × SwarmEvent)}
    (hrest : ∀ cmd ∈ rest, cmd ∈ s.world.queues n)
    (htook : ∀ x ∈ took, x.node = n ∧ x.command ∈ s.world.queues n)
    (hqueries : ∀ id rx, turn.state.pendingQueries id = some rx →
      ∃ domain answers, ⟨n, .getRecord domain rx, answers⟩ ∈ s.taken ++ took ∧
        answers.queryId = id)
    (hrequests : ∀ id rx, turn.state.pendingRequests id = some rx →
      ∃ peerId request answers, ⟨n, .sendProxyRequest peerId request rx, answers⟩ ∈
        s.taken ++ took ∧ answers.requestId = id)
    (hreply : ∀ reply, turn.reply = some reply → Caused
      { s with taken := s.taken ++ took, events := s.events ++ happened } reply) :
    Wired
      { s with
        world := afterTurn s.world n rest (some turn)
        taken := s.taken ++ took
        events := s.events ++ happened } := by
  refine ⟨h.numbered, h.numbers, ?_, ?_, ?_, ?_, ?_⟩
  · intro m cmd hcmd
    by_cases hm : m = n
    · subst m
      exact h.queued n cmd (hrest cmd (by simpa [afterTurn] using hcmd))
    · exact h.queued m cmd (by simpa [afterTurn, hm] using hcmd)
  · intro x hx
    rcases List.mem_append.mp hx with hold | hnew
    · exact h.taken x hold
    · obtain ⟨rfl, hqueued⟩ := htook x hnew
      exact h.queued _ _ hqueued
  · intro m loop id rx hloop hid
    by_cases hm : m = n
    · subst m
      obtain rfl : turn.state = loop := by simpa [afterTurn] using hloop
      exact hqueries id rx hid
    · obtain ⟨domain, answers, hmem, hkey⟩ :=
        h.queries m loop id rx (by simpa [afterTurn, hm] using hloop) hid
      exact ⟨domain, answers, List.mem_append_left _ hmem, hkey⟩
  · intro m loop id rx hloop hid
    by_cases hm : m = n
    · subst m
      obtain rfl : turn.state = loop := by simpa [afterTurn] using hloop
      exact hrequests id rx hid
    · obtain ⟨peerId, request, answers, hmem, hkey⟩ :=
        h.requests m loop id rx (by simpa [afterTurn, hm] using hloop) hid
      exact ⟨peerId, request, answers, List.mem_append_left _ hmem, hkey⟩
  · intro reply hmem
    have hmem : reply ∈ s.world.replies ++ turn.reply.toList := hmem
    rcases List.mem_append.mp hmem with hold | hnew
    · exact (h.replies reply hold).mono (fun x hx => List.mem_append_left _ hx)
        fun x hx => List.mem_append_left _ hx
    · exact (hreply reply (by simpa using hnew)).mono (fun x hx => hx) fun x hx => hx

theorem Wired.took (h : Wired s) {n : ℕ} {loop : NodeState ℕ} {cmd : NetworkCommand ℕ}
    {rest : List (NetworkCommand ℕ)} (answers : Libp2pAnswers)
    (hloop : s.world.loops n = some loop) (hqueue : s.world.queues n = cmd :: rest) :
    Wired
      { s with
        world := afterTurn s.world n rest (some (handleCommand parsePeerId loop answers cmd))
        taken := s.taken ++ [⟨n, cmd, answers⟩]
        events := s.events ++ [] } := by
  refine h.turned ?_ ?_ ?_ ?_ ?_
  · exact fun other hother => hqueue ▸ List.mem_cons_of_mem _ hother
  · intro x hx
    obtain rfl := List.mem_singleton.mp hx
    exact ⟨rfl, hqueue ▸ List.mem_cons_self⟩
  · intro id rx hid
    rcases query_handleCommand hid with hold | ⟨domain, rfl, hkey⟩
    · obtain ⟨domain, answers', hmem, hkey⟩ := h.queries n loop id rx hloop hold
      exact ⟨domain, answers', List.mem_append_left _ hmem, hkey⟩
    · exact ⟨domain, answers, by simp, hkey⟩
  · intro id rx hid
    rcases request_handleCommand hid with hold | ⟨peerId, request, rfl, hkey⟩
    · obtain ⟨peerId, request, answers', hmem, hkey⟩ := h.requests n loop id rx hloop hold
      exact ⟨peerId, request, answers', List.mem_append_left _ hmem, hkey⟩
    · exact ⟨peerId, request, answers, by simp, hkey⟩
  · intro reply hreply
    obtain ⟨resp, rfl⟩ := reply_handleCommand hreply
    trivial

theorem caused_of_answers (h : Wired s) {n : ℕ} {loop : NodeState ℕ} {event : SwarmEvent}
    {reply : Reply ℕ} (hloop : s.world.loops n = some loop)
    (hanswers : Answers loop event reply) :
    Caused { s with taken := s.taken ++ [], events := s.events ++ [(n, event)] } reply := by
  cases reply with
  | record rx value =>
    obtain ⟨id, result, rfl, hpending, hvalue⟩ := hanswers
    obtain ⟨domain, answers, htook, rfl⟩ := h.queries n loop id rx hloop hpending
    exact ⟨n, domain, answers, result, by simpa using htook, by simp, hvalue⟩
  | proxy rx response =>
    obtain ⟨id, hpending, hcause⟩ := hanswers
    obtain ⟨peerId, request, answers, htook, rfl⟩ := h.requests n loop id rx hloop hpending
    refine ⟨n, peerId, request, answers, by simpa using htook, ?_⟩
    rcases hcause with ⟨res, hres, rfl⟩ | ⟨hres, rfl⟩
    · exact Or.inl ⟨res, hres, by simp⟩
    · exact Or.inr ⟨hres, by simp⟩
  | peer rx ip => trivial

theorem Wired.happened (h : Wired s) {n : ℕ} {loop : NodeState ℕ} (event : SwarmEvent)
    (hloop : s.world.loops n = some loop) :
    Wired
      { s with
        world := afterTurn s.world n (s.world.queues n) (some (handleEvent loop event))
        taken := s.taken ++ []
        events := s.events ++ [(n, event)] } := by
  refine h.turned (fun cmd hcmd => hcmd) (fun x hx => absurd hx List.not_mem_nil) ?_ ?_ ?_
  · intro id rx hid
    rw [List.append_nil]
    exact h.queries n loop id rx hloop (query_handleEvent hid)
  · intro id rx hid
    rw [List.append_nil]
    exact h.requests n loop id rx hloop (request_handleEvent hid)
  · exact fun reply hreply => caused_of_answers h hloop (reply_handleEvent hreply)

structure AtHandler (c : ℕ) (w w' : World) : Prop where
  quiet : Quiet w w'
  manager : w'.manager = w.manager
  others : ∀ c', c' ≠ c → w'.handlers c' = w.handlers c'
  channel : ∀ h', w'.handlers c = some h' → h'.stage.awaits = none ∧
    ∃ h, w.handlers c = some h ∧ h.channel = h'.channel

variable {c : ℕ} {handler : Handler}

theorem atHandler_enter {stage : Stage} (hc : w.handlers c = some handler)
    (hstage : stage.awaits = none) : AtHandler c w (enter w c handler stage) := by
  refine ⟨quiet_of_eq rfl rfl rfl rfl, rfl, fun c' hc' => by simp [enter, hc'], ?_⟩
  intro h' hh'
  obtain rfl : ⟨handler.channel, stage⟩ = h' := by simpa [enter] using hh'
  exact ⟨hstage, handler, hc, rfl⟩

theorem atHandler_leave : AtHandler c w (leave w c handler) := by
  refine ⟨quiet_of_eq rfl rfl rfl rfl, rfl, fun c' hc' => by simp [leave, hc'], ?_⟩
  intro h' hh'
  simp [leave] at hh'

theorem atHandler_answered (hstep : worldStep parsePeerId w (.answered c) = some w') :
    AtHandler c w w' := by
  obtain ⟨h, hc, hreceive⟩ := Option.bind_eq_some_iff.mp hstep
  cases hstage : h.stage with
  | connected | routing =>
    rw [hstage] at hreceive
    cases hreceive
  | awaitingRecord rx =>
    rw [hstage] at hreceive
    obtain ⟨reply, -, hnext⟩ := Option.map_eq_some_iff.mp hreceive
    split at hnext
    · exact hnext ▸ atHandler_enter hc rfl
    · exact hnext ▸ atHandler_leave
  | awaitingResponse rx =>
    rw [hstage] at hreceive
    obtain ⟨reply, -, hnext⟩ := Option.map_eq_some_iff.mp hreceive
    split at hnext
    · exact hnext ▸ atHandler_leave
    · exact hnext ▸ atHandler_enter hc rfl

theorem atHandler_unanswered (hstep : worldStep parsePeerId w (.unanswered c) = some w') :
    AtHandler c w w' := by
  obtain ⟨h, hc, hreceive⟩ := Option.bind_eq_some_iff.mp hstep
  cases hstage : h.stage with
  | connected | routing =>
    rw [hstage] at hreceive
    cases hreceive
  | awaitingRecord rx =>
    rw [hstage] at hreceive
    exact Option.some.inj hreceive ▸ atHandler_leave
  | awaitingResponse rx =>
    rw [hstage] at hreceive
    exact Option.some.inj hreceive ▸ atHandler_enter hc rfl

theorem atHandler_done : AtHandler c w ((worldStep parsePeerId w (.done c)).getD w) := by
  cases hc : w.handlers c with
  | none =>
    simp only [worldStep, hc, Option.map_none, Option.getD_none]
    refine ⟨quiet_of_eq rfl rfl rfl rfl, rfl, fun _ _ => rfl, fun h' hh' => ?_⟩
    rw [hc] at hh'
    cases hh'
  | some h =>
    simp only [worldStep, hc, Option.map_some, Option.getD_some]
    exact atHandler_leave

theorem handlers_done : ((worldStep parsePeerId w (.done c)).getD w).handlers c = none := by
  cases hc : w.handlers c with
  | none => simp [worldStep, hc]
  | some h => simp [worldStep, hc, leave]

/-- A call that is abandoned, if there is one. -/
theorem world_abandon : (worldStep parsePeerId w (.manager (.abandon c))).getD w =
    { w with manager := setCall w.manager c none } := by
  cases hc : w.manager.calls c with
  | none =>
    have hsame : setCall w.manager c none = w.manager := by
      simp [setCall, ← hc]
    simp [worldStep, inUse, managerStep, hc, hsame]
  | some call => simp [worldStep, inUse, managerStep, hc]

theorem quiet_without : Quiet w (worldWithout parsePeerId w c) := by
  have habandoned : Quiet w ((worldStep parsePeerId w (.manager (.abandon c))).getD w) := by
    rw [world_abandon]
    exact quiet_of_eq rfl rfl rfl rfl
  exact habandoned.trans atHandler_done.quiet

theorem manager_without : (worldWithout parsePeerId w c).manager = setCall w.manager c none :=
  atHandler_done.manager.trans (congrArg World.manager world_abandon)

theorem handlers_without {c' : ℕ} (hc : c' ≠ c) :
    (worldWithout parsePeerId w c).handlers c' = w.handlers c' :=
  (atHandler_done.others c' hc).trans (congrArg (fun w => w.handlers c') world_abandon)

theorem handlers_afterTurn (w : World) (n : ℕ) (rest : List (NetworkCommand ℕ))
    (turn : Option (Turn ℕ)) : (afterTurn w n rest turn).handlers = w.handlers ∧
      (afterTurn w n rest turn).manager = w.manager := by
  cases turn with
  | none => exact ⟨rfl, rfl⟩
  | some turn => exact ⟨rfl, rfl⟩

theorem world_node {n : ℕ} {input : NodeInput}
    (hstep : worldStep parsePeerId w (.node n input) = some w') :
    w'.handlers = w.handlers ∧ w'.manager = w.manager := by
  obtain ⟨loop, -, hnode⟩ := Option.bind_eq_some_iff.mp hstep
  cases input with
  | event event =>
    obtain rfl := Option.some.inj hnode
    exact handlers_afterTurn _ _ _ _
  | recv answers =>
    obtain ⟨next, -, rfl⟩ := Option.map_eq_some_iff.mp hnode
    exact handlers_afterTurn _ _ _ _

theorem commandRx_commandOf {q : Question} {cmd : ℕ → NetworkCommand ℕ}
    (h : commandOf q = some cmd) (rx : ℕ) : commandRx (cmd rx) = rx := by
  cases q with
  | record domain =>
    obtain rfl := Option.some.inj h
    rfl
  | peer i peerId request =>
    obtain rfl := Option.some.inj h
    rfl
  | swarm | gateway => cases h

/-- A command is sent into the channel of the handler, which waits for its answer. -/
theorem world_send {q : Question} {act : WorldAction} {cmd : ℕ → NetworkCommand ℕ}
    {loop : NodeState ℕ} (hc : w.handlers c = some handler) (hact : sendAction c q = some act)
    (hcmd : commandOf q = some cmd) (hloop : w.loops handler.channel = some loop)
    (hstep : worldStep parsePeerId w act = some w') :
    ∃ stage, stage.awaits = some w.oneshots ∧
      w' = afterSend w c handler (cmd w.oneshots) stage := by
  cases q with
  | record domain =>
    obtain rfl := Option.some.inj hact
    obtain rfl := Option.some.inj hcmd
    simp only [worldStep, hc, Option.ite_none_right_eq_some, send, hloop,
      Option.some.injEq] at hstep
    obtain ⟨-, -, rfl⟩ := hstep
    exact ⟨_, rfl, rfl⟩
  | peer i peerId request =>
    obtain rfl := Option.some.inj hact
    obtain rfl := Option.some.inj hcmd
    simp only [worldStep, hc, Option.ite_none_right_eq_some, send, hloop,
      Option.some.injEq] at hstep
    obtain ⟨-, -, rfl⟩ := hstep
    exact ⟨_, rfl, rfl⟩
  | swarm | gateway => cases hact

variable {Reveal : Type} {lib : Libraries Reveal} {globalConfig : AtlasConfig}
  {actions : List SystemAction}

/-- A handler has a sender, so its node runs. -/
theorem handler_running (hrun : (system lib globalConfig parsePeerId).Run actions s)
    (hc : s.world.handlers c = some handler) : s.world.loops handler.channel ≠ none := by
  obtain ⟨is, his⟩ := world_run hrun
  obtain ⟨loop, hloop⟩ := (owned_run his).loop_running hc
  simp [hloop]

theorem Wired.node (h : Wired s) {n : ℕ} {input : NodeInput}
    (hstep : worldStep parsePeerId s.world (.node n input) = some w) :
    Wired
      { s with
        world := w
        taken := s.taken ++ takenBy s.world n input
        events := s.events ++ eventsOf n input } := by
  obtain ⟨loop, hloop, hnode⟩ := Option.bind_eq_some_iff.mp hstep
  cases input with
  | event event =>
    obtain rfl := Option.some.inj hnode
    exact h.happened event hloop
  | recv answers =>
    obtain ⟨⟨next, rest⟩, hrecv, rfl⟩ := Option.map_eq_some_iff.mp hnode
    cases hqueue : s.world.queues n with
    | nil =>
      simp only [recv, hqueue, Option.ite_none_right_eq_some, Option.some.injEq,
        Prod.mk.injEq] at hrecv
      obtain ⟨-, rfl, rfl⟩ := hrecv
      have hempty : takenBy s.world n (.recv answers) = [] := by simp [takenBy, hqueue]
      refine h.quiet ?_ rfl (by simp [hempty]) (by simp [eventsOf])
      refine ⟨rfl, rfl, fun m cmd hcmd => ?_, fun m loop id rx hloop hid => ?_,
        fun m loop id rx hloop hid => ?_⟩
      · by_cases hm : m = n
        · subst m
          simp [loopTurn, afterTurn] at hcmd
        · simpa [loopTurn, afterTurn, hm] using hcmd
      · refine ⟨loop, ?_, hid⟩
        by_cases hm : m = n
        · subst m
          simp [loopTurn, afterTurn] at hloop
        · simpa [loopTurn, afterTurn, hm] using hloop
      · refine ⟨loop, ?_, hid⟩
        by_cases hm : m = n
        · subst m
          simp [loopTurn, afterTurn] at hloop
        · simpa [loopTurn, afterTurn, hm] using hloop
    | cons first others =>
      simp only [recv, hqueue, Option.some.injEq, Prod.mk.injEq] at hrecv
      obtain ⟨rfl, rfl⟩ := hrecv
      have htook : takenBy s.world n (.recv answers) = [⟨n, first, answers⟩] := by
        simp [takenBy, hqueue]
      rw [htook]
      exact h.took answers hloop hqueue

theorem wired_step {action : SystemAction}
    (hrun : (system lib globalConfig parsePeerId).Run actions s) (h : Wired s)
    (hstep : SystemStep lib globalConfig parsePeerId s action s') : Wired s' := by
  cases hstep with
  | accepted => exact h.quiet (quiet_of_eq rfl rfl rfl rfl) rfl rfl rfl
  | called c t tld config next w _ _ hw =>
    obtain ⟨-, hw⟩ := Option.ite_none_left_eq_some.mp hw
    obtain ⟨⟨m, evs⟩, -, rfl⟩ := Option.map_eq_some_iff.mp hw
    exact h.quiet (quiet_managed m evs) rfl rfl rfl
  | managed a m evs _ _ => exact h.quiet (quiet_managed m evs) rfl rfl rfl
  | sent c t handler q next act cmd w loop _ hc _ hact hcmd hloop hw =>
    obtain ⟨stage, -, rfl⟩ := world_send hc hact hcmd hloop hw
    exact h.sent (commandRx_commandOf hcmd _)
  | unsent c t handler q next act a w _ hc _ hended _ =>
    exact (handler_running hrun hc hended).elim
  | answered c t handler rx reply q next a w _ _ _ _ _ _ hw =>
    exact h.quiet (atHandler_answered hw).quiet rfl rfl rfl
  | unanswered c t q next a w _ _ _ hw =>
    exact h.quiet (atHandler_unanswered hw).quiet rfl rfl rfl
  | gateway => exact h.quiet (quiet_of_eq rfl rfl rfl rfl) rfl rfl rfl
  | finished c t outcome _ _ => exact h.quiet atHandler_done.quiet rfl rfl rfl
  | cancelled c => exact h.quiet quiet_without rfl rfl rfl
  | node n input w hw => exact h.node hw

theorem wired_run (hrun : (system lib globalConfig parsePeerId).Run actions s) : Wired s := by
  refine Machine.Run.invariant (P := fun _ s => Wired s) ?_ ?_ hrun
  · refine ⟨rfl, fun k x hk => ?_, fun n cmd hcmd => ?_, fun x hx => absurd hx List.not_mem_nil,
      fun n loop id rx hloop => (by cases hloop), fun n loop id rx hloop => (by cases hloop),
      fun reply hreply => absurd hreply List.not_mem_nil⟩
    · simp [system] at hk
    · simp [system, world] at hcmd
  · intro _ s action s' hrun h hstep
    exact wired_step hrun h (system_step hstep)

end KineticAtlas.RequestChannels
