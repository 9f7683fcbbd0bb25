import KineticAtlas.SwarmManager
import KineticAtlas.NodeAccounting
import KineticAtlas.Library.Handles

/-!
The lifetime of a swarm's node (swarm_manager.rs, network.rs, proxy.rs). The senders of
its channel are spread over the map of swarms and the handlers of requests, and the
event loop ends when the last of them is dropped. The world puts the manager, the loops
of all nodes and all handlers together; the counters of the channels are those of a
family of counted handles. No handler ever sees the loop of its node end.
-/
namespace KineticAtlas.SwarmLifetime

open Library.Texts Library.Runs Library.Handles KineticAtlas.Types SwarmManager NodeLoop
open NodeAccounting (respOf)

/-- Where a handler stands between its awaits; a oneshot channel is named by its number. -/
inductive Stage
  | connected
  | awaitingRecord (rx : ℕ)
  | routing
  | awaitingResponse (rx : ℕ)
  deriving DecidableEq

/-- A handler that has been given a sender; it holds it until it is done. -/
structure Handler where
  channel : ℕ
  stage : Stage
  deriving DecidableEq

/-- The shutdown signal is never given, so the state has none. -/
structure World where
  manager : ManagerState
  senders : ℕ → ℕ
  queues : ℕ → List (NetworkCommand ℕ)
  loops : ℕ → Option (NodeState ℕ)
  handlers : ℕ → Option Handler
  oneshots : ℕ
  replies : List (Reply ℕ)
  failedSends : List ℕ

/-- `mpsc::channel(32)` -/
def channelCapacity : ℕ := 32

/-- The next command, or the end of the channel once all its senders are dropped;
otherwise `recv` waits. -/
def recv (senders : ℕ) (queue : List (NetworkCommand ℕ)) :
    Option (Option (NetworkCommand ℕ) × List (NetworkCommand ℕ)) :=
  match queue with
  | cmd :: rest => some (some cmd, rest)
  | [] => if senders = 0 then some (none, []) else none

inductive NodeInput
  | recv (answers : Libp2pAnswers)
  | event (event : SwarmEvent)
  deriving DecidableEq

/-- A handler may lose the answer it waits for or be done at any time, as its client may
leave; what it does depends otherwise on data that is not followed here. -/
inductive WorldAction
  | manager (a : Action)
  | getRecord (c : ℕ) (domain : Str)
  | sendProxyRequest (c : ℕ) (peerId : PeerId) (request : ProxyRequest)
  | answered (c : ℕ)
  | unanswered (c : ℕ)
  | done (c : ℕ)
  | node (n : ℕ) (input : NodeInput)
  deriving DecidableEq

/-- A spawned channel has the sender put into the map; the one returned comes next. -/
def applyEvent (w : World) : Event → World
  | .spawned _ n =>
    { w with
      senders := Function.update w.senders n 1
      queues := Function.update w.queues n []
      loops := Function.update w.loops n (some ⟨fun _ => none, fun _ => none, fun _ => none⟩) }
  | .collected evicted =>
    { w with
      senders := fun n =>
        match w.manager.nodes[n]? with
        | some node => if evicted node.tld = some n then w.senders n - 1 else w.senders n
        | none => w.senders n }
  | .returned c _ _ (some n) =>
    { w with
      senders := Function.update w.senders n (w.senders n + 1)
      handlers := Function.update w.handlers c (some ⟨n, .connected⟩) }
  | .returned _ _ _ none => w

/-- A call number is in use from the call to the end of its handler. -/
def inUse (w : World) : Action → Bool
  | .call c _ _ => (w.handlers c).isSome
  | _ => false

def enter (w : World) (c : ℕ) (h : Handler) (stage : Stage) : World :=
  { w with handlers := Function.update w.handlers c (some ⟨h.channel, stage⟩) }

/-- The handler is done and its sender dropped. -/
def leave (w : World) (c : ℕ) (h : Handler) : World :=
  { w with
    handlers := Function.update w.handlers c none
    senders := Function.update w.senders h.channel (w.senders h.channel - 1) }

/-- The command is in the channel and its handler waits. -/
def afterSend (w : World) (c : ℕ) (h : Handler) (cmd : NetworkCommand ℕ) (stage : Stage) : World :=
  enter
    { w with
      queues := Function.update w.queues h.channel (w.queues h.channel ++ [cmd])
      oneshots := w.oneshots + 1 }
    c h stage

/-- `send` fails when the receiver is dropped and waits while the channel is full. -/
def send (w : World) (c : ℕ) (h : Handler) (cmd : ℕ → NetworkCommand ℕ) (sent : ℕ → Stage)
    (failed : World → World) : Option World :=
  match w.loops h.channel with
  | none => some (failed { w with failedSends := w.failedSends ++ [c] })
  | some _ =>
    if (w.queues h.channel).length < channelCapacity then
      some (afterSend w c h (cmd w.oneshots) (sent w.oneshots))
    else none

/-- A handler goes on with a record and is done with a response; without a record it is
done, without a response it tries its next target. -/
def receive (w : World) (c : ℕ) (h : Handler) : Stage → Option World
  | .awaitingRecord rx =>
    (w.replies.find? fun reply => respOf reply = rx).map fun reply =>
      match reply with
      | .record _ (some _) => enter w c h .routing
      | _ => leave w c h
  | .awaitingResponse rx =>
    (w.replies.find? fun reply => respOf reply = rx).map fun reply =>
      match reply with
      | .proxy _ (some _) => leave w c h
      | _ => enter w c h .routing
  | _ => none

/-- The responder of the answer was dropped. -/
def receiveError (w : World) (c : ℕ) (h : Handler) : Stage → Option World
  | .awaitingRecord _ => some (leave w c h)
  | .awaitingResponse _ => some (enter w c h .routing)
  | _ => none

/-- A loop that ends drops its receiver and all responders it has been given. -/
def afterTurn (w : World) (n : ℕ) (rest : List (NetworkCommand ℕ)) : Option (Turn ℕ) → World
  | some turn =>
    { w with
      queues := Function.update w.queues n rest
      loops := Function.update w.loops n (some turn.state)
      replies := w.replies ++ turn.reply.toList }
  | none =>
    { w with
      queues := Function.update w.queues n []
      loops := Function.update w.loops n none }

def nodeStep (parsePeerId : Str → Option PeerId) (w : World) (n : ℕ) (s : NodeState ℕ) :
    NodeInput → Option World
  | .recv answers =>
    (recv (w.senders n) (w.queues n)).map fun next =>
      afterTurn w n next.2 (loopTurn parsePeerId s (.recv next.1 answers))
  | .event event => some (afterTurn w n (w.queues n) (loopTurn parsePeerId s (.event event)))

def worldStep (parsePeerId : Str → Option PeerId) (w : World) : WorldAction → Option World
  | .manager a =>
    if inUse w a then none
    else (managerStep w.manager a).map fun next =>
      next.2.foldl applyEvent { w with manager := next.1 }
  | .getRecord c domain =>
    match w.handlers c with
    | some h =>
      if h.stage = .connected then
        send w c h (.getRecord domain) .awaitingRecord fun w => leave w c h
      else none
    | none => none
  | .sendProxyRequest c peerId request =>
    match w.handlers c with
    | some h =>
      if h.stage = .routing then
        send w c h (.sendProxyRequest peerId request) .awaitingResponse id
      else none
    | none => none
  | .answered c => (w.handlers c).bind fun h => receive w c h h.stage
  | .unanswered c => (w.handlers c).bind fun h => receiveError w c h h.stage
  | .done c => (w.handlers c).map fun h => leave w c h
  | .node n input => (w.loops n).bind fun s => nodeStep parsePeerId w n s input

def world (parsePeerId : Str → Option PeerId) : Machine World WorldAction where
  init :=
    { manager := manager.init.state
      senders := fun _ => 0
      queues := fun _ => []
      loops := fun _ => none
      handlers := fun _ => none
      oneshots := 0
      replies := []
      failedSends := [] }
  step := worldStep parsePeerId

inductive Owner
  | entry (tld : Str)
  | handler (c : ℕ)
  deriving DecidableEq

/-- The node to whose channel an owner has a sender. -/
def holds (w : World) : Owner → Option ℕ
  | .entry tld => holder w.manager tld
  | .handler c => (w.handlers c).map Handler.channel

/-- The counters of the channels are right, and a loop runs as long as its counter
is not zero. -/
structure Owned (w : World) : Prop where
  entries : EntriesSpawned w.manager
  calls : ∀ c, w.manager.calls c ≠ none → holds w (.handler c) = none
  channels : ∀ o n, holds w o = some n → n < w.manager.nodes.length
  counted : Counted w.senders (holds w)
  running : ∀ n, 0 < w.senders n → (w.loops n).isSome

variable {w w' : World}

theorem Owned.fresh (h : Owned w) (o : Owner) : holds w o ≠ some w.manager.nodes.length := by
  intro ho
  have hlt := h.channels o _ ho
  omega

/-- A step that moves no sender and ends no loop. -/
theorem Owned.keep (h : Owned w) (hentries : EntriesSpawned w'.manager)
    (hcalls : ∀ c, w'.manager.calls c ≠ none → w.manager.calls c ≠ none ∨ w.handlers c = none)
    (hnodes : w'.manager.nodes = w.manager.nodes) (hholds : holds w' = holds w)
    (hsenders : w'.senders = w.senders)
    (hloops : ∀ n, (w.loops n).isSome → (w'.loops n).isSome) : Owned w' := by
  refine ⟨hentries, ?_, ?_, ?_, ?_⟩
  · intro c hc
    rw [hholds]
    rcases hcalls c hc with hbefore | hfree
    · exact h.calls c hbefore
    · simp [holds, hfree]
  · rw [hholds, hnodes]
    exact h.channels
  · rw [hholds, hsenders]
    exact h.counted
  · intro n hn
    rw [hsenders] at hn
    exact hloops n (h.running n hn)

theorem holds_handler (w : World) (c : ℕ) (next : Option Handler) :
    holds { w with handlers := Function.update w.handlers c next } =
      Function.update (holds w) (.handler c) (next.map Handler.channel) := by
  funext o
  cases o with
  | entry tld => rfl
  | handler c' =>
    by_cases hc : c' = c
    · subst c'
      simp [holds]
    · simp [holds, hc]

/-- The handler is done. -/
theorem Owned.leave (hw : Owned w) {c : ℕ} {h : Handler} (hc : w.handlers c = some h) :
    Owned (leave w c h) := by
  have hheld : holds w (.handler c) = some h.channel := by simp [holds, hc]
  have hholds : holds (SwarmLifetime.leave w c h) =
      Function.update (holds w) (.handler c) none := holds_handler w c none
  refine ⟨hw.entries, ?_, ?_, ?_, ?_⟩
  · intro c' hc'
    rw [hholds]
    by_cases heq : (Owner.handler c') = .handler c
    · rw [heq, Function.update_self]
    · rw [Function.update_of_ne heq]
      exact hw.calls c' hc'
  · intro o n ho
    rw [hholds] at ho
    by_cases heq : o = .handler c
    · rw [heq, Function.update_self] at ho
      cases ho
    · rw [Function.update_of_ne heq] at ho
      exact hw.channels o n ho
  · rw [hholds]
    exact hw.counted.drop hheld
  · intro n hn
    refine hw.running n (lt_of_lt_of_le hn ?_)
    by_cases hch : n = h.channel
    · subst n
      simp [SwarmLifetime.leave]
    · simp [SwarmLifetime.leave, hch]

/-- A sender is cloned for the call that returns it. -/
theorem Owned.returned (hw : Owned w) {c n : ℕ} (tld : Str) (config : NetworkConfig)
    (hcalls : w.manager.calls c = none) (hfree : w.handlers c = none)
    (howned : ∃ o, holds w o = some n) :
    Owned (applyEvent w (.returned c tld config (some n))) := by
  obtain ⟨o, ho⟩ := howned
  have hholds : holds (applyEvent w (.returned c tld config (some n))) =
      Function.update (holds w) (.handler c) (some n) := holds_handler w c (some ⟨n, .connected⟩)
  have hnone : holds w (.handler c) = none := by simp [holds, hfree]
  refine ⟨hw.entries, ?_, ?_, ?_, ?_⟩
  · intro c' hc'
    have hne : (Owner.handler c') ≠ .handler c := by
      rintro heq
      obtain rfl := Owner.handler.inj heq
      exact hc' hcalls
    rw [hholds, Function.update_of_ne hne]
    exact hw.calls c' hc'
  · intro o' n' ho'
    rw [hholds] at ho'
    by_cases heq : o' = .handler c
    · rw [heq, Function.update_self] at ho'
      obtain rfl := Option.some.inj ho'
      exact hw.channels o n ho
    · rw [Function.update_of_ne heq] at ho'
      exact hw.channels o' n' ho'
  · rw [hholds]
    exact hw.counted.clone hnone n
  · intro n' hn'
    by_cases heq : n' = n
    · subst n'
      exact hw.running n (hw.counted.pos ho)
    · exact hw.running n' (by simpa [applyEvent, heq] using hn')

theorem holds_spawned {m : ManagerState} {tld : Str} {n now : ℕ}
    (hswarms : m.swarms = Function.update w.manager.swarms tld (some ⟨n, now⟩)) :
    holds (applyEvent { w with manager := m } (.spawned tld n)) =
      Function.update (holds w) (.entry tld) (some n) := by
  funext o
  cases o with
  | handler c => rfl
  | entry tld' =>
    by_cases ht : tld' = tld
    · subst tld'
      simp [holds, applyEvent, holder, hswarms]
    · simp [holds, applyEvent, holder, hswarms, ht]

/-- A new channel, of which the map gets a sender. -/
theorem Owned.spawned (hw : Owned w) {m : ManagerState} {tld : Str} {node : Node} {now : ℕ}
    (hmiss : w.manager.swarms tld = none)
    (hswarms : m.swarms =
      Function.update w.manager.swarms tld (some ⟨w.manager.nodes.length, now⟩))
    (hnodes : m.nodes = w.manager.nodes ++ [node]) (hentries : EntriesSpawned m)
    (hcalls : ∀ c, m.calls c ≠ none → w.manager.calls c ≠ none) :
    Owned (applyEvent { w with manager := m } (.spawned tld w.manager.nodes.length)) := by
  have hholds := holds_spawned hswarms
  have hnone : holds w (.entry tld) = none := by simp [holds, holder, hmiss]
  have hzero := hw.counted.eq_zero hw.fresh
  refine ⟨hentries, ?_, ?_, ?_, ?_⟩
  · intro c hc
    rw [hholds, Function.update_of_ne (by simp)]
    exact hw.calls c (hcalls c hc)
  · intro o n ho
    have hlen : m.nodes.length = w.manager.nodes.length + 1 := by simp [hnodes]
    have hgoal : n < w.manager.nodes.length + 1 := by
      rw [hholds] at ho
      by_cases heq : o = .entry tld
      · rw [heq, Function.update_self] at ho
        obtain rfl := Option.some.inj ho
        omega
      · rw [Function.update_of_ne heq] at ho
        have hlt := hw.channels o n ho
        omega
    exact hlen ▸ hgoal
  · have hclone := hw.counted.clone hnone w.manager.nodes.length
    rw [hzero, zero_add] at hclone
    rw [hholds]
    exact hclone
  · intro n hn
    by_cases heq : n = w.manager.nodes.length
    · subst n
      simp [applyEvent]
    · have hbefore : 0 < w.senders n := by simpa [applyEvent, heq] using hn
      simpa [applyEvent, heq] using hw.running n hbefore

/-- The world after a tick of the collector. -/
def afterTick (w : World) : World :=
  applyEvent
    { w with
      manager := { w.manager with swarms := retainSwarms w.manager.swarms w.manager.now } }
    (.collected (idleSwarms w.manager.swarms w.manager.now))

/-- The owners from which a tick takes their sender. -/
def Collected (w : World) : Owner → Prop
  | .entry tld => idleSwarms w.manager.swarms w.manager.now tld ≠ none
  | .handler _ => False

theorem holds_collected {o : Owner} (ho : Collected w o) : holds (afterTick w) o = none := by
  cases o with
  | handler c => exact ho.elim
  | entry tld =>
    obtain ⟨n, hidle⟩ := Option.ne_none_iff_exists'.mp ho
    simp [holds, afterTick, applyEvent, holder, retainSwarms, hidle]

theorem holds_uncollected {o : Owner} (ho : ¬ Collected w o) :
    holds (afterTick w) o = holds w o := by
  cases o with
  | handler c => rfl
  | entry tld =>
    have hidle : idleSwarms w.manager.swarms w.manager.now tld = none := not_not.mp ho
    simp [holds, afterTick, applyEvent, holder, retainSwarms, hidle]

/-- A node loses at most one sender, that of the entry of its own TLD. -/
theorem Owned.collected_entry (hw : Owned w) {o : Owner} {n : ℕ} (ho : Collected w o)
    (hn : holds w o = some n) :
    ∃ node, w.manager.nodes[n]? = some node ∧ o = .entry node.tld ∧
      idleSwarms w.manager.swarms w.manager.now node.tld = some n := by
  cases o with
  | handler c => exact ho.elim
  | entry tld =>
    obtain ⟨node, hnode, rfl⟩ := hw.entries.of_holder hn
    obtain ⟨n', hidle⟩ := Option.ne_none_iff_exists'.mp ho
    obtain rfl : n' = n := Option.some.inj ((holder_of_idle hidle).symm.trans hn)
    exact ⟨node, hnode, rfl, hidle⟩

theorem Owned.senders_collected (hw : Owned w) {o : Owner} {n : ℕ} (ho : Collected w o)
    (hn : holds w o = some n) : (afterTick w).senders n = w.senders n - 1 := by
  obtain ⟨node, hnode, -, hidle⟩ := hw.collected_entry ho hn
  simp [afterTick, applyEvent, hnode, hidle]

theorem senders_uncollected {n : ℕ} (hn : ∀ o, Collected w o → holds w o ≠ some n) :
    (afterTick w).senders n = w.senders n := by
  cases hnode : w.manager.nodes[n]? with
  | none => simp [afterTick, applyEvent, hnode]
  | some node =>
    have hidle : idleSwarms w.manager.swarms w.manager.now node.tld ≠ some n := by
      intro hidle
      refine hn (.entry node.tld) ?_ (holder_of_idle hidle)
      simp [Collected, hidle]
    simp [afterTick, applyEvent, hnode, hidle]

theorem Owned.tick (hw : Owned w) : Owned (afterTick w) := by
  have hkept : ∀ o n, holds (afterTick w) o = some n → holds w o = some n := by
    intro o n ho
    by_cases hcollected : Collected w o
    · rw [holds_collected hcollected] at ho
      cases ho
    · rwa [holds_uncollected hcollected] at ho
  have hcounted : Counted (afterTick w).senders (holds (afterTick w)) := by
    refine hw.counted.drop_all (Collected w) ?_ (fun o => holds_collected)
      (fun o => holds_uncollected) (fun n o ho hn => hw.senders_collected ho hn)
      (fun n => senders_uncollected)
    intro o o' n ho ho' hn hn'
    obtain ⟨node, hnode, rfl, -⟩ := hw.collected_entry ho hn
    obtain ⟨node', hnode', rfl, -⟩ := hw.collected_entry ho' hn'
    rw [Option.some.inj (hnode.symm.trans hnode')]
  refine ⟨?_, hw.calls, fun o n ho => hw.channels o n (hkept o n ho), hcounted, ?_⟩
  · exact fun tld handle h => hw.entries tld handle (retainSwarms_some h)
  · intro n hn
    by_cases hlost : ∃ o, Collected w o ∧ holds w o = some n
    · obtain ⟨o, ho, hheld⟩ := hlost
      exact hw.running n (hw.counted.pos hheld)
    · have hsame := senders_uncollected fun o ho hheld => hlost ⟨o, ho, hheld⟩
      exact hw.running n (hsame ▸ hn)

theorem Owned.setCall (hw : Owned w) (c : ℕ) (next : Option Call)
    (hnext : next = none ∨ w.manager.calls c ≠ none ∨ w.handlers c = none) :
    Owned { w with manager := setCall w.manager c next } := by
  refine hw.keep hw.entries ?_ rfl rfl rfl fun n hn => hn
  intro c' hc'
  by_cases hc : c' = c
  · subst c'
    rcases hnext with rfl | hnext
    · simp [SwarmManager.setCall] at hc'
    · exact hnext
  · exact Or.inl (by simpa [SwarmManager.setCall, hc] using hc')

theorem Owned.refresh (hw : Owned w) {tld : Str} {handle : SwarmHandle}
    (hhit : w.manager.swarms tld = some handle) :
    Owned
      { w with
        manager :=
          { w.manager with
            swarms := Function.update w.manager.swarms tld
              (some { handle with lastUsed := w.manager.now }) } } := by
  refine hw.keep ?_ (fun c hc => Or.inl hc) rfl ?_ rfl fun n hn => hn
  · intro tld' handle' h'
    by_cases ht : tld' = tld
    · subst tld'
      obtain rfl : { handle with lastUsed := w.manager.now } = handle' := by simpa using h'
      exact hw.entries tld handle hhit
    · exact hw.entries tld' handle' (by simpa [ht] using h')
  · funext o
    cases o with
    | handler c => rfl
    | entry tld' => exact holder_refresh hhit tld'

/-- A call that is going on has no handler yet. -/
theorem Owned.not_handled (hw : Owned w) {c : ℕ} {call : Call}
    (hcall : w.manager.calls c = some call) : w.handlers c = none := by
  have hnone := hw.calls c (by simp [hcall])
  simpa [holds] using hnone

theorem Owned.managed (hw : Owned w) {a : Action} {m : ManagerState} {evs : List Event}
    (hfree : inUse w a = false) (hstep : Step w.manager a m evs) :
    Owned (evs.foldl applyEvent { w with manager := m }) := by
  cases hstep with
  | call c tld config _ =>
    exact hw.setCall c _ (Or.inr (Or.inr (by simpa [inUse] using hfree)))
  | hit a c call handle hcall hhit =>
    have hrefreshed := (hw.refresh hhit).setCall c none (Or.inl rfl)
    refine hrefreshed.returned call.tld call.config ?_ (hw.not_handled hcall)
      ⟨.entry call.tld, ?_⟩
    · simp [SwarmManager.setCall]
    · simp [holds, holder, SwarmManager.setCall]
  | miss c tld config hcall _ => exact hw.setCall c _ (Or.inr (Or.inl (by simp [hcall])))
  | resolve c tld config resolved hcall =>
    exact hw.setCall c _ (Or.inr (Or.inl (by simp [hcall])))
  | spawn c tld config configClone hcall hmiss =>
    have hentries := entriesSpawned_step hw.entries (.spawn c tld config configClone hcall hmiss)
    have hspawned := hw.spawned hmiss rfl rfl hentries fun c' hc' => by
      by_cases hc : c' = c
      · simp [hc, hcall]
      · simpa [SwarmManager.setCall, hc] using hc'
    refine hspawned.returned tld config ?_ (hw.not_handled hcall) ⟨.entry tld, ?_⟩
    · simp [applyEvent, SwarmManager.setCall]
    · simp [holds, holder, applyEvent, SwarmManager.setCall]
  | newFailed c call hcall => exact hw.setCall c none (Or.inl rfl)
  | abandon c call hcall => exact hw.setCall c none (Or.inl rfl)
  | tick => exact hw.tick
  | advance d => exact hw.keep hw.entries (fun c hc => Or.inl hc) rfl rfl rfl fun n hn => hn

/-- A handler's node runs. -/
theorem Owned.loop_running (hw : Owned w) {c : ℕ} {h : Handler} (hc : w.handlers c = some h) :
    ∃ s, w.loops h.channel = some s := by
  have hheld : holds w (.handler c) = some h.channel := by simp [holds, hc]
  exact Option.isSome_iff_exists.mp (hw.running _ (hw.counted.pos hheld))

def commandRx : NetworkCommand ℕ → ℕ
  | .getRecord _ resp => resp
  | .lookupPeer _ resp => resp
  | .sendProxyRequest _ _ resp => resp

/-- The loop has a responder of the oneshot channel in one of its maps. -/
def Waits (s : NodeState ℕ) (rx : ℕ) : Prop :=
  (∃ id, s.pendingQueries id = some rx) ∨ (∃ peerId, s.pendingDials peerId = some rx) ∨
    ∃ id, s.pendingRequests id = some rx

/-- The responder is with the node: in its channel or in its loop. -/
def AtNode (w : World) (n rx : ℕ) : Prop :=
  rx ∈ (w.queues n).map commandRx ∨ ∃ s, w.loops n = some s ∧ Waits s rx

def Stage.awaits : Stage → Option ℕ
  | .awaitingRecord rx => some rx
  | .awaitingResponse rx => some rx
  | .connected => none
  | .routing => none

theorem update_some {K : Type*} [DecidableEq K] {f : K → Option ℕ} {k k' : K} {rx rx' : ℕ}
    (h : Function.update f k (some rx) k' = some rx') : rx' = rx ∨ f k' = some rx' := by
  by_cases hk : k' = k
  · subst k'
    exact Or.inl (by simpa using h.symm)
  · exact Or.inr (by simpa [hk] using h)

theorem update_none {K : Type*} [DecidableEq K] {f : K → Option ℕ} {k k' : K} {rx : ℕ}
    (h : Function.update f k none k' = some rx) : f k' = some rx := by
  by_cases hk : k' = k
  · subst k'
    simp at h
  · simpa [hk] using h

theorem waits_handleCommand {parsePeerId : Str → Option PeerId} {s : NodeState ℕ}
    {answers : Libp2pAnswers} {cmd : NetworkCommand ℕ} {rx : ℕ}
    (h : Waits (handleCommand parsePeerId s answers cmd).state rx) :
    rx = commandRx cmd ∨ Waits s rx := by
  cases cmd with
  | getRecord domain resp =>
    rcases h with ⟨id, h⟩ | h | h
    · exact (update_some h).imp_right fun h => Or.inl ⟨id, h⟩
    · exact Or.inr (Or.inr (Or.inl h))
    · exact Or.inr (Or.inr (Or.inr h))
  | lookupPeer peerIdStr resp =>
    cases hp : parsePeerId peerIdStr with
    | none => exact Or.inr (by simpa only [handleCommand, hp] using h)
    | some peerId =>
      cases hd : answers.dialOk with
      | false =>
        simp only [handleCommand, hp, hd, Bool.false_eq_true, if_false] at h
        exact Or.inr h
      | true =>
        simp only [handleCommand, hp, hd, if_true] at h
        rcases h with h | ⟨peerId, h⟩ | h
        · exact Or.inr (Or.inl h)
        · exact (update_some h).imp_right fun h => Or.inr (Or.inl ⟨peerId, h⟩)
        · exact Or.inr (Or.inr (Or.inr h))
  | sendProxyRequest peerId request resp =>
    rcases h with h | h | ⟨id, h⟩
    · exact Or.inr (Or.inl h)
    · exact Or.inr (Or.inr (Or.inl h))
    · exact (update_some h).imp_right fun h => Or.inr (Or.inr ⟨id, h⟩)

theorem waits_settledQuery {s : NodeState ℕ} {id rx : ℕ}
    (h : Waits { s with pendingQueries := Function.update s.pendingQueries id none } rx) :
    Waits s rx := by
  rcases h with ⟨id', h⟩ | h
  · exact Or.inl ⟨id', update_none h⟩
  · exact Or.inr h

theorem waits_settledDial {s : NodeState ℕ} {peerId : PeerId} {rx : ℕ}
    (h : Waits { s with pendingDials := Function.update s.pendingDials peerId none } rx) :
    Waits s rx := by
  rcases h with h | ⟨peerId', h⟩ | h
  · exact Or.inl h
  · exact Or.inr (Or.inl ⟨peerId', update_none h⟩)
  · exact Or.inr (Or.inr h)

theorem waits_settledRequest {s : NodeState ℕ} {id rx : ℕ}
    (h : Waits { s with pendingRequests := Function.update s.pendingRequests id none } rx) :
    Waits s rx := by
  rcases h with h | h | ⟨id', h⟩
  · exact Or.inl h
  · exact Or.inr (Or.inl h)
  · exact Or.inr (Or.inr ⟨id', update_none h⟩)

theorem waits_handleEvent {s : NodeState ℕ} {event : SwarmEvent} {rx : ℕ}
    (h : Waits (handleEvent s event).state rx) : Waits s rx := by
  cases event with
  | outboundQueryProgressed id result =>
    cases hq : s.pendingQueries id with
    | none => simpa only [handleEvent, hq] using h
    | some resp => exact waits_settledQuery (by simpa only [handleEvent, hq] using h)
  | response requestId response =>
    cases hr : s.pendingRequests requestId with
    | none => simpa only [handleEvent, hr] using h
    | some resp => exact waits_settledRequest (by simpa only [handleEvent, hr] using h)
  | outboundFailure requestId =>
    cases hr : s.pendingRequests requestId with
    | none => simpa only [handleEvent, hr] using h
    | some resp => exact waits_settledRequest (by simpa only [handleEvent, hr] using h)
  | connectionEstablished peerId remoteAddress =>
    cases hd : s.pendingDials peerId with
    | none => simpa only [handleEvent, hd] using h
    | some resp => exact waits_settledDial (by simpa only [handleEvent, hd] using h)
  | outgoingConnectionError peer =>
    cases peer with
    | none => exact h
    | some peerId =>
      cases hd : s.pendingDials peerId with
      | none => simpa only [handleEvent, hd] using h
      | some resp => exact waits_settledDial (by simpa only [handleEvent, hd] using h)
  | request | identify | other => exact h

/-- What a step can do, as far as the handlers and the nodes are concerned. -/
inductive Moves (w : World) : World → Prop
  | managed (a : Action) (m : ManagerState) (evs : List Event) (hfree : inUse w a = false)
      (hstep : Step w.manager a m evs) :
      Moves w (evs.foldl applyEvent { w with manager := m })
  | sent (c : ℕ) (h : Handler) (cmd : NetworkCommand ℕ) (stage : Stage)
      (hc : w.handlers c = some h) (hcmd : commandRx cmd = w.oneshots)
      (hstage : stage.awaits = some w.oneshots) :
      Moves w (afterSend w c h cmd stage)
  | entered (c : ℕ) (h : Handler) (stage : Stage) (hc : w.handlers c = some h)
      (hstage : stage.awaits = none) : Moves w (enter w c h stage)
  | left (c : ℕ) (h : Handler) (hc : w.handlers c = some h) : Moves w (leave w c h)
  | turned (n : ℕ) (s : NodeState ℕ) (rest : List (NetworkCommand ℕ)) (turn : Turn ℕ)
      (hs : w.loops n = some s)
      (hkept : ∀ rx, rx ∈ rest.map commandRx ∨ Waits turn.state rx → AtNode w n rx) :
      Moves w (afterTurn w n rest (some turn))
  | ended (n : ℕ) (s : NodeState ℕ) (hs : w.loops n = some s) (hqueue : w.queues n = [])
      (hsenders : w.senders n = 0) : Moves w (afterTurn w n [] none)

variable {parsePeerId : Str → Option PeerId}

theorem moves_of_send (hw : Owned w) {c : ℕ} {h : Handler} {cmd : ℕ → NetworkCommand ℕ}
    {sent : ℕ → Stage} {failed : World → World} (hc : w.handlers c = some h)
    (hcmd : ∀ rx, commandRx (cmd rx) = rx) (hsent : ∀ rx, (sent rx).awaits = some rx)
    (hsend : send w c h cmd sent failed = some w') : Moves w w' := by
  obtain ⟨s, hs⟩ := hw.loop_running hc
  simp only [send, hs, Option.ite_none_right_eq_some, Option.some.injEq] at hsend
  obtain ⟨-, rfl⟩ := hsend
  exact .sent c h _ _ hc (hcmd _) (hsent _)

theorem moves_of_receive {c : ℕ} {h : Handler} {stage : Stage} (hc : w.handlers c = some h)
    (hstep : receive w c h stage = some w') : Moves w w' := by
  cases stage with
  | connected => cases hstep
  | routing => cases hstep
  | awaitingRecord rx =>
    obtain ⟨reply, -, hnext⟩ := Option.map_eq_some_iff.mp hstep
    split at hnext
    · exact hnext ▸ .entered c h .routing hc rfl
    · exact hnext ▸ .left c h hc
  | awaitingResponse rx =>
    obtain ⟨reply, -, hnext⟩ := Option.map_eq_some_iff.mp hstep
    split at hnext
    · exact hnext ▸ .left c h hc
    · exact hnext ▸ .entered c h .routing hc rfl

theorem moves_of_receiveError {c : ℕ} {h : Handler} {stage : Stage} (hc : w.handlers c = some h)
    (hstep : receiveError w c h stage = some w') : Moves w w' := by
  cases stage with
  | connected => cases hstep
  | routing => cases hstep
  | awaitingRecord rx => exact Option.some.inj hstep ▸ .left c h hc
  | awaitingResponse rx => exact Option.some.inj hstep ▸ .entered c h .routing hc rfl

theorem moves_of_nodeStep {n : ℕ} {s : NodeState ℕ} {input : NodeInput}
    (hs : w.loops n = some s) (hstep : nodeStep parsePeerId w n s input = some w') :
    Moves w w' := by
  cases input with
  | event event =>
    obtain rfl := Option.some.inj hstep
    refine .turned n s _ _ hs ?_
    rintro rx (hqueued | hwaits)
    · exact Or.inl hqueued
    · exact Or.inr ⟨s, hs, waits_handleEvent hwaits⟩
  | recv answers =>
    obtain ⟨⟨cmd, rest⟩, hrecv, rfl⟩ := Option.map_eq_some_iff.mp hstep
    cases hqueue : w.queues n with
    | nil =>
      simp only [recv, hqueue, Option.ite_none_right_eq_some, Option.some.injEq,
        Prod.mk.injEq] at hrecv
      obtain ⟨hzero, rfl, rfl⟩ := hrecv
      exact .ended n s hs hqueue hzero
    | cons first others =>
      simp only [recv, hqueue, Option.some.injEq, Prod.mk.injEq] at hrecv
      obtain ⟨rfl, rfl⟩ := hrecv
      refine .turned n s _ _ hs ?_
      rintro rx (hqueued | hwaits)
      · exact Or.inl (by simpa [hqueue] using Or.inr hqueued)
      · rcases waits_handleCommand hwaits with rfl | hbefore
        · exact Or.inl (by simp [hqueue])
        · exact Or.inr ⟨s, hs, hbefore⟩

theorem moves_of_worldStep (hw : Owned w) {a : WorldAction}
    (hstep : worldStep parsePeerId w a = some w') : Moves w w' := by
  cases a with
  | manager a =>
    simp only [worldStep, Option.ite_none_left_eq_some] at hstep
    obtain ⟨hfree, hstep⟩ := hstep
    obtain ⟨⟨m, evs⟩, hmanager, rfl⟩ := Option.map_eq_some_iff.mp hstep
    exact .managed a m evs (by simpa using hfree) (step_of_managerStep hmanager)
  | getRecord c domain =>
    cases hc : w.handlers c with
    | none => simp [worldStep, hc] at hstep
    | some h =>
      simp only [worldStep, hc, Option.ite_none_right_eq_some] at hstep
      exact moves_of_send hw hc (fun _ => rfl) (fun _ => rfl) hstep.2
  | sendProxyRequest c peerId request =>
    cases hc : w.handlers c with
    | none => simp [worldStep, hc] at hstep
    | some h =>
      simp only [worldStep, hc, Option.ite_none_right_eq_some] at hstep
      exact moves_of_send hw hc (fun _ => rfl) (fun _ => rfl) hstep.2
  | answered c =>
    obtain ⟨h, hc, hreceive⟩ := Option.bind_eq_some_iff.mp hstep
    exact moves_of_receive hc hreceive
  | unanswered c =>
    obtain ⟨h, hc, hreceive⟩ := Option.bind_eq_some_iff.mp hstep
    exact moves_of_receiveError hc hreceive
  | done c =>
    obtain ⟨h, hc, rfl⟩ := Option.map_eq_some_iff.mp hstep
    exact .left c h hc
  | node n input =>
    obtain ⟨s, hs, hnode⟩ := Option.bind_eq_some_iff.mp hstep
    exact moves_of_nodeStep hs hnode

theorem Owned.enter (hw : Owned w) {c : ℕ} {h : Handler} (hc : w.handlers c = some h)
    (stage : Stage) : Owned (enter w c h stage) := by
  refine hw.keep hw.entries (fun c hc => Or.inl hc) rfl ?_ rfl fun n hn => hn
  have hheld : holds w (.handler c) = some h.channel := by simp [holds, hc]
  exact (holds_handler w c _).trans (Function.update_eq_self_iff.mpr hheld.symm)

theorem Owned.moves (hw : Owned w) (hmove : Moves w w') : Owned w' := by
  cases hmove with
  | managed a m evs hfree hstep => exact hw.managed hfree hstep
  | sent c h cmd stage hc _ _ =>
    have hqueued : Owned
        { w with
          queues := Function.update w.queues h.channel (w.queues h.channel ++ [cmd])
          oneshots := w.oneshots + 1 } :=
      hw.keep hw.entries (fun c hc => Or.inl hc) rfl rfl rfl fun n hn => hn
    exact hqueued.enter hc stage
  | entered c h stage hc _ => exact hw.enter hc stage
  | left c h hc => exact hw.leave hc
  | turned n s rest turn hs _ =>
    refine hw.keep hw.entries (fun c hc => Or.inl hc) rfl rfl rfl fun n' hn' => ?_
    by_cases hn : n' = n
    · subst n'
      simp [afterTurn]
    · simpa [afterTurn, hn] using hn'
  | ended n s hs _ hzero =>
    refine ⟨hw.entries, hw.calls, hw.channels, hw.counted, fun n' hn' => ?_⟩
    have hn : n' ≠ n := by
      rintro rfl
      exact absurd hzero (Nat.pos_iff_ne_zero.mp hn')
    simpa [afterTurn, hn] using hw.running n' hn'

/-- The handler waits for an answer from the node it has a sender to. -/
def Awaits (w : World) (c n rx : ℕ) : Prop :=
  ∃ h, w.handlers c = some h ∧ h.stage.awaits = some rx ∧ h.channel = n

/-- A responder awaited by a handler is with no other node than the handler's. -/
structure Answerable (w : World) : Prop where
  awaited : ∀ c n rx, Awaits w c n rx → rx < w.oneshots
  responders : ∀ n rx, AtNode w n rx → rx < w.oneshots
  own : ∀ c n m rx, Awaits w c n rx → AtNode w m rx → m = n

/-- A step that lets no handler wait and passes no responder. -/
theorem Answerable.keep (hw : Answerable w)
    (hawaits : ∀ c n rx, Awaits w' c n rx → Awaits w c n rx)
    (hat : ∀ n rx, AtNode w' n rx → AtNode w n rx) (honeshots : w'.oneshots = w.oneshots) :
    Answerable w' := by
  refine ⟨?_, ?_, ?_⟩
  · exact fun c n rx h => honeshots ▸ hw.awaited c n rx (hawaits c n rx h)
  · exact fun n rx h => honeshots ▸ hw.responders n rx (hat n rx h)
  · exact fun c n m rx h hm => hw.own c n m rx (hawaits c n rx h) (hat m rx hm)

theorem not_waits_fresh {rx : ℕ} :
    ¬ Waits ⟨fun _ => none, fun _ => none, fun _ => none⟩ rx := by
  rintro (⟨id, h⟩ | ⟨peerId, h⟩ | ⟨id, h⟩) <;> cases h

theorem awaits_update {c c' n rx : ℕ} {next : Option Handler}
    (hnext : ∀ h, next = some h → h.stage.awaits = none)
    (h : Awaits { w with handlers := Function.update w.handlers c next } c' n rx) :
    Awaits w c' n rx := by
  obtain ⟨handler, hc', hawaits, hn⟩ := h
  by_cases hc : c' = c
  · subst c'
    have hnone := hnext handler (by simpa using hc')
    rw [hnone] at hawaits
    cases hawaits
  · exact ⟨handler, by simpa [hc] using hc', hawaits, hn⟩

theorem Answerable.applyEvent (hw : Answerable w) (ev : Event) : Answerable (applyEvent w ev) := by
  cases ev with
  | spawned tld n =>
    refine hw.keep (fun _ _ _ h => h) ?_ rfl
    intro n' rx hat
    by_cases hn : n' = n
    · subst n'
      rcases hat with hqueued | ⟨s, hs, hwaits⟩
      · simp [SwarmLifetime.applyEvent] at hqueued
      · obtain rfl : _ = s := by simpa [SwarmLifetime.applyEvent] using hs
        exact (not_waits_fresh hwaits).elim
    · simpa [AtNode, SwarmLifetime.applyEvent, hn] using hat
  | collected evicted => exact hw.keep (fun _ _ _ h => h) (fun _ _ h => h) rfl
  | returned c tld config sender =>
    cases sender with
    | none => exact hw
    | some n =>
      refine hw.keep (fun c' n' rx h => ?_) (fun _ _ h => h) rfl
      exact awaits_update (fun h hh => by rw [← Option.some.inj hh]; rfl) h

theorem awaits_afterSend {c c' n rx : ℕ} {h : Handler} {cmd : NetworkCommand ℕ} {stage : Stage}
    (hstage : stage.awaits = some w.oneshots)
    (hawaits : Awaits (afterSend w c h cmd stage) c' n rx) :
    Awaits w c' n rx ∨ (n = h.channel ∧ rx = w.oneshots) := by
  obtain ⟨handler, hc', hrx, hn⟩ := hawaits
  by_cases hc : c' = c
  · subst c'
    obtain rfl : ⟨h.channel, stage⟩ = handler := by simpa [afterSend, enter] using hc'
    exact Or.inr ⟨hn.symm, Option.some.inj (hrx.symm.trans hstage)⟩
  · exact Or.inl ⟨handler, by simpa [afterSend, enter, hc] using hc', hrx, hn⟩

theorem atNode_afterSend {c n rx : ℕ} {h : Handler} {cmd : NetworkCommand ℕ} {stage : Stage}
    (hcmd : commandRx cmd = w.oneshots) (hat : AtNode (afterSend w c h cmd stage) n rx) :
    AtNode w n rx ∨ (n = h.channel ∧ rx = w.oneshots) := by
  rcases hat with hqueued | hwaits
  · by_cases hn : n = h.channel
    · subst n
      have hmem : rx ∈ (w.queues h.channel ++ [cmd]).map commandRx := by
        simpa [afterSend, enter] using hqueued
      rw [List.map_append] at hmem
      rcases List.mem_append.mp hmem with hold | hnew
      · exact Or.inl (Or.inl hold)
      · exact Or.inr ⟨rfl, hcmd ▸ List.mem_singleton.mp hnew⟩
    · exact Or.inl (Or.inl (by simpa [afterSend, enter, hn] using hqueued))
  · exact Or.inl (Or.inr hwaits)

/-- A command sent is awaited by its handler and is with the handler's node. -/
theorem Answerable.sent (hw : Answerable w) {c : ℕ} {h : Handler} {cmd : NetworkCommand ℕ}
    {stage : Stage} (hcmd : commandRx cmd = w.oneshots) (hstage : stage.awaits = some w.oneshots) :
    Answerable (afterSend w c h cmd stage) := by
  have honeshots : (afterSend w c h cmd stage).oneshots = w.oneshots + 1 := rfl
  refine ⟨?_, ?_, ?_⟩
  · intro c' n rx hawaits
    rcases awaits_afterSend hstage hawaits with hold | ⟨-, rfl⟩
    · have hlt := hw.awaited c' n rx hold
      omega
    · omega
  · intro n rx hat
    rcases atNode_afterSend hcmd hat with hold | ⟨-, rfl⟩
    · have hlt := hw.responders n rx hold
      omega
    · omega
  · intro c' n m rx hawaits hat
    rcases awaits_afterSend hstage hawaits with hold | ⟨rfl, rfl⟩
    · rcases atNode_afterSend hcmd hat with holdm | ⟨-, rfl⟩
      · exact hw.own c' n m rx hold holdm
      · have hlt := hw.awaited c' n _ hold
        omega
    · rcases atNode_afterSend hcmd hat with holdm | ⟨rfl, -⟩
      · have hlt := hw.responders m _ holdm
        omega
      · rfl

theorem Answerable.moves (hw : Answerable w) (hmove : Moves w w') : Answerable w' := by
  cases hmove with
  | managed a m evs _ _ =>
    have hmanager : Answerable { w with manager := m } :=
      hw.keep (fun _ _ _ h => h) (fun _ _ h => h) rfl
    exact List.foldlRecOn evs _ hmanager fun w' h ev _ => h.applyEvent ev
  | sent c h cmd stage hc hcmd hstage => exact hw.sent hcmd hstage
  | entered c h stage hc hstage =>
    refine hw.keep (fun c' n rx => awaits_update fun h' hh' => ?_) (fun _ _ h => h) rfl
    rw [← Option.some.inj hh']
    exact hstage
  | left c h hc =>
    refine hw.keep (fun c' n rx hawaits => ?_) (fun _ _ h => h) rfl
    have hgone : ∀ h, (none : Option Handler) = some h → h.stage.awaits = none := by
      intro h hh
      cases hh
    exact awaits_update hgone hawaits
  | turned n s rest turn hs hkept =>
    refine hw.keep (fun _ _ _ h => h) (fun n' rx hat => ?_) rfl
    by_cases hn : n' = n
    · subst n'
      refine hkept rx (hat.imp (fun h => by simpa [afterTurn] using h) ?_)
      rintro ⟨s', hs', hwaits⟩
      obtain rfl : turn.state = s' := by simpa [afterTurn] using hs'
      exact hwaits
    · simpa [AtNode, afterTurn, hn] using hat
  | ended n s hs _ _ =>
    refine hw.keep (fun _ _ _ h => h) (fun n' rx hat => ?_) rfl
    by_cases hn : n' = n
    · subst n'
      simp [AtNode, afterTurn] at hat
    · simpa [AtNode, afterTurn, hn] using hat

theorem failedSends_applyEvent (w : World) (ev : Event) :
    (applyEvent w ev).failedSends = w.failedSends := by
  cases ev with
  | spawned tld n => rfl
  | collected evicted => rfl
  | returned c tld config sender => cases sender <;> rfl

theorem failedSends_moves (hmove : Moves w w') : w'.failedSends = w.failedSends := by
  cases hmove with
  | managed a m evs _ _ =>
    have hmanager : ({ w with manager := m } : World).failedSends = w.failedSends := rfl
    exact List.foldlRecOn evs _ (motive := fun w' => w'.failedSends = w.failedSends) hmanager
      fun w' h ev _ => (failedSends_applyEvent w' ev).trans h
  | sent | entered | left | turned | ended => rfl

variable {is : List WorldAction}

theorem owned_run (hrun : (world parsePeerId).Run is w) : Owned w := by
  refine Machine.Run.invariant (P := fun _ w => Owned w) ?_ ?_ hrun
  · have hnone : holds (world parsePeerId).init = fun _ => none := by
      funext o
      cases o <;> rfl
    refine ⟨?_, fun c hc => (hc rfl).elim, ?_, ?_, fun n hn => absurd hn (lt_irrefl 0)⟩
    · intro tld handle h
      cases h
    · intro o n ho
      rw [hnone] at ho
      cases ho
    · rw [hnone]
      exact counted_none
  · intro _ w _ w' _ hw hstep
    exact hw.moves (moves_of_worldStep hw hstep)

theorem answerable_run (hrun : (world parsePeerId).Run is w) : Answerable w := by
  refine Machine.Run.invariant (P := fun _ w => Answerable w) ?_ ?_ hrun
  · have hawaits : ∀ c n rx, ¬ Awaits (world parsePeerId).init c n rx := by
      rintro c n rx ⟨h, hc, -⟩
      cases hc
    have hat : ∀ n rx, ¬ AtNode (world parsePeerId).init n rx := by
      rintro n rx (hqueued | ⟨s, hs, -⟩)
      · simp [world] at hqueued
      · cases hs
    exact ⟨fun c n rx h => (hawaits c n rx h).elim, fun n rx h => (hat n rx h).elim,
      fun c n m rx h => (hawaits c n rx h).elim⟩
  · intro _ w _ w' hrun hw hstep
    exact hw.moves (moves_of_worldStep (owned_run hrun) hstep)

theorem failedSends_run (hrun : (world parsePeerId).Run is w) : w.failedSends = [] := by
  refine Machine.Run.invariant (P := fun _ w => w.failedSends = []) rfl ?_ hrun
  intro _ w _ w' hrun hw hstep
  exact (failedSends_moves (moves_of_worldStep (owned_run hrun) hstep)).trans hw

/-- A loop that has ended has found its channel without senders. -/
theorem unowned_of_ended {n : ℕ} {input : NodeInput}
    (hstep : (world parsePeerId).step w (.node n input) = some w') (hend : w'.loops n = none) :
    w.senders n = 0 := by
  obtain ⟨s, hs, hnode⟩ := Option.bind_eq_some_iff.mp hstep
  cases input with
  | event event =>
    obtain rfl := Option.some.inj hnode
    simp [loopTurn, afterTurn] at hend
  | recv answers =>
    obtain ⟨⟨cmd, rest⟩, hrecv, rfl⟩ := Option.map_eq_some_iff.mp hnode
    cases hqueue : w.queues n with
    | nil =>
      simp only [recv, hqueue, Option.ite_none_right_eq_some] at hrecv
      exact hrecv.1
    | cons first others =>
      simp only [recv, hqueue, Option.some.injEq, Prod.mk.injEq] at hrecv
      obtain ⟨rfl, rfl⟩ := hrecv
      simp [loopTurn, afterTurn] at hend

/-- In every run a node's loop ends only when no handler has a sender of it any more, so
no answer that a handler waits for is lost with it; the loop of a handler's node runs,
and no handler has ever failed to send a command. -/
theorem handlers_outlived (hrun : (world parsePeerId).Run is w) :
    (∀ n input w', (world parsePeerId).step w (.node n input) = some w' → w'.loops n = none →
      (∀ c h, w.handlers c = some h → h.channel ≠ n) ∧
        ∀ rx, AtNode w n rx → ∀ c h, w.handlers c = some h → h.stage.awaits ≠ some rx) ∧
      (∀ c h, w.handlers c = some h → ∃ s, w.loops h.channel = some s) ∧ w.failedSends = [] := by
  have howned := owned_run hrun
  refine ⟨?_, fun c h hc => howned.loop_running hc, failedSends_run hrun⟩
  intro n input w' hstep hend
  have hunowned := howned.counted.unowned (unowned_of_ended hstep hend)
  have hchannels : ∀ c h, w.handlers c = some h → h.channel ≠ n := by
    rintro c h hc rfl
    exact hunowned (.handler c) (by simp [holds, hc])
  refine ⟨hchannels, ?_⟩
  intro rx hat c h hc hawaits
  exact hchannels c h hc ((answerable_run hrun).own c _ n rx ⟨h, hc, hawaits, rfl⟩ hat).symm

def spawnFor (c : ℕ) : List WorldAction :=
  [.manager (.call c ".kin" kinConfig), .manager (.firstLock c), .manager (.resolve c []),
    .manager (.secondLock c true)]

/-- A handler whose node is evicted, and replaced, while its command is in the channel. -/
def evictedInFlight : List WorldAction :=
  spawnFor 0 ++ [.getRecord 0 "a.kin", .manager (.advance (idleTimeout + 1)), .manager .tick] ++
    spawnFor 1 ++ [.node 0 (.recv ⟨7, false, 0⟩)]

/-- It gets both its answers. -/
def answeredAfterwards : List WorldAction :=
  [.node 0 (.event (.outboundQueryProgressed 7 (.foundRecord [1]))), .answered 0,
    .sendProxyRequest 0 ⟨[1]⟩ ⟨"GET", "/", [], []⟩, .node 0 (.recv ⟨0, false, 3⟩),
    .node 0 (.event (.response 3 ⟨200, [], []⟩)), .answered 0]

theorem handlers_outlived_eviction :
    ∃ w w', (world fun _ => none).Run (evictedInFlight ++ answeredAfterwards) w ∧
      (world fun _ => none).step w (.node 0 (.recv ⟨0, false, 0⟩)) = some w' ∧
      w'.loops 0 = none ∧ (∀ c h, w.handlers c = some h → h.channel ≠ 0) ∧
      (∃ s, w.loops 1 = some s) ∧ w.failedSends = [] := by
  have hrun := (world fun _ => none).run_get (evictedInFlight ++ answeredAfterwards) rfl
  obtain ⟨hend, hrunning, hsends⟩ := handlers_outlived hrun
  exact ⟨_, _, hrun, rfl, rfl, (hend 0 (.recv ⟨0, false, 0⟩) _ rfl rfl).1,
    hrunning 1 ⟨1, .connected⟩ rfl, hsends⟩

end KineticAtlas.SwarmLifetime
