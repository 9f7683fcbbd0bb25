import KineticAtlas.SwarmManager
import KineticAtlas.Library.Budget

/-!
The start of a network node (KineticAtlasNode::new in network.rs) and what the swarm manager
starts nodes with. Every usable address goes into the routing table; dialling them stops once
eight dials have succeeded. As the addresses of the configuration come first, one that was
discovered through DNS is dialled only while the configured ones have not spent the budget.
-/
namespace KineticAtlas.NodeBootstrap

open Library.Texts Library.Runs Library.Budget KineticAtlas.Types SwarmManager

/-- What the node needs of libp2p: protocol names, the stages of the builder, and the parser
of multiaddrs with the peer id that is the last component of one. -/
structure Libp2p (Multiaddr : Type) where
  tryFromOwned : Str → Except Str Unit
  withTcp : Except Str Unit
  withDns : Except Str Unit
  withBehaviour : Except Str Unit
  parse : Str → Option Multiaddr
  lastP2p : Multiaddr → Option PeerId

/-- A node with what it has told Kademlia and the addresses it has dialled, in order. -/
structure KineticAtlasNode (Multiaddr : Type) where
  networkId : Str
  added : List (PeerId × Multiaddr)
  dialed : List Multiaddr
  dials : ℕ

def maxDials : ℕ := 8

variable {Multiaddr : Type}

def mapErr {V : Type} (context : Str) : Except Str V → Except AtlasError V
  | .ok value => .ok value
  | .error e => .error (.networkInitFailed (context ++ e))

/-- One round of the loop; `dialOk` tells which dials succeed, by their number. -/
def bootstrapNode (lib : Libp2p Multiaddr) (dialOk : ℕ → Bool) (node : KineticAtlasNode Multiaddr)
    (nodeStr : Str) : KineticAtlasNode Multiaddr :=
  match lib.parse nodeStr with
  | none => node
  | some multiaddr =>
    match lib.lastP2p multiaddr with
    | none => node
    | some peerId =>
      let node := { node with added := node.added ++ [(peerId, multiaddr)] }
      if node.dials < maxDials then
        { node with
          dialed := node.dialed ++ [multiaddr]
          dials := if dialOk node.dialed.length then node.dials + 1 else node.dials }
      else node

/-- `KineticAtlasNode::new`; a failing bootstrap of Kademlia is only logged. -/
def new (lib : Libp2p Multiaddr) (dialOk : ℕ → Bool) (networkId : Str) (bootstrapNodes : List Str) :
    Except AtlasError (KineticAtlasNode Multiaddr) := do
  mapErr "Invalid protocol name: "
    (lib.tryFromOwned ('/' :: networkId ++ "/kad/2.0.0".toList))
  mapErr "Invalid proxy protocol name: "
    (lib.tryFromOwned ('/' :: networkId ++ "/proxy/1.0.0".toList))
  mapErr "Transport config failed: " lib.withTcp
  mapErr "DNS config failed: " lib.withDns
  mapErr "Behaviour config failed: " lib.withBehaviour
  pure (bootstrapNodes.foldl (bootstrapNode lib dialOk) ⟨networkId, [], [], 0⟩)

/-- The addresses that name a peer. -/
def usable (lib : Libp2p Multiaddr) (bootstrapNodes : List Str) : List (PeerId × Multiaddr) :=
  bootstrapNodes.filterMap fun nodeStr =>
    (lib.parse nodeStr).bind fun multiaddr =>
      (lib.lastP2p multiaddr).map fun peerId => (peerId, multiaddr)

section Loop

variable {lib : Libp2p Multiaddr} {dialOk : ℕ → Bool} {networkId : Str}
  {bootstrapNodes : List Str} {node : KineticAtlasNode Multiaddr}

/-- The loop is an attempt to dial each usable address under a budget of eight. -/
theorem loop_eq (lib : Libp2p Multiaddr) (dialOk : ℕ → Bool) (networkId : Str)
    (bootstrapNodes : List Str) :
    let spending := attemptAll dialOk maxDials ((usable lib bootstrapNodes).map Prod.snd)
    bootstrapNodes.foldl (bootstrapNode lib dialOk) ⟨networkId, [], [], 0⟩ =
      ⟨networkId, usable lib bootstrapNodes, spending.attempted, spending.succeeded⟩ := by
  induction bootstrapNodes using List.reverseRecOn with
  | nil => rfl
  | append_singleton nodes nodeStr ih =>
    rw [List.foldl_append, ih, List.foldl_cons, List.foldl_nil]
    have husable : usable lib (nodes ++ [nodeStr]) = usable lib nodes ++ usable lib [nodeStr] := by
      simp [usable]
    rw [husable, List.map_append]
    unfold bootstrapNode
    cases hparse : lib.parse nodeStr with
    | none =>
      have hnone : usable lib [nodeStr] = [] := by simp [usable, hparse]
      simp [hnone]
    | some multiaddr =>
      cases hpeer : lib.lastP2p multiaddr with
      | none =>
        have hnone : usable lib [nodeStr] = [] := by simp [usable, hparse, hpeer]
        simp [hnone, hpeer]
      | some peerId =>
        have hone : usable lib [nodeStr] = [(peerId, multiaddr)] := by
          simp [usable, hparse, hpeer]
        rw [hone, List.map_singleton, attemptAll_snoc, attempt]
        simp only [hpeer]
        split <;> rfl

theorem of_bind_ok {E V W : Type} {x : Except E V} {f : V → Except E W} {w : W}
    (h : x >>= f = .ok w) : ∃ v, f v = .ok w := by
  cases x with
  | error e => cases h
  | ok v => exact ⟨v, h⟩

/-- A node that starts has taken in all usable addresses and dialled within its budget. -/
theorem new_spends (h : new lib dialOk networkId bootstrapNodes = .ok node) :
    node.networkId = networkId ∧ node.added = usable lib bootstrapNodes ∧
      Spends dialOk maxDials (node.added.map Prod.snd) ⟨node.dialed, node.dials⟩ := by
  have hnode : .ok node = (.ok (bootstrapNodes.foldl (bootstrapNode lib dialOk)
      ⟨networkId, [], [], 0⟩) : Except AtlasError (KineticAtlasNode Multiaddr)) := by
    obtain ⟨_, hkad⟩ := of_bind_ok h
    obtain ⟨_, hproxy⟩ := of_bind_ok hkad
    obtain ⟨_, htcp⟩ := of_bind_ok hproxy
    obtain ⟨_, hdns⟩ := of_bind_ok htcp
    obtain ⟨_, hbehaviour⟩ := of_bind_ok hdns
    exact hbehaviour.symm
  rw [Except.ok.injEq, loop_eq] at hnode
  subst hnode
  exact ⟨rfl, rfl, attemptAll_spends _⟩

end Loop

section Runs

variable {is : List Action} {s s' : ManagerState}

/-- The addresses that a DNS tree adds to those of the configuration. -/
def discovered (config : NetworkConfig) (resolved : List Str) : List Str :=
  if config.seedDomain.isSome then resolved else []

theorem withResolved_eq (config : NetworkConfig) (resolved : List Str) :
    (withResolved config resolved).networkId = config.networkId ∧
      (withResolved config resolved).bootstrapNodes =
        config.bootstrapNodes ++ discovered config resolved := by
  unfold withResolved discovered
  cases config.seedDomain with
  | none => exact ⟨rfl, (List.append_nil _).symm⟩
  | some _ => exact ⟨rfl, rfl⟩

/-- A node is started with the configuration of a call, whose seed domain was resolved. -/
def StartedBy (is : List Action) (node : Node) : Prop :=
  ∃ c config resolved, .call c node.tld config ∈ is ∧ .resolve c resolved ∈ is ∧
    node.networkId = config.networkId ∧
    node.bootstrapNodes = config.bootstrapNodes ++ discovered config resolved

structure Sourced (is : List Action) (s : ManagerState) : Prop where
  calls : ∀ c call, s.calls c = some call → .call c call.tld call.config ∈ is
  clones : ∀ c tld config configClone, s.calls c = some ⟨tld, config, .resolved configClone⟩ →
    ∃ resolved, .resolve c resolved ∈ is ∧ configClone = withResolved config resolved
  nodes : ∀ node ∈ s.nodes, StartedBy is node

/-- What holds of some inputs holds of more. -/
theorem Sourced.snoc (h : Sourced is s) (a : Action) : Sourced (is ++ [a]) s := by
  refine ⟨fun c call hcall => List.mem_append_left _ (h.calls c call hcall), ?_, ?_⟩
  · intro c tld config configClone hcall
    obtain ⟨resolved, hresolve, heq⟩ := h.clones c tld config configClone hcall
    exact ⟨resolved, List.mem_append_left _ hresolve, heq⟩
  · intro node hnode
    obtain ⟨c, config, resolved, hcall, hresolve, hstart⟩ := h.nodes node hnode
    exact ⟨c, config, resolved, List.mem_append_left _ hcall, List.mem_append_left _ hresolve,
      hstart⟩

/-- Ending a call, or moving it on to a phase that is accounted for. -/
theorem Sourced.set_call (h : Sourced is s) (c : ℕ) (call : Option Call)
    (hcalled : ∀ call', call = some call' → .call c call'.tld call'.config ∈ is)
    (hclone : ∀ tld config configClone, call = some ⟨tld, config, .resolved configClone⟩ →
      ∃ resolved, .resolve c resolved ∈ is ∧ configClone = withResolved config resolved) :
    Sourced is (setCall s c call) := by
  have hcases : ∀ c' call', (setCall s c call).calls c' = some call' →
      (c' = c ∧ call = some call') ∨ s.calls c' = some call' := by
    intro c' call' hcall'
    by_cases hcc : c' = c
    · subst hcc
      exact Or.inl ⟨rfl, by simpa [setCall] using hcall'⟩
    · exact Or.inr (by simpa [setCall, hcc] using hcall')
  refine ⟨fun c' call' hcall' => ?_, fun c' tld config configClone hcall' => ?_, h.nodes⟩
  · rcases hcases c' call' hcall' with ⟨rfl, heq⟩ | hold
    · exact hcalled call' heq
    · exact h.calls c' call' hold
  · rcases hcases c' _ hcall' with ⟨rfl, heq⟩ | hold
    · exact hclone tld config configClone heq
    · exact h.clones c' tld config configClone hold

theorem Sourced.end_call (h : Sourced is s) (c : ℕ) : Sourced is (setCall s c none) :=
  h.set_call c none (fun _ heq => by cases heq) (fun _ _ _ heq => by cases heq)

theorem sourced_step {a : Action} {evs : List Event} (h : Sourced is s)
    (hstep : Step s a s' evs) : Sourced (is ++ [a]) s' := by
  have hmore := h.snoc a
  cases hstep with
  | call c tld config hfree =>
    refine hmore.set_call c _ (fun call' heq => ?_) (fun _ _ _ heq => by cases heq)
    obtain rfl := Option.some.inj heq
    exact List.mem_append_right _ (List.mem_singleton.mpr rfl)
  | hit a c call handle hcall hhit =>
    have hrefreshed : Sourced (is ++ [a]) { s with
        swarms := Function.update s.swarms call.tld (some { handle with lastUsed := s.now }) } :=
      ⟨hmore.calls, hmore.clones, hmore.nodes⟩
    exact hrefreshed.end_call c
  | miss c tld config hcall hmiss =>
    refine hmore.set_call c _ (fun call' heq => ?_) (fun _ _ _ heq => by cases heq)
    obtain rfl := Option.some.inj heq
    exact hmore.calls c ⟨tld, config, .entered⟩ hcall
  | resolve c tld config resolved hcall =>
    refine hmore.set_call c _ (fun call' heq => ?_) (fun tld' config' configClone heq => ?_)
    · obtain rfl := Option.some.inj heq
      exact hmore.calls c ⟨tld, config, .resolving⟩ hcall
    · simp only [Option.some.injEq, Call.mk.injEq, Phase.resolved.injEq] at heq
      obtain ⟨rfl, rfl, rfl⟩ := heq
      exact ⟨resolved, List.mem_append_right _ (List.mem_singleton.mpr rfl), rfl⟩
  | spawn c tld config configClone hcall hmiss =>
    have hspawned : Sourced (is ++ [.secondLock c true]) { s with
        swarms := Function.update s.swarms tld (some ⟨s.nodes.length, s.now⟩)
        nodes := s.nodes ++ [⟨tld, configClone.networkId, configClone.bootstrapNodes⟩] } := by
      refine ⟨hmore.calls, hmore.clones, fun node hnode => ?_⟩
      rcases List.mem_append.mp hnode with hold | hnew
      · exact hmore.nodes node hold
      · obtain rfl := List.mem_singleton.mp hnew
        obtain ⟨resolved, hresolve, rfl⟩ := hmore.clones c tld config configClone hcall
        exact ⟨c, config, resolved, hmore.calls c _ hcall, hresolve,
          withResolved_eq config resolved⟩
    exact hspawned.end_call c
  | newFailed c call hcall => exact hmore.end_call c
  | abandon c call hcall => exact hmore.end_call c
  | tick => exact ⟨hmore.calls, hmore.clones, hmore.nodes⟩
  | advance d => exact ⟨hmore.calls, hmore.clones, hmore.nodes⟩

theorem sourced_run {h : History} (hrun : manager.Run is h) : Sourced is h.state := by
  have hinit : Sourced [] manager.init.state :=
    ⟨fun _ _ hcall => (by cases hcall), fun _ _ _ _ hcall => (by cases hcall),
      fun _ hnode => absurd hnode List.not_mem_nil⟩
  refine Machine.Run.invariant (P := fun is h => Sourced is h.state) hinit ?_ hrun
  intro is h a h' _ ih hstep
  obtain ⟨evs, -, hs⟩ := manager_step hstep
  exact sourced_step ih hs

end Runs

/-- Every node that the manager starts in a run takes the usable addresses of the configuration
of one of its calls and then those its DNS tree gave into its routing table. It dials them in
this order, whatever becomes of the dials, until eight have succeeded: at least the first
eight, and discovered ones only once all configured ones have been dialled and not spent the
budget. -/
theorem dials_within_budget {Multiaddr : Type} (lib : Libp2p Multiaddr) (dialOk : ℕ → Bool)
    {is : List Action} {h : History} (hrun : manager.Run is h) {node : Node}
    (hnode : node ∈ h.state.nodes) {started : KineticAtlasNode Multiaddr}
    (hnew : new lib dialOk node.networkId node.bootstrapNodes = .ok started) :
    ∃ c config resolved, .call c node.tld config ∈ is ∧ .resolve c resolved ∈ is ∧
      started.networkId = config.networkId ∧
      started.added = usable lib config.bootstrapNodes ++
        usable lib (discovered config resolved) ∧
      Spends dialOk maxDials (started.added.map Prod.snd) ⟨started.dialed, started.dials⟩ ∧
      (started.added.map Prod.snd).take maxDials <+: started.dialed ∧
      ((usable lib config.bootstrapNodes).length < started.dialed.length →
        (usable lib config.bootstrapNodes).map Prod.snd <+: started.dialed ∧
          successes dialOk (usable lib config.bootstrapNodes).length < maxDials) := by
  obtain ⟨c, config, resolved, hcall, hresolve, hid, hnodes⟩ := (sourced_run hrun).nodes node hnode
  obtain ⟨hstarted, hadded, hspends⟩ := new_spends hnew
  have hsplit : started.added = usable lib config.bootstrapNodes ++
      usable lib (discovered config resolved) := by
    rw [hadded, hnodes, usable, List.filterMap_append]
    rfl
  refine ⟨c, config, resolved, hcall, hresolve, hstarted.trans hid, hsplit, hspends,
    hspends.at_least, fun hmore => ?_⟩
  rw [hsplit, List.map_append] at hspends
  have hlater := hspends.later (by simpa using hmore)
  rwa [List.length_map] at hlater

def seededNetwork : NetworkConfig :=
  ⟨"1.0", "kin-net", "kin", ["/a"], "127.0.0.1", none, none, some "seed.kin", none⟩

/-- Every text is an address of one peer. -/
def plainLibp2p : Libp2p Str :=
  ⟨fun _ => .ok (), .ok (), .ok (), .ok (), some, fun _ => some ⟨[1]⟩⟩

def seededRun : List Action :=
  [.call 0 ".kin" seededNetwork, .firstLock 0, .resolve 0 ["/b", "/c"], .secondLock 0 true]

def seededNode : Node := ⟨".kin", "kin-net", ["/a", "/b", "/c"]⟩

theorem dials_within_budget_seeded :
    ∃ started, new plainLibp2p (fun _ => false) seededNode.networkId seededNode.bootstrapNodes =
        .ok started ∧
      (started.added.map Prod.snd).take maxDials <+: started.dialed := by
  have hrun := manager.run_get seededRun (by decide +kernel)
  have hnode : seededNode ∈ ((manager.exec seededRun).get (by decide +kernel)).state.nodes :=
    List.mem_of_getElem? (i := 0) (by decide +kernel)
  obtain ⟨_, _, _, _, _, _, _, _, hleast, _⟩ :=
    dials_within_budget plainLibp2p (fun _ => false) hrun hnode rfl
  exact ⟨_, rfl, hleast⟩

end KineticAtlas.NodeBootstrap
