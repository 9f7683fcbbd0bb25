import KineticAtlas.Types
import KineticAtlas.Library.Lease

/-!
The swarm manager (swarm_manager.rs) under every interleaving of its callers and
its garbage collector. A call of get_or_spawn_swarm is a sequence of atomic steps:
a first locked lookup, the DNS-tree resolution without the lock, and a second locked
lookup with the spawn. For each TLD the map of swarms is a lease held by one node.
-/
namespace KineticAtlas.SwarmManager

open Library.Texts Library.Runs Library.Leases KineticAtlas.Types

/-- A handle's sender is named by its node, nodes being numbered as spawned. -/
structure SwarmHandle where
  tx : ℕ
  lastUsed : ℕ
  deriving DecidableEq

/-- What a node was started with. -/
structure Node where
  tld : Str
  networkId : Str
  bootstrapNodes : List Str
  deriving DecidableEq

abbrev Swarms := Str → Option SwarmHandle

/-- Where a call stands between its critical sections. -/
inductive Phase
  | entered
  | resolving
  | resolved (configClone : NetworkConfig)
  deriving DecidableEq

structure Call where
  tld : Str
  config : NetworkConfig
  phase : Phase
  deriving DecidableEq

structure ManagerState where
  swarms : Swarms
  nodes : List Node
  calls : ℕ → Option Call
  now : ℕ

/-- Ten minutes, in nanoseconds. -/
def idleTimeout : ℕ := 10 * 60 * 1000000000

/-- A hit refreshes the entry and yields a clone of its sender. -/
def lookupSwarm (swarms : Swarms) (tld : Str) (now : ℕ) : Option (ℕ × Swarms) :=
  (swarms tld).map fun handle =>
    (handle.tx, Function.update swarms tld (some { handle with lastUsed := now }))

/-- The clone of the config with the addresses of its DNS tree pushed onto it. -/
def withResolved (config : NetworkConfig) (resolved : List Str) : NetworkConfig :=
  match config.seedDomain with
  | some _ => { config with bootstrapNodes := config.bootstrapNodes ++ resolved }
  | none => config

/-- The entries the collector's `retain` removes; `duration_since` saturates at zero. -/
def idleSwarms (swarms : Swarms) (now : ℕ) : Str → Option ℕ := fun tld =>
  match swarms tld with
  | some handle => if now - handle.lastUsed > idleTimeout then some handle.tx else none
  | none => none

def retainSwarms (swarms : Swarms) (now : ℕ) : Swarms := fun tld =>
  match idleSwarms swarms now tld with
  | some _ => none
  | none => swarms tld

/-- One atomic step of a caller, of the collector or of the clock. `newOk` tells
whether `KineticAtlasNode::new` succeeds; a call may be abandoned at any await. -/
inductive Action
  | call (c : ℕ) (tld : Str) (config : NetworkConfig)
  | firstLock (c : ℕ)
  | resolve (c : ℕ) (resolved : List Str)
  | secondLock (c : ℕ) (newOk : Bool)
  | abandon (c : ℕ)
  | tick
  | advance (d : ℕ)
  deriving DecidableEq

inductive Event
  | spawned (tld : Str) (node : ℕ)
  | collected (evicted : Str → Option ℕ)
  | returned (c : ℕ) (tld : Str) (config : NetworkConfig) (sender : Option ℕ)

def setCall (s : ManagerState) (c : ℕ) (call : Option Call) : ManagerState :=
  { s with calls := Function.update s.calls c call }

/-- The second critical section: reuse what another caller has spawned meanwhile,
or spawn and insert before the lock is released. -/
def spawnOrReuse (s : ManagerState) (c : ℕ) (call : Call) (configClone : NetworkConfig)
    (newOk : Bool) : ManagerState × List Event :=
  match lookupSwarm s.swarms call.tld s.now with
  | some (tx, swarms) =>
    (setCall { s with swarms := swarms } c none, [.returned c call.tld call.config (some tx)])
  | none =>
    if newOk then
      let tx := s.nodes.length
      (setCall
        { s with
          swarms := Function.update s.swarms call.tld (some ⟨tx, s.now⟩)
          nodes := s.nodes ++ [⟨call.tld, configClone.networkId, configClone.bootstrapNodes⟩] }
        c none,
        [.spawned call.tld tx, .returned c call.tld call.config (some tx)])
    else (setCall s c none, [.returned c call.tld call.config none])

def managerStep (s : ManagerState) : Action → Option (ManagerState × List Event)
  | .call c tld config =>
    match s.calls c with
    | none => some (setCall s c (some ⟨tld, config, .entered⟩), [])
    | some _ => none
  | .firstLock c =>
    match s.calls c with
    | some ⟨tld, config, .entered⟩ =>
      match lookupSwarm s.swarms tld s.now with
      | some (tx, swarms) =>
        some (setCall { s with swarms := swarms } c none, [.returned c tld config (some tx)])
      | none => some (setCall s c (some ⟨tld, config, .resolving⟩), [])
    | _ => none
  | .resolve c resolved =>
    match s.calls c with
    | some ⟨tld, config, .resolving⟩ =>
      some (setCall s c (some ⟨tld, config, .resolved (withResolved config resolved)⟩), [])
    | _ => none
  | .secondLock c newOk =>
    match s.calls c with
    | some ⟨tld, config, .resolved configClone⟩ =>
      some (spawnOrReuse s c ⟨tld, config, .resolved configClone⟩ configClone newOk)
    | _ => none
  | .abandon c =>
    match s.calls c with
    | some _ => some (setCall s c none, [])
    | none => none
  | .tick =>
    some ({ s with swarms := retainSwarms s.swarms s.now },
      [.collected (idleSwarms s.swarms s.now)])
  | .advance d => some ({ s with now := s.now + d }, [])

/-- The manager with the log of what it has done so far. -/
structure History where
  state : ManagerState
  log : List Event

def manager : Machine History Action where
  init := ⟨⟨fun _ => none, [], fun _ => none, 0⟩, []⟩
  step h a := (managerStep h.state a).map fun next => ⟨next.1, h.log ++ next.2⟩

/-- What a step can do, case by case; a hit looks the same under either lock. -/
inductive Step (s : ManagerState) : Action → ManagerState → List Event → Prop
  | call (c : ℕ) (tld : Str) (config : NetworkConfig) (hfree : s.calls c = none) :
      Step s (.call c tld config) (setCall s c (some ⟨tld, config, .entered⟩)) []
  | hit (a : Action) (c : ℕ) (call : Call) (handle : SwarmHandle) (hcall : s.calls c = some call)
      (hhit : s.swarms call.tld = some handle) :
      Step s a
        (setCall
          { s with
            swarms := Function.update s.swarms call.tld (some { handle with lastUsed := s.now }) }
          c none)
        [.returned c call.tld call.config (some handle.tx)]
  | miss (c : ℕ) (tld : Str) (config : NetworkConfig)
      (hcall : s.calls c = some ⟨tld, config, .entered⟩) (hmiss : s.swarms tld = none) :
      Step s (.firstLock c) (setCall s c (some ⟨tld, config, .resolving⟩)) []
  | resolve (c : ℕ) (tld : Str) (config : NetworkConfig) (resolved : List Str)
      (hcall : s.calls c = some ⟨tld, config, .resolving⟩) :
      Step s (.resolve c resolved)
        (setCall s c (some ⟨tld, config, .resolved (withResolved config resolved)⟩)) []
  | spawn (c : ℕ) (tld : Str) (config configClone : NetworkConfig)
      (hcall : s.calls c = some ⟨tld, config, .resolved configClone⟩)
      (hmiss : s.swarms tld = none) :
      Step s (.secondLock c true)
        (setCall
          { s with
            swarms := Function.update s.swarms tld (some ⟨s.nodes.length, s.now⟩)
            nodes := s.nodes ++ [⟨tld, configClone.networkId, configClone.bootstrapNodes⟩] }
          c none)
        [.spawned tld s.nodes.length, .returned c tld config (some s.nodes.length)]
  | newFailed (c : ℕ) (call : Call) (hcall : s.calls c = some call) :
      Step s (.secondLock c false) (setCall s c none) [.returned c call.tld call.config none]
  | abandon (c : ℕ) (call : Call) (hcall : s.calls c = some call) :
      Step s (.abandon c) (setCall s c none) []
  | tick :
      Step s .tick { s with swarms := retainSwarms s.swarms s.now }
        [.collected (idleSwarms s.swarms s.now)]
  | advance (d : ℕ) : Step s (.advance d) { s with now := s.now + d } []

theorem step_of_spawnOrReuse {s s' : ManagerState} {c : ℕ} {tld : Str}
    {config configClone : NetworkConfig} {newOk : Bool} {evs : List Event}
    (hc : s.calls c = some ⟨tld, config, .resolved configClone⟩)
    (h : spawnOrReuse s c ⟨tld, config, .resolved configClone⟩ configClone newOk = (s', evs)) :
    Step s (.secondLock c newOk) s' evs := by
  cases hs : s.swarms tld with
  | some handle =>
    simp only [spawnOrReuse, lookupSwarm, hs, Option.map_some, Prod.mk.injEq] at h
    obtain ⟨rfl, rfl⟩ := h
    exact .hit _ c _ handle hc hs
  | none =>
    simp only [spawnOrReuse, lookupSwarm, hs, Option.map_none] at h
    cases newOk with
    | true =>
      simp only [if_true, Prod.mk.injEq] at h
      obtain ⟨rfl, rfl⟩ := h
      exact .spawn c tld config configClone hc hs
    | false =>
      simp only [Bool.false_eq_true, if_false, Prod.mk.injEq] at h
      obtain ⟨rfl, rfl⟩ := h
      exact .newFailed c _ hc

theorem step_of_managerStep {s s' : ManagerState} {a : Action} {evs : List Event}
    (h : managerStep s a = some (s', evs)) : Step s a s' evs := by
  cases a with
  | call c tld config =>
    cases hc : s.calls c with
    | none =>
      obtain ⟨rfl, rfl⟩ : setCall s c (some ⟨tld, config, .entered⟩) = s' ∧ [] = evs := by
        simpa [managerStep, hc] using h
      exact .call c tld config hc
    | some call => simp [managerStep, hc] at h
  | firstLock c =>
    cases hc : s.calls c with
    | none => simp [managerStep, hc] at h
    | some call =>
      obtain ⟨tld, config, phase⟩ := call
      cases phase with
      | entered =>
        cases hs : s.swarms tld with
        | none =>
          obtain ⟨rfl, rfl⟩ : setCall s c (some ⟨tld, config, .resolving⟩) = s' ∧ [] = evs := by
            simpa [managerStep, hc, lookupSwarm, hs] using h
          exact .miss c tld config hc hs
        | some handle =>
          simp only [managerStep, hc, lookupSwarm, hs, Option.map_some, Option.some.injEq,
            Prod.mk.injEq] at h
          obtain ⟨rfl, rfl⟩ := h
          exact .hit _ c _ handle hc hs
      | resolving => simp [managerStep, hc] at h
      | resolved configClone => simp [managerStep, hc] at h
  | resolve c resolved =>
    cases hc : s.calls c with
    | none => simp [managerStep, hc] at h
    | some call =>
      obtain ⟨tld, config, phase⟩ := call
      cases phase with
      | resolving =>
        simp only [managerStep, hc, Option.some.injEq, Prod.mk.injEq] at h
        obtain ⟨rfl, rfl⟩ := h
        exact .resolve c tld config resolved hc
      | entered => simp [managerStep, hc] at h
      | resolved configClone => simp [managerStep, hc] at h
  | secondLock c newOk =>
    cases hc : s.calls c with
    | none => simp [managerStep, hc] at h
    | some call =>
      obtain ⟨tld, config, phase⟩ := call
      cases phase with
      | entered => simp [managerStep, hc] at h
      | resolving => simp [managerStep, hc] at h
      | resolved configClone =>
        exact step_of_spawnOrReuse hc (by simpa [managerStep, hc] using h)
  | abandon c =>
    cases hc : s.calls c with
    | none => simp [managerStep, hc] at h
    | some call =>
      obtain ⟨rfl, rfl⟩ : setCall s c none = s' ∧ [] = evs := by
        simpa [managerStep, hc] using h
      exact .abandon c call hc
  | tick =>
    simp only [managerStep, Option.some.injEq, Prod.mk.injEq] at h
    obtain ⟨rfl, rfl⟩ := h
    exact .tick
  | advance d =>
    obtain ⟨rfl, rfl⟩ : { s with now := s.now + d } = s' ∧ [] = evs := by
      simpa [managerStep] using h
    exact .advance d

/-- Nodes are only added. -/
theorem nodes_step {s s' : ManagerState} {a : Action} {evs : List Event}
    (hstep : Step s a s' evs) : s.nodes <+: s'.nodes := by
  cases hstep with
  | spawn => exact List.prefix_append _ _
  | call | hit | miss | resolve | newFailed | abandon | tick | advance => exact List.prefix_rfl

theorem manager_step {h h' : History} {a : Action} (hstep : manager.step h a = some h') :
    ∃ evs, h'.log = h.log ++ evs ∧ Step h.state a h'.state evs := by
  obtain ⟨⟨s', evs⟩, hs, rfl⟩ := Option.map_eq_some_iff.mp hstep
  exact ⟨evs, rfl, step_of_managerStep hs⟩

def leaseOp (tld : Str) : Event → List (LeaseOp ℕ)
  | .spawned tld' node => if tld' = tld then [.acquire node] else []
  | .collected evicted => (evicted tld).toList.map .release
  | .returned _ _ _ _ => []

def leaseOps (tld : Str) (log : List Event) : List (LeaseOp ℕ) := log.flatMap (leaseOp tld)

def holder (s : ManagerState) (tld : Str) : Option ℕ := (s.swarms tld).map SwarmHandle.tx

theorem leaseOps_append (tld : Str) (log evs : List Event) :
    leaseOps tld (log ++ evs) = leaseOps tld log ++ leaseOps tld evs := by
  simp [leaseOps]

/-- Refreshing an entry changes no holder. -/
theorem holder_refresh {s : ManagerState} {tld : Str} {handle : SwarmHandle}
    (hhit : s.swarms tld = some handle) (tld' : Str) :
    (Function.update s.swarms tld (some { handle with lastUsed := s.now }) tld').map
      SwarmHandle.tx = holder s tld' := by
  by_cases ht : tld' = tld
  · subst tld'
    simp [holder, hhit]
  · simp [holder, ht]

/-- The collector removes the entry of the TLD's holder. -/
theorem holder_of_idle {s : ManagerState} {tld : Str} {n : ℕ}
    (hidle : idleSwarms s.swarms s.now tld = some n) : holder s tld = some n := by
  cases hs : s.swarms tld with
  | none => simp [idleSwarms, hs] at hidle
  | some handle =>
    simp only [idleSwarms, hs, Option.ite_none_right_eq_some, Option.some.injEq] at hidle
    simp [holder, hs, hidle.2]

/-- Each step of the manager is at most one step of the lease. -/
theorem lease_step {s s' : ManagerState} {a : Action} {evs : List Event} (tld : Str)
    (hstep : Step s a s' evs) :
    (leaseOps tld evs = [] ∧ holder s' tld = holder s tld) ∨
      ∃ op, leaseOps tld evs = [op] ∧ lease.step (holder s tld) op = some (holder s' tld) := by
  cases hstep with
  | hit a c call handle hcall hhit => exact Or.inl ⟨rfl, holder_refresh hhit tld⟩
  | spawn c tld' config configClone hcall hmiss =>
    by_cases ht : tld = tld'
    · subst tld
      exact Or.inr ⟨.acquire s.nodes.length, by simp [leaseOps, leaseOp],
        by simp [holder, setCall, hmiss, lease]⟩
    · have ht' : tld' ≠ tld := Ne.symm ht
      exact Or.inl ⟨by simp [leaseOps, leaseOp, ht'], by simp [holder, setCall, ht]⟩
  | tick =>
    cases hidle : idleSwarms s.swarms s.now tld with
    | none =>
      exact Or.inl ⟨by simp [leaseOps, leaseOp, hidle], by simp [holder, retainSwarms, hidle]⟩
    | some n =>
      have hnone : holder { s with swarms := retainSwarms s.swarms s.now } tld = none := by
        simp [holder, retainSwarms, hidle]
      refine Or.inr ⟨.release n, by simp [leaseOps, leaseOp, hidle], ?_⟩
      rw [holder_of_idle hidle, hnone]
      simp [lease]
  | call | miss | resolve | newFailed | abandon | advance => exact Or.inl ⟨rfl, rfl⟩

/-- The manager refines one lease per TLD, held by the node in the map. -/
theorem lease_refined {is : List Action} {h : History} (hrun : manager.Run is h) (tld : Str) :
    lease.Run (leaseOps tld h.log) (holder h.state tld) := by
  refine Machine.Run.invariant
    (P := fun _ h => lease.Run (leaseOps tld h.log) (holder h.state tld)) Machine.Run.nil ?_ hrun
  intro _ h a h' _ ih hstep
  obtain ⟨evs, hlog, hs⟩ := manager_step hstep
  rw [hlog, leaseOps_append]
  rcases lease_step tld hs with ⟨hnil, hsame⟩ | ⟨op, hop, hlease⟩
  · rw [hnil, List.append_nil, hsame]
    exact ih
  · rw [hop]
    exact ih.snoc hlease

/-- Every entry of the map is a node that was spawned for its TLD. -/
def EntriesSpawned (s : ManagerState) : Prop :=
  ∀ tld handle, s.swarms tld = some handle →
    ∃ node, s.nodes[handle.tx]? = some node ∧ node.tld = tld

theorem EntriesSpawned.of_holder {s : ManagerState} (hs : EntriesSpawned s) {tld : Str} {n : ℕ}
    (hn : holder s tld = some n) : ∃ node, s.nodes[n]? = some node ∧ node.tld = tld := by
  obtain ⟨handle, hhandle, rfl⟩ := Option.map_eq_some_iff.mp hn
  exact hs tld handle hhandle

theorem retainSwarms_some {swarms : Swarms} {now : ℕ} {tld : Str} {handle : SwarmHandle}
    (h : retainSwarms swarms now tld = some handle) : swarms tld = some handle := by
  unfold retainSwarms at h
  split at h
  · cases h
  · exact h

theorem entriesSpawned_step {s s' : ManagerState} {a : Action} {evs : List Event}
    (hs : EntriesSpawned s) (hstep : Step s a s' evs) : EntriesSpawned s' := by
  cases hstep with
  | hit a c call handle hcall hhit =>
    intro tld handle' h
    by_cases ht : tld = call.tld
    · subst tld
      obtain rfl : { handle with lastUsed := s.now } = handle' := by simpa [setCall] using h
      exact hs call.tld handle hhit
    · exact hs tld handle' (by simpa [setCall, ht] using h)
  | spawn c tld' config configClone hcall hmiss =>
    intro tld handle' h
    by_cases ht : tld = tld'
    · subst tld
      obtain rfl : (⟨s.nodes.length, s.now⟩ : SwarmHandle) = handle' := by
        simpa [setCall] using h
      exact ⟨⟨_, configClone.networkId, configClone.bootstrapNodes⟩, by simp [setCall], rfl⟩
    · obtain ⟨node, hnode, htld⟩ := hs tld handle' (by simpa [setCall, ht] using h)
      refine ⟨node, ?_, htld⟩
      have hlt := (List.getElem?_eq_some_iff.mp hnode).choose
      simpa [setCall, List.getElem?_append_left hlt] using hnode
  | tick => exact fun tld handle h => hs tld handle (retainSwarms_some h)
  | call | miss | resolve | newFailed | abandon | advance => exact hs

theorem entriesSpawned_run {is : List Action} {h : History} (hrun : manager.Run is h) :
    EntriesSpawned h.state := by
  refine Machine.Run.invariant (P := fun _ h => EntriesSpawned h.state) ?_ ?_ hrun
  · intro tld handle h
    cases h
  · intro _ _ _ _ _ ih hstep
    obtain ⟨_, _, hs⟩ := manager_step hstep
    exact entriesSpawned_step ih hs

theorem evicted_between {is : List Action} {h : History} (hrun : manager.Run is h) (tld : Str)
    (pre mid post : List Event) (i j : ℕ)
    (hlog : h.log = pre ++ .spawned tld i :: mid ++ .spawned tld j :: post) :
    ∃ evicted, .collected evicted ∈ mid ∧ evicted tld = some i := by
  have hlease := lease_refined hrun tld
  have hops : leaseOps tld h.log = leaseOps tld pre ++ .acquire i :: leaseOps tld mid ++
      .acquire j :: leaseOps tld post := by
    simp [hlog, leaseOps, leaseOp]
  rw [hops] at hlease
  obtain ⟨ev, hmem, hev⟩ := List.mem_flatMap.mp (released_between _ _ _ _ _ _ hlease)
  cases ev with
  | spawned tld' node => by_cases ht : tld' = tld <;> simp [leaseOp, ht] at hev
  | returned c tld' config sender => simp [leaseOp] at hev
  | collected evicted => exact ⟨evicted, hmem, by simpa [leaseOp] using hev⟩

/-- A returned sender is that of the node in the map when the lock is released. -/
theorem returned_holder {s s' : ManagerState} {a : Action} {evs : List Event} {c tx : ℕ}
    {tld : Str} {config : NetworkConfig} (hstep : Step s a s' evs)
    (hret : .returned c tld config (some tx) ∈ evs) : holder s' tld = some tx := by
  cases hstep with
  | hit a c' call handle hcall hhit =>
    obtain ⟨rfl, rfl, rfl, rfl⟩ : c = c' ∧ tld = call.tld ∧ config = call.config ∧
        tx = handle.tx := by simpa using hret
    simp [holder, setCall]
  | spawn c' tld' config' configClone hcall hmiss =>
    obtain ⟨rfl, rfl, rfl, rfl⟩ : c = c' ∧ tld = tld' ∧ config = config' ∧
        tx = s.nodes.length := by simpa using hret
    simp [holder, setCall]
  | newFailed c' call hcall => simp at hret
  | tick => simp at hret
  | call | miss | resolve | abandon | advance => simp at hret

/-- In every run at most one node is spawned for a TLD between two evictions of its
entry, and a call that returns a sender returns that of the TLD's node in the map. -/
theorem single_spawn {is : List Action} {h : History} (hrun : manager.Run is h) :
    (∀ tld pre mid post i j,
      h.log = pre ++ .spawned tld i :: mid ++ .spawned tld j :: post →
        ∃ evicted, .collected evicted ∈ mid ∧ evicted tld = some i) ∧
    ∀ a h' c tld config tx, manager.step h a = some h' →
      .returned c tld config (some tx) ∈ h'.log.drop h.log.length →
        holder h'.state tld = some tx ∧
          ∃ node, h'.state.nodes[tx]? = some node ∧ node.tld = tld := by
  refine ⟨fun tld pre mid post i j => evicted_between hrun tld pre mid post i j, ?_⟩
  intro a h' c tld config tx hstep hret
  obtain ⟨evs, hlog, hs⟩ := manager_step hstep
  rw [hlog, List.drop_left] at hret
  have hholder := returned_holder hs hret
  exact ⟨hholder, (entriesSpawned_run (hrun.snoc hstep)).of_holder hholder⟩

/-- A configuration without a seed domain. -/
def kinConfig : NetworkConfig :=
  ⟨"1.0", "kin-net", ".kin", [], "127.0.0.1", none, none, none, none⟩

/-- Two callers race for one TLD; the second reuses what the first has spawned. -/
def race : List Action :=
  [.call 0 ".kin" kinConfig, .call 1 ".kin" kinConfig, .firstLock 0, .firstLock 1,
    .resolve 0 [], .resolve 1 [], .secondLock 0 true]

/-- After an idle spell the entry is collected and a third caller spawns anew. -/
def idleAndRespawn : List Action :=
  [.secondLock 1 true, .advance (idleTimeout + 1), .tick, .call 2 ".kin" kinConfig,
    .firstLock 2, .resolve 2 []]

theorem single_spawn_race :
    ∃ h h' pre mid post, manager.Run (race ++ idleAndRespawn) h ∧
      manager.step h (.secondLock 2 true) = some h' ∧
      h'.log = pre ++ .spawned ".kin" 0 :: mid ++ .spawned ".kin" 1 :: post ∧
      (∃ evicted, .collected evicted ∈ mid ∧ evicted ".kin" = some 0) ∧
      holder h'.state ".kin" = some 1 ∧
        ∃ node, h'.state.nodes[1]? = some node ∧ node.tld = ".kin".toList := by
  have hrun := manager.run_get (race ++ idleAndRespawn) rfl
  have hrun' := manager.run_get (race ++ idleAndRespawn ++ [.secondLock 2 true]) rfl
  exact ⟨_, _, [], [_, _, _], [_], hrun, rfl, rfl,
    (single_spawn hrun').1 ".kin" [] [_, _, _] [_] 0 1 rfl,
    (single_spawn hrun).2 (.secondLock 2 true) _ 2 ".kin" kinConfig 1 rfl
      (List.mem_cons_of_mem _ List.mem_cons_self)⟩

end KineticAtlas.SwarmManager
