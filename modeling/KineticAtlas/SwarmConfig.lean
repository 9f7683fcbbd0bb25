import KineticAtlas.SwarmManager
import KineticAtlas.RegistryLoad

/-!
The swarm manager together with the registry its callers read and the hot reloads
that replace it. A swarm is found by its TLD alone, so a caller may be handed a
node that was started for an older configuration. The main result is that this
needs a reload which changes the network id or the bootstrap nodes of a TLD that
has a live swarm or a call on its way.
-/
namespace KineticAtlas.SwarmConfig

open Library.Texts Library.Runs Library.Files KineticAtlas.Types Registry RegistryLoad SwarmManager

structure SystemState where
  registry : TldRegistry
  manager : History

/-- A request looks its TLD up and calls the manager with the configuration found;
the other steps of a call are the manager's. -/
inductive SystemAction (F : Type)
  | request (c : ℕ) (tld : Str)
  | manage (a : Action)
  | reload (fs : FileSystem F) (json : Json) (dir : Str) (globalConfig : AtlasConfig)
      (disk : Disk F)

variable {F : Type} [DecidableEq F]

def reloaded (registry : TldRegistry) (fs : FileSystem F) (json : Json) (dir : Str)
    (globalConfig : AtlasConfig) (disk : Disk F) : TldRegistry :=
  (loadFromDir fs json dir globalConfig ⟨registry, disk⟩).registry

def manageStep (s : SystemState) (a : Action) : Option SystemState :=
  (manager.step s.manager a).map ({ s with manager := · })

/-- An unknown TLD is refused before the manager is called. -/
def systemStep (s : SystemState) : SystemAction F → Option SystemState
  | .request c tld =>
    match s.registry.getConfig tld with
    | none => some s
    | some config => manageStep s (.call c tld config)
  | .manage (.call _ _ _) => none
  | .manage a => manageStep s a
  | .reload fs json dir globalConfig disk =>
    some { s with registry := reloaded s.registry fs json dir globalConfig disk }

def system : Machine SystemState (SystemAction F) where
  init := ⟨.new, manager.init⟩
  step := systemStep

theorem manageStep_some {s s' : SystemState} {a : Action} (h : manageStep s a = some s') :
    manager.step s.manager a = some s'.manager ∧ s'.registry = s.registry := by
  obtain ⟨h', hm, rfl⟩ := Option.map_eq_some_iff.mp h
  exact ⟨hm, rfl⟩

/-- A step of the system is a step of the manager, whose calls bring the
configuration of the registry, or it replaces the registry, or nothing. -/
theorem system_step {s s' : SystemState} {i : SystemAction F}
    (hstep : system.step s i = some s') :
    s' = s ∨
      (∃ a, manager.step s.manager a = some s'.manager ∧ s'.registry = s.registry ∧
        ∀ c tld config, a = .call c tld config → s.registry.getConfig tld = some config) ∨
      ∃ fs json dir globalConfig disk, i = .reload fs json dir globalConfig disk ∧
        s' = { s with registry := reloaded s.registry fs json dir globalConfig disk } := by
  cases i with
  | request c tld =>
    cases hc : s.registry.getConfig tld with
    | none => exact Or.inl (by simpa [system, systemStep, hc] using hstep.symm)
    | some config =>
      have hm : manageStep s (.call c tld config) = some s' := by
        simpa [system, systemStep, hc] using hstep
      refine Or.inr (Or.inl ⟨_, (manageStep_some hm).1, (manageStep_some hm).2, ?_⟩)
      rintro c' tld' config' ⟨⟩
      exact hc
  | manage a =>
    have hnot : ∀ c tld config, a ≠ .call c tld config := by
      rintro c tld config rfl
      simp [system, systemStep] at hstep
    have hm : manageStep s a = some s' := by
      cases a with
      | call c tld config => exact absurd rfl (hnot c tld config)
      | firstLock | resolve | secondLock | abandon | tick | advance => exact hstep
    exact Or.inr (Or.inl ⟨a, (manageStep_some hm).1, (manageStep_some hm).2,
      fun c tld config ha => absurd ha (hnot c tld config)⟩)
  | reload fs json dir globalConfig disk =>
    exact Or.inr (Or.inr ⟨fs, json, dir, globalConfig, disk, rfl,
      by simpa [system, systemStep] using hstep.symm⟩)

/-- The two settings a node is started with. -/
def SameStart (config config' : NetworkConfig) : Prop :=
  config.networkId = config'.networkId ∧ config.bootstrapNodes = config'.bootstrapNodes

def StartedFor (node : Node) (config : NetworkConfig) : Prop :=
  node.networkId = config.networkId ∧ config.bootstrapNodes <+: node.bootstrapNodes

theorem StartedFor.of_same {node : Node} {config config' : NetworkConfig}
    (h : StartedFor node config) (hsame : SameStart config config') : StartedFor node config' :=
  ⟨h.1.trans hsame.1, hsame.2 ▸ h.2⟩

/-- The node numbered `n` was started for the configuration. -/
def NodeServes (s : ManagerState) (n : ℕ) (config : NetworkConfig) : Prop :=
  ∃ node, s.nodes[n]? = some node ∧ StartedFor node config

/-- A call of the TLD with the configuration is on its way. -/
def InFlight (s : ManagerState) (tld : Str) (config : NetworkConfig) : Prop :=
  ∃ c call, s.calls c = some call ∧ call.tld = tld ∧ call.config = config

/-- Configurations with which a swarm of the TLD may be asked for: that of the
registry and those of the calls on their way. -/
def Uses (r : TldRegistry) (s : ManagerState) (tld : Str) (config : NetworkConfig) : Prop :=
  r.getConfig tld = some config ∨ InFlight s tld config

structure Coherent (r : TldRegistry) (s : ManagerState) : Prop where
  uses_agree : ∀ tld config config',
    Uses r s tld config → Uses r s tld config' → SameStart config config'
  live_serves : ∀ tld config n, Uses r s tld config → holder s tld = some n → NodeServes s n config
  clones_extend : ∀ c tld config configClone,
    s.calls c = some ⟨tld, config, .resolved configClone⟩ →
      configClone.networkId = config.networkId ∧
        config.bootstrapNodes <+: configClone.bootstrapNodes

/-- A reload leaves every TLD with a live swarm or a call on its way a configuration
with the same start settings; a live swarm may know more bootstrap nodes. -/
def Compatible (s : ManagerState) (r : TldRegistry) : Prop :=
  ∀ tld config, r.getConfig tld = some config →
    (∀ config', InFlight s tld config' → SameStart config config') ∧
      ∀ n, holder s tld = some n → NodeServes s n config

/-- The condition on the steps of the system: its reloads are compatible. -/
def ReloadCompatible (s : SystemState) : SystemAction F → Prop
  | .reload fs json dir globalConfig disk =>
    Compatible s.manager.state (reloaded s.registry fs json dir globalConfig disk)
  | _ => True

variable {r : TldRegistry} {s s' : ManagerState}

/-- What drops users and live swarms, and only adds nodes, keeps coherence. -/
theorem Coherent.mono {r' : TldRegistry} (h : Coherent r s)
    (huses : ∀ tld config, Uses r' s' tld config → Uses r s tld config)
    (hlive : ∀ tld n, holder s' tld = some n → holder s tld = some n)
    (hnodes : s'.nodes = s.nodes)
    (hclones : ∀ c tld config configClone,
      s'.calls c = some ⟨tld, config, .resolved configClone⟩ →
        configClone.networkId = config.networkId ∧
          config.bootstrapNodes <+: configClone.bootstrapNodes) : Coherent r' s' where
  uses_agree tld config config' hu hu' :=
    h.uses_agree tld config config' (huses _ _ hu) (huses _ _ hu')
  live_serves tld config n hu hn := by
    obtain ⟨node, hnode, hstart⟩ := h.live_serves tld config n (huses _ _ hu) (hlive _ _ hn)
    exact ⟨node, by rwa [hnodes], hstart⟩
  clones_extend := hclones

theorem Coherent.end_call (h : Coherent r s) (c : ℕ) : Coherent r (setCall s c none) := by
  have hcalls : ∀ c' call, (setCall s c none).calls c' = some call → s.calls c' = some call := by
    intro c' call hc
    by_cases hcc : c' = c
    · simp [setCall, hcc] at hc
    · simpa [setCall, hcc] using hc
  refine h.mono (fun tld config hu => ?_) (fun _ _ hn => hn) rfl ?_
  · rcases hu with hr | ⟨c', call, hc, htld, hconfig⟩
    · exact Or.inl hr
    · exact Or.inr ⟨c', call, hcalls c' call hc, htld, hconfig⟩
  · exact fun c' tld config configClone hc =>
      h.clones_extend c' tld config configClone (hcalls c' _ hc)

/-- A call may be entered or moved on with a configuration that is in use. -/
theorem Coherent.set_call (h : Coherent r s) (c : ℕ) (call : Call)
    (huse : Uses r s call.tld call.config)
    (hclone : ∀ configClone, call.phase = .resolved configClone →
      configClone.networkId = call.config.networkId ∧
        call.config.bootstrapNodes <+: configClone.bootstrapNodes) :
    Coherent r (setCall s c (some call)) := by
  have hcalls : ∀ c' call', (setCall s c (some call)).calls c' = some call' →
      call' = call ∨ s.calls c' = some call' := by
    intro c' call' hc
    by_cases hcc : c' = c
    · exact Or.inl (by simpa [setCall, hcc] using hc.symm)
    · exact Or.inr (by simpa [setCall, hcc] using hc)
  refine h.mono (fun tld config hu => ?_) (fun _ _ hn => hn) rfl ?_
  · rcases hu with hr | ⟨c', call', hc, rfl, rfl⟩
    · exact Or.inl hr
    · rcases hcalls c' call' hc with rfl | hold
      · exact huse
      · exact Or.inr ⟨c', call', hold, rfl, rfl⟩
  · intro c' tld config configClone hc
    rcases hcalls c' _ hc with heq | hold
    · subst call
      exact hclone configClone rfl
    · exact h.clones_extend c' tld config configClone hold

theorem withResolved_extends (config : NetworkConfig) (found : List Str) :
    (withResolved config found).networkId = config.networkId ∧
      config.bootstrapNodes <+: (withResolved config found).bootstrapNodes := by
  unfold withResolved
  split
  · exact ⟨rfl, List.prefix_append _ _⟩
  · exact ⟨rfl, List.prefix_rfl⟩

/-- The node spawned by a call serves every user of its TLD, as they all agree. -/
theorem Coherent.spawn {c : ℕ} {tld : Str} {config configClone : NetworkConfig}
    (h : Coherent r s) (hcall : s.calls c = some ⟨tld, config, .resolved configClone⟩) :
    Coherent r
      { s with
        swarms := Function.update s.swarms tld (some ⟨s.nodes.length, s.now⟩)
        nodes := s.nodes ++ [⟨tld, configClone.networkId, configClone.bootstrapNodes⟩] } where
  uses_agree := h.uses_agree
  live_serves tld' config' n hu hn := by
    by_cases ht : tld' = tld
    · subst tld'
      obtain rfl : s.nodes.length = n := by simpa [holder] using hn
      have hstart := h.clones_extend c tld config configClone hcall
      have hsame := h.uses_agree tld config config' (Or.inr ⟨c, _, hcall, rfl, rfl⟩) hu
      exact ⟨⟨tld, configClone.networkId, configClone.bootstrapNodes⟩, by simp,
        StartedFor.of_same hstart hsame⟩
    · have hn' : holder s tld' = some n := by simpa [holder, ht] using hn
      obtain ⟨node, hnode, hstart⟩ := h.live_serves tld' config' n hu hn'
      have hlt := (List.getElem?_eq_some_iff.mp hnode).choose
      exact ⟨node, by simpa [List.getElem?_append_left hlt] using hnode, hstart⟩
  clones_extend := h.clones_extend

/-- A step of the manager keeps coherence when calls bring the registry's configuration. -/
theorem coherent_step {a : Action} {evs : List Event} (h : Coherent r s)
    (hstep : Step s a s' evs)
    (hcalls : ∀ c tld config, a = .call c tld config → r.getConfig tld = some config) :
    Coherent r s' := by
  cases hstep with
  | call c tld config hfree =>
    exact h.set_call c _ (Or.inl (hcalls c tld config rfl)) (fun _ heq => by cases heq)
  | hit a c call handle hcall hhit =>
    have hrefresh : Coherent r { s with
        swarms := Function.update s.swarms call.tld (some { handle with lastUsed := s.now }) } :=
      h.mono (fun _ _ hu => hu) (fun tld n hn => (holder_refresh hhit tld).symm.trans hn) rfl
        h.clones_extend
    exact hrefresh.end_call c
  | miss c tld config hcall hmiss =>
    exact h.set_call c _ (Or.inr ⟨c, _, hcall, rfl, rfl⟩) (fun _ heq => by cases heq)
  | resolve c tld config found hcall =>
    refine h.set_call c _ (Or.inr ⟨c, _, hcall, rfl, rfl⟩) ?_
    rintro configClone ⟨⟩
    exact withResolved_extends config found
  | spawn c tld config configClone hcall hmiss => exact (h.spawn hcall).end_call c
  | newFailed c call hcall => exact h.end_call c
  | abandon c call hcall => exact h.end_call c
  | tick =>
    refine h.mono (fun _ _ hu => hu) ?_ rfl h.clones_extend
    intro tld n hn
    obtain ⟨handle, hhandle, rfl⟩ := Option.map_eq_some_iff.mp hn
    simp [holder, retainSwarms_some hhandle]
  | advance d => exact h.mono (fun _ _ hu => hu) (fun _ _ hn => hn) rfl h.clones_extend

theorem NodeServes.of_step {a : Action} {evs : List Event} {n : ℕ} {config : NetworkConfig}
    (h : NodeServes s n config) (hstep : Step s a s' evs) : NodeServes s' n config := by
  obtain ⟨node, hnode, hstart⟩ := h
  refine ⟨node, ?_, hstart⟩
  cases hstep with
  | spawn c tld config' configClone hcall hmiss =>
    have hlt := (List.getElem?_eq_some_iff.mp hnode).choose
    simpa [setCall, List.getElem?_append_left hlt] using hnode
  | call | hit | miss | resolve | newFailed | abandon | tick | advance => exact hnode

/-- The call that returns is among the users that the node it returns serves. -/
theorem Coherent.returned_serves {a : Action} {evs : List Event} {c tx : ℕ} {tld : Str}
    {config : NetworkConfig} (h : Coherent r s) (hstep : Step s a s' evs)
    (hret : .returned c tld config (some tx) ∈ evs) : NodeServes s' tx config := by
  cases hstep with
  | hit a c' call handle hcall hhit =>
    obtain ⟨-, rfl, rfl, rfl⟩ : c = c' ∧ tld = call.tld ∧ config = call.config ∧
        tx = handle.tx := by simpa using hret
    exact h.live_serves _ _ _ (Or.inr ⟨c', call, hcall, rfl, rfl⟩) (by simp [holder, hhit])
  | spawn c' tld' config' configClone hcall hmiss =>
    obtain ⟨-, rfl, rfl, rfl⟩ : c = c' ∧ tld = tld' ∧ config = config' ∧
        tx = s.nodes.length := by simpa using hret
    exact (h.spawn hcall).live_serves _ _ _ (Or.inr ⟨c', _, hcall, rfl, rfl⟩) (by simp [holder])
  | newFailed c' call hcall => simp at hret
  | tick => simp at hret
  | call | miss | resolve | abandon | advance => simp at hret

/-- Every sender returned so far is that of a node started for the configuration
of the call that got it. -/
def ConfigsKept (h : History) : Prop :=
  ∀ c tld config tx, .returned c tld config (some tx) ∈ h.log → NodeServes h.state tx config

theorem configsKept_step {h h' : History} {a : Action} (hkept : ConfigsKept h)
    (hcoherent : Coherent r h.state) (hstep : manager.step h a = some h') : ConfigsKept h' := by
  obtain ⟨evs, hlog, hs⟩ := manager_step hstep
  intro c tld config tx hret
  rw [hlog] at hret
  rcases List.mem_append.mp hret with hold | hnew
  · exact (hkept c tld config tx hold).of_step hs
  · exact hcoherent.returned_serves hs hnew

theorem coherent_reload {r' : TldRegistry} (h : Coherent r s) (hcompat : Compatible s r') :
    Coherent r' s where
  uses_agree tld config config' hu hu' := by
    rcases hu with hr | hf <;> rcases hu' with hr' | hf'
    · obtain rfl : config = config' := Option.some.inj (hr.symm.trans hr')
      exact ⟨rfl, rfl⟩
    · exact (hcompat tld config hr).1 config' hf'
    · have hsame := (hcompat tld config' hr').1 config hf
      exact ⟨hsame.1.symm, hsame.2.symm⟩
    · exact h.uses_agree tld config config' (Or.inr hf) (Or.inr hf')
  live_serves tld config n hu hn := by
    rcases hu with hr | hf
    · exact (hcompat tld config hr).2 n hn
    · exact h.live_serves tld config n (Or.inr hf) hn
  clones_extend := h.clones_extend

/-- A reload that finds everything as it was is compatible. -/
theorem Coherent.compatible (h : Coherent r s) : Compatible s r := fun tld config hr =>
  ⟨fun config' hf => h.uses_agree tld config config' (Or.inl hr) (Or.inr hf),
    fun n hn => h.live_serves tld config n (Or.inl hr) hn⟩

theorem coherent_init : Coherent TldRegistry.new manager.init.state where
  uses_agree tld config config' hu := by
    rcases hu with hr | ⟨c, call, hc, -⟩
    · simp [TldRegistry.new, TldRegistry.getConfig] at hr
    · simp [manager] at hc
  live_serves tld config n hu hn := by simp [manager, holder] at hn
  clones_extend c tld config configClone hc := by simp [manager] at hc

theorem coherent_run {is : List (SystemAction F)} {s : SystemState} (hrun : system.Run is s)
    (hok : system.Throughout ReloadCompatible is) :
    Coherent s.registry s.manager.state ∧ ConfigsKept s.manager := by
  refine Machine.Run.invariant_throughout
    (P := fun s => Coherent s.registry s.manager.state ∧ ConfigsKept s.manager)
    ⟨coherent_init, fun _ _ _ _ hret => by simp [system, manager] at hret⟩ ?_ hrun hok
  rintro s i s' ⟨hcoherent, hkept⟩ hok hstep
  rcases system_step hstep with rfl | ⟨a, hm, hregistry, hcalls⟩ |
    ⟨fs, json, dir, globalConfig, disk, rfl, rfl⟩
  · exact ⟨hcoherent, hkept⟩
  · obtain ⟨evs, -, hs⟩ := manager_step hm
    rw [hregistry]
    exact ⟨coherent_step hcoherent hs hcalls, configsKept_step hkept hcoherent hm⟩
  · exact ⟨coherent_reload hcoherent hok, hkept⟩

/-- In every run whose reloads are compatible, every sender returned belongs to a
node started with the network id of the configuration it was asked for with, and
with a bootstrap list that extends that of the configuration. -/
theorem configs_kept {is : List (SystemAction F)} {s : SystemState} (hrun : system.Run is s)
    (hok : system.Throughout ReloadCompatible is) : ConfigsKept s.manager :=
  (coherent_run hrun hok).2

def loadKin (networkId : Str) : SystemAction Str :=
  .reload (directory "networks" ["kin.json"]) (jsonOf [("main", "kin"), ("test", "kin")])
    "networks" openConfig (diskOf [("networks/kin.json", networkJson networkId "kin")])

/-- A request is served, which leaves a live swarm behind. -/
def servedOnce : List (SystemAction Str) :=
  [loadKin "main"] ++
    [.request 0 ".kin", .manage (.firstLock 0), .manage (.resolve 0 []),
      .manage (.secondLock 0 true)]

theorem servedOnce_compatible : system.Throughout ReloadCompatible servedOnce := by
  have hload : system.Throughout ReloadCompatible [loadKin "main"] := by
    refine (Machine.throughout_nil system ReloadCompatible).snoc fun s hs tld config _ => ?_
    obtain rfl := hs.unique .nil
    exact ⟨fun config' ⟨c, call, hc, _⟩ => by simp [system, manager] at hc,
      fun n hn => by simp [system, manager, holder] at hn⟩
  exact hload.append (by simp [ReloadCompatible])

set_option maxRecDepth 4096 in
/-- A hot reload that changes nothing keeps the live swarm in use. -/
theorem configs_kept_unchanged :
    ∃ s, system.Run
        (servedOnce ++ [loadKin "main"] ++ [.request 1 ".kin", .manage (.firstLock 1)]) s ∧
      ConfigsKept s.manager := by
  have hreload : system.Throughout ReloadCompatible (servedOnce ++ [loadKin "main"]) := by
    refine servedOnce_compatible.snoc fun s hs => ?_
    have hrun := Machine.run_get system servedOnce rfl
    obtain rfl := hs.unique hrun
    exact (coherent_run hrun servedOnce_compatible).1.compatible
  exact ⟨_, Machine.run_get _ _ rfl, configs_kept (Machine.run_get _ _ rfl)
    (hreload.append (by simp [ReloadCompatible]))⟩

/-- The network id of a TLD in use is changed by a hot reload; the next request is
handed the node of the old network. -/
theorem stale_swarm_returned :
    ∃ s, system.Run (servedOnce ++ [loadKin "test", .request 1 ".kin", .manage (.firstLock 1)]) s ∧
      ¬ ConfigsKept s.manager := by
  refine ⟨_, Machine.run_get _ _ rfl, fun hkept => ?_⟩
  obtain ⟨node, hnode, hid, -⟩ :=
    hkept 1 ".kin" (network "test" "kin") 0 (.tail _ (.tail _ (.head _)))
  obtain rfl : (⟨".kin", "main", []⟩ : Node) = node := Option.some.inj hnode
  revert hid
  decide

end KineticAtlas.SwarmConfig
