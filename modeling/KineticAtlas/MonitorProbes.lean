import KineticAtlas.BotNetwork
import KineticAtlas.AtlasScripts

/-!
What the monitor does on the network (ping_host and the loop over the nodes in main of
monitor_networks.py). It looks a host up by itself and connects to the address that it has
checked, so a name service that answers differently each time gains nothing by it. A run is
one of the model without a network, if no endpoint answers differently within it.
-/
namespace KineticAtlas.MonitorProbes

open Library.Texts Library.IpAddresses AtlasTable AtlasScripts
open BotNetwork (isPublicIp)
open RegistrationBot (pyInt)

/-- A call of ping_host: what it asked for, the address it was given for the host, the
connection it tried to open, and what it returned. -/
structure Ping where
  host : Str
  port : Str
  address : Option Str
  target : Option (Str × ℤ)
  live : Bool

def Ping.endpoint (ping : Ping) : Str × Str := (ping.host, ping.port)

/-- The net may make its answers depend on all that the run has asked it before. -/
structure Internet where
  readIp : Str → Option IpAddress
  gethostbyname : List Ping → Str → Option Str
  accepts : List Ping → (ip : Str) → (port : ℤ) → Bool

/-- `connect` turns a port down that does not fit 16 bits. -/
def portOf (port : Str) : Option ℤ :=
  (pyInt port).filter fun n => 0 ≤ n ∧ n ≤ 65535

def pingHost (net : Internet) (log : List Ping) (host port : Str) : Ping :=
  match net.gethostbyname log host with
  | none => ⟨host, port, none, none, false⟩
  | some ip =>
    if isPublicIp net.readIp ip then
      match portOf port with
      | none => ⟨host, port, some ip, none, false⟩
      | some n => ⟨host, port, some ip, some (ip, n), net.accepts log ip n⟩
    else ⟨host, port, some ip, none, false⟩

/-- The loop over the nodes, which ends with the first live one. It yields what was asked
in it, after the calls so far. -/
def probeNodes (net : Internet) (log : List Ping) : List (Option Str) → List Ping
  | [] => []
  | node :: rest =>
    match node.bind ip4Endpoint with
    | none => probeNodes net log rest
    | some (host, port) =>
      let ping := pingHost net log host port
      if ping.live then [ping] else ping :: probeNodes net (log ++ [ping]) rest

structure Probing where
  monitoring : Monitoring
  log : List Ping

/-- One round of the loop over the files of the directory. -/
def probeFile (net : Internet) (s : Probing) (file : Str × NetworkFile) : Probing :=
  if ".json".toList <:+ file.1 then
    let tld := file.1.take (file.1.length - 5)
    match file.2 with
    | .broken => s
    | .config seed nodes =>
      if seed.getD [] = [] ∨ nodes = [] then s
      else
        let pings := probeNodes net s.log nodes
        if pings.any Ping.live then
          { monitoring :=
              { uptimeState := Function.update s.monitoring.uptimeState tld (some 0)
                tableRows := setStatus s.monitoring.tableRows tld activeBadge }
            log := s.log ++ pings }
        else
          let failures := (s.monitoring.uptimeState tld).getD 0 + 1
          { monitoring :=
              { uptimeState := Function.update s.monitoring.uptimeState tld (some failures)
                tableRows := setStatus s.monitoring.tableRows tld
                  (if 7 ≤ failures then offlineBadge else activeBadge) }
            log := s.log ++ pings }
  else s

def probeNetworks (net : Internet) (networks : Option (List (Str × NetworkFile)))
    (uptimeState : Str → Option ℕ) (atlas : Option Str) : Monitored × List Ping :=
  match networks with
  | none => (⟨atlas, none, .completed⟩, [])
  | some files =>
    match atlas with
    | none => (⟨none, none, .completed⟩, [])
    | some content =>
      let s := scan (fun rows _ parts =>
        if 8 ≤ parts.length then setRow rows (tldKey (parts.headD [])) parts else rows) [] content
      let probing := files.foldl (probeFile net) ⟨⟨uptimeState, s.tableRows⟩, []⟩
      match rewriteTable s.headerLines
          ((sortByTld probing.monitoring.tableRows).map fun row => rowText row.2) with
      | (text, .completed) =>
        (⟨some text, some probing.monitoring.uptimeState, .completed⟩, probing.log)
      | (text, outcome) => (⟨some text, none, outcome⟩, probing.log)

/-- A connection is tried with the very address that was looked up and found to be public. -/
def Ping.Guarded (net : Internet) (ping : Ping) : Prop :=
  (∀ ip port, ping.target = some (ip, port) →
    ping.address = some ip ∧ isPublicIp net.readIp ip = true ∧ portOf ping.port = some port) ∧
  (ping.live = true → ping.target ≠ none)

def endpointsOf (nodes : List (Option Str)) : List (Str × Str) :=
  nodes.filterMap fun node => node.bind ip4Endpoint

/-- The nodes are tried in turn until one is live. -/
structure Tried (nodes : List (Option Str)) (pings : List Ping) : Prop where
  in_turn : pings.map Ping.endpoint <+: endpointsOf nodes
  dead : ∀ ping ∈ pings.dropLast, ping.live = false
  given_up : (∀ ping ∈ pings, ping.live = false) → pings.map Ping.endpoint = endpointsOf nodes

/-- The nodes of a file, if the file is one that counts. -/
def nodesOf (file : Str × NetworkFile) : Option (List (Option Str)) :=
  if ".json".toList <:+ file.1 then
    match file.2 with
    | .broken => none
    | .config seed nodes => if seed.getD [] = [] ∨ nodes = [] then none else some nodes
  else none

/-- The lists of nodes that a run goes through. -/
def nodeLists (networks : Option (List (Str × NetworkFile))) (atlas : Option Str) :
    List (List (Option Str)) :=
  match atlas with
  | none => []
  | some _ => (networks.getD []).filterMap nodesOf

/-- No endpoint was found both live and dead. -/
def Steady (log : List Ping) : Prop :=
  ∀ ping ∈ log, ∀ ping' ∈ log, ping.endpoint = ping'.endpoint → ping.live = ping'.live

/-- The answers of a run, as the model without a network takes them. -/
def answers (log : List Ping) (host port : Str) : Bool :=
  log.any fun ping => ping.endpoint = (host, port) ∧ ping.live = true

variable {net : Internet} {log pings : List Ping} {nodes : List (Option Str)}
  {host port : Str} {s : Probing} {file : Str × NetworkFile}

theorem pingHost_endpoint : (pingHost net log host port).endpoint = (host, port) := by
  unfold pingHost
  split
  · rfl
  split
  · split <;> rfl
  · rfl

theorem pingHost_guarded : (pingHost net log host port).Guarded net := by
  unfold pingHost Ping.Guarded
  split
  · simp
  rename_i ip hip
  split
  · rename_i hpublic
    split
    · simp
    · rename_i n hn
      refine ⟨fun ip' port' h => ?_, by simp⟩
      obtain ⟨rfl, rfl⟩ := Prod.mk.inj (Option.some.inj h)
      exact ⟨rfl, hpublic, hn⟩
  · simp

theorem probeNodes_guarded : ∀ ping ∈ probeNodes net log nodes, ping.Guarded net := by
  induction nodes generalizing log with
  | nil => simp [probeNodes]
  | cons node rest ih =>
    unfold probeNodes
    split
    · exact ih
    rename_i host port hnode
    dsimp only
    split
    · intro ping hping
      rw [List.mem_singleton.mp hping]
      exact pingHost_guarded
    · intro ping hping
      rcases List.mem_cons.mp hping with rfl | hlater
      · exact pingHost_guarded
      · exact ih ping hlater

theorem endpointsOf_skip {node : Option Str} (hnode : node.bind ip4Endpoint = none) :
    endpointsOf (node :: nodes) = endpointsOf nodes :=
  List.filterMap_cons_none hnode

theorem endpointsOf_cons {node : Option Str} {e : Str × Str}
    (hnode : node.bind ip4Endpoint = some e) :
    endpointsOf (node :: nodes) = e :: endpointsOf nodes :=
  List.filterMap_cons_some hnode

theorem tried_skip {node : Option Str} (hnode : node.bind ip4Endpoint = none)
    (h : Tried nodes pings) : Tried (node :: nodes) pings := by
  have hskip := @endpointsOf_skip nodes node hnode
  exact ⟨hskip ▸ h.in_turn, h.dead, hskip ▸ h.given_up⟩

theorem tried_live {node : Option Str} {ping : Ping}
    (hnode : node.bind ip4Endpoint = some ping.endpoint) (hlive : ping.live = true) :
    Tried (node :: nodes) [ping] := by
  refine ⟨?_, by simp, fun h => ?_⟩
  · rw [endpointsOf_cons hnode]
    exact List.cons_prefix_cons.mpr ⟨rfl, List.nil_prefix⟩
  · have hdead := h ping (by simp)
    simp [hlive] at hdead

theorem tried_dead {node : Option Str} {ping : Ping}
    (hnode : node.bind ip4Endpoint = some ping.endpoint) (hdead : ping.live = false)
    (h : Tried nodes pings) : Tried (node :: nodes) (ping :: pings) := by
  refine ⟨?_, fun p hp => ?_, fun hall => ?_⟩
  · rw [endpointsOf_cons hnode]
    exact List.cons_prefix_cons.mpr ⟨rfl, h.in_turn⟩
  · cases pings with
    | nil => simp at hp
    | cons second others =>
      rcases List.mem_cons.mp hp with rfl | hlater
      · exact hdead
      · exact h.dead p hlater
  · rw [endpointsOf_cons hnode, List.map_cons,
      h.given_up fun p hp => hall p (List.mem_cons_of_mem _ hp)]

theorem probeNodes_tried : Tried nodes (probeNodes net log nodes) := by
  induction nodes generalizing log with
  | nil => exact ⟨List.nil_prefix, by simp [probeNodes], fun _ => rfl⟩
  | cons node rest ih =>
    unfold probeNodes
    split
    · rename_i hnode
      exact tried_skip hnode ih
    rename_i host port hnode
    have hendpoint : node.bind ip4Endpoint = some (pingHost net log host port).endpoint := by
      rw [pingHost_endpoint, hnode]
    dsimp only
    split
    · rename_i hlive
      exact tried_live hendpoint hlive
    · rename_i hdead
      exact tried_dead hendpoint (by simpa using hdead) ih

/-- With answers that agree with what was asked, the nodes are found live or not as if they
had all been asked. -/
theorem isLive_of_tried {ping : Str → Str → Bool} (h : Tried nodes pings)
    (hagree : ∀ p ∈ pings, ping p.host p.port = p.live) :
    isLive ping nodes = pings.any Ping.live := by
  have hlive : isLive ping nodes = (endpointsOf nodes).any fun e => ping e.1 e.2 := by
    rw [isLive, endpointsOf, List.any_filterMap]
    congr 1
    funext node
    cases node.bind ip4Endpoint <;> rfl
  have hiff : (endpointsOf nodes).any (fun e => ping e.1 e.2) = true ↔
      pings.any Ping.live = true := by
    constructor
    · intro hany
      by_contra hnone
      have hdead : ∀ p ∈ pings, p.live = false := by simpa using hnone
      rw [← h.given_up hdead, List.any_map, List.any_eq_true] at hany
      obtain ⟨p, hp, hanswer⟩ := hany
      have hfound : p.live = true := (hagree p hp).symm.trans hanswer
      simp [hdead p hp] at hfound
    · intro hany
      obtain ⟨p, hp, hfound⟩ := List.any_eq_true.mp hany
      exact List.any_eq_true.mpr ⟨p.endpoint, h.in_turn.subset (List.mem_map_of_mem hp),
        (hagree p hp).trans hfound⟩
  rw [hlive, Bool.eq_iff_iff, hiff]

/-- The files that count are those that neither loop passes over. -/
theorem nodesOf_eq_some_iff : nodesOf file = some nodes ↔
    ".json".toList <:+ file.1 ∧ ∃ seed, file.2 = .config seed nodes ∧
      ¬ (seed.getD [] = [] ∨ nodes = []) := by
  obtain ⟨name, content⟩ := file
  by_cases hjson : ".json".toList <:+ name
  · cases content with
    | broken => simp [nodesOf]
    | config seed nodes' =>
      by_cases hmissing : seed.getD [] = [] ∨ nodes' = []
      · simp only [nodesOf, if_pos hjson, if_pos hmissing]
        refine iff_of_false (by simp) ?_
        rintro ⟨-, seed', hfile, hgiven⟩
        obtain ⟨rfl, rfl⟩ := NetworkFile.config.inj hfile
        exact hgiven hmissing
      · simp only [nodesOf, if_pos hjson, if_neg hmissing]
        constructor
        · intro h
          obtain rfl := Option.some.inj h
          exact ⟨hjson, seed, rfl, hmissing⟩
        · rintro ⟨-, seed', hfile, -⟩
          rw [(NetworkFile.config.inj hfile).2]
  · simp only [nodesOf, if_neg hjson]
    exact iff_of_false (by simp) fun h => hjson h.1

theorem probeFile_skip (h : nodesOf file = none) : probeFile net s file = s := by
  unfold probeFile
  split
  · rename_i hjson
    dsimp only
    split
    · rfl
    · rename_i seed nodes hfile
      by_cases hmissing : seed.getD [] = [] ∨ nodes = []
      · rw [if_pos hmissing]
      · rw [nodesOf_eq_some_iff.mpr ⟨hjson, seed, hfile, hmissing⟩] at h
        simp at h
  · rfl

theorem monitorFile_skip {ping : Str → Str → Bool} {m : Monitoring} (h : nodesOf file = none) :
    monitorFile ping m file = m := by
  unfold monitorFile
  split
  · rename_i hjson
    dsimp only
    split
    · rfl
    · rename_i seed nodes hfile
      by_cases hmissing : seed.getD [] = [] ∨ nodes = []
      · rw [if_pos hmissing]
      · rw [nodesOf_eq_some_iff.mpr ⟨hjson, seed, hfile, hmissing⟩] at h
        simp at h
  · rfl

theorem probeFile_log (h : nodesOf file = some nodes) :
    (probeFile net s file).log = s.log ++ probeNodes net s.log nodes := by
  obtain ⟨hjson, seed, hfile, hgiven⟩ := nodesOf_eq_some_iff.mp h
  simp only [probeFile, if_pos hjson, hfile, if_neg hgiven]
  split <;> rfl

theorem probeFile_monitoring {ping : Str → Str → Bool} (h : nodesOf file = some nodes)
    (hlive : isLive ping nodes = (probeNodes net s.log nodes).any Ping.live) :
    (probeFile net s file).monitoring = monitorFile ping s.monitoring file := by
  obtain ⟨hjson, seed, hfile, hgiven⟩ := nodesOf_eq_some_iff.mp h
  simp only [probeFile, monitorFile, if_pos hjson, hfile, if_neg hgiven, hlive]
  split <;> rfl

/-- What the loop has asked for in the end falls into parts, one for each file that counts. -/
theorem loop_log (net : Internet) (files : List (Str × NetworkFile)) (s : Probing) :
    ∃ parts, (files.foldl (probeFile net) s).log = s.log ++ parts.flatten ∧
      List.Forall₂ Tried (files.filterMap nodesOf) parts ∧
        ∀ ping ∈ parts.flatten, ping.Guarded net := by
  induction files generalizing s with
  | nil => exact ⟨[], by simp, by simp, by simp⟩
  | cons file rest ih =>
    obtain ⟨parts, hlog, htried, hguarded⟩ := ih (probeFile net s file)
    rw [List.foldl_cons, hlog]
    cases hnodes : nodesOf file with
    | none =>
      rw [probeFile_skip hnodes, List.filterMap_cons_none hnodes]
      exact ⟨parts, rfl, htried, hguarded⟩
    | some nodes =>
      rw [probeFile_log hnodes, List.filterMap_cons_some hnodes]
      refine ⟨probeNodes net s.log nodes :: parts, by simp, ?_, fun ping hping => ?_⟩
      · exact List.Forall₂.cons probeNodes_tried htried
      · rw [List.flatten_cons, List.mem_append] at hping
        rcases hping with hnow | hlater
        · exact probeNodes_guarded ping hnow
        · exact hguarded ping hlater

theorem loop_monitoring {ping : Str → Str → Bool} (files : List (Str × NetworkFile))
    (s : Probing)
    (hagree : ∀ p ∈ (files.foldl (probeFile net) s).log, ping p.host p.port = p.live) :
    (files.foldl (probeFile net) s).monitoring =
      files.foldl (monitorFile ping) s.monitoring := by
  induction files generalizing s with
  | nil => rfl
  | cons file rest ih =>
    rw [List.foldl_cons] at hagree
    rw [List.foldl_cons, List.foldl_cons, ih _ hagree]
    cases hnodes : nodesOf file with
    | none => rw [probeFile_skip hnodes, monitorFile_skip hnodes]
    | some nodes =>
      rw [probeFile_monitoring hnodes]
      refine isLive_of_tried probeNodes_tried fun p hp => hagree p ?_
      obtain ⟨parts, hlog, -, -⟩ := loop_log net rest (probeFile net s file)
      rw [hlog, probeFile_log hnodes]
      simp [hp]

theorem answers_of_steady (h : Steady log) {ping : Ping} (hping : ping ∈ log) :
    answers log ping.host ping.port = ping.live := by
  rw [Bool.eq_iff_iff, answers, List.any_eq_true]
  constructor
  · rintro ⟨p, hp, hfound⟩
    obtain ⟨hendpoint, hlive⟩ := of_decide_eq_true hfound
    exact (h ping hping p hp hendpoint.symm).trans hlive
  · intro hlive
    exact ⟨ping, hping, decide_eq_true ⟨rfl, hlive⟩⟩

/-- The rows that the loop starts with. -/
def rowsRead (content : Str) : List (Str × List Str) :=
  (scan (fun rows _ parts =>
    if 8 ≤ parts.length then setRow rows (tldKey (parts.headD [])) parts else rows) []
      content).tableRows

theorem run_pings (files : List (Str × NetworkFile)) (uptimeState : Str → Option ℕ)
    (content : Str) :
    (probeNetworks net (some files) uptimeState (some content)).2 =
      (files.foldl (probeFile net) ⟨⟨uptimeState, rowsRead content⟩, []⟩).log := by
  unfold probeNetworks
  dsimp only
  split <;> rfl

/-- The loop is followed by the same steps as in the model without a network. -/
theorem run_monitored {ping : Str → Str → Bool} (files : List (Str × NetworkFile))
    (uptimeState : Str → Option ℕ) (content : Str)
    (h : (files.foldl (probeFile net) ⟨⟨uptimeState, rowsRead content⟩, []⟩).monitoring =
      files.foldl (monitorFile ping) ⟨uptimeState, rowsRead content⟩) :
    (probeNetworks net (some files) uptimeState (some content)).1 =
      monitorNetworks ⟨some files, uptimeState, ping⟩ (some content) := by
  unfold probeNetworks monitorNetworks
  dsimp only
  rw [← rowsRead, h]
  split <;> simp_all

/-- A run of the monitor on the net, however the net answers: it connects only to addresses that
it has just looked up and found public, each time to the very address that was checked. For
each file that counts it tries the nodes in turn, once each, until one is live. What it writes
is what the monitor writes for fixed answers of its pings, if no endpoint answers
differently during the run. -/
theorem probes_public_in_turn (net : Internet) (networks : Option (List (Str × NetworkFile)))
    (uptimeState : Str → Option ℕ) (atlas : Option Str) :
    (∀ ping ∈ (probeNetworks net networks uptimeState atlas).2, ping.Guarded net) ∧
      (∃ parts, (probeNetworks net networks uptimeState atlas).2 = parts.flatten ∧
        List.Forall₂ Tried (nodeLists networks atlas) parts) ∧
      (Steady (probeNetworks net networks uptimeState atlas).2 →
        (probeNetworks net networks uptimeState atlas).1 =
          monitorNetworks ⟨networks, uptimeState,
            answers (probeNetworks net networks uptimeState atlas).2⟩ atlas) := by
  cases networks with
  | none =>
    have hlists : nodeLists none atlas = [] := by cases atlas <;> rfl
    rw [hlists]
    exact ⟨by simp [probeNetworks], ⟨[], rfl, .nil⟩, fun _ => rfl⟩
  | some files =>
    cases atlas with
    | none => exact ⟨by simp [probeNetworks], ⟨[], rfl, .nil⟩, fun _ => rfl⟩
    | some content =>
      obtain ⟨parts, hlog, htried, hguarded⟩ :=
        loop_log net files ⟨⟨uptimeState, rowsRead content⟩, []⟩
      rw [List.nil_append] at hlog
      rw [run_pings]
      refine ⟨hlog ▸ hguarded, ⟨parts, hlog, htried⟩, fun hsteady => ?_⟩
      refine run_monitored files uptimeState content (loop_monitoring files _ fun p hp => ?_)
      exact answers_of_steady hsteady hp

end KineticAtlas.MonitorProbes
