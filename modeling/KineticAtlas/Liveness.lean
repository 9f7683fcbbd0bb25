import KineticAtlas.MonitorProbes
import Mathlib.Data.Bool.AllAny

/-!
What the two scripts take for a bootstrap node. The registration bot accepts any
multiaddress with a peer id; the monitor takes the host from behind the component `ip4`
and skips a node without one. The main result says for which accepted networks a
reachable node is enough for the monitor to count the network as live.
-/
namespace KineticAtlas.Liveness

open Library.Texts Library.IpAddresses AtlasScripts RegistrationBot
open IssueForm (Data)
open MonitorProbes (Internet Ping)

inductive HostKind
  | ip4
  | ip6
  | dns
  | dns4
  | dns6
  deriving DecidableEq

def HostKind.component : HostKind → Str
  | .ip4 => "ip4"
  | .ip6 => "ip6"
  | .dns => "dns"
  | .dns4 => "dns4"
  | .dns6 => "dns6"

/-- A TCP multiaddress. The host behind `ip4` is a dotted number, the port is a number. -/
structure TcpNode where
  kind : HostKind
  host : Str
  port : Str
  id : Str
  host_plain : '/' ∉ host
  id_plain : '/' ∉ id
  host_dotted : kind = .ip4 → ∀ c ∈ host, c.isDigit ∨ c = '.'
  port_digits : ∀ c ∈ port, c.isDigit

namespace TcpNode

def parts (n : TcpNode) : List Str :=
  [[], n.kind.component, n.host, "tcp".toList, n.port, "p2p".toList, n.id]

def text (n : TcpNode) : Str := ['/'].intercalate n.parts

end TcpNode

/-- Who can be reached over TCP, and what the monitor's `ping_host` finds. On dotted
numbers the two are the same question. -/
structure Reachability where
  pingHost : (host port : Str) → Bool
  answers : HostKind → (host port : Str) → Bool
  ip4_pinged : ∀ host port, answers .ip4 host port = pingHost host port

/-- What `ping_host` finds after the calls of a run so far; the hosts that are no dotted numbers
answer as given. -/
def reachabilityOf (net : Internet) (log : List Ping) (named : HostKind → Str → Str → Bool) :
    Reachability where
  pingHost host port := (MonitorProbes.pingHost net log host port).live
  answers kind host port :=
    if kind = .ip4 then (MonitorProbes.pingHost net log host port).live
    else named kind host port
  ip4_pinged _ _ := if_pos rfl

def Reachability.reaches (net : Reachability) (n : TcpNode) : Prop :=
  net.answers n.kind n.host n.port = true

instance (net : Reachability) (n : TcpNode) : Decidable (net.reaches n) :=
  inferInstanceAs (Decidable (_ = true))

theorem not_digits {text : Str} (h : ∀ c ∈ text, c.isDigit) : text ≠ "ip4" := by
  rintro rfl
  exact absurd (h 'i' (by decide)) (by decide)

namespace TcpNode

theorem splitOn_text (n : TcpNode) : n.text.splitOn '/' = n.parts := by
  apply List.splitOn_intercalate
  · have hport : '/' ∉ n.port := fun h => absurd (n.port_digits '/' h) (by decide)
    have hkind : '/' ∉ n.kind.component := by cases n.kind <;> decide
    intro part hpart
    simp only [parts, List.mem_cons, List.not_mem_nil, or_false] at hpart
    rcases hpart with rfl | rfl | rfl | rfl | rfl | rfl | rfl
    · exact List.not_mem_nil
    · exact hkind
    · exact n.host_plain
    · decide
    · exact hport
    · decide
    · exact n.id_plain
  · exact List.cons_ne_nil _ _

theorem component_ip4 (n : TcpNode) : n.kind.component = "ip4".toList ↔ n.kind = .ip4 := by
  cases n.kind <;> decide

theorem host_ne_tcp (n : TcpNode) (h : n.kind = .ip4) : n.host ≠ "tcp".toList := by
  intro hhost
  have ht := n.host_dotted h 't' (by rw [hhost]; decide)
  exact absurd ht (by decide)

theorem idxOf_tcp (n : TcpNode) (h : n.host ≠ "tcp".toList) :
    n.parts.idxOf? "tcp".toList = some 3 := by
  have hkind : n.kind.component ≠ "tcp".toList := by cases n.kind <;> decide
  have hempty : ([] : Str) ≠ "tcp".toList := by decide
  simp only [parts, List.idxOf?_cons, beq_iff_eq, hempty, hkind, h, if_false, if_true,
    Option.map_some]

theorem idxOf_ip4 (n : TcpNode) :
    n.parts.idxOf? "ip4".toList =
      if n.kind = .ip4 then some 1
      else if n.host = "ip4".toList then some 2
      else if n.id = "ip4".toList then some 6
      else none := by
  have hempty : ([] : Str) ≠ "ip4".toList := by decide
  have htcp : "tcp".toList ≠ "ip4".toList := by decide
  have hp2p : "p2p".toList ≠ "ip4".toList := by decide
  simp only [parts, List.idxOf?_cons, List.idxOf?_nil, beq_iff_eq, hempty, htcp, hp2p,
    not_digits n.port_digits, n.component_ip4, if_false, Option.map_none]
  by_cases hkind : n.kind = .ip4
  · simp [hkind]
  · by_cases hhost : n.host = "ip4".toList
    · simp only [hkind, hhost, if_false, if_true, Option.map_some]
    · by_cases hid : n.id = "ip4".toList
      · simp only [hkind, hhost, hid, if_false, if_true, Option.map_some]
      · simp only [hkind, hhost, hid, if_false, Option.map_none]

end TcpNode

/-- Where the monitor looks for a node: at the host behind `ip4`, and for a host that is
itself called ip4 at the component after it. -/
theorem ip4Endpoint_text (n : TcpNode) :
    ip4Endpoint n.text =
      if n.kind = .ip4 then some (n.host, n.port)
      else if n.host = "ip4".toList then some ("tcp".toList, n.port)
      else none := by
  have hip4 := n.idxOf_ip4
  unfold ip4Endpoint
  rw [n.splitOn_text]
  by_cases hkind : n.kind = .ip4
  · rw [if_pos hkind] at hip4 ⊢
    simp only [hip4, n.idxOf_tcp (n.host_ne_tcp hkind)]
    rfl
  · rw [if_neg hkind] at hip4 ⊢
    by_cases hhost : n.host = "ip4".toList
    · have hne : n.host ≠ "tcp".toList := by
        rw [hhost]
        decide
      rw [if_pos hhost] at hip4 ⊢
      simp only [hip4, n.idxOf_tcp hne]
      rfl
    · rw [if_neg hhost] at hip4 ⊢
      by_cases hid : n.id = "ip4".toList
      · -- nothing stands behind the last component
        have hend : n.parts[6 + 1]? = none := rfl
        rw [if_pos hid] at hip4
        simp only [hip4]
        split
        · rename_i i j hi _
          obtain rfl : 6 = i := Option.some.inj hi
          simp only [hend]
        · rfl
      · simp only [hip4, hid, if_false]

/-- The network counts as live: its counter is reset and its row shows it as active. -/
def CountsLive (net : Reachability) (s : Monitoring) (config : BotConfig) : Prop :=
  monitorFile net.pingHost s (config.tld ++ ".json".toList,
      .config (some config.seedDomain) (config.bootstrapNodes.map some)) =
    { uptimeState := Function.update s.uptimeState config.tld (some 0)
      tableRows := setStatus s.tableRows config.tld activeBadge }

theorem isLive_iff (net : Reachability) (nodes : List TcpNode) :
    isLive net.pingHost (nodes.map fun n => some n.text) = true ↔
      (∃ n ∈ nodes, n.kind = .ip4 ∧ net.reaches n) ∨
        ∃ n ∈ nodes, n.kind ≠ .ip4 ∧ n.host = "ip4".toList ∧
          net.pingHost "tcp" n.port = true := by
  rw [isLive, List.any_map, List.any_eq_true]
  constructor
  · rintro ⟨n, hn, hlive⟩
    rw [Function.comp_apply, Option.bind_some, ip4Endpoint_text] at hlive
    by_cases hkind : n.kind = .ip4
    · refine Or.inl ⟨n, hn, hkind, ?_⟩
      rw [if_pos hkind] at hlive
      rw [Reachability.reaches, hkind, net.ip4_pinged]
      exact hlive
    · rw [if_neg hkind] at hlive
      by_cases hhost : n.host = "ip4".toList
      · rw [if_pos hhost] at hlive
        exact Or.inr ⟨n, hn, hkind, hhost, hlive⟩
      · rw [if_neg hhost] at hlive
        cases hlive
  · rintro (⟨n, hn, hkind, hreach⟩ | ⟨n, hn, hkind, hhost, hping⟩)
    · refine ⟨n, hn, ?_⟩
      rw [Reachability.reaches, hkind, net.ip4_pinged] at hreach
      rw [Function.comp_apply, Option.bind_some, ip4Endpoint_text, if_pos hkind]
      exact hreach
    · refine ⟨n, hn, ?_⟩
      rw [Function.comp_apply, Option.bind_some, ip4Endpoint_text, if_neg hkind, if_pos hhost]
      exact hping

/-- An accepted network is never skipped: its round ends in a reset or in a failure more. -/
theorem countsLive_iff_isLive (net : Reachability) (s : Monitoring) {data : Data}
    {config : BotConfig} (h : Passed data config) :
    CountsLive net s config ↔ isLive net.pingHost (config.bootstrapNodes.map some) = true := by
  have hjson : ".json".toList <:+ config.tld ++ ".json".toList := List.suffix_append _ _
  have htld : (config.tld ++ ".json".toList).take ((config.tld ++ ".json".toList).length - 5) =
      config.tld := by
    simp
  have hnodes : config.bootstrapNodes.map some ≠ [] := by
    intro hnil
    have hlen := congrArg List.length hnil
    rw [List.length_map, h.three_nodes] at hlen
    cases hlen
  have hkept : ¬ ((some config.seedDomain).getD [] = [] ∨ config.bootstrapNodes.map some = []) := by
    simpa [h.seed_given] using hnodes
  unfold CountsLive monitorFile
  simp only [if_pos hjson, htld, if_neg hkept]
  by_cases hlive : isLive net.pingHost (config.bootstrapNodes.map some) = true
  · rw [if_pos hlive]
    exact iff_of_true rfl hlive
  · rw [if_neg hlive]
    refine iff_of_false (fun heq => ?_) hlive
    have hcount := congrFun (congrArg Monitoring.uptimeState heq) config.tld
    simp at hcount

/-- A reachable node makes an accepted network count as live exactly when one of the
reachable nodes is given by its IPv4 address; apart from that, only a host called ip4
can, by what the host called tcp answers. -/
theorem counts_live_iff {env : Surroundings} {data : Data} {config : BotConfig}
    (h : main env data = .ok config) (nodes : List TcpNode)
    (hnodes : config.bootstrapNodes = nodes.map TcpNode.text) (net : Reachability)
    (s : Monitoring) :
    ((∃ n ∈ nodes, net.reaches n) → CountsLive net s config) ↔
      ((∃ n ∈ nodes, net.reaches n) →
        (∃ n ∈ nodes, n.kind = .ip4 ∧ net.reaches n) ∨
          ∃ n ∈ nodes, n.kind ≠ .ip4 ∧ n.host = "ip4".toList ∧
            net.pingHost "tcp" n.port = true) := by
  rw [countsLive_iff_isLive net s (main_passed h), hnodes, List.map_map]
  exact imp_congr_right fun _ => isLive_iff net nodes

def nodeAt (kind : HostKind) (host id : Str) (hhost : '/' ∉ host) (hid : '/' ∉ id)
    (hdotted : kind = .ip4 → ∀ c ∈ host, c.isDigit ∨ c = '.') : TcpNode :=
  ⟨kind, host, "4001", id, hhost, hid, hdotted, List.all_iff_forall_prop.mp (by decide)⟩

theorem dotted {host : Str} (h : host.all fun c => c.isDigit ∨ c = '.') :
    HostKind.ip4 = .ip4 → ∀ c ∈ host, c.isDigit ∨ c = '.' :=
  fun _ => List.all_iff_forall_prop.mp h

def numberedNodes : List TcpNode :=
  [nodeAt .ip4 "93.184.216.34" "QmNode1" (by decide) (by decide) (dotted (by decide)),
    nodeAt .ip4 "93.184.216.34" "QmNode2" (by decide) (by decide) (dotted (by decide)),
    nodeAt .ip4 "93.184.216.34" "QmNode3" (by decide) (by decide) (dotted (by decide))]

def namedNodes : List TcpNode :=
  [nodeAt .dns4 "boot1.fork.org" "QmNode1" (by decide) (by decide) nofun,
    nodeAt .dns4 "boot2.fork.org" "QmNode2" (by decide) (by decide) nofun,
    nodeAt .dns4 "boot3.fork.org" "QmNode3" (by decide) (by decide) nofun]

/-- Every name leads to one public address, where port 4001 answers. -/
def upNet : Internet where
  readIp text :=
    if text = "93.184.216.34".toList then some (.v4 (ipv4 93 184 216 34)) else none
  gethostbyname _ _ := some "93.184.216.34"
  accepts _ _ port := port = 4001

/-- Port 4001 answers on every host. -/
def allUp : Reachability := reachabilityOf upNet [] fun _ _ port => port = "4001".toList

def forkOf (nodes : List Str) : BotConfig :=
  sampleConfig "fork" "fork-net" "127.0.0.2" 8080 nodes

theorem numbered_accepted :
    main quietSurroundings (sampleForm "fork" "fork-net" "127.0.0.2" "8080"
        (numberedNodes.map TcpNode.text)) = .ok (forkOf (numberedNodes.map TcpNode.text)) :=
  sampleForm_accepted ⟨by decide, by decide, by decide, by decide⟩ (by decide +kernel)
    (by decide +kernel) (by decide +kernel) (by decide +kernel) (by decide +kernel)

theorem counts_live_numbered :
    ((∃ n ∈ numberedNodes, allUp.reaches n) →
        CountsLive allUp ⟨fun _ => none, []⟩ (forkOf (numberedNodes.map TcpNode.text))) ↔
      ((∃ n ∈ numberedNodes, allUp.reaches n) →
        (∃ n ∈ numberedNodes, n.kind = .ip4 ∧ allUp.reaches n) ∨
          ∃ n ∈ numberedNodes, n.kind ≠ .ip4 ∧ n.host = "ip4".toList ∧
            allUp.pingHost "tcp" n.port = true) :=
  counts_live_iff numbered_accepted numberedNodes rfl allUp _

theorem named_accepted :
    main quietSurroundings (sampleForm "fork" "fork-net" "127.0.0.2" "8080"
        (namedNodes.map TcpNode.text)) = .ok (forkOf (namedNodes.map TcpNode.text)) :=
  sampleForm_accepted ⟨by decide, by decide, by decide, by decide⟩ (by decide +kernel)
    (by decide +kernel) (by decide +kernel) (by decide +kernel) (by decide +kernel)

/-- Nodes given by name are accepted, and with all of them up the network fails a day. -/
theorem named_nodes_not_live :
    main quietSurroundings (sampleForm "fork" "fork-net" "127.0.0.2" "8080"
        (namedNodes.map TcpNode.text)) = .ok (forkOf (namedNodes.map TcpNode.text)) ∧
      (∀ n ∈ namedNodes, allUp.reaches n) ∧
      ¬ CountsLive allUp ⟨fun _ => none, []⟩ (forkOf (namedNodes.map TcpNode.text)) := by
  refine ⟨named_accepted, by decide +kernel, ?_⟩
  rw [countsLive_iff_isLive _ _ (main_passed named_accepted)]
  decide +kernel

end KineticAtlas.Liveness
