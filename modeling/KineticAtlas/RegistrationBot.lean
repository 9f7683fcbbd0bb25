import Mathlib.Data.List.Dedup
import KineticAtlas.IssueForm

/-!
The registration bot (main of validate_registration.py), from the parsed form to the
configuration it writes to the networks directory. What lies outside the script is a
parameter: the answers to its network checks and the order in which a set is listed.
-/
namespace KineticAtlas.RegistrationBot

open Library.Texts IssueForm

/-- The code points of the digit zero in the scripts that have decimal digits. -/
def digitZeros : List ℕ :=
  [0x30, 0x660, 0x6f0, 0x7c0, 0x966, 0x9e6, 0xa66, 0xae6, 0xb66, 0xbe6, 0xc66, 0xce6, 0xd66,
    0xde6, 0xe50, 0xed0, 0xf20, 0x1040, 0x1090, 0x17e0, 0x1810, 0x1946, 0x19d0, 0x1a80, 0x1a90,
    0x1b50, 0x1bb0, 0x1c40, 0x1c50, 0xa620, 0xa8d0, 0xa900, 0xa9d0, 0xa9f0, 0xaa50, 0xabf0,
    0xff10, 0x104a0, 0x10d30, 0x11066, 0x110f0, 0x11136, 0x111d0, 0x112f0, 0x11450, 0x114d0,
    0x11650, 0x116c0, 0x11730, 0x118e0, 0x11950, 0x11c50, 0x11d50, 0x11da0, 0x16a60, 0x16ac0,
    0x16b50, 0x1d7ce, 0x1d7d8, 0x1d7e2, 0x1d7ec, 0x1d7f6, 0x1e140, 0x1e2f0, 0x1e950, 0x1fbf0]

def decimalDigit (c : Char) : Option ℕ :=
  (digitZeros.find? fun z => z ≤ c.toNat ∧ c.toNat < z + 10).map fun z => c.toNat - z

/-- Groups of digits between single underscores; a text of more than 4300 digits is
refused. -/
def pyNat (s : Str) : Option ℕ :=
  let groups := s.splitOn '_'
  if groups.all (fun g => g ≠ []) ∧ groups.flatten.length ≤ 4300 then
    (groups.flatten.mapM decimalDigit).map fun digits =>
      digits.foldl (fun n d => 10 * n + d) 0
  else none

def pyInt (s : Str) : Option ℤ :=
  match strip s with
  | '-' :: digits => (pyNat digits).map fun n => -(n : ℤ)
  | '+' :: digits => (pyNat digits).map fun n => (n : ℤ)
  | digits => (pyNat digits).map fun n => (n : ℤ)

/-- What the bot meets: whether the seed domain answers, the file extension a logo is
stored with or the message it is turned down with, and the listing of a set. -/
structure Surroundings where
  checkUrl : Str → Bool
  storeLogo : (url : Str) → Except Str Str
  listSet : List Str → List Str
  listSet_perm : ∀ texts, (listSet texts).Perm texts.dedup

/-- The dictionary that is dumped to networks/<tld>.json. -/
structure BotConfig where
  version : Str
  networkId : Str
  tld : Str
  localBindIp : Str
  apiPort : ℤ
  seedDomain : Str
  bootstrapNodes : List Str
  logo : Option Str
  ipfsGateway : Option Str
  repo : Option Str
  binaryDownload : Option Str
  deriving DecidableEq

/-- The keys of the required fields as the source spells them. -/
def keyName : Key → Str
  | .name => "name"
  | .version => "version"
  | .tld => "tld"
  | .desc => "desc"
  | .url => "url"
  | .repo => "repo"
  | .integrations => "integrations"
  | .binary => "binary"
  | .logoUrl => "logo_url"
  | .seed => "seed"
  | .networkId => "network_id"
  | .networkType => "network_type"
  | .localBindIp => "local_bind_ip"
  | .apiPort => "api_port"
  | .nodes => "nodes"
  | .ipfs => "ipfs"

/-- `data.get(key, '')`. -/
def textOf (data : Data) (key : Key) : Str := (data key).getD []

/-- `data.get(key)` where only a non-empty text counts. -/
def given (data : Data) (key : Key) : Option Str := (data key).filter fun text => text ≠ []

def desktopClient : Str := "[x] Desktop GUI Client"

/-- A TLD with a capital outside ASCII is turned down whether or not it is lowered; only its
spelling in the error is another. -/
def normalTld (data : Data) : Str := strip (lower (textOf data .tld))

def isAlphanumeric (c : Char) : Bool := ('a' ≤ c ∧ c ≤ 'z') ∨ ('0' ≤ c ∧ c ≤ '9')

def nodesOf (data : Data) : List Str :=
  (((textOf data .nodes).splitOn '\n').map strip).filter fun node => node ≠ []

def hasPeerId (node : Str) : Bool :=
  "/p2p/".toList <:+: node ∨ "/ipfs/".toList <:+: node

def rawContent : Str := "https://raw.githubusercontent.com/saifmukhtar/kinetic-atlas/main/"

def checkLogo (env : Surroundings) (data : Data) (tld : Str) : Except Str (Option Str) :=
  match given data .logoUrl with
  | none => .ok none
  | some url =>
    match env.storeLogo (strip url) with
    | .error message => .error message
    | .ok ext => .ok (some (rawContent ++ "logos/".toList ++ tld ++ ext))

/-- The configuration of an accepted form, or the message that the bot exits with. -/
def main (env : Surroundings) (data : Data) : Except Str BotConfig :=
  match missingRequired data with
  | some req => .error ("Error: Missing required field '".toList ++ keyName req ++ "'".toList)
  | none =>
    if desktopClient <:+: textOf data .integrations ∧ given data .binary = none then
      .error ("Error: 'Binary Download URL' is required because you selected " ++
        "'Desktop GUI Client'.").toList
    else if ¬ (normalTld data ≠ [] ∧ (normalTld data).all isAlphanumeric) then
      .error ("Error: TLD '".toList ++ normalTld data ++ "' must be alphanumeric.".toList)
    else
      match pyInt (strip (textOf data .apiPort)) with
      | none =>
        .error ("Error: API Port '".toList ++ textOf data .apiPort ++
          "' must be a valid integer.".toList)
      | some apiPort =>
        if nodesOf data = [] then .error "Error: Missing bootstrap nodes."
        else
          let uniqueNodes := env.listSet (nodesOf data)
          if uniqueNodes.length ≠ 3 then
            .error (("Error: You must provide exactly 3 unique hardcoded bootstrap nodes. " ++
              "Found ").toList ++ (toString uniqueNodes.length).toList ++
              " unique node(s).".toList)
          else if ¬ (nodesOf data).all hasPeerId then
            .error ("Error: Bootstrap nodes must be in libp2p multiaddr format containing " ++
              "a PeerID (e.g. /p2p/Qm...)").toList
          else if ¬ env.checkUrl (textOf data .seed) then
            .error ("Error: Could not reach seed domain URL. " ++
              "Please ensure it is publicly accessible.").toList
          else
            match checkLogo env data (normalTld data) with
            | .error message => .error message
            | .ok logo =>
              .ok {
                version := textOf data .version
                networkId := textOf data .networkId
                tld := normalTld data
                localBindIp := textOf data .localBindIp
                apiPort := apiPort
                seedDomain := textOf data .seed
                bootstrapNodes := uniqueNodes
                logo := logo
                ipfsGateway := given data .ipfs
                repo := given data .repo
                binaryDownload := given data .binary }

/-- What is known of an accepted form and of the configuration it leads to. -/
structure Passed (data : Data) (config : BotConfig) : Prop where
  version : config.version = textOf data .version
  networkId : config.networkId = textOf data .networkId
  tld : config.tld = normalTld data
  localBindIp : config.localBindIp = textOf data .localBindIp
  seedDomain : config.seedDomain = textOf data .seed
  apiPort : pyInt (strip (textOf data .apiPort)) = some config.apiPort
  ipfsGateway : config.ipfsGateway = given data .ipfs
  repo : config.repo = given data .repo
  seed_given : config.seedDomain ≠ []
  tld_nonempty : config.tld ≠ []
  tld_alphanumeric : ∀ c ∈ config.tld, isAlphanumeric c = true
  three_nodes : config.bootstrapNodes.length = 3
  nodes_listed : ∀ node ∈ config.bootstrapNodes, node ∈ nodesOf data
  peer_ids : ∀ node ∈ config.bootstrapNodes, hasPeerId node = true

theorem given_of_required {data : Data} {key : Key} (h : missingRequired data = none)
    (hkey : key ∈ required) : textOf data key ≠ [] := by
  have hall := List.find?_eq_none.mp h key hkey
  simpa [textOf] using hall

theorem main_passed {env : Surroundings} {data : Data} {config : BotConfig}
    (h : main env data = .ok config) : Passed data config := by
  unfold main at h
  split at h
  · cases h
  rename_i hrequired
  split at h
  · cases h
  split at h
  · cases h
  rename_i htld
  rw [not_not] at htld
  split at h
  · cases h
  rename_i apiPort hport
  split at h
  · cases h
  dsimp only at h
  split at h
  · cases h
  rename_i hthree
  split at h
  · cases h
  rename_i hpeers
  split at h
  · cases h
  split at h
  · cases h
  cases h
  have hlisted : ∀ node ∈ env.listSet (nodesOf data), node ∈ nodesOf data := fun node hnode =>
    List.mem_dedup.mp ((env.listSet_perm _).mem_iff.mp hnode)
  exact {
    version := rfl
    networkId := rfl
    tld := rfl
    localBindIp := rfl
    seedDomain := rfl
    apiPort := hport
    ipfsGateway := rfl
    repo := rfl
    seed_given := given_of_required hrequired (by decide)
    tld_nonempty := htld.1
    tld_alphanumeric := List.all_eq_true.mp htld.2
    three_nodes := not_not.mp hthree
    nodes_listed := hlisted
    peer_ids := fun node hnode =>
      List.all_eq_true.mp (not_not.mp hpeers) node (hlisted node hnode) }

/-- A form without a logo that passes every check is accepted. -/
theorem main_accepts {env : Surroundings} {data : Data} {apiPort : ℤ}
    (hrequired : missingRequired data = none)
    (hdesktop : ¬ desktopClient <:+: textOf data .integrations)
    (htld : normalTld data ≠ [] ∧ (normalTld data).all isAlphanumeric)
    (hport : pyInt (strip (textOf data .apiPort)) = some apiPort)
    (hthree : (env.listSet (nodesOf data)).length = 3)
    (hpeers : (nodesOf data).all hasPeerId = true)
    (hseed : env.checkUrl (textOf data .seed) = true) (hlogo : given data .logoUrl = none) :
    main env data = .ok {
      version := textOf data .version
      networkId := textOf data .networkId
      tld := normalTld data
      localBindIp := textOf data .localBindIp
      apiPort := apiPort
      seedDomain := textOf data .seed
      bootstrapNodes := env.listSet (nodesOf data)
      logo := none
      ipfsGateway := given data .ipfs
      repo := given data .repo
      binaryDownload := given data .binary } := by
  have hnodes : nodesOf data ≠ [] := by
    intro hnil
    have hlen := (env.listSet_perm (nodesOf data)).length_eq
    rw [hthree, hnil] at hlen
    cases hlen
  unfold main
  simp only [hrequired]
  rw [if_neg fun h => hdesktop h.1, if_neg (not_not.mpr htld)]
  simp only [hport]
  rw [if_neg hnodes, if_neg (not_not.mpr hthree), if_neg (not_not.mpr hpeers),
    if_neg (not_not.mpr hseed)]
  simp only [checkLogo, hlogo]

/-- The checks of a form that need no network. -/
structure FormChecks (data : Data) : Prop where
  required : missingRequired data = none
  binary : desktopClient <:+: textOf data .integrations → given data .binary ≠ none
  tld : normalTld data ≠ [] ∧ (normalTld data).all isAlphanumeric = true
  port : (pyInt (strip (textOf data .apiPort))).isSome = true
  three : (nodesOf data).dedup.length = 3
  peers : (nodesOf data).all hasPeerId = true

theorem checkLogo_isOk_iff {env : Surroundings} {data : Data} (tld : Str) :
    (checkLogo env data tld).isOk = true ↔
      ∀ url, given data .logoUrl = some url → (env.storeLogo (strip url)).isOk = true := by
  unfold checkLogo
  cases given data .logoUrl with
  | none => simp [Except.isOk, Except.toBool]
  | some url =>
    cases hstored : env.storeLogo (strip url) <;> simp [hstored, Except.isOk, Except.toBool]

/-- A form is accepted when it passes, the seed domain is reached and a logo, if there is one,
is stored. -/
theorem main_isOk_iff (env : Surroundings) (data : Data) :
    (main env data).isOk = true ↔
      FormChecks data ∧ env.checkUrl (textOf data .seed) = true ∧
        ∀ url, given data .logoUrl = some url → (env.storeLogo (strip url)).isOk = true := by
  have hlen : (env.listSet (nodesOf data)).length = (nodesOf data).dedup.length :=
    (env.listSet_perm _).length_eq
  have hrefused : ∀ {message : Str} {P Q : Prop}, ¬ P →
      ((Except.error message : Except Str BotConfig).isOk = true ↔ P ∧ Q) := fun hnot =>
    iff_of_false Bool.false_ne_true fun h => hnot h.1
  rw [← checkLogo_isOk_iff (normalTld data)]
  unfold main
  cases hrequired : missingRequired data with
  | some req => exact hrefused fun h => by simp [h.required] at hrequired
  | none =>
    dsimp only
    split
    · rename_i hdesktop
      exact hrefused fun h => h.binary hdesktop.1 hdesktop.2
    rename_i hbinary
    split
    · rename_i htld
      exact hrefused fun h => htld h.tld
    rename_i htld
    cases hport : pyInt (strip (textOf data .apiPort)) with
    | none => exact hrefused fun h => by simpa [hport] using h.port
    | some apiPort =>
      dsimp only
      split
      · rename_i hnodes
        exact hrefused fun h => by simpa [hnodes] using h.three
      split
      · rename_i hthree
        exact hrefused fun h => hthree (hlen.trans h.three)
      rename_i hthree
      split
      · rename_i hpeers
        exact hrefused fun h => hpeers h.peers
      rename_i hpeers
      have hform : FormChecks data := {
        required := hrequired
        binary := fun hdesktop hnone => hbinary ⟨hdesktop, hnone⟩
        tld := not_not.mp htld
        port := by rw [hport]; rfl
        three := hlen.symm.trans (not_not.mp hthree)
        peers := not_not.mp hpeers }
      split
      · rename_i hseed
        exact iff_of_false Bool.false_ne_true fun h => hseed h.2.1
      · rename_i hseed
        rw [not_not] at hseed
        cases checkLogo env data (normalTld data) <;>
          simp [hform, hseed, Except.isOk, Except.toBool]

def sampleForm (tld networkId localBindIp apiPort : Str) (nodes : List Str) : Data
  | .version => some "1.0"
  | .tld => some tld
  | .desc => some "A fork"
  | .url => some "https://fork.example.org"
  | .seed => some "fork.example.org"
  | .networkId => some networkId
  | .localBindIp => some localBindIp
  | .apiPort => some apiPort
  | .nodes => some (['\n'].intercalate nodes)
  | _ => some []

def sampleNodes : List Str :=
  ["/ip4/203.0.113.10/tcp/4001/p2p/QmNode1".toList,
    "/ip4/203.0.113.11/tcp/4001/p2p/QmNode2".toList,
    "/ip4/203.0.113.12/tcp/4001/p2p/QmNode3".toList]

/-- The seed domain answers; logos are refused; a set is listed in the order of its last
occurrences. -/
def quietSurroundings : Surroundings where
  checkUrl _ := true
  storeLogo _ := .error "Error validating or downloading logo: timed out"
  listSet texts := texts.dedup
  listSet_perm _ := List.Perm.refl _

/-- The configuration such a form leads to. -/
def sampleConfig (tld networkId localBindIp : Str) (apiPort : ℤ) (nodes : List Str) : BotConfig :=
  ⟨"1.0", networkId, tld, localBindIp, apiPort, "fork.example.org", nodes, none, none, none, none⟩

theorem sampleForm_accepted {tld networkId localBindIp apiPort : Str} {nodes : List Str} {port : ℤ}
    (hgiven : tld ≠ [] ∧ networkId ≠ [] ∧ localBindIp ≠ [] ∧ apiPort ≠ [])
    (htld : strip (lower tld) = tld ∧ tld.all isAlphanumeric)
    (hport : pyInt (strip apiPort) = some port)
    (hlines : (((['\n'].intercalate nodes).splitOn '\n').map strip).filter (· ≠ []) = nodes)
    (hthree : nodes.dedup = nodes ∧ nodes.length = 3) (hpeers : nodes.all hasPeerId = true) :
    main quietSurroundings (sampleForm tld networkId localBindIp apiPort nodes) =
      .ok (sampleConfig tld networkId localBindIp port nodes) := by
  have htldOf : normalTld (sampleForm tld networkId localBindIp apiPort nodes) = tld := htld.1
  have hnodes : nodesOf (sampleForm tld networkId localBindIp apiPort nodes) = nodes := hlines
  have hlisted : quietSurroundings.listSet
      (nodesOf (sampleForm tld networkId localBindIp apiPort nodes)) = nodes := by
    rw [hnodes]
    exact hthree.1
  rw [@main_accepts _ _ port]
  · rw [htldOf, hlisted]
    rfl
  · simp [missingRequired, IssueForm.required, sampleForm, hgiven]
  · show ¬ desktopClient <:+: []
    decide
  · rw [htldOf]
    exact ⟨hgiven.1, htld.2⟩
  · exact hport
  · rw [hlisted]
    exact hthree.2
  · rw [hnodes]
    exact hpeers
  · rfl
  · rfl

theorem sampleNodes_accepted {tld networkId localBindIp apiPort : Str} {port : ℤ}
    (hgiven : tld ≠ [] ∧ networkId ≠ [] ∧ localBindIp ≠ [] ∧ apiPort ≠ [])
    (htld : strip (lower tld) = tld ∧ tld.all isAlphanumeric)
    (hport : pyInt (strip apiPort) = some port) :
    main quietSurroundings (sampleForm tld networkId localBindIp apiPort sampleNodes) =
      .ok (sampleConfig tld networkId localBindIp port sampleNodes) :=
  sampleForm_accepted hgiven htld hport (by decide +kernel) (by decide +kernel) (by decide +kernel)

end KineticAtlas.RegistrationBot
