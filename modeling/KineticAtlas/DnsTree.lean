import KineticAtlas.Updater
import KineticAtlas.Library.Search

/-!
Bootstrap peers from a tree of DNS records (dns_tree.rs). The records of a domain give
flat addresses and the hash of a root branch; from there branches are looked up with a
stack, at most 20 of them and as long as fewer than 50 addresses are known. The main
result is that within these limits the addresses are those of the records that can be
reached, each branch counted once.
-/
namespace KineticAtlas.DnsTree

open Library.Texts Library.Utf8 Library.Search Updater

/-- A TXT record: its character-strings. -/
abbrev TxtRecord := List Bytes

/-- The TXT records of a name, or none when the lookup fails. -/
abbrev Resolver := Str → Option (List TxtRecord)

variable {Addr : Type}

def rootTag : Str := "kintree-root:v1"

def branchTag : Str := "kintree-branch:"

def leafTag : Str := "kintree-leaf:"

def isFlat (txt : Str) : Bool := "/ip4/".toList <+: txt ∨ "/ip6/".toList <+: txt

structure RootRecords (Addr : Type) where
  addrs : List Addr
  rootHash : Option Str

/-- The hash named by the text of a root record. -/
def hashOf (txt : Str) : Option Str :=
  (splitOnce " e=" txt).map fun parts =>
    let hashPart :=
      match splitOnce " e=" parts.2 with
      | some (hashPart, _) => hashPart
      | none => parts.2
    (firstWord isWhitespace hashPart).getD hashPart

def readRootString (parse : Str → Option Addr) (s : RootRecords Addr) (rawTxt : Bytes) :
    RootRecords Addr :=
  match decodeStrict rawTxt with
  | none => s
  | some txt =>
    if rootTag <+: txt then
      match hashOf txt with
      | some hash => { s with rootHash := some hash }
      | none => s
    else if isFlat txt then
      match parse txt with
      | some ma => { s with addrs := s.addrs ++ [ma] }
      | none => s
    else s

def readRootRecords (parse : Str → Option Addr) (records : List TxtRecord) : RootRecords Addr :=
  records.foldl (fun s record => record.foldl (readRootString parse) s) ⟨[], none⟩

/-- The state of the traversal; the branch to be visited next comes first. -/
structure Traversal (Addr : Type) where
  branchesToVisit : List Str
  visited : List Str
  lookups : ℕ
  addrs : List Addr
  deriving DecidableEq

def maxLookups : ℕ := 20

def enoughAddrs : ℕ := 50

def readBranchString (parse : Str → Option Addr) (s : Traversal Addr) (rawTxt : Bytes) :
    Traversal Addr :=
  match decodeStrict rawTxt with
  | none => s
  | some txt =>
    if branchTag <+: txt then
      let parts := trimStartMatches branchTag txt
      (parts.splitOn ',').foldl
        (fun s h => if h = [] then s else { s with branchesToVisit := h :: s.branchesToVisit }) s
    else if leafTag <+: txt then
      match parse (trimStartMatches leafTag txt) with
      | some ma => { s with addrs := s.addrs ++ [ma] }
      | none => s
    else s

/-- One pass of the loop, unless it ends there. -/
def visitNext (parse : Str → Option Addr) (resolver : Resolver) (domain : Str)
    (s : Traversal Addr) : Option (Traversal Addr) :=
  match s.branchesToVisit with
  | [] => none
  | branchHash :: rest =>
    if s.lookups ≥ maxLookups ∨ s.addrs.length ≥ enoughAddrs then none
    else if branchHash ∈ s.visited then some { s with branchesToVisit := rest }
    else
      let s : Traversal Addr :=
        ⟨rest, branchHash :: s.visited, s.lookups + 1, s.addrs⟩
      match resolver (branchHash ++ '.' :: domain) with
      | none => some s
      | some response =>
        some (response.foldl (fun s record => record.foldl (readBranchString parse) s) s)

def flatOf (parse : Str → Option Addr) (rawTxt : Bytes) : Option Addr :=
  (decodeStrict rawTxt).bind fun txt =>
    if rootTag <+: txt then none
    else if isFlat txt then parse txt
    else none

def rootHashOf (rawTxt : Bytes) : Option Str :=
  (decodeStrict rawTxt).bind fun txt =>
    if rootTag <+: txt then hashOf txt else none

def childrenOf (rawTxt : Bytes) : List Str :=
  match decodeStrict rawTxt with
  | none => []
  | some txt =>
    if branchTag <+: txt then
      ((trimStartMatches branchTag txt).splitOn ',').filter (· ≠ [])
    else []

def leafOf (parse : Str → Option Addr) (rawTxt : Bytes) : Option Addr :=
  (decodeStrict rawTxt).bind fun txt =>
    if branchTag <+: txt then none
    else if leafTag <+: txt then parse (trimStartMatches leafTag txt)
    else none

theorem readRootString_eq (parse : Str → Option Addr) (s : RootRecords Addr) (rawTxt : Bytes) :
    readRootString parse s rawTxt =
      ⟨s.addrs ++ (flatOf parse rawTxt).toList, (rootHashOf rawTxt).or s.rootHash⟩ := by
  unfold readRootString flatOf rootHashOf
  cases decodeStrict rawTxt with
  | none => simp
  | some txt =>
    dsimp only [Option.bind_some]
    split
    · cases hashOf txt <;> simp
    · split
      · cases parse txt <;> simp
      · simp

theorem pushAll_eq (s : Traversal Addr) (hs : List Str) :
    hs.foldl
        (fun s h => if h = [] then s else { s with branchesToVisit := h :: s.branchesToVisit }) s =
      { s with branchesToVisit := (hs.filter (· ≠ [])).reverse ++ s.branchesToVisit } := by
  induction hs generalizing s with
  | nil => rfl
  | cons h rest ih =>
    rw [List.foldl_cons, ih]
    by_cases hempty : h = []
    · simp [hempty]
    · simp [hempty]

theorem readBranchString_eq (parse : Str → Option Addr) (s : Traversal Addr) (rawTxt : Bytes) :
    readBranchString parse s rawTxt =
      { s with
        branchesToVisit := (childrenOf rawTxt).reverse ++ s.branchesToVisit
        addrs := s.addrs ++ (leafOf parse rawTxt).toList } := by
  unfold readBranchString childrenOf leafOf
  cases decodeStrict rawTxt with
  | none => simp
  | some txt =>
    dsimp only [Option.bind_some]
    split
    · rw [pushAll_eq]
      simp
    · split
      · cases parse (trimStartMatches leafTag txt) <;> simp
      · simp

theorem readRootRecords_eq (parse : Str → Option Addr) (records : List TxtRecord) :
    readRootRecords parse records =
      ⟨records.flatten.filterMap (flatOf parse),
        (records.flatten.filterMap rootHashOf).getLast?⟩ := by
  have hfold : ∀ (strings : List Bytes) (s : RootRecords Addr),
      strings.foldl (readRootString parse) s =
        ⟨s.addrs ++ strings.filterMap (flatOf parse),
          (strings.filterMap rootHashOf).getLast?.or s.rootHash⟩ := by
    intro strings
    induction strings with
    | nil => simp
    | cons rawTxt rest ih =>
      intro s
      rw [List.foldl_cons, ih, readRootString_eq]
      cases hflat : flatOf parse rawTxt <;> cases hhash : rootHashOf rawTxt <;>
        simp [hflat, hhash, List.getLast?_cons]
  rw [readRootRecords, ← List.foldl_flatten, hfold]
  simp

theorem readBranchRecords_eq (parse : Str → Option Addr) (records : List TxtRecord)
    (s : Traversal Addr) :
    records.foldl (fun s record => record.foldl (readBranchString parse) s) s =
      { s with
        branchesToVisit := (records.flatten.flatMap childrenOf).reverse ++ s.branchesToVisit
        addrs := s.addrs ++ records.flatten.filterMap (leafOf parse) } := by
  rw [← List.foldl_flatten]
  generalize records.flatten = strings
  induction strings generalizing s with
  | nil => simp
  | cons rawTxt rest ih =>
    rw [List.foldl_cons, ih, readBranchString_eq]
    cases hleaf : leafOf parse rawTxt <;> simp [hleaf]

/-- All character-strings of a name, in the order in which they are read. -/
def stringsAt (resolver : Resolver) (name : Str) : List Bytes := ((resolver name).getD []).flatten

/-- The hashes a branch refers to. -/
def childrenAt (resolver : Resolver) (domain branchHash : Str) : List Str :=
  (stringsAt resolver (branchHash ++ '.' :: domain)).flatMap childrenOf

/-- The addresses in the leaves of a branch. -/
def leavesAt (parse : Str → Option Addr) (resolver : Resolver) (domain branchHash : Str) :
    List Addr :=
  (stringsAt resolver (branchHash ++ '.' :: domain)).filterMap (leafOf parse)

def Traversal.search (s : Traversal Addr) : State Str Addr :=
  ⟨s.branchesToVisit, s.visited, s.addrs⟩

variable {parse : Str → Option Addr} {resolver : Resolver} {domain : Str} {s s' : Traversal Addr}

theorem visitNext_visit {branchHash : Str} {rest : List Str}
    (hstack : s.branchesToVisit = branchHash :: rest) (hlookups : s.lookups < maxLookups)
    (haddrs : s.addrs.length < enoughAddrs) (hnew : branchHash ∉ s.visited) :
    visitNext parse resolver domain s =
      some ⟨(childrenAt resolver domain branchHash).reverse ++ rest, branchHash :: s.visited,
        s.lookups + 1, s.addrs ++ leavesAt parse resolver domain branchHash⟩ := by
  have hgo : ¬ (s.lookups ≥ maxLookups ∨ s.addrs.length ≥ enoughAddrs) := by omega
  unfold visitNext childrenAt leavesAt stringsAt
  simp only [hstack, if_neg hgo, if_neg hnew]
  cases resolver (branchHash ++ '.' :: domain) with
  | none => simp
  | some response =>
    simp only [readBranchRecords_eq]
    rfl

/-- A pass either drops a branch visited before or looks the branch up. -/
theorem visitNext_cases (h : visitNext parse resolver domain s = some s') :
    ∃ branchHash rest, s.branchesToVisit = branchHash :: rest ∧
      ((branchHash ∈ s.visited ∧ s' = { s with branchesToVisit := rest }) ∨
        (branchHash ∉ s.visited ∧ s.lookups < maxLookups ∧ s.addrs.length < enoughAddrs ∧
          s' = ⟨(childrenAt resolver domain branchHash).reverse ++ rest, branchHash :: s.visited,
            s.lookups + 1, s.addrs ++ leavesAt parse resolver domain branchHash⟩)) := by
  cases hstack : s.branchesToVisit with
  | nil => simp [visitNext, hstack] at h
  | cons branchHash rest =>
    refine ⟨branchHash, rest, rfl, ?_⟩
    by_cases hstop : s.lookups ≥ maxLookups ∨ s.addrs.length ≥ enoughAddrs
    · simp [visitNext, hstack, hstop] at h
    · by_cases hseen : branchHash ∈ s.visited
      · exact Or.inl ⟨hseen, by simpa [visitNext, hstack, hstop, hseen] using h.symm⟩
      · have hlookups : s.lookups < maxLookups := by omega
        have haddrs : s.addrs.length < enoughAddrs := by omega
        rw [visitNext_visit hstack hlookups haddrs hseen] at h
        exact Or.inr ⟨hseen, hlookups, haddrs, (Option.some.inj h).symm⟩

theorem visitNext_step (h : visitNext parse resolver domain s = some s') :
    Step (childrenAt resolver domain) (leavesAt parse resolver domain) s.search s'.search := by
  obtain ⟨branchHash, rest, hstack, ⟨hseen, rfl⟩ | ⟨hnew, -, -, rfl⟩⟩ := visitNext_cases h
  · simp only [Traversal.search, hstack]
    exact Step.skip hseen
  · simp only [Traversal.search, hstack]
    exact Step.visit hnew

/-- `while let Some(branch_hash) = branches_to_visit.pop()`: every pass makes a lookup,
of which there are at most 20, or shortens the stack. -/
def traverse (parse : Str → Option Addr) (resolver : Resolver) (domain : Str)
    (s : Traversal Addr) : Traversal Addr :=
  match _h : visitNext parse resolver domain s with
  | none => s
  | some s' => traverse parse resolver domain s'
termination_by (maxLookups - s.lookups, s.branchesToVisit.length)
decreasing_by
  obtain ⟨branchHash, rest, hstack, ⟨-, rfl⟩ | ⟨-, hlookups, -, rfl⟩⟩ := visitNext_cases _h
  · exact Prod.Lex.right _ (by simp [hstack])
  · exact Prod.Lex.left _ _ (by simp only; omega)

/-- The traversal from the records of the domain; it makes no pass without a root hash. -/
def traversalOf (parse : Str → Option Addr) (resolver : Resolver) (domain : Str)
    (rootRecords : List TxtRecord) : Traversal Addr :=
  let root := readRootRecords parse rootRecords
  match root.rootHash with
  | none => ⟨[], [], 0, root.addrs⟩
  | some hash => traverse parse resolver domain ⟨[hash], [], 0, root.addrs⟩

/-- There is no resolver when the system configuration cannot be read. -/
def resolveDnsTree (parse : Str → Option Addr) (resolver : Option Resolver) (domain : Str) :
    List Addr :=
  match resolver with
  | none => []
  | some resolver =>
    match resolver domain with
    | none => []
    | some rootRecords => (traversalOf parse resolver domain rootRecords).addrs

theorem visitNext_none (h : visitNext parse resolver domain s = none) :
    s.branchesToVisit = [] ∨ maxLookups ≤ s.lookups ∨ enoughAddrs ≤ s.addrs.length := by
  cases hstack : s.branchesToVisit with
  | nil => exact Or.inl rfl
  | cons branchHash rest =>
    refine Or.inr ?_
    by_contra hgo
    by_cases hseen : branchHash ∈ s.visited
    · have hstop : ¬ (s.lookups ≥ maxLookups ∨ s.addrs.length ≥ enoughAddrs) := hgo
      simp [visitNext, hstack, hstop, hseen] at h
    · rw [visitNext_visit hstack (by omega) (by omega) hseen] at h
      cases h

theorem traverse_of_none (h : visitNext parse resolver domain s = none) :
    traverse parse resolver domain s = s := by
  rw [traverse]
  split
  · rfl
  · rename_i hsome
    simp [h] at hsome

theorem traverse_of_some (h : visitNext parse resolver domain s = some s') :
    traverse parse resolver domain s = traverse parse resolver domain s' := by
  rw [traverse]
  split
  · rename_i hnone
    simp [h] at hnone
  · rename_i t hsome
    rw [Option.some.inj (h.symm.trans hsome)]

/-- What every pass keeps holds at the end, where no pass is left to be made. -/
theorem traverse_invariant {P : Traversal Addr → Prop}
    (hstep : ∀ s s', P s → visitNext parse resolver domain s = some s' → P s')
    (s : Traversal Addr) (hs : P s) :
    P (traverse parse resolver domain s) ∧
      visitNext parse resolver domain (traverse parse resolver domain s) = none := by
  induction s using traverse.induct parse resolver domain with
  | case1 s hend =>
    rw [traverse_of_none hend]
    exact ⟨hs, hend⟩
  | case2 s s' hnext ih =>
    rw [traverse_of_some hnext]
    exact ih (hstep s s' hs hnext)

/-- The traversal is a search of the branches, and every branch visited is one lookup. -/
structure TraversesFrom (parse : Str → Option Addr) (resolver : Resolver) (domain hash : Str)
    (flat : List Addr) (s : Traversal Addr) : Prop where
  searches : Searches (childrenAt resolver domain) (leavesAt parse resolver domain) hash flat
    s.search
  lookups_eq : s.lookups = s.visited.length

theorem TraversesFrom.visitNext {hash : Str} {flat : List Addr}
    (h : TraversesFrom parse resolver domain hash flat s)
    (hnext : visitNext parse resolver domain s = some s') :
    TraversesFrom parse resolver domain hash flat s' := by
  refine ⟨h.searches.step (visitNext_step hnext), ?_⟩
  obtain ⟨branchHash, rest, -, ⟨-, rfl⟩ | ⟨-, -, -, rfl⟩⟩ := visitNext_cases hnext
  · exact h.lookups_eq
  · simp [h.lookups_eq]

/-- The flat addresses among the records of the domain. -/
def flatAt (parse : Str → Option Addr) (resolver : Resolver) (domain : Str) : List Addr :=
  (stringsAt resolver domain).filterMap (flatOf parse)

/-- The hash of the root branch: the last one named. -/
def rootHashAt (resolver : Resolver) (domain : Str) : Option Str :=
  ((stringsAt resolver domain).filterMap rootHashOf).getLast?

/-- The traversal of the tree from a hash, with the flat addresses found before. -/
def treeFrom (parse : Str → Option Addr) (resolver : Resolver) (domain hash : Str) :
    Traversal Addr :=
  traverse parse resolver domain ⟨[hash], [], 0, flatAt parse resolver domain⟩

theorem resolveDnsTree_eq (parse : Str → Option Addr) (resolver : Resolver) (domain : Str) :
    resolveDnsTree parse (some resolver) domain =
      match rootHashAt resolver domain with
      | none => flatAt parse resolver domain
      | some hash => (treeFrom parse resolver domain hash).addrs := by
  unfold treeFrom flatAt rootHashAt stringsAt
  cases hrecords : resolver domain with
  | none => simp [resolveDnsTree, hrecords]
  | some rootRecords =>
    simp only [resolveDnsTree, hrecords, traversalOf, readRootRecords_eq, Option.getD_some]
    cases (rootRecords.flatten.filterMap rootHashOf).getLast? <;> rfl

theorem treeFrom_end (parse : Str → Option Addr) (resolver : Resolver) (domain hash : Str) :
    TraversesFrom parse resolver domain hash (flatAt parse resolver domain)
        (treeFrom parse resolver domain hash) ∧
      ((treeFrom parse resolver domain hash).branchesToVisit = [] ∨
        maxLookups ≤ (treeFrom parse resolver domain hash).lookups ∨
        enoughAddrs ≤ (treeFrom parse resolver domain hash).addrs.length) := by
  have hinit : TraversesFrom parse resolver domain hash (flatAt parse resolver domain)
      ⟨[hash], [], 0, flatAt parse resolver domain⟩ := ⟨searches_init hash _, rfl⟩
  obtain ⟨htraverses, hend⟩ := traverse_invariant (fun _ _ h => h.visitNext) _ hinit
  exact ⟨htraverses, visitNext_none hend⟩

/-- The branches that can be reached from the root hash selected. -/
def IsBranch (resolver : Resolver) (domain branchHash : Str) : Prop :=
  ∃ hash, rootHashAt resolver domain = some hash ∧
    Reachable (childrenAt resolver domain) hash branchHash

/-- Within the limits the addresses found are the flat ones and those in the leaves of
all branches that can be reached, the leaves of each branch counted once. -/
theorem resolve_complete {branches : Finset Str}
    (hbranches : ∀ b, b ∈ branches ↔ IsBranch resolver domain b) (hfew : branches.card ≤ 20)
    (haddrs : (flatAt parse resolver domain).length +
      ∑ b ∈ branches, (leavesAt parse resolver domain b).length ≤ 50) :
    (resolveDnsTree parse (some resolver) domain : Multiset Addr) =
      flatAt parse resolver domain +
        ∑ b ∈ branches, (leavesAt parse resolver domain b : Multiset Addr) := by
  rw [resolveDnsTree_eq]
  cases hroot : rootHashAt resolver domain with
  | none =>
    have hnone : branches = ∅ := by
      ext b
      rw [hbranches]
      simp [IsBranch, hroot]
    simp [hnone]
  | some hash =>
    have hreach : ∀ b, b ∈ branches ↔ Reachable (childrenAt resolver domain) hash b := by
      intro b
      rw [hbranches]
      simp [IsBranch, hroot]
    obtain ⟨⟨hsearches, hlookups⟩, hend⟩ := treeFrom_end parse resolver domain hash
    rcases hend with hempty | hmany | hmany
    · exact hsearches.found_of_empty hreach hempty
    · refine hsearches.found_of_visited hreach ?_
      exact hfew.trans (hlookups ▸ hmany)
    · exact hsearches.found_of_found hreach (haddrs.trans hmany)

def traverseFor (parse : Str → Option Addr) (resolver : Resolver) (domain : Str) :
    ℕ → Traversal Addr → Traversal Addr
  | 0, s => s
  | n + 1, s =>
    match visitNext parse resolver domain s with
    | none => s
    | some s' => traverseFor parse resolver domain n s'

theorem traverse_eq_traverseFor (n : ℕ) (s : Traversal Addr)
    (h : visitNext parse resolver domain (traverseFor parse resolver domain n s) = none) :
    traverse parse resolver domain s = traverseFor parse resolver domain n s := by
  induction n generalizing s with
  | zero => exact traverse_of_none h
  | succ n ih =>
    cases hnext : visitNext parse resolver domain s with
    | none =>
      rw [traverse_of_none hnext, traverseFor, hnext]
    | some s' =>
      simp only [traverseFor, hnext] at h ⊢
      rw [traverse_of_some hnext, ih s' h]

/-- The parser of multiaddresses on the two addresses used here. -/
def sampleParse (txt : Str) : Option Str :=
  if txt = "/ip4/192.0.2.1/tcp/4001".toList ∨ txt = "/ip4/192.0.2.2/tcp/4001".toList then some txt
  else none

/-- Name servers that hold the given records, each as its strings. -/
def zone (names : List (Str × List (List Str))) : Resolver := fun name =>
  (names.lookup name).map fun records => records.map fun record => record.map encode

/-- A root branch that refers to itself and to a branch whose lookup fails. -/
def loopedTree : Resolver :=
  zone [("seed", [["kintree-root:v1 e=r l=q"], ["/ip4/192.0.2.1/tcp/4001"]]),
    ("r.seed", [["kintree-branch:r,a,r"], ["kintree-leaf:/ip4/192.0.2.2/tcp/4001"]])]

theorem resolve_complete_looped :
    (resolveDnsTree sampleParse (some loopedTree) "seed" : Multiset Str) =
      flatAt sampleParse loopedTree "seed" +
        ∑ b ∈ {"r".toList, "a".toList},
          (leavesAt sampleParse loopedTree "seed" b : Multiset Str) := by
  have hroot : rootHashAt loopedTree "seed" = some "r".toList := by decide +kernel
  have hr : childrenAt loopedTree "seed" "r" = ["r".toList, "a".toList, "r".toList] := by
    decide +kernel
  have ha : childrenAt loopedTree "seed" "a" = [] := by decide +kernel
  have hbranches : ∀ b, b ∈ ({"r".toList, "a".toList} : Finset Str) ↔
      IsBranch loopedTree "seed" b := by
    intro b
    constructor
    · intro hb
      have hreach : Reachable (childrenAt loopedTree "seed") "r" b := by
        rcases Finset.mem_insert.mp hb with rfl | hb
        · exact Reachable.root
        · rw [Finset.mem_singleton.mp hb]
          exact Reachable.child Reachable.root (hr ▸ .tail _ (.head _))
      exact ⟨_, hroot, hreach⟩
    · rintro ⟨hash, hhash, hreach⟩
      obtain rfl : "r".toList = hash := Option.some.inj (hroot.symm.trans hhash)
      induction hreach with
      | root => exact Finset.mem_insert_self _ _
      | @child n m _ hm ih =>
        rcases Finset.mem_insert.mp ih with rfl | hn
        · rw [hr] at hm
          simp only [List.mem_cons, List.not_mem_nil, or_false] at hm
          rcases hm with rfl | rfl | rfl
          · exact Finset.mem_insert_self _ _
          · exact Finset.mem_insert_of_mem (Finset.mem_singleton_self _)
          · exact Finset.mem_insert_self _ _
        · rw [Finset.mem_singleton.mp hn, ha] at hm
          simp at hm
  exact resolve_complete hbranches (by decide) (by decide +kernel)

end KineticAtlas.DnsTree
