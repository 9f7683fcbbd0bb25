import KineticAtlas.DnsTree

/-!
The order of the records in the answers of the name servers (dns_tree.rs). It is not
meant to carry information: below the limits of the traversal it decides which of
several root hashes is taken and nothing else.
-/
namespace KineticAtlas.DnsAnswers

open Library.Texts Library.Utf8 Library.Search DnsTree

/-- The same records under every name, in another order. -/
def Reordered (answers answers' : Resolver) : Prop :=
  ∀ name, Option.Rel List.Perm (answers' name) (answers name)

variable {Addr : Type} {parse : Str → Option Addr} {answers answers' : Resolver} {domain : Str}

theorem Reordered.refl (answers : Resolver) : Reordered answers answers := by
  intro name
  cases answers name with
  | none => exact Option.Rel.none
  | some records => exact Option.Rel.some (List.Perm.refl records)

theorem Reordered.cases (h : Reordered answers answers') (name : Str) :
    (answers' name = none ∧ answers name = none) ∨
      ∃ records' records, answers' name = some records' ∧ answers name = some records ∧
        records'.Perm records := by
  have hname := h name
  generalize answers' name = reply' at hname ⊢
  generalize answers name = reply at hname ⊢
  cases hname with
  | none => exact Or.inl ⟨rfl, rfl⟩
  | some hperm => exact Or.inr ⟨_, _, rfl, rfl, hperm⟩

theorem Reordered.strings_perm (h : Reordered answers answers') (name : Str) :
    (stringsAt answers' name).Perm (stringsAt answers name) := by
  unfold stringsAt
  rcases h.cases name with ⟨hnone', hnone⟩ | ⟨records', records, hsome', hsome, hperm⟩
  · simp [hnone', hnone]
  · simpa [hsome', hsome] using hperm.flatten

theorem Reordered.flat_perm (h : Reordered answers answers') :
    (flatAt parse answers' domain).Perm (flatAt parse answers domain) :=
  (h.strings_perm domain).filterMap _

theorem Reordered.leaves_perm (h : Reordered answers answers') (branchHash : Str) :
    (leavesAt parse answers' domain branchHash).Perm (leavesAt parse answers domain branchHash) :=
  (h.strings_perm _).filterMap _

theorem Reordered.mem_children (h : Reordered answers answers') {branchHash child : Str} :
    child ∈ childrenAt answers' domain branchHash ↔ child ∈ childrenAt answers domain branchHash :=
  ((h.strings_perm _).flatMap_right _).mem_iff

theorem Reordered.reach_iff (h : Reordered answers answers') {hash branchHash : Str} :
    Reachable (childrenAt answers' domain) hash branchHash ↔
      Reachable (childrenAt answers domain) hash branchHash := by
  constructor
  · intro hreach
    induction hreach with
    | root => exact Reachable.root
    | child _ hchild ih => exact Reachable.child ih (h.mem_children.mp hchild)
  · intro hreach
    induction hreach with
    | root => exact Reachable.root
    | child _ hchild ih => exact Reachable.child ih (h.mem_children.mpr hchild)

/-- The hash a record of the domain names, the last one if there are several. -/
def recordHash (record : TxtRecord) : Option Str := (record.filterMap rootHashOf).getLast?

/-- A root hash that is selected when its record comes last. -/
def Selectable (answers : Resolver) (domain hash : Str) : Prop :=
  ∃ records, answers domain = some records ∧ ∃ record ∈ records, recordHash record = some hash

/-- The hash selected is that of the last record that names one. -/
theorem getLast?_rootHashes (records : List TxtRecord) :
    (records.flatten.filterMap rootHashOf).getLast? = (records.filterMap recordHash).getLast? := by
  induction records using List.reverseRecOn with
  | nil => rfl
  | append_singleton records record ih =>
    rw [List.flatten_append, List.filterMap_append, List.getLast?_append, List.filterMap_append,
      List.getLast?_append, ih]
    cases hrecord : recordHash record with
    | none => simp_all [recordHash]
    | some hash => simp_all [recordHash]

theorem rootHashAt_eq {records : List TxtRecord} (h : answers domain = some records) :
    rootHashAt answers domain = (records.filterMap recordHash).getLast? := by
  rw [← getLast?_rootHashes, rootHashAt, stringsAt, h]
  rfl

theorem Reordered.selectable_iff (h : Reordered answers answers') {hash : Str} :
    Selectable answers' domain hash ↔ Selectable answers domain hash := by
  unfold Selectable
  rcases h.cases domain with ⟨hnone', hnone⟩ | ⟨records', records, hsome', hsome, hperm⟩
  · simp [hnone', hnone]
  · simp [hsome', hsome, hperm.mem_iff]

theorem selectable_of_rootHashAt {hash : Str} (h : rootHashAt answers domain = some hash) :
    Selectable answers domain hash := by
  cases hrecords : answers domain with
  | none => simp [rootHashAt, stringsAt, hrecords] at h
  | some records =>
    rw [rootHashAt_eq hrecords] at h
    obtain ⟨record, hrecord, hhash⟩ := List.mem_filterMap.mp (List.mem_of_getLast? h)
    exact ⟨records, hrecords, record, hrecord, hhash⟩

theorem rootHashAt_isSome {hash : Str} (h : Selectable answers domain hash) :
    ∃ hash', rootHashAt answers domain = some hash' := by
  obtain ⟨records, hrecords, record, hrecord, hhash⟩ := h
  rw [rootHashAt_eq hrecords]
  have hmem : hash ∈ records.filterMap recordHash :=
    List.mem_filterMap.mpr ⟨record, hrecord, hhash⟩
  exact ⟨_, List.getLast?_eq_some_getLast (List.ne_nil_of_mem hmem)⟩

/-- Some order selects it. -/
theorem exists_order_selecting {hash : Str} (h : Selectable answers domain hash) :
    ∃ answers', Reordered answers answers' ∧ rootHashAt answers' domain = some hash := by
  obtain ⟨records, hrecords, record, hrecord, hhash⟩ := h
  refine ⟨Function.update answers domain (some (records.erase record ++ [record])), ?_, ?_⟩
  · intro name
    by_cases hname : name = domain
    · subst name
      rw [Function.update_self, hrecords]
      refine Option.Rel.some ?_
      exact (List.perm_append_singleton _ _).trans (List.perm_cons_erase hrecord).symm
    · rw [Function.update_of_ne hname]
      exact Reordered.refl answers name
  · rw [rootHashAt_eq (Function.update_self _ _ _)]
    simp [hhash]

/-- The lookups of branches that a resolution makes. -/
def lookupsMade (parse : Str → Option Addr) (resolver : Resolver) (domain : Str) : ℕ :=
  match resolver domain with
  | none => 0
  | some rootRecords => (traversalOf parse resolver domain rootRecords).lookups

/-- Neither limit of the traversal is reached. -/
def WithinLimits (parse : Str → Option Addr) (resolver : Resolver) (domain : Str) : Prop :=
  lookupsMade parse resolver domain < maxLookups ∧
    (resolveDnsTree parse (some resolver) domain).length < enoughAddrs

theorem lookupsMade_eq (hash : Str) (h : rootHashAt answers domain = some hash) :
    lookupsMade parse answers domain = (treeFrom parse answers domain hash).lookups := by
  cases hrecords : answers domain with
  | none => simp [rootHashAt, stringsAt, hrecords] at h
  | some rootRecords =>
    simp only [rootHashAt, stringsAt, hrecords, Option.getD_some] at h
    simp only [lookupsMade, hrecords, traversalOf, readRootRecords_eq, h, treeFrom, flatAt,
      stringsAt, Option.getD_some]

/-- Below the limits the search goes on until nothing is left open. -/
theorem resolve_within_limits {hash : Str} (h : WithinLimits parse answers domain)
    (hroot : rootHashAt answers domain = some hash) :
    ∃ branches : Finset Str,
      (∀ b, b ∈ branches ↔ Reachable (childrenAt answers domain) hash b) ∧
      (resolveDnsTree parse (some answers) domain : Multiset Addr) =
        flatAt parse answers domain +
          ∑ b ∈ branches, (leavesAt parse answers domain b : Multiset Addr) := by
  obtain ⟨hlookups, haddrs⟩ := h
  rw [lookupsMade_eq hash hroot] at hlookups
  simp only [resolveDnsTree_eq, hroot] at haddrs ⊢
  obtain ⟨⟨hsearches, -⟩, hend⟩ := treeFrom_end parse answers domain hash
  have hempty : (treeFrom parse answers domain hash).branchesToVisit = [] := by
    rcases hend with hempty | hmany | hmany
    · exact hempty
    · omega
    · omega
  have hall : ∀ b, b ∈ (treeFrom parse answers domain hash).visited.toFinset ↔
      Reachable (childrenAt answers domain) hash b := by
    intro b
    rw [List.mem_toFinset]
    exact hsearches.complete hempty b
  exact ⟨_, hall, hsearches.found_of_empty hall hempty⟩

/-- The two hashes lead to the same addresses. -/
def SameLeaves (parse : Str → Option Addr) (resolver : Resolver) (domain hash hash' : Str) : Prop :=
  ∀ branches branches' : Finset Str,
    (∀ b, b ∈ branches ↔ Reachable (childrenAt resolver domain) hash b) →
    (∀ b, b ∈ branches' ↔ Reachable (childrenAt resolver domain) hash' b) →
    ∑ b ∈ branches, (leavesAt parse resolver domain b : Multiset Addr) =
      ∑ b ∈ branches', (leavesAt parse resolver domain b : Multiset Addr)

theorem SameLeaves.refl (hash : Str) : SameLeaves parse answers domain hash hash := by
  intro branches branches' hbranches hbranches'
  obtain rfl : branches = branches' := Finset.ext fun b => (hbranches b).trans (hbranches' b).symm
  rfl

/-- The result of an order, in terms of the answers as they were. -/
theorem Reordered.resolve_eq (h : Reordered answers answers') {hash : Str}
    (hlimits : WithinLimits parse answers' domain)
    (hroot : rootHashAt answers' domain = some hash) :
    ∃ branches : Finset Str,
      (∀ b, b ∈ branches ↔ Reachable (childrenAt answers domain) hash b) ∧
      (resolveDnsTree parse (some answers') domain : Multiset Addr) =
        flatAt parse answers domain +
          ∑ b ∈ branches, (leavesAt parse answers domain b : Multiset Addr) := by
  obtain ⟨branches, hbranches, hresult⟩ := resolve_within_limits hlimits hroot
  refine ⟨branches, fun b => (hbranches b).trans h.reach_iff, ?_⟩
  have hflat : (flatAt parse answers' domain : Multiset Addr) = flatAt parse answers domain :=
    Multiset.coe_eq_coe.mpr h.flat_perm
  have hleaves : ∀ b, (leavesAt parse answers' domain b : Multiset Addr) =
      leavesAt parse answers domain b := fun b => Multiset.coe_eq_coe.mpr (h.leaves_perm b)
  rw [hresult, hflat, Finset.sum_congr rfl fun b _ => hleaves b]

/-- If no order of the answers reaches a limit, all orders give the same addresses
exactly when all root hashes named by a record of the domain lead to the same leaves. In
every order the last record that names a root hash decides which tree is read. -/
theorem order_irrelevant_iff
    (hlimits : ∀ answers', Reordered answers answers' → WithinLimits parse answers' domain) :
    ((∀ answers', Reordered answers answers' →
        (resolveDnsTree parse (some answers') domain : Multiset Addr) =
          resolveDnsTree parse (some answers) domain) ↔
      ∀ hash hash', Selectable answers domain hash → Selectable answers domain hash' →
        SameLeaves parse answers domain hash hash') ∧
    ∀ answers' records hash, Reordered answers answers' → answers' domain = some records →
      (records.filterMap recordHash).getLast? = some hash →
      ∃ branches : Finset Str,
        (∀ b, b ∈ branches ↔ Reachable (childrenAt answers domain) hash b) ∧
        (resolveDnsTree parse (some answers') domain : Multiset Addr) =
          flatAt parse answers domain +
            ∑ b ∈ branches, (leavesAt parse answers domain b : Multiset Addr) := by
  refine ⟨?_, fun answers' records hash hreordered hrecords hlast =>
    hreordered.resolve_eq (hlimits _ hreordered) ((rootHashAt_eq hrecords).trans hlast)⟩
  constructor
  · intro hsame hash hash' hhash hhash' branches branches' hbranches hbranches'
    obtain ⟨answers₁, hreordered₁, hroot₁⟩ := exists_order_selecting hhash
    obtain ⟨answers₂, hreordered₂, hroot₂⟩ := exists_order_selecting hhash'
    obtain ⟨found₁, hfound₁, hresult₁⟩ := hreordered₁.resolve_eq (hlimits _ hreordered₁) hroot₁
    obtain ⟨found₂, hfound₂, hresult₂⟩ := hreordered₂.resolve_eq (hlimits _ hreordered₂) hroot₂
    obtain rfl : found₁ = branches := Finset.ext fun b => (hfound₁ b).trans (hbranches b).symm
    obtain rfl : found₂ = branches' := Finset.ext fun b => (hfound₂ b).trans (hbranches' b).symm
    have heq := (hsame _ hreordered₁).trans (hsame _ hreordered₂).symm
    rw [hresult₁, hresult₂] at heq
    exact add_left_cancel heq
  · intro hleaves answers' hreordered
    cases hroot' : rootHashAt answers' domain with
    | none =>
      have hroot : rootHashAt answers domain = none := by
        by_contra hsome
        obtain ⟨hash, hhash⟩ := Option.ne_none_iff_exists'.mp hsome
        have hselectable := hreordered.selectable_iff.mpr (selectable_of_rootHashAt hhash)
        obtain ⟨hash', hhash'⟩ := rootHashAt_isSome hselectable
        simp [hroot'] at hhash'
      rw [resolveDnsTree_eq, resolveDnsTree_eq, hroot', hroot]
      exact Multiset.coe_eq_coe.mpr hreordered.flat_perm
    | some hash' =>
      have hselectable' := hreordered.selectable_iff.mp (selectable_of_rootHashAt hroot')
      obtain ⟨hash, hroot⟩ := rootHashAt_isSome hselectable'
      obtain ⟨branches', hbranches', hresult'⟩ :=
        hreordered.resolve_eq (hlimits _ hreordered) hroot'
      obtain ⟨branches, hbranches, hresult⟩ :=
        (Reordered.refl answers).resolve_eq (hlimits _ (Reordered.refl answers)) hroot
      rw [hresult', hresult]
      exact congrArg _ (hleaves hash' hash hselectable' (selectable_of_rootHashAt hroot)
        branches' branches hbranches' hbranches)

/-- The tree with a bound on the passes of the loop. -/
def treeFor (parse : Str → Option Addr) (resolver : Resolver) (domain hash : Str) (n : ℕ) :
    Traversal Addr :=
  traverseFor parse resolver domain n ⟨[hash], [], 0, flatAt parse resolver domain⟩

theorem resolve_of_treeFor (hash : Str) (n : ℕ) (hroot : rootHashAt answers domain = some hash)
    (hend : visitNext parse answers domain (treeFor parse answers domain hash n) = none) :
    resolveDnsTree parse (some answers) domain = (treeFor parse answers domain hash n).addrs := by
  rw [resolveDnsTree_eq, hroot]
  exact congrArg Traversal.addrs (traverse_eq_traverseFor n _ hend)

theorem withinLimits_of_treeFor (hash : Str) (n : ℕ)
    (hroot : rootHashAt answers domain = some hash)
    (hend : visitNext parse answers domain (treeFor parse answers domain hash n) = none)
    (hlookups : (treeFor parse answers domain hash n).lookups < maxLookups)
    (haddrs : (treeFor parse answers domain hash n).addrs.length < enoughAddrs) :
    WithinLimits parse answers domain := by
  refine ⟨?_, ?_⟩
  · rw [lookupsMade_eq hash hroot]
    exact (congrArg Traversal.lookups (traverse_eq_traverseFor n _ hend)).trans_lt hlookups
  · rw [resolve_of_treeFor hash n hroot hend]
    exact haddrs

/-- A root hash and a flat address. -/
def twoRecords : Resolver :=
  zone [("seed", [["kintree-root:v1 e=r"], ["/ip4/192.0.2.1/tcp/4001"]]),
    ("r.seed", [["kintree-leaf:/ip4/192.0.2.2/tcp/4001"]])]

def twoRecordsSwapped : Resolver :=
  zone [("seed", [["/ip4/192.0.2.1/tcp/4001"], ["kintree-root:v1 e=r"]]),
    ("r.seed", [["kintree-leaf:/ip4/192.0.2.2/tcp/4001"]])]

/-- Two root hashes, of which one leads nowhere. -/
def twoRoots : Resolver :=
  zone [("seed", [["kintree-root:v1 e=r"], ["kintree-root:v1 e=q"]]),
    ("r.seed", [["kintree-leaf:/ip4/192.0.2.2/tcp/4001"]])]

def twoRootsSwapped : Resolver :=
  zone [("seed", [["kintree-root:v1 e=q"], ["kintree-root:v1 e=r"]]),
    ("r.seed", [["kintree-leaf:/ip4/192.0.2.2/tcp/4001"]])]

theorem perm_pair {A : Type} {l : List A} {a b : A} (h : l.Perm [a, b]) :
    l = [a, b] ∨ l = [b, a] := by
  obtain ⟨x, y, rfl⟩ := List.length_eq_two.mp h.length_eq
  have hx : x ∈ [a, b] := h.mem_iff.mp List.mem_cons_self
  rcases List.mem_cons.mp hx with rfl | hx
  · left
    rw [List.singleton_perm_singleton.mp ((List.perm_cons x).mp h)]
  · right
    obtain rfl := List.mem_singleton.mp hx
    have hswap : [x, y].Perm [x, a] := h.trans (List.Perm.swap _ _ _)
    rw [List.singleton_perm_singleton.mp ((List.perm_cons x).mp hswap)]

theorem zone_other {name n : Str} {leaf : List Str} (hn : n ≠ "seed".toList)
    (order order' : List (List Str)) :
    zone [("seed", order), (name, [leaf])] n = zone [("seed", order'), (name, [leaf])] n := by
  simp only [zone, List.lookup_cons, beq_eq_false_iff_ne.mpr hn]

theorem reordered_swap (name : Str) (first second leaf : List Str) :
    Reordered (zone [("seed", [first, second]), (name, [leaf])])
      (zone [("seed", [second, first]), (name, [leaf])]) := by
  intro n
  by_cases hn : n = "seed".toList
  · subst n
    exact Option.Rel.some (List.Perm.swap _ _ _)
  · rw [zone_other hn [second, first] [first, second]]
    exact Reordered.refl _ n

/-- Two records of the domain and one of a branch leave only two orders. -/
theorem reordered_zone {name : Str} {first second leaf : List Str}
    (h : Reordered (zone [("seed", [first, second]), (name, [leaf])]) answers) :
    answers = zone [("seed", [first, second]), (name, [leaf])] ∨
      answers = zone [("seed", [second, first]), (name, [leaf])] := by
  have hseed : zone [("seed", [first, second]), (name, [leaf])] "seed" =
      some [first.map encode, second.map encode] := rfl
  have hother : ∀ n, n ≠ "seed".toList → ∀ order,
      answers n = zone [("seed", order), (name, [leaf])] n := by
    intro n hn order
    rw [zone_other hn order [first, second]]
    rcases h.cases n with ⟨hnone', hnone⟩ | ⟨records', records, hsome', hsome, hperm⟩
    · rw [hnone', hnone]
    · by_cases hname : n = name
      · subst n
        obtain rfl : [leaf.map encode] = records := by
          simpa only [zone, List.lookup_cons, beq_eq_false_iff_ne.mpr hn, beq_self_eq_true,
            Option.map_some, Option.some.injEq, List.map_cons, List.map_nil] using hsome
        rw [hsome', hsome, List.perm_singleton.mp hperm]
      · have hunknown : zone [("seed", [first, second]), (name, [leaf])] n = none := by
          simp only [zone, List.lookup_cons, beq_eq_false_iff_ne.mpr hn,
            beq_eq_false_iff_ne.mpr hname, List.lookup_nil, Option.map_none]
        rw [hunknown] at hsome
        cases hsome
  rcases h.cases "seed" with ⟨-, hnone⟩ | ⟨records', records, hsome', hsome, hperm⟩
  · rw [hseed] at hnone
    cases hnone
  · obtain rfl := Option.some.inj (hseed.symm.trans hsome)
    rcases perm_pair hperm with rfl | rfl
    · left
      funext n
      by_cases hn : n = "seed".toList
      · rw [hn, hsome', hseed]
      · exact hother n hn _
    · right
      funext n
      by_cases hn : n = "seed".toList
      · rw [hn, hsome']
        rfl
      · exact hother n hn _

theorem order_irrelevant_twoRecords :
    (resolveDnsTree sampleParse (some twoRecordsSwapped) "seed" : Multiset Str) =
      resolveDnsTree sampleParse (some twoRecords) "seed" := by
  have hlimits : ∀ answers, Reordered twoRecords answers →
      WithinLimits sampleParse answers "seed" := by
    intro answers hreordered
    rcases reordered_zone hreordered with rfl | rfl <;>
      exact withinLimits_of_treeFor "r" 2 (by decide +kernel) (by decide +kernel)
        (by decide +kernel) (by decide +kernel)
  have honly : ∀ hash, Selectable twoRecords "seed" hash → hash = "r" := by
    rintro hash ⟨records, hrecords, record, hrecord, hhash⟩
    obtain rfl := Option.some.inj (Eq.symm hrecords)
    rcases List.mem_cons.mp hrecord with rfl | hrecord
    · have hnamed : recordHash [encode "kintree-root:v1 e=r"] = some "r".toList := by
        decide +kernel
      exact Option.some.inj (hhash.symm.trans hnamed)
    · obtain rfl := List.mem_singleton.mp hrecord
      have hnone : recordHash [encode "/ip4/192.0.2.1/tcp/4001"] = none := by decide +kernel
      cases hhash.symm.trans hnone
  refine (order_irrelevant_iff hlimits).1.mpr (fun hash hash' hhash hhash' => ?_) _ ?_
  · rw [honly hash hhash, honly hash' hhash']
    exact SameLeaves.refl _
  · exact reordered_swap _ _ _ _

/-- With two root hashes the last record of the answer decides. -/
theorem order_decides_root :
    Reordered twoRoots twoRootsSwapped ∧
      (∀ answers, Reordered twoRoots answers → WithinLimits sampleParse answers "seed") ∧
      resolveDnsTree sampleParse (some twoRoots) "seed" = [] ∧
      resolveDnsTree sampleParse (some twoRootsSwapped) "seed" =
        ["/ip4/192.0.2.2/tcp/4001".toList] := by
  refine ⟨reordered_swap _ _ _ _, ?_, ?_, ?_⟩
  · intro answers hreordered
    rcases reordered_zone hreordered with rfl | rfl
    · exact withinLimits_of_treeFor "q" 2 (by decide +kernel) (by decide +kernel)
        (by decide +kernel) (by decide +kernel)
    · exact withinLimits_of_treeFor "r" 2 (by decide +kernel) (by decide +kernel)
        (by decide +kernel) (by decide +kernel)
  · rw [resolve_of_treeFor "q" 2 (by decide +kernel) (by decide +kernel)]
    decide +kernel
  · rw [resolve_of_treeFor "r" 2 (by decide +kernel) (by decide +kernel)]
    decide +kernel

end KineticAtlas.DnsAnswers
