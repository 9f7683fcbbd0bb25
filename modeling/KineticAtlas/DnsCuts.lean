import KineticAtlas.DnsAnswers

/-!
The cutting of TXT records into character-strings (dns_tree.rs). A string has at most 255
bytes, a longer text is delivered as several, and each of them is read as a record of
its own. A way of cutting changes no result exactly when every record says, read string
by string, what its text says.
-/
namespace KineticAtlas.DnsCuts

open Library.Texts Library.Utf8 Library.Search DnsTree DnsAnswers

/-- Every record delivered as one string. -/
def joined (answers : Resolver) : Resolver := fun name =>
  (answers name).map fun records => records.map fun record => [record.flatten]

/-- All records delivered are cut in one of the given ways. -/
def CutAs (cuts : Set TxtRecord) (answers : Resolver) : Prop :=
  ∀ name records, answers name = some records → ∀ record ∈ records, record ∈ cuts

/-- The branches to be visited for a record, in their order, once the root is visited. -/
def branchesAfter (hash : Str) (record : TxtRecord) : List Str :=
  fresh [hash] (record.flatMap childrenOf).reverse

/-- Read string by string the record says what its text says, and lists the branches that
can still be looked up in the same order. -/
structure ReadsWhole {Addr : Type} (parse : Str → Option Addr) (cuts : Set TxtRecord)
    (record : TxtRecord) : Prop where
  flat : record.filterMap (flatOf parse) = (flatOf parse record.flatten).toList
  rootHash : recordHash record = rootHashOf record.flatten
  branches : ∀ root ∈ cuts, ∀ hash, recordHash root = some hash →
    (branchesAfter hash record).take (maxLookups - 1) =
      (branchesAfter hash [record.flatten]).take (maxLookups - 1)
  leaves : record.filterMap (leafOf parse) = (leafOf parse record.flatten).toList

variable {Addr : Type} {parse : Str → Option Addr} {answers resolver resolver' : Resolver}
  {domain : Str} {cuts : Set TxtRecord} {s : Traversal Addr}

theorem traverse_stop (h : maxLookups ≤ s.lookups ∨ enoughAddrs ≤ s.addrs.length) :
    traverse parse resolver domain s = s := by
  refine traverse_of_none ?_
  have hstop : s.lookups ≥ maxLookups ∨ s.addrs.length ≥ enoughAddrs := h
  cases hstack : s.branchesToVisit with
  | nil => simp [visitNext, hstack]
  | cons b rest => simp [visitNext, hstack, hstop]

theorem visitNext_skip {b : Str} {rest : List Str} (hstack : s.branchesToVisit = b :: rest)
    (hlookups : s.lookups < maxLookups) (haddrs : s.addrs.length < enoughAddrs)
    (hseen : b ∈ s.visited) :
    visitNext parse resolver domain s = some { s with branchesToVisit := rest } := by
  have hgo : ¬ (s.lookups ≥ maxLookups ∨ s.addrs.length ≥ enoughAddrs) := by omega
  simp [visitNext, hstack, hgo, hseen]

/-- Nothing new is left on the stack. -/
theorem traverse_fresh_nil (stack visited : List Str) (lookups : ℕ) (addrs : List Addr)
    (h : fresh visited stack = []) :
    (traverse parse resolver domain ⟨stack, visited, lookups, addrs⟩).addrs = addrs := by
  by_cases hstop : maxLookups ≤ lookups ∨ enoughAddrs ≤ addrs.length
  · rw [traverse_stop hstop]
  · have hlookups : lookups < maxLookups := by omega
    have haddrs : addrs.length < enoughAddrs := by omega
    induction stack with
    | nil => rw [traverse_of_none rfl]
    | cons b rest ih =>
      by_cases hseen : b ∈ visited
      · rw [fresh, if_pos hseen] at h
        rw [traverse_of_some (visitNext_skip rfl hlookups haddrs hseen)]
        exact ih h
      · simp [fresh, hseen] at h

variable (parse resolver domain) in
/-- The branch yielded first is the one looked up next. -/
theorem traverse_fresh_cons {stack visited : List Str} {lookups : ℕ} {addrs : List Addr}
    {b : Str} {others : List Str} (h : fresh visited stack = b :: others)
    (hlookups : lookups < maxLookups) (haddrs : addrs.length < enoughAddrs) :
    ∃ rest, fresh (b :: visited) rest = others ∧
      traverse parse resolver domain ⟨stack, visited, lookups, addrs⟩ =
        traverse parse resolver domain
          ⟨(childrenAt resolver domain b).reverse ++ rest, b :: visited, lookups + 1,
            addrs ++ leavesAt parse resolver domain b⟩ := by
  induction stack with
  | nil => cases h
  | cons top rest ih =>
    by_cases hseen : top ∈ visited
    · rw [fresh, if_pos hseen] at h
      rw [traverse_of_some (visitNext_skip rfl hlookups haddrs hseen)]
      exact ih h
    · rw [fresh, if_neg hseen] at h
      obtain ⟨rfl, hothers⟩ := List.cons.inj h
      exact ⟨rest, hothers, traverse_of_some (visitNext_visit rfl hlookups haddrs hseen)⟩

/-- Two resolvers that say the same of every branch, as far as it can be followed up. -/
structure SameBranches (parse : Str → Option Addr) (resolver resolver' : Resolver)
    (domain hash : Str) : Prop where
  children : ∀ b, (fresh [hash] (childrenAt resolver' domain b).reverse).take (maxLookups - 1) =
    (fresh [hash] (childrenAt resolver domain b).reverse).take (maxLookups - 1)
  leaves : ∀ b, leavesAt parse resolver' domain b = leavesAt parse resolver domain b

theorem SameBranches.traverse_eq {hash : Str}
    (h : SameBranches parse resolver resolver' domain hash) (n : ℕ)
    (visited stack stack' : List Str) (addrs : List Addr) (hroot : hash ∈ visited)
    (hn : visited.length + n = maxLookups)
    (hstack : (fresh visited stack').take n = (fresh visited stack).take n) :
    (traverse parse resolver' domain ⟨stack', visited, visited.length, addrs⟩).addrs =
      (traverse parse resolver domain ⟨stack, visited, visited.length, addrs⟩).addrs := by
  induction n generalizing visited stack stack' addrs with
  | zero =>
    have hmany : maxLookups ≤ visited.length := by omega
    rw [traverse_stop (Or.inl hmany), traverse_stop (Or.inl hmany)]
  | succ n ih =>
    by_cases henough : enoughAddrs ≤ addrs.length
    · rw [traverse_stop (Or.inr henough), traverse_stop (Or.inr henough)]
    have hlookups : visited.length < maxLookups := by omega
    have haddrs : addrs.length < enoughAddrs := by omega
    cases hfresh : fresh visited stack with
    | nil =>
      have hfresh' : fresh visited stack' = [] := by simpa [hfresh] using hstack
      rw [traverse_fresh_nil _ _ _ _ hfresh, traverse_fresh_nil _ _ _ _ hfresh']
    | cons b others =>
      cases hfresh' : fresh visited stack' with
      | nil => simp [hfresh, hfresh'] at hstack
      | cons b' others' =>
        rw [hfresh, hfresh', List.take_succ_cons, List.take_succ_cons] at hstack
        obtain ⟨rfl, hothers⟩ := List.cons.inj hstack
        obtain ⟨rest, rfl, hnext⟩ :=
          traverse_fresh_cons parse resolver domain hfresh hlookups haddrs
        obtain ⟨rest', rfl, hnext'⟩ :=
          traverse_fresh_cons parse resolver' domain hfresh' hlookups haddrs
        rw [hnext, hnext', h.leaves]
        have hroot' : hash ∈ b' :: visited := List.mem_cons_of_mem _ hroot
        have hlength : ((b' :: visited).erase hash).length + n ≤ maxLookups - 1 := by
          rw [List.length_erase_of_mem hroot', List.length_cons]
          omega
        refine ih (b' :: visited) _ _ _ hroot' (by rw [List.length_cons]; omega) ?_
        refine take_fresh_append (fun m => ?_) (h.children b') hothers hlength
        by_cases hm : m = hash
        · simp [hm, hroot]
        · rw [List.mem_erase_of_ne hm, List.mem_singleton]
          simp [hm]

theorem SameBranches.treeFrom_eq {hash : Str}
    (h : SameBranches parse resolver resolver' domain hash)
    (hflat : flatAt parse resolver' domain = flatAt parse resolver domain) :
    (treeFrom parse resolver' domain hash).addrs = (treeFrom parse resolver domain hash).addrs := by
  unfold treeFrom
  rw [hflat]
  by_cases henough : enoughAddrs ≤ (flatAt parse resolver domain).length
  · rw [traverse_stop (Or.inr henough), traverse_stop (Or.inr henough)]
  · have hvisit : ∀ R : Resolver, visitNext parse R domain
        ⟨[hash], [], 0, flatAt parse resolver domain⟩ =
          some ⟨(childrenAt R domain hash).reverse ++ [], [hash], 0 + 1,
            flatAt parse resolver domain ++ leavesAt parse R domain hash⟩ := by
      intro R
      exact visitNext_visit rfl (by decide : 0 < maxLookups) (Nat.lt_of_not_le henough)
        List.not_mem_nil
    rw [traverse_of_some (hvisit resolver), traverse_of_some (hvisit resolver'), h.leaves]
    refine h.traverse_eq (maxLookups - 1) [hash] _ _ _ List.mem_cons_self rfl ?_
    simpa using h.children hash

theorem filterMap_joined {B : Type} (f : Bytes → Option B) (records : List TxtRecord)
    (h : ∀ record ∈ records, record.filterMap f = (f record.flatten).toList) :
    ((records.map fun record => [record.flatten]).flatten).filterMap f =
      records.flatten.filterMap f := by
  induction records with
  | nil => rfl
  | cons record rest ih =>
    have hrest := ih fun r hr => h r (List.mem_cons_of_mem record hr)
    rw [List.map_cons, List.flatten_cons, List.filterMap_append, hrest, List.flatten_cons,
      List.filterMap_append, h record List.mem_cons_self]
    cases hf : f record.flatten <;> simp [hf]

/-- The records of an answer are read in their order, but visited from the last on. -/
theorem children_joined {hash : Str} {n : ℕ} (records : List TxtRecord)
    (h : ∀ record ∈ records, (branchesAfter hash record).take n =
      (branchesAfter hash [record.flatten]).take n) :
    (fresh [hash] (((records.map fun record => [record.flatten]).flatten).flatMap
        childrenOf).reverse).take n =
      (fresh [hash] (records.flatten.flatMap childrenOf).reverse).take n := by
  induction records with
  | nil => rfl
  | cons record rest ih =>
    have hrest := ih fun r hr => h r (List.mem_cons_of_mem record hr)
    have hrecord := (h record List.mem_cons_self).symm
    simp only [List.map_cons, List.flatten_cons, List.flatMap_append, List.reverse_append]
    have hvisited : ∀ m, m ∈ [hash] ↔ m ∈ ([] : List Str) ∨ m ∈ [hash] := by simp
    exact take_fresh_append hvisited hrest hrecord (by simp)

theorem flatAt_joined (hcut : CutAs cuts answers)
    (hwhole : ∀ record ∈ cuts, ReadsWhole parse cuts record) :
    flatAt parse (joined answers) domain = flatAt parse answers domain := by
  unfold flatAt stringsAt joined
  cases hrecords : answers domain with
  | none => rfl
  | some records =>
    exact filterMap_joined _ records fun record hrecord =>
      (hwhole record (hcut _ _ hrecords record hrecord)).flat

theorem rootHashAt_joined (hcut : CutAs cuts answers)
    (hwhole : ∀ record ∈ cuts, ReadsWhole parse cuts record) :
    rootHashAt (joined answers) domain = rootHashAt answers domain := by
  cases hrecords : answers domain with
  | none => simp [rootHashAt, stringsAt, joined, hrecords]
  | some records =>
    have hjoined : joined answers domain = some (records.map fun record => [record.flatten]) := by
      simp [joined, hrecords]
    rw [rootHashAt_eq hrecords, rootHashAt_eq hjoined, List.filterMap_map]
    congr 1
    refine List.filterMap_congr fun record hrecord => ?_
    rw [(hwhole record (hcut _ _ hrecords record hrecord)).rootHash]
    cases hhash : rootHashOf record.flatten <;> simp [recordHash, hhash]

theorem sameBranches_joined (hcut : CutAs cuts answers)
    (hwhole : ∀ record ∈ cuts, ReadsWhole parse cuts record) {root : TxtRecord}
    (hroot : root ∈ cuts) {hash : Str} (hhash : recordHash root = some hash) :
    SameBranches parse answers (joined answers) domain hash := by
  constructor
  · intro b
    unfold childrenAt stringsAt joined
    cases hrecords : answers (b ++ '.' :: domain) with
    | none => rfl
    | some records =>
      exact children_joined records fun record hrecord =>
        (hwhole record (hcut _ _ hrecords record hrecord)).branches root hroot hash hhash
  · intro b
    unfold leavesAt stringsAt joined
    cases hrecords : answers (b ++ '.' :: domain) with
    | none => rfl
    | some records =>
      exact filterMap_joined _ records fun record hrecord =>
        (hwhole record (hcut _ _ hrecords record hrecord)).leaves

/-- Where all records read as a whole, no cut shows in the result. -/
theorem resolve_joined (hcut : CutAs cuts answers)
    (hwhole : ∀ record ∈ cuts, ReadsWhole parse cuts record) :
    resolveDnsTree parse (some answers) domain =
      resolveDnsTree parse (some (joined answers)) domain := by
  rw [resolveDnsTree_eq, resolveDnsTree_eq, flatAt_joined hcut hwhole,
    rootHashAt_joined hcut hwhole]
  cases hroot : rootHashAt answers domain with
  | none => rfl
  | some hash =>
    obtain ⟨records, hrecords, root, hmem, hhash⟩ := selectable_of_rootHashAt hroot
    have hsame : SameBranches parse answers (joined answers) domain hash :=
      sameBranches_joined hcut hwhole (hcut _ _ hrecords root hmem) hhash
    exact (hsame.treeFrom_eq (flatAt_joined hcut hwhole)).symm

/-- The given records for the domain, and for every branch those of its hash. -/
def probe (domain : Str) (root : List TxtRecord) (branch : Str → List TxtRecord) : Resolver :=
  fun name =>
    if name = domain then some root
    else if '.' :: domain <:+ name then
      some (branch (name.take (name.length - (domain.length + 1))))
    else none

theorem probe_domain (root : List TxtRecord) (branch : Str → List TxtRecord) :
    probe domain root branch domain = some root := if_pos rfl

theorem probe_branch (root : List TxtRecord) (branch : Str → List TxtRecord) (b : Str) :
    probe domain root branch (b ++ '.' :: domain) = some (branch b) := by
  have hne : b ++ '.' :: domain ≠ domain := by
    intro heq
    have hlen := congrArg List.length heq
    simp at hlen
    omega
  rw [probe, if_neg hne, if_pos (List.suffix_append _ _)]
  simp

theorem joined_probe (root : List TxtRecord) (branch : Str → List TxtRecord) :
    joined (probe domain root branch) =
      probe domain (root.map fun record => [record.flatten])
        fun b => (branch b).map fun record => [record.flatten] := by
  funext name
  unfold joined probe
  split
  · rfl
  · split <;> rfl

theorem cutAs_probe {root : List TxtRecord} {branch : Str → List TxtRecord}
    (hroot : ∀ record ∈ root, record ∈ cuts) (hbranch : ∀ b, ∀ record ∈ branch b, record ∈ cuts) :
    CutAs cuts (probe domain root branch) := by
  intro name records hrecords
  unfold probe at hrecords
  split at hrecords
  · exact Option.some.inj hrecords ▸ hroot
  · split at hrecords
    · exact Option.some.inj hrecords ▸ hbranch _
    · cases hrecords

theorem flatAt_probe (root : TxtRecord) (branch : Str → List TxtRecord) :
    flatAt parse (probe domain [root] branch) domain = root.filterMap (flatOf parse) := by
  simp [flatAt, stringsAt, probe_domain]

theorem rootHashAt_probe (root : TxtRecord) (branch : Str → List TxtRecord) :
    rootHashAt (probe domain [root] branch) domain = recordHash root := by
  rw [rootHashAt_eq (probe_domain _ _)]
  cases h : recordHash root <;> simp [h]

theorem leavesAt_probe (root : List TxtRecord) (branch : Str → List TxtRecord) (b : Str) :
    leavesAt parse (probe domain root branch) domain b =
      (branch b).flatten.filterMap (leafOf parse) := by
  simp [leavesAt, stringsAt, probe_branch]

theorem childrenAt_probe (root : List TxtRecord) (branch : Str → List TxtRecord) (b : Str) :
    childrenAt (probe domain root branch) domain b = (branch b).flatten.flatMap childrenOf := by
  simp [childrenAt, stringsAt, probe_branch]

/-- Only one branch has anything to say. -/
theorem resolve_single (hash : Str)
    (hother : ∀ b, b ≠ hash →
      childrenAt resolver domain b = [] ∧ leavesAt parse resolver domain b = [])
    (hfew : (flatAt parse resolver domain).length < enoughAddrs) :
    resolveDnsTree parse (some resolver) domain =
      flatAt parse resolver domain ++
        (if rootHashAt resolver domain = some hash then leavesAt parse resolver domain hash
        else []) := by
  rw [resolveDnsTree_eq]
  cases hroot : rootHashAt resolver domain with
  | none => simp
  | some root =>
    have hvisit : visitNext parse resolver domain ⟨[root], [], 0, flatAt parse resolver domain⟩ =
        some ⟨(childrenAt resolver domain root).reverse ++ [], [root], 0 + 1,
          flatAt parse resolver domain ++ leavesAt parse resolver domain root⟩ :=
      visitNext_visit rfl (by decide : 0 < maxLookups) hfew List.not_mem_nil
    simp only [treeFrom, traverse_of_some hvisit, Option.some.injEq]
    by_cases hhash : root = hash
    · subst root
      rw [if_pos rfl]
      have hkept : ∀ s s' : Traversal Addr,
          (hash ∈ s.visited ∧ s.addrs =
            flatAt parse resolver domain ++ leavesAt parse resolver domain hash) →
          visitNext parse resolver domain s = some s' →
          hash ∈ s'.visited ∧ s'.addrs =
            flatAt parse resolver domain ++ leavesAt parse resolver domain hash := by
        rintro s s' ⟨hseen, haddrs⟩ hnext
        obtain ⟨b, rest, -, ⟨-, rfl⟩ | ⟨hnew, -, -, rfl⟩⟩ := visitNext_cases hnext
        · exact ⟨hseen, haddrs⟩
        · have hb : b ≠ hash := fun heq => hnew (heq ▸ hseen)
          refine ⟨List.mem_cons_of_mem b hseen, ?_⟩
          rw [(hother b hb).2, List.append_nil, haddrs]
      exact (traverse_invariant hkept _ ⟨List.mem_singleton_self hash, rfl⟩).1.2
    · rw [if_neg hhash, (hother root hhash).1, (hother root hhash).2]
      rw [traverse_of_none rfl]

/-- Two lists that differ among the first `n` go the same way for a while; then the one
has a next element that the other does not have there. -/
theorem first_difference {N : Type} [DecidableEq N] {l l' : List N} {n : ℕ}
    (h : l.take n ≠ l'.take n) :
    ∃ p b q q', p.length < n ∧ q'.head? ≠ some b ∧
      ((l = p ++ b :: q ∧ l' = p ++ q') ∨ (l' = p ++ b :: q ∧ l = p ++ q')) := by
  induction n generalizing l l' with
  | zero => simp at h
  | succ n ih =>
    cases l with
    | nil =>
      cases l' with
      | nil => simp at h
      | cons b' q' => exact ⟨[], b', q', [], by simp, by simp, Or.inr ⟨rfl, rfl⟩⟩
    | cons b q =>
      cases l' with
      | nil => exact ⟨[], b, q, [], by simp, by simp, Or.inl ⟨rfl, rfl⟩⟩
      | cons b' q' =>
        by_cases hb : b = b'
        · subst b'
          have hrest : q.take n ≠ q'.take n := by simpa using h
          obtain ⟨p, c, r, r', hp, hne, hcase⟩ := ih hrest
          refine ⟨b :: p, c, r, r', by simpa using hp, hne, ?_⟩
          exact hcase.imp (fun ⟨h₁, h₂⟩ => ⟨by rw [h₁]; rfl, by rw [h₂]; rfl⟩)
            fun ⟨h₁, h₂⟩ => ⟨by rw [h₁]; rfl, by rw [h₂]; rfl⟩
        · exact ⟨[], b, q, b' :: q', by simp, by simpa using Ne.symm hb, Or.inl ⟨rfl, rfl⟩⟩

/-- Branches that have nothing to say cost lookups only. -/
theorem traverse_silent {stack visited : List Str} {lookups : ℕ} {addrs : List Addr}
    {p q : List Str} (hfresh : fresh visited stack = p ++ q)
    (hsilent : ∀ b ∈ p, childrenAt resolver domain b = [] ∧ leavesAt parse resolver domain b = [])
    (hlookups : lookups + p.length ≤ maxLookups) (haddrs : addrs.length < enoughAddrs) :
    ∃ rest, fresh (p.reverse ++ visited) rest = q ∧
      traverse parse resolver domain ⟨stack, visited, lookups, addrs⟩ =
        traverse parse resolver domain
          ⟨rest, p.reverse ++ visited, lookups + p.length, addrs⟩ := by
  induction p generalizing stack visited lookups with
  | nil => exact ⟨stack, hfresh, rfl⟩
  | cons b p ih =>
    have hmore : lookups < maxLookups := by
      rw [List.length_cons] at hlookups
      omega
    obtain ⟨rest, hrest, hnext⟩ := traverse_fresh_cons parse resolver domain hfresh hmore haddrs
    obtain ⟨hchildren, hleaves⟩ := hsilent b List.mem_cons_self
    rw [hchildren, hleaves, List.append_nil, List.reverse_nil, List.nil_append] at hnext
    have hlookups' : lookups + 1 + p.length ≤ maxLookups := by
      rw [List.length_cons] at hlookups
      omega
    obtain ⟨rest', hrest', hnext'⟩ :=
      ih hrest (fun c hc => hsilent c (List.mem_cons_of_mem b hc)) hlookups'
    refine ⟨rest', ?_, ?_⟩
    · simpa using hrest'
    · rw [hnext, hnext', List.length_cons]
      simp [Nat.add_assoc, Nat.add_comm 1]

/-- After the root and its silent branches the traversal goes on with the others. -/
theorem treeFrom_silent {hash : Str} {p q : List Str}
    (hfresh : fresh [hash] (childrenAt resolver domain hash).reverse = p ++ q)
    (hp : p.length < maxLookups - 1)
    (hsilent : ∀ c ∈ p, childrenAt resolver domain c = [] ∧ leavesAt parse resolver domain c = [])
    (hbase : (flatAt parse resolver domain ++ leavesAt parse resolver domain hash).length <
      enoughAddrs) :
    ∃ rest, fresh (p.reverse ++ [hash]) rest = q ∧
      treeFrom parse resolver domain hash =
        traverse parse resolver domain
          ⟨rest, p.reverse ++ [hash], 1 + p.length,
            flatAt parse resolver domain ++ leavesAt parse resolver domain hash⟩ := by
  have hfew : (flatAt parse resolver domain).length < enoughAddrs := by
    rw [List.length_append] at hbase
    omega
  have hvisit : visitNext parse resolver domain ⟨[hash], [], 0, flatAt parse resolver domain⟩ =
      some ⟨(childrenAt resolver domain hash).reverse ++ [], [hash], 0 + 1,
        flatAt parse resolver domain ++ leavesAt parse resolver domain hash⟩ :=
    visitNext_visit rfl (by decide : 0 < maxLookups) hfew List.not_mem_nil
  have hlookups : 0 + 1 + p.length ≤ maxLookups := by omega
  rw [List.append_nil] at hvisit
  obtain ⟨rest, hrest, hnext⟩ := traverse_silent hfresh hsilent hlookups hbase
  refine ⟨rest, hrest, ?_⟩
  rw [treeFrom, traverse_of_some hvisit, hnext]

/-- A branch with enough leaves ends the traversal. -/
theorem length_reached {hash b : Str} {p q : List Str}
    (hfresh : fresh [hash] (childrenAt resolver domain hash).reverse = p ++ b :: q)
    (hp : p.length < maxLookups - 1)
    (hsilent : ∀ c ∈ p, childrenAt resolver domain c = [] ∧ leavesAt parse resolver domain c = [])
    (hbase : (flatAt parse resolver domain ++ leavesAt parse resolver domain hash).length <
      enoughAddrs)
    (hmany : (leavesAt parse resolver domain b).length = enoughAddrs) :
    (treeFrom parse resolver domain hash).addrs.length =
      (flatAt parse resolver domain ++ leavesAt parse resolver domain hash).length +
        enoughAddrs := by
  obtain ⟨rest, hrest, hnext⟩ := treeFrom_silent hfresh hp hsilent hbase
  have hlookups : 1 + p.length < maxLookups := by omega
  obtain ⟨rest', -, hvisit⟩ := traverse_fresh_cons parse resolver domain hrest hlookups hbase
  rw [hnext, hvisit, traverse_stop]
  · simp only [List.length_append, hmany]
  · refine Or.inr ?_
    simp only [List.length_append, hmany]
    omega

/-- Once the root and the rival are visited, only the branch with many leaves has any. -/
theorem length_visitNext {hash b c : Str} {n : ℕ} {s' : Traversal Addr}
    (hmany : (leavesAt parse resolver domain b).length = enoughAddrs)
    (hnone : ∀ d, d ≠ hash → d ≠ b → d ≠ c → leavesAt parse resolver domain d = [])
    (hs : hash ∈ s.visited ∧ c ∈ s.visited ∧
      s.addrs.length = n + (if b ∈ s.visited then enoughAddrs else 0))
    (hstep : visitNext parse resolver domain s = some s') :
    hash ∈ s'.visited ∧ c ∈ s'.visited ∧
      s'.addrs.length = n + (if b ∈ s'.visited then enoughAddrs else 0) := by
  obtain ⟨hroot, hseen, hlength⟩ := hs
  obtain ⟨d, rest, -, ⟨-, rfl⟩ | ⟨hnew, -, -, rfl⟩⟩ := visitNext_cases hstep
  · exact ⟨hroot, hseen, hlength⟩
  · refine ⟨List.mem_cons_of_mem d hroot, List.mem_cons_of_mem d hseen, ?_⟩
    rw [List.length_append, hlength]
    by_cases hd : d = b
    · subst d
      simp [hnew, hmany]
    · have hdroot : d ≠ hash := fun heq => hnew (heq ▸ hroot)
      have hdc : d ≠ c := fun heq => hnew (heq ▸ hseen)
      simp [hnone d hdroot hd hdc, Ne.symm hd]

/-- The same branch further on comes after another leaf, if it is reached. -/
theorem length_not_reached {hash b : Str} {p q : List Str}
    (hfresh : fresh [hash] (childrenAt resolver domain hash).reverse = p ++ q)
    (hp : p.length < maxLookups - 1)
    (hsilent : ∀ c ∈ p, childrenAt resolver domain c = [] ∧ leavesAt parse resolver domain c = [])
    (hbase : (flatAt parse resolver domain ++ leavesAt parse resolver domain hash).length <
      enoughAddrs)
    (hmany : (leavesAt parse resolver domain b).length = enoughAddrs) (hb : b ≠ hash)
    (hnotp : b ∉ p) (hhead : q.head? ≠ some b)
    (hone : ∀ c, q.head? = some c → (leavesAt parse resolver domain c).length = 1)
    (hnone : ∀ c, c ≠ hash → c ≠ b → q.head? ≠ some c → leavesAt parse resolver domain c = []) :
    (treeFrom parse resolver domain hash).addrs.length ≠
      (flatAt parse resolver domain ++ leavesAt parse resolver domain hash).length +
        enoughAddrs := by
  obtain ⟨rest, hrest, hnext⟩ := treeFrom_silent hfresh hp hsilent hbase
  rw [hnext]
  cases q with
  | nil =>
    rw [traverse_fresh_nil _ _ _ _ hrest]
    have hpos : 0 < enoughAddrs := by decide
    omega
  | cons c q =>
    have hlookups : 1 + p.length < maxLookups := by omega
    obtain ⟨rest', -, hvisit⟩ := traverse_fresh_cons parse resolver domain hrest hlookups hbase
    rw [hvisit]
    have hc : c ≠ b := by simpa using hhead
    have hother : ∀ d, d ≠ hash → d ≠ b → d ≠ c → leavesAt parse resolver domain d = [] := by
      intro d hdroot hd hdc
      exact hnone d hdroot hd (by simpa using Ne.symm hdc)
    set base := flatAt parse resolver domain ++ leavesAt parse resolver domain hash
    have hnotyet : b ∉ c :: (p.reverse ++ [hash]) := by simp [hb, hnotp, Ne.symm hc]
    have hstart : (base ++ leavesAt parse resolver domain c).length = base.length + 1 +
        (if b ∈ c :: (p.reverse ++ [hash]) then enoughAddrs else 0) := by
      rw [List.length_append, hone c rfl, if_neg hnotyet]
    have hend := (traverse_invariant (fun _ _ hs => length_visitNext hmany hother hs)
      ⟨(childrenAt resolver domain c).reverse ++ rest', c :: (p.reverse ++ [hash]),
        1 + p.length + 1, base ++ leavesAt parse resolver domain c⟩
      ⟨by simp, by simp, hstart⟩).1.2.2
    rw [hend]
    have hpos : 1 < enoughAddrs := by decide
    split <;> omega

theorem recordHash_single (s : Bytes) : recordHash [s] = rootHashOf s := by
  cases h : rootHashOf s <;> simp [recordHash, h]

theorem filterMap_single {A : Type} (f : Bytes → Option A) (s : Bytes) :
    [s].filterMap f = (f s).toList := by
  cases hf : f s <;> simp [hf]

/-- A root record is not a flat address. -/
theorem flatOf_of_rootHashOf {s : Bytes} {hash : Str} (h : rootHashOf s = some hash) :
    flatOf parse s = none := by
  obtain ⟨txt, htxt, htag⟩ := Option.bind_eq_some_iff.mp h
  have hroot : rootTag <+: txt := by
    by_contra hother
    simp [hother] at htag
  simp [flatOf, htxt, hroot]

/-- A leaf refers to no branch. -/
theorem childrenOf_of_leafOf {s : Bytes} {addr : Addr} (h : leafOf parse s = some addr) :
    childrenOf s = [] := by
  obtain ⟨txt, htxt, htag⟩ := Option.bind_eq_some_iff.mp h
  have hleaf : ¬ branchTag <+: txt := by
    intro hbranch
    simp [hbranch] at htag
  simp [childrenOf, htxt, hleaf]

/-- Nothing is added to the flat addresses where no branch has a leaf. -/
theorem resolve_bare (hbare : ∀ b, leavesAt parse resolver domain b = []) :
    resolveDnsTree parse (some resolver) domain = flatAt parse resolver domain := by
  rw [resolveDnsTree_eq]
  cases rootHashAt resolver domain with
  | none => rfl
  | some hash =>
    have hkept : ∀ s s' : Traversal Addr, s.addrs = flatAt parse resolver domain →
        visitNext parse resolver domain s = some s' → s'.addrs = flatAt parse resolver domain := by
      intro s s' hs hnext
      obtain ⟨b, rest, -, ⟨-, rfl⟩ | ⟨-, -, -, rfl⟩⟩ := visitNext_cases hnext
      · exact hs
      · rw [hbare b, List.append_nil, hs]
    exact (traverse_invariant hkept _ rfl).1

/-- Cutting in the given ways changes no result. -/
def Harmless (parse : Str → Option Addr) (cuts : Set TxtRecord) : Prop :=
  ∀ answers, CutAs cuts answers → ∀ domain,
    resolveDnsTree parse (some answers) domain =
      resolveDnsTree parse (some (joined answers)) domain

theorem Harmless.flat (h : Harmless parse cuts) {record : TxtRecord} (hrecord : record ∈ cuts) :
    record.filterMap (flatOf parse) = (flatOf parse record.flatten).toList := by
  have hcut : CutAs cuts (probe "x" [record] fun _ => []) :=
    cutAs_probe (by simpa using hrecord) (by simp)
  have hresult := h _ hcut "x"
  rw [joined_probe, resolve_bare (by simp [leavesAt_probe]),
    resolve_bare (by simp [leavesAt_probe]), List.map_singleton, flatAt_probe, flatAt_probe,
    filterMap_single] at hresult
  exact hresult

theorem length_toList_le {A : Type} (o : Option A) : o.toList.length ≤ 1 := by
  cases o <;> simp

theorem Harmless.rootHash (h : Harmless parse cuts) {leaf : Bytes} {addr : Addr}
    (huncut : [leaf] ∈ cuts) (hleaf : leafOf parse leaf = some addr) {record : TxtRecord}
    (hrecord : record ∈ cuts) : recordHash record = rootHashOf record.flatten := by
  have hflat := h.flat hrecord
  have hfew : (flatOf parse record.flatten).toList.length < enoughAddrs :=
    (length_toList_le _).trans_lt (by decide)
  have hresolve : ∀ hash root, (root.filterMap (flatOf parse)).length < enoughAddrs →
      resolveDnsTree parse
          (some (probe "x" [root] fun b => if b = hash then [[leaf]] else [])) "x" =
        root.filterMap (flatOf parse) ++ (if recordHash root = some hash then [addr] else []) := by
    intro hash root hroot
    rw [resolve_single hash ?_ (by rwa [flatAt_probe]), flatAt_probe, rootHashAt_probe,
      leavesAt_probe]
    · simp [hleaf]
    · intro b hb
      simp [childrenAt_probe, leavesAt_probe, hb]
  refine Option.ext fun hash => ?_
  have hcut : CutAs cuts (probe "x" [record] fun b => if b = hash then [[leaf]] else []) := by
    refine cutAs_probe (by simpa using hrecord) fun b r hr => ?_
    by_cases hb : b = hash
    · simp only [hb, if_true, List.mem_singleton] at hr
      exact hr ▸ huncut
    · simp [hb] at hr
  have hresult := h _ hcut "x"
  have hjoined : (fun b => ((if b = hash then [[leaf]] else [] : List TxtRecord)).map
      fun record => [record.flatten]) = fun b => if b = hash then [[leaf]] else [] := by
    funext b
    split <;> simp
  have hfew' : ([record.flatten].filterMap (flatOf parse)).length < enoughAddrs := by
    rwa [filterMap_single]
  rw [joined_probe, List.map_singleton, hjoined, hresolve hash record (hflat ▸ hfew),
    hresolve hash [record.flatten] hfew', hflat, filterMap_single, recordHash_single] at hresult
  have hif := List.append_cancel_left hresult
  by_cases hhash : recordHash record = some hash
  · by_cases hhash' : rootHashOf record.flatten = some hash
    · exact iff_of_true hhash hhash'
    · simp [hhash, hhash'] at hif
  · by_cases hhash' : rootHashOf record.flatten = some hash
    · simp [hhash, hhash'] at hif
    · exact iff_of_false hhash hhash'

/-- A root record for the branch r. -/
def rootOfR : Bytes := encode "kintree-root:v1 e=r"

theorem rootHashOf_rootOfR : rootHashOf rootOfR = some "r".toList := by decide +kernel

theorem Harmless.leaves (h : Harmless parse cuts) (huncut : [rootOfR] ∈ cuts) {record : TxtRecord}
    (hrecord : record ∈ cuts) :
    record.filterMap (leafOf parse) = (leafOf parse record.flatten).toList := by
  have hflat : [rootOfR].filterMap (flatOf parse) = [] := by
    simp [flatOf_of_rootHashOf rootHashOf_rootOfR]
  have hresolve : ∀ r : TxtRecord,
      resolveDnsTree parse
          (some (probe "x" [[rootOfR]] fun b => if b = "r".toList then [r] else [])) "x" =
        r.filterMap (leafOf parse) := by
    intro r
    have hfew : ([rootOfR].filterMap (flatOf parse)).length < enoughAddrs := by
      rw [hflat]
      exact (by decide : 0 < enoughAddrs)
    rw [resolve_single "r".toList ?_ (by rwa [flatAt_probe]), flatAt_probe, rootHashAt_probe,
      leavesAt_probe, hflat, recordHash_single, rootHashOf_rootOfR]
    · simp
    · intro b hb
      rw [childrenAt_probe, leavesAt_probe, if_neg hb]
      exact ⟨rfl, rfl⟩
  have hcut : CutAs cuts
      (probe "x" [[rootOfR]] fun b => if b = "r".toList then [record] else []) := by
    refine cutAs_probe (fun r hr => List.mem_singleton.mp hr ▸ huncut) fun b r hr => ?_
    split at hr
    · exact List.mem_singleton.mp hr ▸ hrecord
    · cases hr
  have hresult := h _ hcut "x"
  have hjoined : (fun b => ((if b = "r".toList then [record] else [] : List TxtRecord)).map
      fun record => [record.flatten]) =
        fun b => if b = "r".toList then [[record.flatten]] else [] := by
    funext b
    split <;> rfl
  have hroot : ([rootOfR] : TxtRecord).flatten = rootOfR := List.append_nil _
  rw [joined_probe, List.map_singleton, hroot, hjoined, hresolve, hresolve] at hresult
  rw [hresult, filterMap_single]

/-- A record for the root branch, many leaves for one branch and one for its rival. -/
def rivals (leaf : Bytes) (hash : Str) (record : TxtRecord) (b : Str) (rival : Option Str) :
    Str → List TxtRecord := fun c =>
  if c = hash then [record]
  else if c = b then List.replicate enoughAddrs [leaf]
  else if rival = some c then [[leaf]]
  else []

section

variable {leaf : Bytes} {addr : Addr} {hash b : Str} {root record : TxtRecord} {rival : Option Str}

theorem leavesAt_rivals (hleaf : leafOf parse leaf = some addr) (c : Str) :
    leavesAt parse (probe domain [root] (rivals leaf hash record b rival)) domain c =
      if c = hash then record.filterMap (leafOf parse)
      else if c = b then List.replicate enoughAddrs addr
      else if rival = some c then [addr]
      else [] := by
  rw [leavesAt_probe]
  unfold rivals
  split
  · simp
  · split
    · simp [hleaf]
    · split <;> simp [hleaf]

theorem childrenAt_rivals (hleaf : leafOf parse leaf = some addr) (c : Str) :
    childrenAt (probe domain [root] (rivals leaf hash record b rival)) domain c =
      if c = hash then record.flatMap childrenOf else [] := by
  have hnone := childrenOf_of_leafOf hleaf
  rw [childrenAt_probe]
  unfold rivals
  split
  · simp
  · split
    · simp [hnone]
    · split <;> simp [hnone]

/-- The order in which the branches of a record are visited decides whether the many
leaves are added to those found so far, or to them and the rival's leaf. -/
theorem resolve_rivals (domain : Str) (hleaf : leafOf parse leaf = some addr)
    (hroot : recordHash root = some hash)
    (hbase : (root.filterMap (flatOf parse) ++ record.filterMap (leafOf parse)).length <
      enoughAddrs) {p q : List Str} (horder : branchesAfter hash record = p ++ q)
    (hp : p.length < maxLookups - 1) (hb : b ≠ hash) (hbp : b ∉ p)
    (hrival : ∀ c, rival = some c → c ≠ hash ∧ c ≠ b ∧ c ∉ p) :
    (q.head? = some b →
      (resolveDnsTree parse
          (some (probe domain [root] (rivals leaf hash record b rival))) domain).length =
        (root.filterMap (flatOf parse) ++ record.filterMap (leafOf parse)).length + enoughAddrs) ∧
      (q.head? = rival →
        (resolveDnsTree parse
            (some (probe domain [root] (rivals leaf hash record b rival))) domain).length ≠
          (root.filterMap (flatOf parse) ++ record.filterMap (leafOf parse)).length +
            enoughAddrs) := by
  rw [resolveDnsTree_eq, rootHashAt_probe, hroot]
  set R := probe domain [root] (rivals leaf hash record b rival) with hR
  have hflat : flatAt parse R domain = root.filterMap (flatOf parse) := flatAt_probe _ _
  have hleaves : leavesAt parse R domain hash = record.filterMap (leafOf parse) := by
    rw [hR, leavesAt_rivals hleaf, if_pos rfl]
  have hfresh : fresh [hash] (childrenAt R domain hash).reverse = p ++ q := by
    rw [hR, childrenAt_rivals hleaf, if_pos rfl]
    exact horder
  have hsilent : ∀ c ∈ p, childrenAt R domain c = [] ∧ leavesAt parse R domain c = [] := by
    intro c hc
    have hmem : c ∈ branchesAfter hash record := horder ▸ List.mem_append_left _ hc
    have hcroot : c ≠ hash := by simpa using ((mem_fresh_iff _ _ c).mp hmem).2
    have hcb : c ≠ b := fun heq => hbp (heq ▸ hc)
    have hcrival : rival ≠ some c := fun heq => (hrival c heq).2.2 hc
    rw [hR, childrenAt_rivals hleaf, leavesAt_rivals hleaf]
    simp [hcroot, hcb, hcrival]
  have hmany : (leavesAt parse R domain b).length = enoughAddrs := by
    rw [hR, leavesAt_rivals hleaf, if_neg hb, if_pos rfl, List.length_replicate]
  rw [← hflat, ← hleaves] at hbase ⊢
  constructor
  · intro hhead
    obtain ⟨q', rfl⟩ := List.head?_eq_some_iff.mp hhead
    exact length_reached hfresh hp hsilent hbase hmany
  · intro hhead
    refine length_not_reached hfresh hp hsilent hbase hmany hb hbp ?_ ?_ ?_
    · intro heq
      exact (hrival b (hhead ▸ heq)).2.1 rfl
    · intro c hc
      obtain ⟨hcroot, hcb, -⟩ := hrival c (hhead ▸ hc)
      rw [hR, leavesAt_rivals hleaf, if_neg hcroot, if_neg hcb, if_pos (hhead ▸ hc)]
      rfl
    · intro c hcroot hcb hc
      rw [hhead] at hc
      rw [hR, leavesAt_rivals hleaf, if_neg hcroot, if_neg hcb, if_neg hc]

/-- Two records that list their branches in different orders are told apart. -/
theorem rivals_differ {root' record' : TxtRecord} (hleaf : leafOf parse leaf = some addr)
    (hroot : recordHash root = some hash) (hroot' : recordHash root' = some hash)
    (hflat : root'.filterMap (flatOf parse) = root.filterMap (flatOf parse))
    (hleaves : record'.filterMap (leafOf parse) = record.filterMap (leafOf parse))
    (hbase : (root.filterMap (flatOf parse) ++ record.filterMap (leafOf parse)).length <
      enoughAddrs) {p q q' : List Str} (hp : p.length < maxLookups - 1)
    (horder : branchesAfter hash record = p ++ b :: q)
    (horder' : branchesAfter hash record' = p ++ q') (hhead : q'.head? ≠ some b) :
    resolveDnsTree parse (some (probe domain [root] (rivals leaf hash record b q'.head?))) domain ≠
      resolveDnsTree parse
        (some (probe domain [root'] (rivals leaf hash record' b q'.head?))) domain := by
  have hnodup : (p ++ b :: q).Nodup := horder ▸ nodup_fresh _ _
  have hnodup' : (p ++ q').Nodup := horder' ▸ nodup_fresh _ _
  have hnew : ∀ c r, c ∈ branchesAfter hash r → c ≠ hash := by
    intro c r hc
    simpa using ((mem_fresh_iff _ _ c).mp hc).2
  have hb : b ≠ hash := hnew b record (horder ▸ by simp)
  have hbp : b ∉ p := fun hmem => (List.nodup_append.mp hnodup).2.2 b hmem b List.mem_cons_self rfl
  have hrival : ∀ c, q'.head? = some c → c ≠ hash ∧ c ≠ b ∧ c ∉ p := by
    intro c hc
    have hcq : c ∈ q' := List.mem_of_head? hc
    refine ⟨hnew c record' (horder' ▸ List.mem_append_right p hcq), ?_, ?_⟩
    · rintro rfl
      exact hhead hc
    · exact fun hmem => (List.nodup_append.mp hnodup').2.2 c hmem c hcq rfl
  have hreached := (resolve_rivals domain hleaf hroot hbase horder hp hb hbp hrival).1 rfl
  rw [← hflat, ← hleaves] at hbase hreached
  have hnot := (resolve_rivals domain hleaf hroot' hbase horder' hp hb hbp hrival).2 rfl
  intro heq
  rw [heq] at hreached
  exact hnot hreached

theorem joined_rivals (c : Str) :
    (rivals leaf hash record b rival c).map (fun record => [record.flatten]) =
      rivals leaf hash [record.flatten] b rival c := by
  unfold rivals
  split
  · rfl
  · split
    · simp
    · split <;> simp

theorem cutAs_rivals (huncut : [leaf] ∈ cuts) (hroot : root ∈ cuts) (hrecord : record ∈ cuts) :
    CutAs cuts (probe domain [root] (rivals leaf hash record b rival)) := by
  refine cutAs_probe (fun r hr => List.mem_singleton.mp hr ▸ hroot) fun c r hr => ?_
  unfold rivals at hr
  split at hr
  · exact List.mem_singleton.mp hr ▸ hrecord
  · split at hr
    · exact List.eq_of_mem_replicate hr ▸ huncut
    · split at hr
      · exact List.mem_singleton.mp hr ▸ huncut
      · cases hr

end

theorem Harmless.branches (h : Harmless parse cuts) {leaf : Bytes} {addr : Addr}
    (huncut : [leaf] ∈ cuts) (hleaf : leafOf parse leaf = some addr) (hrootOfR : [rootOfR] ∈ cuts)
    {root record : TxtRecord} (hroot : root ∈ cuts) (hrecord : record ∈ cuts) {hash : Str}
    (hhash : recordHash root = some hash) :
    (branchesAfter hash record).take (maxLookups - 1) =
      (branchesAfter hash [record.flatten]).take (maxLookups - 1) := by
  by_contra hdiffer
  obtain ⟨p, b, q, q', hp, hhead, horder⟩ := first_difference hdiffer
  have hresult := h _ (cutAs_rivals huncut hroot hrecord :
    CutAs cuts (probe "x" [root] (rivals leaf hash record b q'.head?))) "x"
  rw [joined_probe, List.map_singleton, funext joined_rivals] at hresult
  have hhash' : recordHash [root.flatten] = some hash := by
    rw [recordHash_single, ← h.rootHash huncut hleaf hroot, hhash]
  have hflat : [root.flatten].filterMap (flatOf parse) = root.filterMap (flatOf parse) := by
    rw [filterMap_single, h.flat hroot]
  have hleaves : [record.flatten].filterMap (leafOf parse) = record.filterMap (leafOf parse) := by
    rw [filterMap_single, h.leaves hrootOfR hrecord]
  have hbase : (root.filterMap (flatOf parse) ++ record.filterMap (leafOf parse)).length <
      enoughAddrs := by
    have hflats := length_toList_le (flatOf parse root.flatten)
    have hleaf := length_toList_le (leafOf parse record.flatten)
    have hmany : 2 < enoughAddrs := by decide
    rw [List.length_append, h.flat hroot, h.leaves hrootOfR hrecord]
    omega
  rcases horder with ⟨horder, horder'⟩ | ⟨horder, horder'⟩
  · exact rivals_differ hleaf hhash hhash' hflat hleaves hbase hp horder horder' hhead hresult
  · rw [← hflat, ← hleaves] at hbase
    exact rivals_differ hleaf hhash' hhash hflat.symm hleaves.symm hbase hp horder horder' hhead
      hresult.symm

/-- Cutting in the given ways, of which delivering a text that fits as one string is one,
changes no result exactly when every record cut so reads as a whole. -/
theorem harmless_iff (huncut : ∀ s : Bytes, s.length ≤ 255 → [s] ∈ cuts)
    (hleaf : ∃ (s : Bytes) (addr : Addr), s.length ≤ 255 ∧ leafOf parse s = some addr) :
    Harmless parse cuts ↔ ∀ record ∈ cuts, ReadsWhole parse cuts record := by
  obtain ⟨leaf, addr, hlength, hleaf⟩ := hleaf
  have hroot : [rootOfR] ∈ cuts := huncut rootOfR (by decide +kernel)
  constructor
  · intro h record hrecord
    exact
      { flat := h.flat hrecord
        rootHash := h.rootHash (huncut leaf hlength) hleaf hrecord
        branches := fun root hmem hash hhash =>
          h.branches (huncut leaf hlength) hleaf hroot hmem hrecord hhash
        leaves := h.leaves hroot hrecord }
  · intro hwhole answers hcut domain
    exact resolve_joined hcut hwhole

theorem readsWhole_single (s : Bytes) : ReadsWhole parse cuts [s] := by
  have hs : ([s] : TxtRecord).flatten = s := List.append_nil s
  exact
    { flat := by rw [hs, filterMap_single]
      rootHash := by rw [hs, recordHash_single]
      branches := fun _ _ _ _ => by rw [hs]
      leaves := by rw [hs, filterMap_single] }

/-- A root record that is cut behind its hash. -/
def cutBehindHash : TxtRecord := [encode "kintree-root:v1 e=r", encode " l=q"]

/-- The ways of cutting that allow this cut and no other. -/
def oneCut : Set TxtRecord :=
  {record | record = cutBehindHash ∨ ∃ s : Bytes, s.length ≤ 255 ∧ record = [s]}

theorem harmless_oneCut : Harmless sampleParse oneCut := by
  have huncut : ∀ s : Bytes, s.length ≤ 255 → [s] ∈ oneCut := fun s hs => Or.inr ⟨s, hs, rfl⟩
  have hleaf : ∃ (s : Bytes) (addr : Str), s.length ≤ 255 ∧ leafOf sampleParse s = some addr :=
    ⟨encode "kintree-leaf:/ip4/192.0.2.2/tcp/4001", "/ip4/192.0.2.2/tcp/4001", by decide +kernel,
      by decide +kernel⟩
  refine (harmless_iff huncut hleaf).mpr ?_
  rintro record (rfl | ⟨s, -, rfl⟩)
  · have hchildren : cutBehindHash.flatMap childrenOf = [] := by decide +kernel
    have hchildren' : [cutBehindHash.flatten].flatMap childrenOf = [] := by decide +kernel
    exact
      { flat := by decide +kernel
        rootHash := by decide +kernel
        branches := fun _ _ _ _ => by rw [branchesAfter, branchesAfter, hchildren, hchildren']
        leaves := by decide +kernel }
  · exact readsWhole_single s

/-- Hashes of 52 characters, as many as one of 256 bits takes. -/
def longHash (c : Char) : Str := List.replicate 52 c

/-- Five hashes do not fit into a string of 255 bytes. -/
def branchText : Bytes :=
  encode (branchTag ++ longHash 'a' ++ ',' :: longHash 'b' ++ ',' :: longHash 'c' ++
    ',' :: longHash 'd' ++ ',' :: longHash 'e')

def cutTree : Resolver := fun name =>
  if name = "seed".toList then some [[encode "kintree-root:v1 e=r"]]
  else if name = "r.seed".toList then some [[branchText.take 255, branchText.drop 255]]
  else if name = longHash 'e' ++ ".seed".toList then
    some [[encode "kintree-leaf:/ip4/192.0.2.2/tcp/4001"]]
  else none

/-- The fifth hash of the record is lost when its text is cut after 255 bytes. -/
theorem cut_loses_branch :
    (∀ name records, cutTree name = some records → ∀ record ∈ records, ∀ s ∈ record,
      s.length ≤ 255) ∧
      resolveDnsTree sampleParse (some cutTree) "seed" = [] ∧
      resolveDnsTree sampleParse (some (joined cutTree)) "seed" =
        ["/ip4/192.0.2.2/tcp/4001".toList] := by
  refine ⟨?_, ?_, ?_⟩
  · intro name records hrecords
    unfold cutTree at hrecords
    split at hrecords
    · obtain rfl := Option.some.inj hrecords
      decide +kernel
    · split at hrecords
      · obtain rfl := Option.some.inj hrecords
        decide +kernel
      · split at hrecords
        · obtain rfl := Option.some.inj hrecords
          decide +kernel
        · cases hrecords
  · rw [resolve_of_treeFor "r" 6 (by decide +kernel) (by decide +kernel)]
    decide +kernel
  · rw [resolve_of_treeFor "r" 6 (by decide +kernel) (by decide +kernel)]
    decide +kernel

end KineticAtlas.DnsCuts
