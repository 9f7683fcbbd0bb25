import KineticAtlas.DnsCuts
import KineticAtlas.SwarmManager

/-!
The limits of the traversal of a tree of DNS records (dns_tree.rs). However the name
servers answer, the loop ends, with at most 20 lookups and none of them repeated. The
limit of 50 addresses is only looked at between two branches: addresses are taken batch
by batch, and it is kept exactly when no batch leads beyond it.
-/
namespace KineticAtlas.DnsLimits

open Library.Texts Library.Search DnsTree DnsAnswers DnsCuts SwarmManager

variable {Addr : Type} {parse : Str → Option Addr} {resolver : Resolver} {domain : Str}
  {s s' : Traversal Addr}

/-- A pass of the loop, where the lookup is carried out in a monad. -/
def visitNextIn {m : Type → Type} [Monad m] (parse : Str → Option Addr)
    (txtLookup : Str → m (Option (List TxtRecord))) (domain : Str) (s : Traversal Addr) :
    m (Option (Traversal Addr)) :=
  match s.branchesToVisit with
  | [] => pure none
  | branchHash :: rest =>
    if s.lookups ≥ maxLookups ∨ s.addrs.length ≥ enoughAddrs then pure none
    else if branchHash ∈ s.visited then pure (some { s with branchesToVisit := rest })
    else do
      let s : Traversal Addr :=
        ⟨rest, branchHash :: s.visited, s.lookups + 1, s.addrs⟩
      match ← txtLookup (branchHash ++ '.' :: domain) with
      | none => pure (some s)
      | some response =>
        pure (some (response.foldl (fun s record => record.foldl (readBranchString parse) s) s))

/-- Name servers that may answer by all the names they were asked for before; each is noted. -/
def noting (answers : List Str → Resolver) (name : Str) :
    StateM (List Str) (Option (List TxtRecord)) :=
  modifyGet fun asked => (answers asked name, asked ++ [name])

/-- The branch that the next pass looks up. -/
def lookupOf (s : Traversal Addr) : Option Str :=
  match s.branchesToVisit with
  | [] => none
  | branchHash :: _ =>
    if s.lookups ≥ maxLookups ∨ s.addrs.length ≥ enoughAddrs ∨ branchHash ∈ s.visited then none
    else some branchHash

/-- It does what a pass of the traversal does, and asks once for the name of the branch that it
looks up and for no other. -/
theorem visitNextIn_noting (answers : List Str → Resolver) (s : Traversal Addr)
    (asked : List Str) :
    (visitNextIn parse (noting answers) domain s).run asked =
      (visitNext parse (answers asked) domain s,
        asked ++ ((lookupOf s).map (· ++ '.' :: domain)).toList) := by
  have hquiet : ∀ next : Option (Traversal Addr),
      (next, asked) = (next, asked ++ ((none : Option Str).map (· ++ '.' :: domain)).toList) := by
    intro next
    simp only [Option.map_none, Option.toList_none, List.append_nil]
  unfold visitNextIn visitNext lookupOf
  cases hstack : s.branchesToVisit with
  | nil => exact hquiet none
  | cons branchHash rest =>
    simp only
    by_cases hstop : s.lookups ≥ maxLookups ∨ s.addrs.length ≥ enoughAddrs
    · rw [if_pos hstop, if_pos hstop, if_pos (by tauto)]
      exact hquiet none
    rw [if_neg hstop, if_neg hstop]
    by_cases hseen : branchHash ∈ s.visited
    · rw [if_pos hseen, if_pos hseen, if_pos (by tauto)]
      exact hquiet (some _)
    rw [if_neg hseen, if_neg hseen, if_neg (by tauto)]
    simp only [noting, Option.map_some, Option.toList_some]
    cases hanswer : answers asked (branchHash ++ '.' :: domain) with
    | none =>
      simp [hanswer]
      rfl
    | some response =>
      simp [hanswer]
      rfl

theorem lookupOf_cases (h : visitNext parse resolver domain s = some s') :
    (lookupOf s = none ∧ s'.visited = s.visited ∧ s'.lookups = s.lookups) ∨
      (∃ b, lookupOf s = some b ∧ b ∉ s.visited ∧ s.lookups < maxLookups ∧
        s'.visited = b :: s.visited ∧ s'.lookups = s.lookups + 1) := by
  obtain ⟨b, rest, hstack, ⟨hseen, rfl⟩ | ⟨hnew, hlookups, haddrs, rfl⟩⟩ := visitNext_cases h
  · exact Or.inl ⟨by simp [lookupOf, hstack, hseen], rfl, rfl⟩
  · have hgo : ¬ (s.lookups ≥ maxLookups ∨ s.addrs.length ≥ enoughAddrs ∨ b ∈ s.visited) := by
      rintro (hmany | hmany | hseen)
      · omega
      · omega
      · exact hnew hseen
    exact Or.inr ⟨b, by simp only [lookupOf, hstack, if_neg hgo], hnew, hlookups, rfl, rfl⟩

theorem lookupOf_of_end (h : visitNext parse resolver domain s = none) : lookupOf s = none := by
  cases hstack : s.branchesToVisit with
  | nil => simp only [lookupOf, hstack]
  | cons b rest =>
    have hstop : s.lookups ≥ maxLookups ∨ s.addrs.length ≥ enoughAddrs := by
      simpa [hstack] using visitNext_none h
    simp only [lookupOf, hstack]
    exact if_pos (by tauto)

/-- A pass makes a lookup or shortens the stack. -/
theorem visitNext_decreases (h : visitNext parse resolver domain s = some s') :
    Prod.Lex (· < ·) (· < ·) (maxLookups - s'.lookups, s'.branchesToVisit.length)
      (maxLookups - s.lookups, s.branchesToVisit.length) := by
  obtain ⟨b, rest, hstack, ⟨-, rfl⟩ | ⟨-, hlookups, -, rfl⟩⟩ := visitNext_cases h
  · exact Prod.Lex.right _ (by simp [hstack])
  · exact Prod.Lex.left _ _ (by simp only; omega)

/-- The traversal before its first pass. -/
def start (root : RootRecords Addr) : Traversal Addr := ⟨root.rootHash.toList, [], 0, root.addrs⟩

/-- The state after a number of passes, if there are so many. -/
def passesIn {m : Type → Type} [Monad m] (parse : Str → Option Addr)
    (txtLookup : Str → m (Option (List TxtRecord))) (domain : Str) (s : Traversal Addr) :
    ℕ → m (Option (Traversal Addr))
  | 0 => pure (some s)
  | n + 1 => do
    match ← passesIn parse txtLookup domain s n with
    | none => pure none
    | some t => visitNextIn parse txtLookup domain t

/-- The state after a number of passes and the names that the DNS was asked for in them. -/
def passes (parse : Str → Option Addr) (answers : List Str → Resolver) (domain : Str)
    (s : Traversal Addr) (n : ℕ) : Option (Traversal Addr) × List Str :=
  (passesIn parse (noting answers) domain s n).run []

variable {answers : List Str → Resolver}

variable (parse answers domain) in
theorem passes_succ (s : Traversal Addr) (n : ℕ) :
    passes parse answers domain s (n + 1) =
      match passes parse answers domain s n with
      | (none, asked) => (none, asked)
      | (some t, asked) =>
        (visitNext parse (answers asked) domain t,
          asked ++ ((lookupOf t).map (· ++ '.' :: domain)).toList) := by
  have hunfold : passes parse answers domain s (n + 1) =
      match passes parse answers domain s n with
      | (none, asked) => (none, asked)
      | (some t, asked) => (visitNextIn parse (noting answers) domain t).run asked := by
    unfold passes
    rw [passesIn, StateT.run_bind]
    rcases (passesIn parse (noting answers) domain s n).run [] with ⟨t | t, asked⟩ <;> rfl
  rw [hunfold]
  rcases passes parse answers domain s n with ⟨t | t, asked⟩
  · rfl
  · exact visitNextIn_noting answers t asked

theorem traversalOf_eq (rootRecords : List TxtRecord) :
    traversalOf parse resolver domain rootRecords =
      traverse parse resolver domain (start (readRootRecords parse rootRecords)) := by
  unfold traversalOf start
  cases hroot : (readRootRecords parse rootRecords).rootHash with
  | none =>
    simp only [hroot, Option.toList_none]
    rw [traverse_of_none (by simp [visitNext])]
  | some hash => simp only [hroot, Option.toList_some]

/-- The branches asked for are the ones counted and remembered. -/
structure Counts (branches : List Str) (s : Traversal Addr) : Prop where
  visited : s.visited = branches.reverse
  lookups : s.lookups = branches.length

variable (parse resolver domain) in
/-- A pass keeps to the budget, and asks for no branch again. -/
theorem counts_step {branches : List Str} (hlen : branches.length ≤ maxLookups)
    (hnodup : branches.Nodup) (hcounts : Counts branches s) :
    (branches ++ (lookupOf s).toList).length ≤ maxLookups ∧
      (branches ++ (lookupOf s).toList).Nodup ∧
      ∀ t, visitNext parse resolver domain s = some t →
        Counts (branches ++ (lookupOf s).toList) t := by
  obtain ⟨hvisited, hlookups⟩ := hcounts
  cases hnext : visitNext parse resolver domain s with
  | none => simpa [lookupOf_of_end hnext] using ⟨hlen, hnodup⟩
  | some t =>
    rcases lookupOf_cases hnext with ⟨hnone, hv, hl⟩ | ⟨b, hb, hnew, hless, hv, hl⟩
    · rw [hnone, Option.toList_none, List.append_nil]
      refine ⟨hlen, hnodup, ?_⟩
      rintro _ ⟨⟩
      exact ⟨hv.trans hvisited, hl.trans hlookups⟩
    · rw [hb, Option.toList_some]
      have hfresh : b ∉ branches := by simpa [hvisited] using hnew
      refine ⟨?_, List.nodup_append'.mpr ⟨hnodup, List.nodup_singleton b, ?_⟩, ?_⟩
      · rw [List.length_append, List.length_singleton]
        omega
      · simpa using hfresh
      · rintro _ ⟨⟩
        constructor
        · rw [hv, hvisited, List.reverse_append, List.reverse_singleton, List.singleton_append]
        · rw [hl, hlookups, List.length_append, List.length_singleton]

variable (parse answers domain) in
/-- The names asked for are those of at most 20 branches, all of them different. -/
theorem passes_asked (s : Traversal Addr) (hs : s.visited = []) (hzero : s.lookups = 0) (n : ℕ) :
    ∃ branches : List Str,
      (passes parse answers domain s n).2 = branches.map (· ++ '.' :: domain) ∧
        branches.length ≤ maxLookups ∧ branches.Nodup ∧
        ∀ t, (passes parse answers domain s n).1 = some t → Counts branches t := by
  induction n with
  | zero =>
    refine ⟨[], rfl, Nat.zero_le _, List.nodup_nil, fun t ht => ?_⟩
    obtain rfl : s = t := Option.some.inj ht
    exact ⟨hs, hzero⟩
  | succ n ih =>
    obtain ⟨branches, hasked, hlen, hnodup, hcounts⟩ := ih
    rw [passes_succ]
    rcases hpasses : passes parse answers domain s n with ⟨t | t, asked⟩
    · rw [hpasses] at hasked
      refine ⟨branches, hasked, hlen, hnodup, ?_⟩
      intro t ht
      cases ht
    · rw [hpasses] at hasked hcounts
      obtain ⟨hlen', hnodup', hcounts'⟩ :=
        counts_step parse (answers asked) domain hlen hnodup (hcounts t rfl)
      refine ⟨_, ?_, hlen', hnodup', hcounts'⟩
      rw [List.map_append, ← hasked]
      cases hlook : lookupOf t <;> simp [hlook]

variable (parse answers domain) in
/-- From every state on the way the loop has an end. -/
theorem passes_end (s : Traversal Addr) (n : ℕ) (t : Traversal Addr) (asked : List Str)
    (h : passes parse answers domain s n = (some t, asked)) :
    ∃ m last asked, passes parse answers domain s m = (some last, asked) ∧
      passes parse answers domain s (m + 1) = (none, asked) := by
  have hwf : WellFounded (Prod.Lex (· < · : ℕ → ℕ → Prop) (· < · : ℕ → ℕ → Prop)) :=
    (Prod.lex Nat.lt_wfRel Nat.lt_wfRel).wf
  generalize hrank : (maxLookups - t.lookups, t.branchesToVisit.length) = rank
  induction rank using hwf.induction generalizing n t asked with
  | _ rank ih =>
    have hpasses := passes_succ parse domain answers s n
    rw [h] at hpasses
    cases hnext : visitNext parse (answers asked) domain t with
    | none =>
      refine ⟨n, t, asked, h, ?_⟩
      simp [hpasses, hnext, lookupOf_of_end hnext]
    | some t' =>
      simp only [hnext] at hpasses
      exact ih _ (hrank ▸ visitNext_decreases hnext) (n + 1) t' _ hpasses rfl

theorem passes_traverse (s : Traversal Addr) (n : ℕ) (t : Traversal Addr)
    (h : (passes parse (fun _ => resolver) domain s n).1 = some t) :
    traverse parse resolver domain t = traverse parse resolver domain s := by
  induction n generalizing t with
  | zero =>
    obtain rfl : s = t := Option.some.inj h
    rfl
  | succ n ih =>
    rw [passes_succ] at h
    rcases hpasses : passes parse (fun _ => resolver) domain s n with ⟨t' | t', asked⟩
    · rw [hpasses] at h
      cases h
    · rw [hpasses] at h ih
      rw [← ih t' rfl, traverse_of_some h]

/-- Discovery ends with the DNS asked for at most 20 branches, each of them once, whatever the
name servers answer and even if they answer by what they were asked before. -/
theorem discovery_within_budget (parse : Str → Option Addr) (answers : List Str → Resolver)
    (domain : Str) (rootRecords : List TxtRecord) :
    (∃ n last asked,
      passes parse answers domain (start (readRootRecords parse rootRecords)) n =
          (some last, asked) ∧
        passes parse answers domain (start (readRootRecords parse rootRecords)) (n + 1) =
          (none, asked) ∧
        ∀ resolver, (∀ before, answers before = resolver) →
          last = traversalOf parse resolver domain rootRecords) ∧
      ∀ n, ∃ branches : List Str,
        (passes parse answers domain (start (readRootRecords parse rootRecords)) n).2 =
            branches.map (· ++ '.' :: domain) ∧
          branches.length ≤ 20 ∧ branches.Nodup := by
  constructor
  · obtain ⟨n, last, asked, hlast, hend⟩ :=
      passes_end parse domain answers (start (readRootRecords parse rootRecords)) 0 _ [] rfl
    refine ⟨n, last, asked, hlast, hend, ?_⟩
    intro resolver hsame
    obtain rfl : answers = fun _ => resolver := funext hsame
    have hnone : visitNext parse resolver domain last = none := by
      simpa [passes_succ, hlast] using congrArg Prod.fst hend
    rw [traversalOf_eq, ← passes_traverse _ n last (congrArg Prod.fst hlast),
      traverse_of_none hnone]
  · intro n
    obtain ⟨branches, hasked, hlen, hnodup, -⟩ :=
      passes_asked parse domain answers (start (readRootRecords parse rootRecords)) rfl rfl n
    exact ⟨branches, hasked, hlen, hnodup⟩

/-- The traversal takes the leaves of the branches in the order of the visits. -/
theorem traverse_addrs (stack visited : List Str) (lookups n : ℕ) (addrs : List Addr)
    (hn : lookups + n = maxLookups) :
    (traverse parse resolver domain ⟨stack, visited, lookups, addrs⟩).addrs =
      fill enoughAddrs addrs ((visits (childrenAt resolver domain) n visited stack).map
        (leavesAt parse resolver domain)) := by
  induction n generalizing stack visited lookups addrs with
  | zero =>
    rw [traverse_stop (Or.inl (by simp only; omega))]
    rfl
  | succ n ih =>
    by_cases henough : enoughAddrs ≤ addrs.length
    · rw [traverse_stop (Or.inr henough), fill_enough henough]
    have hless : lookups < maxLookups := by omega
    unfold visits
    cases hfresh : fresh visited stack with
    | nil => rw [traverse_fresh_nil _ _ _ _ hfresh, List.map_nil, fill]
    | cons b others =>
      obtain ⟨rest, hrest, hnext⟩ :=
        traverse_fresh_cons parse resolver domain hfresh hless (Nat.lt_of_not_le henough)
      have hsame : fresh (b :: visited) ((childrenAt resolver domain b).reverse ++ rest) =
          fresh (b :: visited) ((childrenAt resolver domain b).reverse ++ stack) := by
        rw [fresh_append, fresh_append, hrest, fresh_cons_visited hfresh]
      rw [hnext, ih _ _ _ _ (by omega), List.map_cons, fill, if_neg henough, visits_congr n hsame]

/-- The addresses as they come: the flat ones, and then those of the branches, at most 20 of
them and each below the one that names it. -/
def batches (parse : Str → Option Addr) (resolver : Option Resolver) (domain : Str) :
    List (List Addr) :=
  match resolver with
  | none => []
  | some resolver =>
    flatAt parse resolver domain ::
      (visits (childrenAt resolver domain) maxLookups [] (rootHashAt resolver domain).toList).map
        (leavesAt parse resolver domain)

theorem resolveDnsTree_eq_fill (parse : Str → Option Addr) (resolver : Option Resolver)
    (domain : Str) :
    resolveDnsTree parse resolver domain = fill enoughAddrs [] (batches parse resolver domain) := by
  cases resolver with
  | none => rfl
  | some resolver =>
    rw [resolveDnsTree_eq, batches, fill, if_neg (by simp [enoughAddrs]), List.nil_append]
    cases hroot : rootHashAt resolver domain with
    | none => simp [maxLookups, visits, fresh, fill]
    | some hash => exact traverse_addrs [hash] [] 0 maxLookups _ rfl

/-- Discovery gives at most 50 addresses, and a node gets at most 50 more bootstrap peers
by it, exactly when no batch leads from fewer than 50 addresses to more than 50. -/
theorem discovered_le_cap_iff (parse : Str → Option Addr) (toString : Addr → Str)
    (resolver : Option Resolver) (domain : Str) :
    ((resolveDnsTree parse resolver domain).length ≤ 50 ∧
        ∀ config, config.seedDomain = some domain →
          (withResolved config
              ((resolveDnsTree parse resolver domain).map toString)).bootstrapNodes.length ≤
            config.bootstrapNodes.length + 50) ↔
      FillsExactly 50 (batches parse resolver domain) := by
  have hfill : (resolveDnsTree parse resolver domain).length ≤ 50 ↔
      FillsExactly 50 (batches parse resolver domain) := by
    rw [resolveDnsTree_eq_fill]
    exact fill_nil_length_le_iff enoughAddrs _
  rw [← hfill]
  refine ⟨And.left, fun hle => ⟨hle, fun config hseed => ?_⟩⟩
  simp only [withResolved, hseed, List.length_append, List.length_map]
  omega

/-- A domain without a tree whose record gives the same peer in 51 strings. -/
theorem flat_addrs_exceed :
    ¬ (resolveDnsTree sampleParse
        (some (probe "seed"
          [List.replicate 51 (Library.Utf8.encode "/ip4/192.0.2.1/tcp/4001")] fun _ => []))
        "seed").length ≤ 50 := by
  have hread : flatOf sampleParse (Library.Utf8.encode "/ip4/192.0.2.1/tcp/4001") =
      some "/ip4/192.0.2.1/tcp/4001".toList := by
    decide +kernel
  have hhash : rootHashOf (Library.Utf8.encode "/ip4/192.0.2.1/tcp/4001") = none := by
    decide +kernel
  rw [resolveDnsTree_eq, rootHashAt_probe, flatAt_probe, recordHash,
    List.filterMap_replicate_of_none hhash, List.filterMap_replicate_of_some hread]
  simp only [List.getLast?_nil, List.length_replicate]
  decide

end KineticAtlas.DnsLimits
