import Mathlib.Algebra.Order.BigOperators.Group.Finset
import Mathlib.Algebra.Order.Group.Multiset

/-!
Searching a graph with a stack of open nodes and a list of visited ones, where every
node visited gives some values. However a search is cut short, what it has found comes
from distinct reachable nodes; once the stack is empty it comes from all of them.
-/
namespace Library.Search

structure State (N A : Type) where
  stack : List N
  visited : List N
  found : List A

variable {N A : Type} (next : N → List N) (out : N → List A)

/-- The top of the stack is dropped if it was visited before, and visited otherwise;
its successors are pushed in order. -/
inductive Step : State N A → State N A → Prop
  | skip {n : N} {rest visited : List N} {found : List A} :
      n ∈ visited → Step ⟨n :: rest, visited, found⟩ ⟨rest, visited, found⟩
  | visit {n : N} {rest visited : List N} {found : List A} :
      n ∉ visited →
        Step ⟨n :: rest, visited, found⟩
          ⟨(next n).reverse ++ rest, n :: visited, found ++ out n⟩

inductive Reachable (root : N) : N → Prop
  | root : Reachable root root
  | child {n m : N} : Reachable root n → m ∈ next n → Reachable root m

/-- What every state of a search from the root satisfies. -/
structure Searches (root : N) (found₀ : List A) (s : State N A) : Prop where
  root_met : root ∈ s.visited ∨ root ∈ s.stack
  reachable : ∀ n, n ∈ s.visited ∨ n ∈ s.stack → Reachable next root n
  closed : ∀ n ∈ s.visited, ∀ m ∈ next n, m ∈ s.visited ∨ m ∈ s.stack
  nodup : s.visited.Nodup
  found_perm : s.found.Perm (found₀ ++ s.visited.flatMap out)

variable {next out} {root : N} {found₀ : List A} {s s' : State N A}

theorem searches_init (root : N) (found₀ : List A) :
    Searches next out root found₀ ⟨[root], [], found₀⟩ where
  root_met := Or.inr List.mem_cons_self
  reachable n hn := by
    obtain rfl : n = root := by simpa using hn
    exact Reachable.root
  closed n hn := by simp at hn
  nodup := List.nodup_nil
  found_perm := by simp

theorem Searches.step (h : Searches next out root found₀ s) (hstep : Step next out s s') :
    Searches next out root found₀ s' := by
  cases hstep with
  | @skip n rest visited found hn =>
    have hdrop : ∀ m, m ∈ visited ∨ m ∈ n :: rest → m ∈ visited ∨ m ∈ rest := by
      intro m hm
      rcases hm with hm | hm
      · exact Or.inl hm
      · rcases List.mem_cons.mp hm with rfl | hm
        · exact Or.inl hn
        · exact Or.inr hm
    exact
      { root_met := hdrop root h.root_met
        reachable := fun m hm => h.reachable m (hm.imp_right (List.mem_cons_of_mem n))
        closed := fun k hk m hm => hdrop m (h.closed k hk m hm)
        nodup := h.nodup
        found_perm := h.found_perm }
  | @visit n rest visited found hn =>
    have hmove : ∀ m, m ∈ visited ∨ m ∈ n :: rest →
        m ∈ n :: visited ∨ m ∈ (next n).reverse ++ rest := by
      intro m hm
      rcases hm with hm | hm
      · exact Or.inl (List.mem_cons_of_mem n hm)
      · rcases List.mem_cons.mp hm with rfl | hm
        · exact Or.inl List.mem_cons_self
        · exact Or.inr (List.mem_append_right _ hm)
    have hreach : Reachable next root n := h.reachable n (Or.inr List.mem_cons_self)
    refine ⟨hmove root h.root_met, fun m hm => ?_, fun k hk m hm => ?_,
      List.nodup_cons.mpr ⟨hn, h.nodup⟩, ?_⟩
    · simp only [List.mem_cons, List.mem_append, List.mem_reverse] at hm
      rcases hm with (rfl | hm) | hm | hm
      · exact hreach
      · exact h.reachable m (Or.inl hm)
      · exact Reachable.child hreach hm
      · exact h.reachable m (Or.inr (List.mem_cons_of_mem n hm))
    · rcases List.mem_cons.mp hk with rfl | hk
      · exact Or.inr (List.mem_append_left _ (List.mem_reverse.mpr hm))
      · exact hmove m (h.closed k hk m hm)
    · have hfound := h.found_perm.append_right (out n)
      refine hfound.trans ?_
      rw [List.flatMap_cons, List.append_assoc]
      exact (List.perm_append_comm).append_left found₀

/-- With nothing left open the nodes visited are those that can be reached. -/
theorem Searches.complete (h : Searches next out root found₀ s) (hempty : s.stack = []) (n : N) :
    n ∈ s.visited ↔ Reachable next root n := by
  have hopen : ∀ m, m ∈ s.visited ∨ m ∈ s.stack → m ∈ s.visited := by
    simp [hempty]
  refine ⟨fun hn => h.reachable n (Or.inl hn), fun hn => ?_⟩
  induction hn with
  | root => exact hopen _ h.root_met
  | child _ hm ih => exact hopen _ (h.closed _ ih _ hm)

variable [DecidableEq N]

theorem sum_out (ns : List N) (hns : ns.Nodup) :
    ∑ n ∈ ns.toFinset, (out n : Multiset A) = (ns.flatMap out : Multiset A) := by
  induction ns with
  | nil => rfl
  | cons n rest ih =>
    obtain ⟨hn, hrest⟩ := List.nodup_cons.mp hns
    have hnew : n ∉ rest.toFinset := by simpa using hn
    rw [List.toFinset_cons, Finset.sum_insert hnew, ih hrest, List.flatMap_cons]
    exact Multiset.coe_add _ _

theorem Searches.found_eq (h : Searches next out root found₀ s) :
    (s.found : Multiset A) = found₀ + ∑ n ∈ s.visited.toFinset, (out n : Multiset A) := by
  rw [sum_out _ h.nodup, Multiset.coe_add]
  exact Multiset.coe_eq_coe.mpr h.found_perm

variable {nodes : Finset N}

theorem Searches.subset (h : Searches next out root found₀ s)
    (hnodes : ∀ n, n ∈ nodes ↔ Reachable next root n) : s.visited.toFinset ⊆ nodes := by
  intro n hn
  exact (hnodes n).mpr (h.reachable n (Or.inl (List.mem_toFinset.mp hn)))

theorem Searches.found_of_empty (h : Searches next out root found₀ s)
    (hnodes : ∀ n, n ∈ nodes ↔ Reachable next root n) (hempty : s.stack = []) :
    (s.found : Multiset A) = found₀ + ∑ n ∈ nodes, (out n : Multiset A) := by
  have hall : s.visited.toFinset = nodes := by
    ext n
    rw [List.mem_toFinset, h.complete hempty, hnodes]
  rw [h.found_eq, hall]

/-- As many nodes as there are have been visited. -/
theorem Searches.found_of_visited (h : Searches next out root found₀ s)
    (hnodes : ∀ n, n ∈ nodes ↔ Reachable next root n) (hmany : nodes.card ≤ s.visited.length) :
    (s.found : Multiset A) = found₀ + ∑ n ∈ nodes, (out n : Multiset A) := by
  have hcard : nodes.card ≤ s.visited.toFinset.card := by
    rwa [List.toFinset_card_of_nodup h.nodup]
  rw [h.found_eq, Finset.eq_of_subset_of_card_le (h.subset hnodes) hcard]

/-- As many values as there are have been found, so the nodes left out have none. -/
theorem Searches.found_of_found (h : Searches next out root found₀ s)
    (hnodes : ∀ n, n ∈ nodes ↔ Reachable next root n)
    (hmany : found₀.length + ∑ n ∈ nodes, (out n).length ≤ s.found.length) :
    (s.found : Multiset A) = found₀ + ∑ n ∈ nodes, (out n : Multiset A) := by
  have hle : s.found ≤ found₀ + ∑ n ∈ nodes, (out n : Multiset A) := by
    rw [h.found_eq]
    exact add_le_add_right (Finset.sum_le_sum_of_subset (h.subset hnodes)) _
  refine Multiset.eq_of_le_of_card_le hle ?_
  have hcard : (∑ n ∈ nodes, (out n : Multiset A)).card = ∑ n ∈ nodes, (out n).length := by
    simp
  simpa [hcard] using hmany

/-- What a stack still yields: its nodes not visited before, each at its first occurrence. -/
def fresh (visited : List N) : List N → List N
  | [] => []
  | n :: rest => if n ∈ visited then fresh visited rest else n :: fresh (n :: visited) rest

theorem mem_fresh_iff (visited stack : List N) (m : N) :
    m ∈ fresh visited stack ↔ m ∈ stack ∧ m ∉ visited := by
  induction stack generalizing visited with
  | nil => simp [fresh]
  | cons n rest ih =>
    unfold fresh
    split
    · rename_i hn
      rw [ih, List.mem_cons]
      constructor
      · exact fun ⟨hm, hnew⟩ => ⟨Or.inr hm, hnew⟩
      · rintro ⟨rfl | hm, hnew⟩
        · exact absurd hn hnew
        · exact ⟨hm, hnew⟩
    · rename_i hn
      rw [List.mem_cons, ih, List.mem_cons, List.mem_cons]
      by_cases hm : m = n
      · simp [hm, hn]
      · simp [hm]

theorem nodup_fresh (visited stack : List N) : (fresh visited stack).Nodup := by
  induction stack generalizing visited with
  | nil => exact List.nodup_nil
  | cons n rest ih =>
    unfold fresh
    split
    · exact ih visited
    · refine List.nodup_cons.mpr ⟨?_, ih (n :: visited)⟩
      simp [mem_fresh_iff]

/-- Having visited more only leaves nodes out. -/
theorem fresh_of_subset {before visited : List N} (h : before ⊆ visited) (stack : List N) :
    fresh visited stack = (fresh before stack).filter (· ∉ visited) := by
  induction stack generalizing before visited with
  | nil => rfl
  | cons n rest ih =>
    by_cases hbefore : n ∈ before
    · rw [fresh, fresh, if_pos (h hbefore), if_pos hbefore]
      exact ih h
    · by_cases hn : n ∈ visited
      · rw [fresh, fresh, if_pos hn, if_neg hbefore, List.filter_cons_of_neg (by simpa using hn)]
        exact ih (List.cons_subset.mpr ⟨hn, h⟩)
      · rw [fresh, fresh, if_neg hn, if_neg hbefore, List.filter_cons_of_pos (by simpa using hn),
          ih (List.cons_subset_cons n h)]
        congr 1
        refine List.filter_congr fun m hm => ?_
        have hne : m ≠ n := fun heq => ((mem_fresh_iff _ _ m).mp hm).2 (heq ▸ List.mem_cons_self)
        simp [hne]

theorem fresh_append (visited stack more : List N) :
    fresh visited (stack ++ more) =
      fresh visited stack ++ (fresh visited more).filter (· ∉ stack) := by
  induction stack generalizing visited with
  | nil => simp [fresh]
  | cons n rest ih =>
    have hfilter : ∀ m ∈ fresh visited more, m ≠ n →
        decide (m ∉ rest) = decide (m ∉ n :: rest) := by
      intro m _ hne
      simp [hne]
    by_cases hn : n ∈ visited
    · rw [List.cons_append, fresh, fresh, if_pos hn, if_pos hn, ih]
      congr 1
      refine List.filter_congr fun m hm => hfilter m hm ?_
      exact fun heq => ((mem_fresh_iff _ _ m).mp hm).2 (heq ▸ hn)
    · rw [List.cons_append, fresh, fresh, if_neg hn, if_neg hn, ih, List.cons_append,
        fresh_of_subset (List.subset_cons_self n visited) more, List.filter_filter]
      congr 2
      refine List.filter_congr fun m hm => ?_
      have hnew := ((mem_fresh_iff _ _ m).mp hm).2
      simp [hnew, Bool.and_comm]

/-- Leaving out `left` nodes, the first `n` that remain are among the first `left + n`. -/
theorem take_filter_notMem {nodes left : List N} (hnodes : nodes.Nodup) {n k : ℕ}
    (hk : left.length + n ≤ k) :
    (nodes.filter (· ∉ left)).take n = ((nodes.take k).filter (· ∉ left)).take n := by
  by_cases hshort : nodes.length ≤ k
  · rw [List.take_of_length_le hshort]
  · have hin : ((nodes.take k).filter (· ∈ left)).length ≤ left.length := by
      have hnodup : (nodes.take k).Nodup := hnodes.sublist (List.take_sublist k nodes)
      refine (List.subperm_of_subset (hnodup.filter _) fun m hm => ?_).length_le
      simpa using (List.mem_filter.mp hm).2
    have hsplit := List.length_eq_length_filter_add (l := nodes.take k) (fun m => decide (m ∈ left))
    have hmany : n ≤ ((nodes.take k).filter (· ∉ left)).length := by
      have hlen : (nodes.take k).length = k := List.length_take_of_le (by omega)
      have hnot : (nodes.take k).filter (fun m => !decide (m ∈ left)) =
          (nodes.take k).filter (· ∉ left) := by simp
      rw [hnot] at hsplit
      omega
    conv_lhs => rw [← List.take_append_drop k nodes, List.filter_append]
    exact List.take_append_of_le_length hmany

/-- What a stack yields first is determined by what is pushed and by what is below it,
both as far as the visits may go. The nodes of `before` had been visited all along. -/
theorem take_fresh_append {before left visited pushed pushed' below below' : List N} {n k : ℕ}
    (hvisited : ∀ m, m ∈ visited ↔ m ∈ left ∨ m ∈ before)
    (hpushed : (fresh before pushed).take k = (fresh before pushed').take k)
    (hbelow : (fresh visited below).take n = (fresh visited below').take n)
    (hk : left.length + n ≤ k) :
    (fresh visited (pushed ++ below)).take n = (fresh visited (pushed' ++ below')).take n := by
  have hsubset : before ⊆ visited := fun m hm => (hvisited m).mpr (Or.inr hm)
  have hfresh : ∀ stack, fresh visited stack = (fresh before stack).filter (· ∉ left) := by
    intro stack
    rw [fresh_of_subset hsubset stack]
    refine List.filter_congr fun m hm => ?_
    have hnew := ((mem_fresh_iff _ _ m).mp hm).2
    simp [hvisited, hnew]
  have happend : ∀ stack more, fresh visited (stack ++ more) =
      fresh visited stack ++ (fresh visited more).filter (· ∉ fresh visited stack) := by
    intro stack more
    rw [fresh_append]
    congr 1
    refine List.filter_congr fun m hm => ?_
    have hnew := ((mem_fresh_iff _ _ m).mp hm).2
    simp [mem_fresh_iff, hnew]
  have htop : (fresh visited pushed).take n = (fresh visited pushed').take n := by
    rw [hfresh, hfresh, take_filter_notMem (nodup_fresh _ _) hk,
      take_filter_notMem (nodup_fresh _ _) hk, hpushed]
  rw [happend, happend]
  by_cases hlong : n ≤ (fresh visited pushed).length
  · have hlong' : n ≤ (fresh visited pushed').length := by
      have hlen := congrArg List.length htop
      simp only [List.length_take] at hlen
      omega
    rw [List.take_append_of_le_length hlong, List.take_append_of_le_length hlong', htop]
  · have hsame : fresh visited pushed' = fresh visited pushed := by
      have hlen := congrArg List.length htop
      simp only [List.length_take] at hlen
      rwa [List.take_of_length_le (by omega), List.take_of_length_le (by omega), eq_comm] at htop
    rw [hsame, List.take_append, List.take_append]
    congr 1
    have hle : (fresh visited pushed).length + (n - (fresh visited pushed).length) ≤ n := by omega
    rw [take_filter_notMem (nodup_fresh _ _) hle, take_filter_notMem (nodup_fresh _ _) hle, hbelow]

/-- A node that comes first is left out once it is visited. -/
theorem fresh_cons_visited {visited stack others : List N} {b : N}
    (h : fresh visited stack = b :: others) : fresh (b :: visited) stack = others := by
  have hnodup : (b :: others).Nodup := h ▸ nodup_fresh visited stack
  rw [fresh_of_subset (List.subset_cons_self b visited), h,
    List.filter_cons_of_neg (by simp), List.filter_eq_self]
  intro m hm
  have hnew : m ∉ visited := ((mem_fresh_iff visited stack m).mp (h ▸ List.mem_cons_of_mem b hm)).2
  have hne : m ≠ b := fun heq => (List.nodup_cons.mp hnodup).1 (heq ▸ hm)
  simp [hnew, hne]

/-- The first `n` nodes visited from a stack on. -/
def visits (next : N → List N) : ℕ → List N → List N → List N
  | 0, _, _ => []
  | n + 1, visited, stack =>
    match fresh visited stack with
    | [] => []
    | b :: _ => b :: visits next n (b :: visited) ((next b).reverse ++ stack)

/-- What was visited before does not count on a stack. -/
theorem visits_congr {visited stack stack' : List N} (n : ℕ)
    (h : fresh visited stack = fresh visited stack') :
    visits next n visited stack = visits next n visited stack' := by
  induction n generalizing visited stack stack' with
  | zero => rfl
  | succ n ih =>
    unfold visits
    rw [← h]
    cases hfresh : fresh visited stack with
    | nil => rfl
    | cons b others =>
      have hrest : fresh (b :: visited) stack = fresh (b :: visited) stack' := by
        rw [fresh_cons_visited hfresh, fresh_cons_visited (h.symm.trans hfresh)]
      have hsame : fresh (b :: visited) ((next b).reverse ++ stack) =
          fresh (b :: visited) ((next b).reverse ++ stack') := by
        rw [fresh_append, fresh_append, hrest]
      simp only
      rw [ih hsame]

/-- Batches are taken as long as there are not enough values. -/
def fill (enough : ℕ) : List A → List (List A) → List A
  | found, [] => found
  | found, batch :: rest =>
    if enough ≤ found.length then found else fill enough (found ++ batch) rest

theorem fill_enough {enough : ℕ} {found : List A} (h : enough ≤ found.length)
    (batches : List (List A)) : fill enough found batches = found := by
  cases batches with
  | nil => rfl
  | cons batch rest => rw [fill, if_pos h]

/-- No batch takes the number of values from below `cap` to above it. -/
def FillsExactly (cap : ℕ) (batches : List (List A)) : Prop :=
  ∀ k < batches.length, (batches.take k).flatten.length < cap →
    (batches.take (k + 1)).flatten.length ≤ cap

theorem fill_length_le_iff {cap : ℕ} {found : List A} (hfound : found.length ≤ cap)
    (batches : List (List A)) :
    (fill cap found batches).length ≤ cap ↔
      ∀ k < batches.length, found.length + (batches.take k).flatten.length < cap →
        found.length + (batches.take (k + 1)).flatten.length ≤ cap := by
  induction batches generalizing found with
  | nil => simp [fill, hfound]
  | cons batch rest ih =>
    by_cases henough : cap ≤ found.length
    · rw [fill_enough henough]
      exact iff_of_true hfound fun k _ hless => by omega
    rw [fill, if_neg henough]
    by_cases hfits : (found ++ batch).length ≤ cap
    · rw [ih hfits]
      rw [List.length_append] at hfits ⊢
      constructor
      · intro h k hk hless
        cases k with
        | zero => simpa using hfits
        | succ k =>
          have hrest := h k (by simpa using hk)
          simp only [List.take_succ_cons, List.flatten_cons, List.length_append] at hless ⊢
          omega
      · intro h k hk hless
        have hrest := h (k + 1) (by simpa using hk)
        simp only [List.take_succ_cons, List.flatten_cons, List.length_append] at hrest ⊢
        omega
    · rw [fill_enough (by omega)]
      refine iff_of_false hfits fun h => hfits ?_
      have hfirst := h 0 (by simp) (by simpa using henough)
      simpa using hfirst

theorem fill_nil_length_le_iff (cap : ℕ) (batches : List (List A)) :
    (fill cap [] batches).length ≤ cap ↔ FillsExactly cap batches := by
  have hnone : ([] : List A).length ≤ cap := Nat.zero_le cap
  simpa [FillsExactly] using fill_length_le_iff hnone batches

end Library.Search
