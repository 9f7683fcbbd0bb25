import Mathlib.Data.List.Perm.Basic
import Mathlib.Logic.Function.Basic

/-!
Tables filled entry by entry, where the first entry of a key keeps it. The table is
the lookup in the list of entries, and it does not depend on their order exactly
when no two entries give one key different values.
-/
namespace Library.FirstWins

variable {K V N : Type}

/-- No two entries disagree on a key. -/
def Consistent (es : List (K × V)) : Prop :=
  ∀ k v v', (k, v) ∈ es → (k, v') ∈ es → v = v'

theorem Consistent.perm {es es' : List (K × V)} (h : Consistent es) (hperm : es'.Perm es) :
    Consistent es' := fun k v v' hv hv' =>
  h k v v' (hperm.mem_iff.mp hv) (hperm.mem_iff.mp hv')

variable [BEq K] [LawfulBEq K]

theorem mem_of_lookup {es : List (K × V)} {k : K} {v : V} (h : es.lookup k = some v) :
    (k, v) ∈ es := by
  obtain ⟨before, after, rfl, -⟩ := List.lookup_eq_some_iff.mp h
  simp

theorem Consistent.lookup_iff {es : List (K × V)} (h : Consistent es) (k : K) (v : V) :
    es.lookup k = some v ↔ (k, v) ∈ es := by
  refine ⟨mem_of_lookup, fun hmem => ?_⟩
  cases hlookup : es.lookup k with
  | none =>
    have hne := List.lookup_eq_none_iff.mp hlookup (k, v) hmem
    simp at hne
  | some v' => rw [h k v v' hmem (mem_of_lookup hlookup)]

theorem Consistent.lookup_perm {es es' : List (K × V)} (h : Consistent es)
    (hperm : es'.Perm es) (k : K) : es'.lookup k = es.lookup k := by
  apply Option.ext
  intro v
  rw [(h.perm hperm).lookup_iff, h.lookup_iff, hperm.mem_iff]

/-- Entries are read off a list of names, some of which have none. -/
theorem lookup_order_iff [DecidableEq N] (entry : N → Option (K × V)) (names : List N) :
    (∀ names' : List N, names'.Perm names →
        ∀ k, (names'.filterMap entry).lookup k = (names.filterMap entry).lookup k) ↔
      Consistent (names.filterMap entry) := by
  constructor
  · intro horder k v v' hv hv'
    -- each of the two names can come first, and then its value is the one found
    have hfirst : ∀ w, (k, w) ∈ names.filterMap entry →
        (names.filterMap entry).lookup k = some w := by
      intro w hw
      obtain ⟨name, hname, hentry⟩ := List.mem_filterMap.mp hw
      rw [← horder (name :: names.erase name) (List.perm_cons_erase hname).symm k]
      simp [hentry]
    exact Option.some.inj ((hfirst v hv).symm.trans (hfirst v' hv'))
  · intro hconsistent names' hperm k
    exact hconsistent.lookup_perm (hperm.filterMap entry) k

variable [DecidableEq K]

def insertNew (table : K → Option V) (e : K × V) : K → Option V :=
  if (table e.1).isSome then table else Function.update table e.1 (some e.2)

theorem insertNew_apply (table : K → Option V) (e : K × V) (k : K) :
    insertNew table e k = (table k).or ([e].lookup k) := by
  obtain ⟨k', v⟩ := e
  by_cases hk : k = k'
  · subst k'
    cases htable : table k with
    | none => simp [insertNew, htable]
    | some v' => simp [insertNew, htable]
  · have hnone : [(k', v)].lookup k = none := by simp [hk]
    rw [hnone, Option.or_none]
    unfold insertNew
    split
    · rfl
    · exact Function.update_of_ne hk _ _

theorem foldl_insertNew (es : List (K × V)) (table : K → Option V) (k : K) :
    es.foldl insertNew table k = (table k).or (es.lookup k) := by
  induction es generalizing table with
  | nil => simp
  | cons e rest ih =>
    have hsplit : ([e] ++ rest).lookup k = ([e].lookup k).or (rest.lookup k) :=
      List.lookup_append
    rw [List.foldl_cons, ih, insertNew_apply, Option.or_assoc, ← hsplit]
    rfl

/-- A table that is filled step by step, each step with at most one entry, holds under a
key what the first entry of the key had. -/
theorem first_entry_iff (table : ℕ → K → Option V) {entry : ℕ → Option (K × V)}
    (hstart : table 0 = fun _ => none)
    (hstep : ∀ i, table (i + 1) = (entry i).toList.foldl insertNew (table i)) (n : ℕ) (k : K)
    (v : V) :
    table n k = some v ↔ ∃ i < n, entry i = some (k, v) ∧ ∀ j < i, ∀ w, entry j ≠ some (k, w) := by
  induction n generalizing v with
  | zero => simp [hstart]
  | succ n ih =>
    rw [hstep, foldl_insertNew]
    cases htable : table n k with
    | some w =>
      obtain ⟨i, hi, hentry, hfirst⟩ := (ih w).mp htable
      rw [Option.some_or, Option.some.injEq]
      constructor
      · rintro rfl
        exact ⟨i, Nat.lt_succ_of_lt hi, hentry, hfirst⟩
      · rintro ⟨j, hj, hentry', hfirst'⟩
        rcases Nat.lt_trichotomy i j with hij | rfl | hji
        · exact absurd hentry (hfirst' i hij w)
        · rw [hentry, Option.some.injEq, Prod.mk.injEq] at hentry'
          exact hentry'.2
        · exact absurd hentry' (hfirst j hji v)
    | none =>
      have hnone : ∀ i < n, ∀ w, entry i ≠ some (k, w) := by
        intro i hi w hentry
        induction i using Nat.strongRecOn generalizing w with
        | ind i hbefore =>
          have hw := (ih w).mpr ⟨i, hi, hentry, fun j hj w' => hbefore j hj (Nat.lt_trans hj hi) w'⟩
          simp [htable] at hw
      rw [Option.none_or]
      have hnow : (entry n).toList.lookup k = some v ↔ entry n = some (k, v) := by
        cases entry n with
        | none => simp
        | some e =>
          obtain ⟨k', w⟩ := e
          by_cases hk : k = k'
          · simp [hk]
          · have hne : ¬ k' = k := fun heq => hk heq.symm
            have hbeq : (k == k') = false := beq_eq_false_iff_ne.mpr hk
            simp [List.lookup_cons, hbeq, hne]
      rw [hnow]
      constructor
      · intro hentry
        exact ⟨n, Nat.lt_succ_self n, hentry, hnone⟩
      · rintro ⟨i, hi, hentry, -⟩
        rcases Nat.lt_succ_iff_lt_or_eq.mp hi with hlt | rfl
        · exact absurd hentry (hnone i hlt v)
        · exact hentry

end Library.FirstWins
