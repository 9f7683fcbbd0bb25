import Mathlib.Data.List.Nodup
import Mathlib.Data.List.Count
import Mathlib.Logic.Function.Basic

/-!
Obligations kept in a keyed table. A token is taken once; it is then either
stored under a key, to be answered when that key is settled, or refused, that is
answered on the spot. Storing under an occupied key silently drops the token that
was there. The accounting theorem says that nothing else can go wrong: the books stay
full exactly as long as no occupied key is stored to, and with full books every
token is pending under its own key alone or has been answered exactly once.
-/
namespace Library.Ledgers

/-- The pending table with its history: tokens stored (with their keys), tokens
refused, and the answers given. -/
structure Ledger (K T A : Type*) where
  pending : K → Option T
  stored : List (K × T)
  refused : List T
  answers : List (T × A)

variable {K T A : Type*}

namespace Ledger

def empty : Ledger K T A := ⟨fun _ => none, [], [], []⟩

def tokens (L : Ledger K T A) : List T := L.stored.map Prod.snd ++ L.refused

def Answered (L : Ledger K T A) (t : T) : Prop := t ∈ L.answers.map Prod.fst

def refuse (L : Ledger K T A) (t : T) (a : A) : Ledger K T A :=
  { L with refused := L.refused ++ [t], answers := L.answers ++ [(t, a)] }

variable [DecidableEq K]

def store (L : Ledger K T A) (k : K) (t : T) : Ledger K T A :=
  { L with pending := Function.update L.pending k (some t), stored := L.stored ++ [(k, t)] }

/-- Settling a key that holds nothing changes nothing. -/
def settle (L : Ledger K T A) (k : K) (a : A) : Ledger K T A :=
  match L.pending k with
  | none => L
  | some t =>
    { L with pending := Function.update L.pending k none, answers := L.answers ++ [(t, a)] }

omit [DecidableEq K] in
/-- What holds whatever is stored where: a pending token sits under its own key and
is unanswered, and an answer meets the requirement `P` of its token's key. -/
structure Sound (P : K → A → Prop) (L : Ledger K T A) : Prop where
  tokens_nodup : L.tokens.Nodup
  pending_stored : ∀ k t, L.pending k = some t → (k, t) ∈ L.stored
  pending_unanswered : ∀ k t, L.pending k = some t → ¬ L.Answered t
  answers_nodup : (L.answers.map Prod.fst).Nodup
  answered_taken : ∀ t, L.Answered t → t ∈ L.tokens
  refused_answered : ∀ t ∈ L.refused, L.Answered t
  answers_meet : ∀ k t a, (k, t) ∈ L.stored → (t, a) ∈ L.answers → P k a

/-- No stored token has been lost. -/
def Full (L : Ledger K T A) : Prop :=
  ∀ k t, (k, t) ∈ L.stored → L.pending k = some t ∨ L.Answered t

variable {P : K → A → Prop} {L : Ledger K T A}

omit [DecidableEq K] in
theorem sound_empty : (empty : Ledger K T A).Sound P where
  tokens_nodup := by simp [tokens, empty]
  pending_stored k t h := by simp [empty] at h
  pending_unanswered k t h := by simp [empty] at h
  answers_nodup := by simp [empty]
  answered_taken t h := by simp [Answered, empty] at h
  refused_answered t h := by simp [empty] at h
  answers_meet k t a h := by simp [empty] at h

omit [DecidableEq K] in
theorem full_empty : (empty : Ledger K T A).Full := by
  intro k t h
  simp [empty] at h

omit [DecidableEq K] in
/-- A token has one key. -/
theorem Sound.key_unique (h : L.Sound P) {k k' : K} {t : T}
    (hk : (k, t) ∈ L.stored) (hk' : (k', t) ∈ L.stored) : k = k' := by
  have hnodup : (L.stored.map Prod.snd).Nodup := (List.nodup_append.mp h.tokens_nodup).1
  have heq := List.inj_on_of_nodup_map hnodup hk hk' rfl
  exact congrArg Prod.fst heq

omit [DecidableEq K] in
theorem Sound.not_answered_of_new (h : L.Sound P) {t : T} (ht : t ∉ L.tokens) : ¬ L.Answered t :=
  fun ha => ht (h.answered_taken t ha)

omit [DecidableEq K] in
theorem ne_of_new {k : K} {t t' : T} (ht : t ∉ L.tokens) (hs : (k, t') ∈ L.stored) : t' ≠ t := by
  rintro rfl
  exact ht (List.mem_append_left _ (List.mem_map_of_mem (f := Prod.snd) hs))

omit [DecidableEq K] in
/-- A first answer to a token leaves the answers without repetition. -/
theorem Sound.nodup_answer (h : L.Sound P) {t : T} {a : A} (ht : ¬ L.Answered t) :
    ((L.answers ++ [(t, a)]).map Prod.fst).Nodup := by
  rw [List.map_append, List.nodup_append]
  refine ⟨h.answers_nodup, by simp, fun t' ht' u hu => ?_⟩
  obtain rfl : u = t := by simpa using hu
  rintro rfl
  exact ht ht'

theorem Sound.store (h : L.Sound P) {k : K} {t : T} (ht : t ∉ L.tokens) :
    (L.store k t).Sound P where
  tokens_nodup := by
    have hperm : (L.store k t).tokens.Perm (t :: L.tokens) := by
      simp [tokens, Ledger.store]
    exact hperm.nodup_iff.mpr (List.nodup_cons.mpr ⟨ht, h.tokens_nodup⟩)
  pending_stored k' t' hp := by
    by_cases hk : k' = k
    · subst k'
      obtain rfl : t = t' := by simpa [Ledger.store] using hp
      simp [Ledger.store]
    · have hold : L.pending k' = some t' := by simpa [Ledger.store, hk] using hp
      simpa [Ledger.store] using Or.inl (h.pending_stored k' t' hold)
  pending_unanswered k' t' hp := by
    by_cases hk : k' = k
    · subst k'
      obtain rfl : t = t' := by simpa [Ledger.store] using hp
      exact h.not_answered_of_new ht
    · exact h.pending_unanswered k' t' (by simpa [Ledger.store, hk] using hp)
  answers_nodup := h.answers_nodup
  answered_taken t' ha := by
    have hold := h.answered_taken t' ha
    simp only [tokens, Ledger.store, List.map_append, List.mem_append] at hold ⊢
    tauto
  refused_answered := h.refused_answered
  answers_meet k' t' a hs ha := by
    have hs' : (k', t') ∈ L.stored ∨ (k', t') = (k, t) := by simpa [Ledger.store] using hs
    rcases hs' with hold | hnew
    · exact h.answers_meet k' t' a hold ha
    · obtain ⟨rfl, rfl⟩ := Prod.mk.inj hnew
      exact absurd (List.mem_map_of_mem ha) (h.not_answered_of_new ht)

omit [DecidableEq K] in
theorem answered_refuse {t t' : T} {a : A} :
    (L.refuse t a).Answered t' ↔ L.Answered t' ∨ t' = t := by
  simp [Answered, refuse]

omit [DecidableEq K] in
theorem Sound.refuse (h : L.Sound P) {t : T} {a : A} (ht : t ∉ L.tokens) :
    (L.refuse t a).Sound P where
  tokens_nodup := by
    have hperm : (L.refuse t a).tokens.Perm (t :: L.tokens) := by
      simp [tokens, Ledger.refuse, ← List.append_assoc]
    exact hperm.nodup_iff.mpr (List.nodup_cons.mpr ⟨ht, h.tokens_nodup⟩)
  pending_stored := h.pending_stored
  pending_unanswered k t' hp := by
    rw [answered_refuse]
    rintro (hold | hnew)
    · exact h.pending_unanswered k t' hp hold
    · exact ne_of_new ht (h.pending_stored k t' hp) hnew
  answers_nodup := h.nodup_answer (h.not_answered_of_new ht)
  answered_taken t' ha := by
    rcases answered_refuse.mp ha with hold | rfl
    · have := h.answered_taken t' hold
      simp only [tokens, Ledger.refuse, List.mem_append] at this ⊢
      tauto
    · simp [tokens, Ledger.refuse]
  refused_answered t' hr := by
    rw [answered_refuse]
    have hr' : t' ∈ L.refused ∨ t' = t := by simpa [Ledger.refuse] using hr
    exact hr'.imp_left (h.refused_answered t')
  answers_meet k t' a' hs ha := by
    have ha' : (t', a') ∈ L.answers ∨ (t', a') = (t, a) := by simpa [Ledger.refuse] using ha
    rcases ha' with hold | hnew
    · exact h.answers_meet k t' a' hs hold
    · obtain ⟨rfl, rfl⟩ := Prod.mk.inj hnew
      exact absurd rfl (ne_of_new ht hs)

theorem settle_of_none {k : K} {a : A} (hk : L.pending k = none) : L.settle k a = L := by
  simp [settle, hk]

theorem settle_of_some {k : K} {t : T} {a : A} (hk : L.pending k = some t) :
    L.settle k a =
      { L with pending := Function.update L.pending k none, answers := L.answers ++ [(t, a)] } := by
  simp [settle, hk]

theorem mem_settle_of_pending {k : K} {t : T} {a : A} (hk : L.pending k = some t) :
    (t, a) ∈ (L.settle k a).answers := by
  simp [settle_of_some hk]

/-- Answers given are kept. -/
theorem mem_answers_settle {k : K} {a : A} {x : T × A} (hx : x ∈ L.answers) :
    x ∈ (L.settle k a).answers := by
  cases hk : L.pending k with
  | none => rwa [settle_of_none hk]
  | some t =>
    rw [settle_of_some hk]
    exact List.mem_append_left _ hx

theorem pending_settle_of_ne {k k' : K} {t : T} {a : A} (hne : k' ≠ k)
    (hk' : L.pending k' = some t) : (L.settle k a).pending k' = some t := by
  cases hk : L.pending k with
  | none => rwa [settle_of_none hk]
  | some t' => simpa [settle_of_some hk, hne] using hk'

theorem Sound.settle (h : L.Sound P) {k : K} {a : A} (ha : P k a) : (L.settle k a).Sound P := by
  cases hk : L.pending k with
  | none => rwa [settle_of_none hk]
  | some t =>
    rw [settle_of_some hk]
    have hstored := h.pending_stored k t hk
    have hnew : ¬ L.Answered t := h.pending_unanswered k t hk
    exact {
      tokens_nodup := h.tokens_nodup
      pending_stored := by
        intro k' t' hp
        by_cases hkk : k' = k
        · simp [hkk] at hp
        · exact h.pending_stored k' t' (by simpa [hkk] using hp)
      pending_unanswered := by
        intro k' t' hp
        by_cases hkk : k' = k
        · simp [hkk] at hp
        · have hold : L.pending k' = some t' := by simpa [hkk] using hp
          have hne : t' ≠ t := by
            rintro rfl
            exact hkk (h.key_unique (h.pending_stored k' t' hold) hstored)
          simpa [Answered, hne] using h.pending_unanswered k' t' hold
      answers_nodup := h.nodup_answer hnew
      answered_taken := by
        intro t' hm
        have hm' : L.Answered t' ∨ t' = t := by simpa [Answered] using hm
        rcases hm' with hold | rfl
        · exact h.answered_taken t' hold
        · exact List.mem_append_left _ (List.mem_map_of_mem hstored)
      refused_answered := by
        intro t' hr
        have hold := h.refused_answered t' hr
        simp only [Answered, List.map_append, List.mem_append] at hold ⊢
        exact Or.inl hold
      answers_meet := by
        intro k' t' a' hs hm
        have hm' : (t', a') ∈ L.answers ∨ (t', a') = (t, a) := by simpa using hm
        rcases hm' with hold | hnow
        · exact h.answers_meet k' t' a' hs hold
        · obtain ⟨rfl, rfl⟩ := Prod.mk.inj hnow
          obtain rfl := h.key_unique hs hstored
          exact ha
    }

/-- Storing keeps the books full exactly when the key was free. -/
theorem Sound.full_store_iff (h : L.Sound P) {k : K} {t : T} (ht : t ∉ L.tokens) :
    (L.store k t).Full ↔ L.Full ∧ L.pending k = none := by
  constructor
  · intro hfull
    have hold : ∀ k' t', (k', t') ∈ L.stored → L.Answered t' ∨ k' ≠ k ∧ L.pending k' = some t' := by
      intro k' t' hs
      rcases hfull k' t' (by simpa [Ledger.store] using Or.inl hs) with hp | ha
      · by_cases hkk : k' = k
        · subst k'
          have heq : t = t' := by simpa [Ledger.store] using hp
          exact absurd heq.symm (ne_of_new ht hs)
        · exact Or.inr ⟨hkk, by simpa [Ledger.store, hkk] using hp⟩
      · exact Or.inl ha
    refine ⟨fun k' t' hs => (hold k' t' hs).elim Or.inr (fun hp => Or.inl hp.2), ?_⟩
    cases hk : L.pending k with
    | none => rfl
    | some t₀ =>
      rcases hold k t₀ (h.pending_stored k t₀ hk) with ha | hp
      · exact absurd ha (h.pending_unanswered k t₀ hk)
      · exact absurd rfl hp.1
  · rintro ⟨hfull, hfree⟩ k' t' hs
    have hs' : (k', t') ∈ L.stored ∨ (k', t') = (k, t) := by simpa [Ledger.store] using hs
    rcases hs' with hold | hnew
    · rcases hfull k' t' hold with hp | ha
      · have hkk : k' ≠ k := by
          rintro rfl
          simp [hfree] at hp
        exact Or.inl (by simpa [Ledger.store, hkk] using hp)
      · exact Or.inr ha
    · obtain ⟨rfl, rfl⟩ := Prod.mk.inj hnew
      exact Or.inl (by simp [Ledger.store])

omit [DecidableEq K] in
theorem Sound.full_refuse_iff (_ : L.Sound P) {t : T} {a : A} (ht : t ∉ L.tokens) :
    (L.refuse t a).Full ↔ L.Full := by
  constructor
  · intro hfull k' t' hs
    rcases hfull k' t' hs with hp | ha
    · exact Or.inl hp
    · exact Or.inr ((answered_refuse.mp ha).resolve_right (ne_of_new ht hs))
  · intro hfull k' t' hs
    exact (hfull k' t' hs).imp_right (fun ha => answered_refuse.mpr (Or.inl ha))

theorem Sound.full_settle_iff (h : L.Sound P) {k : K} {a : A} :
    (L.settle k a).Full ↔ L.Full := by
  cases hk : L.pending k with
  | none => rw [settle_of_none hk]
  | some t =>
    rw [settle_of_some hk]
    have hstored := h.pending_stored k t hk
    constructor
    · intro hfull k' t' hs
      by_cases hkk : k' = k
      · subst k'
        by_cases htt : t' = t
        · exact Or.inl (by rw [hk, htt])
        · rcases hfull k t' hs with hp | ha
          · simp at hp
          · exact Or.inr (by simpa [Answered, htt] using ha)
      · rcases hfull k' t' hs with hp | ha
        · exact Or.inl (by simpa [hkk] using hp)
        · have htt : t' ≠ t := by
            rintro rfl
            exact hkk (h.key_unique hs hstored)
          exact Or.inr (by simpa [Answered, htt] using ha)
    · intro hfull k' t' hs
      rcases hfull k' t' hs with hp | ha
      · by_cases hkk : k' = k
        · subst k'
          obtain rfl : t = t' := by simpa [hk] using hp
          exact Or.inr (by simp [Answered])
        · exact Or.inl (by simpa [hkk] using hp)
      · refine Or.inr ?_
        simp only [Answered, List.map_append, List.mem_append] at ha ⊢
        exact Or.inl ha

omit [DecidableEq K] in
/-- With full books a stored token is pending under its own key and no other, and
unanswered; or it is pending nowhere and has one answer, which meets `P`. -/
theorem Sound.accounted [DecidableEq T] (h : L.Sound P) (hfull : L.Full) {k : K} {t : T}
    (hs : (k, t) ∈ L.stored) :
    ((∀ k', L.pending k' = some t ↔ k' = k) ∧ (L.answers.map Prod.fst).count t = 0) ∨
      ((∀ k', L.pending k' ≠ some t) ∧ (L.answers.map Prod.fst).count t = 1 ∧
        ∃ a, (t, a) ∈ L.answers ∧ P k a) := by
  rcases hfull k t hs with hp | ha
  · refine Or.inl ⟨fun k' => ⟨fun hk' => ?_, fun hk' => hk' ▸ hp⟩, ?_⟩
    · exact h.key_unique (h.pending_stored k' t hk') hs
    · exact List.count_eq_zero_of_not_mem (h.pending_unanswered k t hp)
  · refine Or.inr ⟨fun k' hk' => h.pending_unanswered k' t hk' ha, ?_, ?_⟩
    · exact List.count_eq_one_of_mem h.answers_nodup ha
    · obtain ⟨⟨t', a⟩, hmem, rfl⟩ := List.mem_map.mp ha
      exact ⟨a, hmem, h.answers_meet k t' a hs hmem⟩

omit [DecidableEq K] in
/-- A token that was never taken is neither pending nor answered. -/
theorem Sound.absent [DecidableEq T] (h : L.Sound P) {t : T} (ht : t ∉ L.tokens) :
    (∀ k, L.pending k ≠ some t) ∧ (L.answers.map Prod.fst).count t = 0 := by
  refine ⟨fun k hk => ht ?_, List.count_eq_zero_of_not_mem (h.not_answered_of_new ht)⟩
  exact List.mem_append_left _ (List.mem_map_of_mem (f := Prod.snd) (h.pending_stored k t hk))

end Ledger

end Library.Ledgers
