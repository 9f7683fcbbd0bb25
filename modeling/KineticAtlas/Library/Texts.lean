import Mathlib.Data.List.Infix
import Mathlib.Data.List.DropRight
import Mathlib.Logic.Function.Iterate

/-!
Texts as lists of characters, with the few string operations of the Rust and
Python standard libraries that programs about delimited text rest on. Splitting
and joining at one character are the list operations of the core library; this
module adds repeated suffix trimming, stripping at both ends and line reading.
-/
namespace Library.Texts

abbrev Str := List Char

abbrev Bytes := List UInt8

instance : Coe String Str := ⟨String.toList⟩

/-- Texts are compared character by character. -/
instance lawfulBEqStr : LawfulBEq Str := inferInstance

/-- Drop matching characters at both ends. -/
def trim (p : Char → Bool) (s : Str) : Str := (s.dropWhile p).rdropWhile p

/-- Remove the suffix once, or leave the text as it is. -/
def stripSuffixOnce (pat s : Str) : Str :=
  if pat <:+ s then s.take (s.length - pat.length) else s

/-- `str::trim_end_matches`: the suffix is removed for as long as it is there.
Each removal of a non-empty pattern shortens the text, so its length is fuel enough. -/
def trimEndMatches (pat s : Str) : Str := (stripSuffixOnce pat)^[s.length] s

theorem stripSuffixOnce_append (pat s : Str) : stripSuffixOnce pat (s ++ pat) = s := by
  simp [stripSuffixOnce]

theorem stripSuffixOnce_of_not_suffix (pat s : Str) (h : ¬ pat <:+ s) :
    stripSuffixOnce pat s = s := by
  simp [stripSuffixOnce, h]

theorem trimEndMatches_of_not_suffix (pat s : Str) (h : ¬ pat <:+ s) :
    trimEndMatches pat s = s :=
  Function.iterate_fixed (stripSuffixOnce_of_not_suffix pat s h) _

/-- After as many rounds as the text is long, another round changes nothing. -/
theorem stripSuffixOnce_iterate_fixed (pat : Str) (hpat : pat ≠ []) (n : ℕ) (s : Str)
    (hs : s.length ≤ n) :
    stripSuffixOnce pat ((stripSuffixOnce pat)^[n] s) = (stripSuffixOnce pat)^[n] s := by
  induction n generalizing s with
  | zero =>
    have hnil : s = [] := List.length_eq_zero_iff.mp (Nat.le_zero.mp hs)
    subst s
    exact stripSuffixOnce_of_not_suffix pat [] (by simpa using hpat)
  | succ n ih =>
    rw [Function.iterate_succ_apply]
    by_cases h : pat <:+ s
    · obtain ⟨t, rfl⟩ := h
      rw [stripSuffixOnce_append]
      have hpos : 0 < pat.length := List.length_pos_iff.mpr hpat
      exact ih t (by simp only [List.length_append] at hs; omega)
    · rw [stripSuffixOnce_of_not_suffix pat s h]
      have hfix : (stripSuffixOnce pat)^[n] s = s :=
        Function.iterate_fixed (stripSuffixOnce_of_not_suffix pat s h) n
      rw [hfix]
      exact stripSuffixOnce_of_not_suffix pat s h

/-- Trimming forgets one appended copy of the pattern. -/
theorem trimEndMatches_append (pat s : Str) (hpat : pat ≠ []) :
    trimEndMatches pat (s ++ pat) = trimEndMatches pat s := by
  have hpos : 0 < pat.length := List.length_pos_iff.mpr hpat
  have hlen : (s ++ pat).length = (pat.length - 1) + s.length + 1 := by
    simp only [List.length_append]
    omega
  unfold trimEndMatches
  rw [hlen, Function.iterate_succ_apply, stripSuffixOnce_append, Function.iterate_add_apply]
  exact Function.iterate_fixed (stripSuffixOnce_iterate_fixed pat hpat _ s (Nat.le_refl _)) _

theorem trimEndMatches_append_copies (pat s : Str) (hpat : pat ≠ []) (k : ℕ) :
    trimEndMatches pat (s ++ (List.replicate k pat).flatten) = trimEndMatches pat s := by
  induction k with
  | zero => simp
  | succ k ih =>
    rw [List.replicate_succ', List.flatten_append, List.flatten_singleton, ← List.append_assoc,
      trimEndMatches_append pat _ hpat]
    exact ih

/-- What is trimmed off are copies of the pattern. -/
theorem eq_trimEndMatches_append (pat s : Str) :
    ∃ k, s = trimEndMatches pat s ++ (List.replicate k pat).flatten := by
  suffices h : ∀ n, ∃ k, s = (stripSuffixOnce pat)^[n] s ++ (List.replicate k pat).flatten from
    h s.length
  intro n
  induction n with
  | zero => exact ⟨0, by simp⟩
  | succ n ih =>
    obtain ⟨k, hk⟩ := ih
    rw [Function.iterate_succ_apply']
    by_cases h : pat <:+ (stripSuffixOnce pat)^[n] s
    · obtain ⟨t, ht⟩ := h
      refine ⟨k + 1, ?_⟩
      rw [← ht, stripSuffixOnce_append, List.replicate_succ, List.flatten_cons,
        ← List.append_assoc, ht]
      exact hk
    · rw [stripSuffixOnce_of_not_suffix pat _ h]
      exact ⟨k, hk⟩

theorem trimEndMatches_eq_self_iff (pat s : Str) (hpat : pat ≠ []) :
    trimEndMatches pat s = s ↔ ¬ pat <:+ s := by
  constructor
  · rintro heq ⟨t, rfl⟩
    rw [trimEndMatches_append pat t hpat] at heq
    obtain ⟨k, hk⟩ := eq_trimEndMatches_append pat t
    have hlen := congrArg List.length (hk.trans (congrArg (· ++ _) heq))
    have hpos : 0 < pat.length := List.length_pos_iff.mpr hpat
    simp only [List.length_append] at hlen
    omega
  · exact trimEndMatches_of_not_suffix pat s

/-- A text that holds the character is cut at its last occurrence. -/
theorem exists_last_piece {c : Char} {s : Str} (h : c ∈ s) :
    ∃ before piece, s = before ++ c :: piece ∧ c ∉ piece := by
  obtain ⟨front, back, hs, hc⟩ := List.eq_append_cons_of_mem (List.mem_reverse.mpr h)
  refine ⟨back.reverse, front.reverse, ?_, by simpa using hc⟩
  have hrev := congrArg List.reverse hs
  simpa using hrev

/-- Splitting at a character takes the last piece off the split of the rest. -/
theorem splitOn_last_piece {c : Char} {piece : Str} (before : Str) (h : c ∉ piece) :
    (before ++ c :: piece).splitOn c = before.splitOn c ++ [piece] := by
  rw [List.splitOn_append_cons_self, List.splitOn_eq_singleton h]

/-- `str::trim_start_matches`, the mirror image. -/
def trimStartMatches (pat s : Str) : Str := (trimEndMatches pat.reverse s.reverse).reverse

/-- The text before the first occurrence of the pattern, and the text after it. -/
def splitOnce (pat : Str) : Str → Option (Str × Str)
  | [] => if pat = [] then some ([], []) else none
  | c :: rest =>
    if pat <+: c :: rest then some ([], (c :: rest).drop pat.length)
    else (splitOnce pat rest).map fun parts => (c :: parts.1, parts.2)

/-- The first word of a text, if it has one (`split_whitespace().next()`). -/
def firstWord (isSpace : Char → Bool) (s : Str) : Option Str :=
  match (s.dropWhile isSpace).takeWhile fun c => !isSpace c with
  | [] => none
  | word => some word

/-- `str::split_whitespace`. -/
def words (isSpace : Char → Bool) (s : Str) : List Str := (s.splitOnP isSpace).filter (· ≠ [])

variable {p : Char → Bool} {c : Char}

theorem words_append_cons (hc : p c = true) (s t : Str) :
    words p (s ++ c :: t) = words p s ++ words p t := by
  rw [words, List.splitOnP_append_cons _ _ hc, List.filter_append]
  rfl

theorem words_cons (hc : p c = true) (s : Str) : words p (c :: s) = words p s :=
  words_append_cons hc [] s

theorem words_singleton {s : Str} (hs : ∀ c ∈ s, p c = false) (hne : s ≠ []) :
    words p s = [s] := by
  rw [words, List.splitOnP_eq_singleton hs]
  simp [hne]

/-- A text that does not begin with a blank begins with a word. -/
theorem words_of_head {s : Str} (hc : p c = false) :
    words p (c :: s) = (c :: s).takeWhile (fun d => !p d) ::
      words p ((c :: s).dropWhile fun d => !p d) := by
  have hword : ∀ d ∈ (c :: s).takeWhile (fun d => !p d), p d = false := by
    intro d hd
    simpa using List.mem_takeWhile_imp hd
  have hne : (c :: s).takeWhile (fun d => !p d) ≠ [] := by simp [hc]
  have hsplit := List.takeWhile_append_dropWhile (p := fun d => !p d) (l := c :: s)
  cases hrest : (c :: s).dropWhile fun d => !p d with
  | nil =>
    rw [hrest, List.append_nil] at hsplit
    rw [hsplit] at hword hne ⊢
    rw [words_singleton hword hne]
    rfl
  | cons d rest =>
    have hd : p d = true := by
      have hhead := List.head?_dropWhile_not (fun d => !p d) (c :: s)
      simpa [hrest] using hhead
    rw [words_cons hd]
    conv_lhs => rw [← hsplit, hrest, words_append_cons hd, words_singleton hword hne]
    rfl

/-- No word has a blank in it. -/
theorem not_space_of_mem_words {s word : Str} (h : word ∈ words p s) : ∀ d ∈ word, p d = false := by
  have hpieces : ∀ piece ∈ s.splitOnP p, ∀ d ∈ piece, p d = false := by
    clear h
    induction s with
    | nil => simp
    | cons c rest ih =>
      rw [List.splitOnP_cons_eq_if_modifyHead]
      by_cases hc : p c = true
      · simpa [hc] using ih
      · cases hsplit : rest.splitOnP p with
        | nil => exact absurd hsplit (List.splitOnP_ne_nil p rest)
        | cons piece pieces =>
          rw [hsplit] at ih
          simpa [hc] using ih
  exact hpieces word (List.mem_filter.mp h).1

theorem firstWord_cons (hc : p c = false) (s : Str) :
    firstWord p (c :: s) = some ((c :: s).takeWhile fun d => !p d) := by
  rw [firstWord, List.dropWhile_cons_of_neg (by simp [hc]),
    List.takeWhile_cons_of_pos (by simp [hc])]

theorem takeWhile_append_cons (hc : p c = false) (s t : Str) :
    (s ++ c :: t).takeWhile p = s.takeWhile p := by
  induction s with
  | nil => exact List.takeWhile_cons_of_neg (by simp [hc])
  | cons d s ih =>
    rw [List.cons_append, List.takeWhile_cons, List.takeWhile_cons, ih]

theorem eq_of_splitOnce {pat s before after : Str} (h : splitOnce pat s = some (before, after)) :
    s = before ++ (pat ++ after) := by
  induction s generalizing before with
  | nil =>
    unfold splitOnce at h
    split at h
    · rename_i hpat
      cases h
      rw [hpat]
      rfl
    · cases h
  | cons c rest ih =>
    unfold splitOnce at h
    split at h
    · rename_i hpat
      cases h
      obtain ⟨t, ht⟩ := hpat
      rw [← ht, List.drop_left, List.nil_append]
    · obtain ⟨parts, hparts, heq⟩ := Option.map_eq_some_iff.mp h
      cases heq
      rw [List.cons_append, ← ih hparts]

theorem trim_cons_of_pos (hc : p c = true) (s : Str) : trim p (c :: s) = trim p s := by
  simp [trim, hc]

theorem trim_concat_of_pos (hc : p c = true) (s : Str) : trim p (s ++ [c]) = trim p s := by
  simp only [trim, List.dropWhile_append]
  split
  · rename_i hs
    have hnil : s.dropWhile p = [] := by simpa using hs
    simp [hnil, hc]
  · exact List.rdropWhile_concat_pos p _ c hc

theorem trim_sublist (p : Char → Bool) (s : Str) : List.Sublist (trim p s) s :=
  ((List.rdropWhile_prefix p _).sublist).trans (List.dropWhile_sublist p)

theorem trim_trim (p : Char → Bool) (s : Str) : trim p (trim p s) = trim p s := by
  unfold trim
  cases hs : s.dropWhile p with
  | nil => rfl
  | cons a t =>
    have ha : p a = false := by
      have hhead := List.head?_dropWhile_not p s
      simpa [hs] using hhead
    cases hr : List.rdropWhile p (a :: t) with
    | nil => rfl
    | cons b u =>
      obtain ⟨v, hv⟩ : b :: u <+: a :: t := hr ▸ List.rdropWhile_prefix p (a :: t)
      obtain rfl : b = a := (List.cons.inj hv).1
      rw [List.dropWhile_cons_of_neg (by simp [ha]), ← hr]
      exact List.rdropWhile_idempotent p _

theorem trim_of_ends {d : Char} (hc : p c = false) (hd : p d = false) (s : Str) :
    trim p (c :: s ++ [d]) = c :: s ++ [d] := by
  rw [trim, List.cons_append, List.dropWhile_cons_of_neg (by simp [hc]), ← List.cons_append]
  exact List.rdropWhile_concat_neg p (c :: s) d (by simp [hd])

theorem rdropWhile_append_cons (hc : p c = false) (s u : Str) :
    (s ++ c :: u).rdropWhile p = s ++ c :: u.rdropWhile p := by
  induction u using List.reverseRecOn with
  | nil => simpa using List.rdropWhile_concat_neg p s c (by simp [hc])
  | append_singleton u d ih =>
    rw [← List.cons_append, ← List.append_assoc, List.rdropWhile_concat, List.rdropWhile_concat]
    split
    · exact ih
    · simp

/-- Trimming at the end stops at the last character that does not match. -/
theorem prefix_rdropWhile (hc : p c = false) (s u : Str) :
    s ++ [c] <+: (s ++ [c] ++ u).rdropWhile p := by
  rw [List.append_assoc, List.singleton_append, rdropWhile_append_cons hc]
  exact ⟨u.rdropWhile p, by simp⟩

theorem prefix_of_prefix_append_cons {pat s t : Str} (h : pat <+: s ++ c :: t) (hc : c ∉ pat) :
    pat <+: s := by
  rcases List.prefix_or_prefix_of_prefix h (List.prefix_append s (c :: t)) with hpat | ⟨u, rfl⟩
  · exact hpat
  · cases u with
    | nil => simp
    | cons d u =>
      obtain ⟨v, hv⟩ := h
      obtain rfl : d = c := by simpa using congrArg List.head? (List.append_cancel_left
        ((List.append_assoc s (d :: u) v).symm.trans hv))
      exact absurd (by simp) hc

/-- Lowering the case moves the capital letters of ASCII and nothing else. -/
theorem toLower_cases (c : Char) :
    c.toLower = c ∨ (65 ≤ c.toNat ∧ c.toNat ≤ 90 ∧ c.toLower.toNat = c.toNat + 32) := by
  unfold Char.toLower
  split
  · rename_i hupper
    have hlow : 65 ≤ c.val.toNat := by simpa [UInt32.le_iff_toNat_le] using hupper.1
    have hhigh : c.val.toNat ≤ 90 := by simpa [UInt32.le_iff_toNat_le] using hupper.2
    refine Or.inr ⟨hlow, hhigh, ?_⟩
    show (c.val + 32).toNat = c.val.toNat + 32
    have hshift : (32 : UInt32).toNat = 32 := rfl
    rw [UInt32.toNat_add]
    omega
  · exact Or.inl rfl

theorem toLower_toLower (c : Char) : c.toLower.toLower = c.toLower := by
  rcases toLower_cases c with hsame | ⟨hlow, hhigh, hshift⟩
  · rw [hsame, hsame]
  · rcases toLower_cases c.toLower with hlower | ⟨hlow', hhigh', -⟩
    · exact hlower
    · omega

theorem toLower_eq_iff {d : Char} (hd : d.toNat < 65 ∨ 122 < d.toNat) :
    c.toLower = d ↔ c = d := by
  rcases toLower_cases c with hsame | ⟨hlow, hhigh, hshift⟩
  · rw [hsame]
  · constructor <;> intro heq <;> rw [← heq] at hd <;> omega

/-- `str.isspace` of Python. -/
def isPythonSpace (c : Char) : Bool :=
  let n := c.toNat
  (9 ≤ n ∧ n ≤ 13) ∨ (0x1C ≤ n ∧ n ≤ 0x20) ∨ n = 0x85 ∨ n = 0xA0 ∨ n = 0x1680 ∨
    (0x2000 ≤ n ∧ n ≤ 0x200A) ∨ n = 0x2028 ∨ n = 0x2029 ∨ n = 0x202F ∨ n = 0x205F ∨ n = 0x3000

/-- `str.strip()` of Python. -/
def strip (s : Str) : Str := trim isPythonSpace s

/-- Reading in text mode turns every line end into a line feed. -/
def universalNewlines : Str → Str
  | [] => []
  | '\r' :: '\n' :: rest => '\n' :: universalNewlines rest
  | c :: rest => (if c = '\r' then '\n' else c) :: universalNewlines rest

theorem universalNewlines_of_no_return (s : Str) (h : '\r' ∉ s) : universalNewlines s = s := by
  induction s using universalNewlines.induct with
  | case1 => rfl
  | case2 rest ih => simp at h
  | case3 c rest hne ih =>
    have hc : c ≠ '\r' := fun heq => h (by simp [heq])
    rw [universalNewlines, if_neg hc, ih fun hmem => h (List.mem_cons_of_mem c hmem)]
    exact hne

theorem mem_intercalate {sep : Str} {ls : List Str} {c : Char} (h : c ∈ sep.intercalate ls) :
    c ∈ sep ∨ ∃ l ∈ ls, c ∈ l := by
  induction ls with
  | nil => simp at h
  | cons l rest ih =>
    cases rest with
    | nil => exact Or.inr ⟨l, by simp, by simpa using h⟩
    | cons m rest =>
      rw [List.intercalate_cons_cons] at h
      rcases List.mem_append.mp h with hleft | hright
      · rcases List.mem_append.mp hleft with hl | hsep
        · exact Or.inr ⟨l, by simp, hl⟩
        · exact Or.inl hsep
      · rcases ih hright with hsep | ⟨l', hl', hc⟩
        · exact Or.inl hsep
        · exact Or.inr ⟨l', List.mem_cons_of_mem l hl', hc⟩

theorem mem_intercalate_of_mem {sep l : Str} {ls : List Str} {c : Char} (hl : l ∈ ls)
    (hc : c ∈ l) : c ∈ sep.intercalate ls := by
  induction ls with
  | nil => simp at hl
  | cons m rest ih =>
    rcases List.mem_cons.mp hl with rfl | hl
    · cases rest with
      | nil => simpa using hc
      | cons n rest =>
        rw [List.intercalate_cons_cons, List.append_assoc]
        exact List.mem_append_left _ hc
    · rw [List.intercalate_cons_of_ne_nil (List.ne_nil_of_mem hl)]
      exact List.mem_append_right _ (ih hl)

theorem intercalate_append {sep : Str} {ls ms : List Str} (hls : ls ≠ []) (hms : ms ≠ []) :
    sep.intercalate (ls ++ ms) = sep.intercalate ls ++ sep ++ sep.intercalate ms := by
  induction ls with
  | nil => exact absurd rfl hls
  | cons l rest ih =>
    cases rest with
    | nil => simp [List.intercalate_cons_of_ne_nil hms]
    | cons m rest =>
      have hrec := ih (List.cons_ne_nil m rest)
      simp only [List.cons_append, List.intercalate_cons_cons, List.append_assoc] at hrec ⊢
      rw [hrec]

/-- An empty last part only adds a separator. -/
theorem intercalate_concat (c : Char) (ls : List Str) (hne : ls ≠ []) :
    [c].intercalate (ls ++ [[]]) = [c].intercalate ls ++ [c] := by
  rw [intercalate_append hne (List.cons_ne_nil [] [])]
  simp

/-- Lines joined with a final line feed are lines each ended by one. -/
theorem intercalate_newline_end (ls : List Str) :
    ['\n'].intercalate (ls ++ [[]]) = ls.flatMap fun l => l ++ ['\n'] := by
  induction ls with
  | nil => rfl
  | cons l rest ih =>
    cases rest with
    | nil => simp
    | cons m rest =>
      simp only [List.cons_append, List.intercalate_cons_cons, List.flatMap_cons,
        List.append_assoc] at ih ⊢
      rw [ih]

/-- Splitting a joined text splits its parts. -/
theorem splitOn_intercalate_flatMap (c : Char) (parts : List Str) (hne : parts ≠ []) :
    ([c].intercalate parts).splitOn c = parts.flatMap fun part => part.splitOn c := by
  induction parts with
  | nil => exact absurd rfl hne
  | cons part rest ih =>
    cases rest with
    | nil => simp
    | cons next rest =>
      rw [List.intercalate_cons_cons, List.append_assoc, List.singleton_append,
        List.splitOn_append_cons_self, ih (List.cons_ne_nil next rest)]
      rfl

end Library.Texts
